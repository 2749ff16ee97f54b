import CellularAutomata.Proofs.Darwin.Turns
import CellularAutomata.Proofs.Darwin.Shown
import Mathlib.Logic.Function.Basic

/-!
# Renaming species

The numbers of species are only names. Whatever an individual does, it compares species with
its own and looks up programs, and both come out the same if all species are renamed at once.
So a tick of a renamed grid is the renamed tick of the grid.
-/

namespace CellularAutomata

/-- A renaming of species keeps them apart, and it keeps the state of empty cells. -/
structure Renaming (f : Nat → Nat) : Prop where
  /-- Different species have different new names. -/
  injective : Function.Injective f
  /-- The state of empty cells keeps its name. -/
  empty : f emptyState = emptyState

/-- An infection that hides the renamed species. -/
def Infection.renamed (f : Nat → Nat) (x : Infection) : Infection :=
  { x with previousSpecies := f x.previousSpecies }

/-- An individual with its infection renamed. -/
def Individual.renamed (f : Nat → Nat) (i : Individual) : Individual :=
  { i with infection := i.infection.map (Infection.renamed f) }

/-- Renamed attributes. -/
def Attributes.renamed (f : Nat → Nat) : Attributes → Attributes
  | .plain => .plain
  | .creature x => .creature x
  | .individual i => .individual (i.renamed f)

/-- A cell with its state and its attributes renamed. -/
def Cell.renamed (f : Nat → Nat) (c : Cell) : Cell :=
  ⟨f c.state, c.location, c.attributes.renamed f⟩

/-- A grid with all its cells renamed. -/
def Grid.renamed (f : Nat → Nat) (g : Grid) : Grid :=
  { g with cells := g.cells.map fun _ c => c.renamed f }

namespace Darwin

/-- A claim with its cell renamed. -/
def Claim.renamed (f : Nat → Nat) (k : Claim) : Claim := { k with cell := k.cell.renamed f }

/-- A view with the cell renamed that is seen. -/
def View.renamed (f : Nat → Nat) : View → View
  | .wall => .wall
  | .empty => .empty
  | .occupied cell => .occupied (cell.renamed f)

/-- Decisions with all claims renamed. -/
def Decisions.renamed (f : Nat → Nat) (d : Decisions) : Decisions :=
  { d with claims := d.claims.map fun _ k => k.renamed f }

/-- An actor with its species and its infection renamed. -/
def Actor.renamed (f : Nat → Nat) (a : Actor) : Actor :=
  { a with species := f a.species, individual := a.individual.renamed f }

/-- Worlds that are the same up to the names of species. -/
structure World.Renames (f : Nat → Nat) (w w' : World) : Prop where
  /-- The settings are the same. -/
  settings : w'.settings = w.settings
  /-- A species has the same program under its new name. -/
  species : ∀ k, w'.species[f k]? = w.species[k]?
  /-- The grid is renamed. -/
  grid : w'.grid = w.grid.renamed f

/-- Stages that are the same up to the names of species, whatever has been reported. -/
structure Stage.Renames {ρ : Type} (f : Nat → Nat) (s s' : Stage ρ) : Prop where
  /-- What has been decided is renamed. -/
  decisions : s'.decisions = s.decisions.renamed f
  /-- Chance has come equally far. -/
  source : s'.source = s.source

/-- States after an instruction that are the same up to the names of species. -/
structure Execution.Renames {ρ : Type} (f : Nat → Nat) (e e' : Execution ρ) : Prop where
  /-- The actor is renamed. -/
  actor : e'.actor = e.actor.renamed f
  /-- So is everything else. -/
  stage : e.stage.Renames f e'.stage
  /-- The same went wrong. -/
  fault : e'.fault = e.fault

end Darwin

variable {f : Nat → Nat}

/-- New names are equal if the old ones are. -/
theorem Renaming.eq_iff (hf : Renaming f) {a b : Nat} : f a = f b ↔ a = b :=
  hf.injective.eq_iff

/-- Only the state of empty cells gets its name. -/
theorem Renaming.eq_empty_iff (hf : Renaming f) {a : Nat} : f a = emptyState ↔ a = emptyState :=
  ⟨fun h => hf.injective (h.trans hf.empty.symm), fun h => h ▸ hf.empty⟩

/-- Renaming keeps cells empty and occupied. -/
theorem Cell.isEmpty_renamed (hf : Renaming f) (c : Cell) :
    (c.renamed f).isEmpty = c.isEmpty := by
  rw [isEmpty, isEmpty, Bool.eq_iff_iff, beq_iff_eq, beq_iff_eq]
  exact hf.eq_empty_iff

/-- The individual of a renamed cell is the renamed individual. -/
theorem Cell.individual?_renamed (c : Cell) :
    (c.renamed f).individual? = c.individual?.map (Individual.renamed f) := by
  obtain ⟨state, location, attributes⟩ := c
  cases attributes <;> rfl

/-- An empty cell stays as it is. -/
theorem Cell.renamed_empty (hf : Renaming f) (l : Location) :
    (Cell.empty l).renamed f = .empty l := by
  rw [renamed, empty, plain, hf.empty]
  rfl

/-- Renaming keeps infected individuals infected and others healthy. -/
theorem Individual.isInfected_renamed (i : Individual) :
    (i.renamed f).isInfected = i.isInfected := by
  rw [isInfected, isInfected, renamed, Option.isSome_map]

namespace Grid

@[simp] theorem cellAt_renamed (g : Grid) (l : Location) :
    (g.renamed f).cellAt l = (g.cellAt l).map (Cell.renamed f) :=
  Std.ExtTreeMap.getElem?_map

@[simp] theorem stateAt_renamed (g : Grid) (l : Location) :
    (g.renamed f).stateAt l = (g.stateAt l).map f := by
  rw [stateAt, stateAt, cellAt_renamed, Option.map_map, Option.map_map]
  rfl

@[simp] theorem resolve_renamed (g : Grid) (l : Location) :
    (g.renamed f).resolve l = g.resolve l := rfl

/-- The cells of a renamed grid are the renamed cells in the same order. -/
theorem cellList_renamed (g : Grid) :
    (g.renamed f).cellList = g.cellList.map (Cell.renamed f) := by
  rw [cellList, cellList, values_eq_map_toList, values_eq_map_toList, renamed,
    Std.ExtTreeMap.toList_map, List.map_map, List.map_map]
  rfl

/-- A position is vacant in a renamed grid if it was in the grid. -/
theorem vacant_renamed (hf : Renaming f) (g : Grid) (l : Location) :
    ((g.renamed f).stateAt l != some emptyState) = (g.stateAt l != some emptyState) := by
  rw [stateAt_renamed]
  cases g.stateAt l with
  | none => rfl
  | some state =>
    rw [Option.map_some, Bool.eq_iff_iff]
    simp only [bne_iff_ne, ne_eq, Option.some.injEq, hf.eq_empty_iff]

end Grid

namespace Darwin

@[simp] theorem Decisions.claim?_renamed (d : Decisions) (l : Location) :
    (d.renamed f).claim? l = (d.claim? l).map (Claim.renamed f) :=
  Std.ExtTreeMap.getElem?_map

@[simp] theorem Decisions.isVacated_renamed (d : Decisions) (l : Location) :
    (d.renamed f).isVacated l = d.isVacated l := rfl

@[simp] theorem Decisions.isFinal_renamed (d : Decisions) (l : Location) :
    (d.renamed f).isFinal l = d.isFinal l := by
  rw [isFinal_eq_isSome_claim?, isFinal_eq_isSome_claim?, claim?_renamed, Option.isSome_map]

@[simp] theorem Decisions.isUnavailable_renamed (d : Decisions) (l : Location) :
    (d.renamed f).isUnavailable l = d.isUnavailable l := by
  rw [isUnavailable, isUnavailable, isFinal_renamed, isVacated_renamed]

/-- The current cell of a renamed grid is the renamed one. -/
theorem Decisions.current_renamed (d : Decisions) (g : Grid) (l : Location) :
    (d.renamed f).current (g.renamed f) l = (d.current g l).map (Cell.renamed f) := by
  rw [current, current, claim?_renamed]
  cases d.claim? l with
  | none => exact g.cellAt_renamed l
  | some k => rfl

/-- What is seen on a renamed grid is what is seen on the grid, renamed. -/
theorem Decisions.view_renamed (hf : Renaming f) (d : Decisions) (g : Grid) (l : Location) :
    (d.renamed f).view (g.renamed f) l = (d.view g l).renamed f := by
  rw [view, view, Grid.resolve_renamed]
  cases g.resolve l with
  | none => rfl
  | some position =>
    dsimp only
    rw [isVacated_renamed, isFinal_renamed, current_renamed]
    split
    next => rfl
    next =>
      cases d.current g position with
      | none => rfl
      | some cell =>
        simp only [Option.map_some, Cell.isEmpty_renamed hf]
        split <;> rfl

/-- Deciding on a renamed occupant is deciding on the occupant. -/
theorem Decisions.occupy_renamed (d : Decisions) (c : Cell) (kind : ClaimKind) :
    (d.renamed f).occupy (c.renamed f) kind = (d.occupy c kind).renamed f := by
  have hclaims : ((d.renamed f).occupy (c.renamed f) kind).claims =
      ((d.occupy c kind).renamed f).claims := by
    refine Std.ExtTreeMap.ext_getElem? fun l => ?_
    change ((d.renamed f).occupy (c.renamed f) kind).claim? l =
      ((d.occupy c kind).renamed f).claim? l
    rw [claim?_renamed, claim?_occupy, claim?_occupy, claim?_renamed]
    change (if c.location = l then _ else _) = _
    split <;> rfl
  rw [occupy, renamed] at hclaims ⊢
  exact congrArg (Decisions.mk · d.vacated) hclaims

/-- Conditions compare a view with the species of the actor, so both may be renamed. -/
theorem Condition.accepts_renamed (hf : Renaming f) (condition : Condition) (species : Nat)
    (view : View) :
    condition.accepts (f species) (view.renamed f) = condition.accepts species view := by
  have hsame : ∀ cell : Cell, ((cell.renamed f).state == f species) = (cell.state == species) := by
    intro cell
    rw [Bool.eq_iff_iff, beq_iff_eq, beq_iff_eq]
    exact hf.eq_iff
  cases view with
  | occupied cell =>
    cases condition with
    | same => exact hsame cell
    | enemy => exact congrArg not (hsame cell)
    | _ => rfl
  | _ => cases condition <;> rfl

/-- A wall is seen on a renamed grid where one is seen on the grid. -/
theorem View.renamed_eq_wall_iff {view : View} : view.renamed f = .wall ↔ view = .wall := by
  cases view <;> simp [renamed]

/-- A condition is met on a renamed grid if it is met on the grid. -/
theorem meets_renamed (hf : Renaming f) (g : Grid) (d : Decisions) (a : Actor)
    (condition : Condition) (start count : Nat) :
    meets (g.renamed f) (d.renamed f) (a.renamed f) (condition.accepts (f a.species))
        start count =
      meets g d a (condition.accepts a.species) start count := by
  induction count generalizing start with
  | zero => rfl
  | succ count ih =>
    have hview : (d.renamed f).view (g.renamed f) ((a.renamed f).ahead start) =
        (d.view g (a.ahead start)).renamed f := d.view_renamed hf g (a.ahead start)
    simp only [meets, hview, Condition.accepts_renamed hf, View.renamed_eq_wall_iff, ih]

/-- A walk on a renamed grid ends where it does on the grid. -/
theorem walk_renamed (hf : Renaming f) (g : Grid) (d : Decisions) (heading : Int × Int)
    (visited : Std.ExtTreeSet Location) (count : Nat) (l : Location) :
    walk (g.renamed f) (d.renamed f) heading visited count l =
      walk g d heading visited count l := by
  induction count generalizing visited l with
  | zero => rfl
  | succ count ih =>
    simp only [walk, Grid.resolve_renamed, Decisions.isUnavailable_renamed,
      Grid.vacant_renamed hf, ih]

/-- The answer at a location of a renamed grid is the renamed answer. -/
theorem answer_renamed (g : Grid) {test test' : Location → Option Cell}
    (htest : ∀ l, test' l = (test l).map (Cell.renamed f)) (l : Location) :
    ((g.renamed f).resolve l).bind test' = ((g.resolve l).bind test).map (Cell.renamed f) := by
  rw [Grid.resolve_renamed]
  cases g.resolve l with
  | none => rfl
  | some position => exact htest position

/-- A search on a renamed grid finds the renamed answer. -/
theorem firstAlong_renamed (g : Grid) (origin : Location) (heading : Int × Int)
    {test test' : Location → Option Cell} (htest : ∀ l, test' l = (test l).map (Cell.renamed f))
    (start count : Nat) :
    firstAlong (g.renamed f) origin heading test' start count =
      (firstAlong g origin heading test start count).map (Cell.renamed f) := by
  induction count generalizing start with
  | zero => rfl
  | succ count ih =>
    rw [firstAlong, firstAlong, answer_renamed g htest]
    cases (g.resolve (origin.step heading start)).bind test with
    | none => exact ih (start + 1)
    | some cell => rfl

/-- Those who can be converted on a renamed grid are the renamed ones. -/
theorem victim?_renamed (hf : Renaming f) (g : Grid) (d : Decisions) (species : Nat)
    (l : Location) :
    victim? (g.renamed f) (d.renamed f) (f species) l =
      (victim? g d species l).map (Cell.renamed f) := by
  have hclaim : (((d.renamed f).claim? l).any fun k => k.kind != .stayed) =
      (d.claim? l).any fun k => k.kind != .stayed := by
    rw [Decisions.claim?_renamed]
    cases d.claim? l <;> rfl
  rw [victim?, victim?, Decisions.isVacated_renamed, hclaim, Decisions.current_renamed]
  split
  next => rfl
  next =>
    split
    next => rfl
    next =>
      cases d.current g l with
      | none => rfl
      | some cell =>
        have hspecies : ((cell.renamed f).state == f species) = (cell.state == species) := by
          rw [Bool.eq_iff_iff, beq_iff_eq, beq_iff_eq]
          exact hf.eq_iff
        have hinfected : (cell.renamed f).individual?.any Individual.isInfected =
            cell.individual?.any Individual.isInfected := by
          rw [Cell.individual?_renamed]
          cases cell.individual? with
          | none => rfl
          | some i => exact i.isInfected_renamed
        simp only [Option.map_some, Cell.isEmpty_renamed hf, hspecies, hinfected]
        split <;> rfl

variable {w w' : World}

/-- A species has the same program under its new name, if it has one at all. -/
theorem World.Renames.getD (hw : w.Renames f w') (species : Nat) (program : Program) :
    w'.species.getD (f species) program = w.species.getD species program := by
  rw [Std.ExtTreeMap.getD_eq_getD_getElem?, Std.ExtTreeMap.getD_eq_getD_getElem?, hw.species]

/-- The renamed infector makes of the renamed victim the renamed individual. -/
theorem converted_renamed (hw : w.Renames f w') (a : Actor) (v : Cell) :
    converted w' (a.renamed f) (v.renamed f) = (converted w a v).renamed f := by
  have hprogram : w'.species.getD (a.renamed f).species (a.renamed f).individual.program =
      w.species.getD a.species a.individual.program := hw.getD a.species a.individual.program
  have horientation : ((v.renamed f).individual?.map Individual.orientation).getD 0 =
      (v.individual?.map Individual.orientation).getD 0 := by
    rw [Cell.individual?_renamed, Option.map_map]
    rfl
  simp only [converted, hprogram, horientation, hw.settings]
  rfl

variable {ρ : Type} {s s' : Stage ρ}

/-- Reports do not matter. -/
theorem Stage.Renames.log (hs : s.Renames f s') (event event' : Event) :
    (s.log event).Renames f (s'.log event') :=
  ⟨hs.decisions, hs.source⟩

/-- A move of a renamed actor is the renamed move. -/
theorem performMove_renamed (hf : Renaming f) (hw : w.Renames f w') (hs : s.Renames f s')
    (i : Instruction) (a : Actor) :
    (performMove w i a s).Renames f (performMove w' i (a.renamed f) s') := by
  unfold performMove
  split
  next => exact ⟨rfl, hs, rfl⟩
  next count _ =>
    refine ⟨?_, hs, rfl⟩
    rw [hw.grid, hs.decisions]
    have hwalk := walk_renamed hf w.grid s.decisions a.individual.heading
      ((∅ : Std.ExtTreeSet Location).insert a.location) count a.location
    exact congrArg (fun l => { a.renamed f with location := l }) hwalk

/-- A turn of a renamed actor is the renamed turn. -/
theorem performTurn_renamed (hw : w.Renames f w') (hs : s.Renames f s') (sign : Int)
    (i : Instruction) (a : Actor) :
    (performTurn sign w i a s).Renames f (performTurn sign w' i (a.renamed f) s') := by
  unfold performTurn
  split
  next => exact ⟨rfl, hs, rfl⟩
  next =>
    rw [hw.settings]
    exact ⟨rfl, hs, rfl⟩

/-- A jump of a renamed actor is the renamed jump. -/
theorem performGo_renamed (hs : s.Renames f s') (i : Instruction) (a : Actor) :
    (performGo i a s).Renames f (performGo i (a.renamed f) s') := by
  have htarget : i.target (a.renamed f).individual.program.length =
      i.target a.individual.program.length := rfl
  rw [performGo, performGo, htarget]
  cases i.target a.individual.program.length <;> exact ⟨rfl, hs, rfl⟩

/-- A renamed actor converts whom the actor converts. -/
theorem performInfect_renamed (hf : Renaming f) (hw : w.Renames f w') (hs : s.Renames f s')
    (i : Instruction) (a : Actor) :
    (performInfect w i a s).Renames f (performInfect w' i (a.renamed f) s') := by
  unfold performInfect
  split
  next => exact ⟨rfl, hs, rfl⟩
  next count _ =>
    have hfound : firstAhead w'.grid (a.renamed f)
          (victim? w'.grid s'.decisions (a.renamed f).species) (min count (sightLimit w'.grid)) =
        (firstAhead w.grid a (victim? w.grid s.decisions a.species)
          (min count (sightLimit w.grid))).map (Cell.renamed f) := by
      rw [hw.grid, hs.decisions]
      exact firstAlong_renamed w.grid a.location a.individual.heading
        (victim?_renamed hf w.grid s.decisions a.species) 1 _
    dsimp only
    rw [hfound]
    cases firstAhead w.grid a (victim? w.grid s.decisions a.species)
        (min count (sightLimit w.grid)) with
    | none => exact ⟨rfl, hs, rfl⟩
    | some victim =>
      refine ⟨rfl, ⟨?_, hs.source⟩, rfl⟩
      change s'.decisions.occupy (converted w' (a.renamed f) (victim.renamed f)) .infected =
        (s.decisions.occupy (converted w a victim) .infected).renamed f
      rw [hs.decisions, converted_renamed hw, Decisions.occupy_renamed]

variable [WordSource ρ]

/-- A conditional jump of a renamed actor is the renamed jump. -/
theorem performBranch_renamed (hf : Renaming f) (hw : w.Renames f w') (hs : s.Renames f s')
    (condition : Condition) (i : Instruction) (a : Actor) :
    (performBranch condition w i a s).Renames f
      (performBranch condition w' i (a.renamed f) s') := by
  have hmeets : meets w'.grid s'.decisions (a.renamed f)
        (condition.accepts (a.renamed f).species) 1 w'.settings.layers =
      meets w.grid s.decisions a (condition.accepts a.species) 1 w.settings.layers := by
    rw [hw.grid, hs.decisions, hw.settings]
    exact meets_renamed hf w.grid s.decisions a condition 1 w.settings.layers
  have hjump : ∀ (holds : Bool) (line : Nat),
      (if holds then { a.renamed f with jump := some line } else a.renamed f) =
        (if holds then { a with jump := some line } else a).renamed f := by
    intro holds line
    cases holds <;> rfl
  have htarget : i.target (a.renamed f).individual.program.length =
      i.target a.individual.program.length := rfl
  unfold performBranch
  rw [htarget]
  cases i.target a.individual.program.length with
  | error fault => exact ⟨rfl, hs, rfl⟩
  | ok line =>
    cases condition with
    -- The same coin comes from the same source.
    | random =>
      dsimp only
      rw [hs.source]
      obtain ⟨holds, source⟩ := WordSource.coin s.source
      exact ⟨hjump holds line, ⟨hs.decisions, rfl⟩, rfl⟩
    | _ =>
      dsimp only
      rw [hmeets]
      exact ⟨hjump _ line, ⟨hs.decisions, hs.source⟩, rfl⟩

/-- Whatever instruction a renamed actor carries out, it does what the actor does. -/
theorem perform_renamed (hf : Renaming f) (hw : w.Renames f w') (hs : s.Renames f s')
    (opcode : Opcode) (i : Instruction) (a : Actor) :
    (perform w opcode i a s).Renames f (perform w' opcode i (a.renamed f) s') := by
  cases opcode with
  | move => exact performMove_renamed hf hw hs i a
  | left => exact performTurn_renamed hw hs 1 i a
  | right => exact performTurn_renamed hw hs (-1) i a
  | infect => exact performInfect_renamed hf hw hs i a
  | go => exact performGo_renamed hs i a
  | ifEmpty => exact performBranch_renamed hf hw hs .empty i a
  | ifWall => exact performBranch_renamed hf hw hs .wall i a
  | ifSame => exact performBranch_renamed hf hw hs .same i a
  | ifEnemy => exact performBranch_renamed hf hw hs .enemy i a
  | ifRandom => exact performBranch_renamed hf hw hs .random i a

/-- A renamed actor runs its instruction as the actor does. -/
theorem execute_renamed (hf : Renaming f) (hw : w.Renames f w') (hs : s.Renames f s')
    (a : Actor) :
    (execute w' (a.renamed f) s').1 = (execute w a s).1.renamed f ∧
      (execute w a s).2.Renames f (execute w' (a.renamed f) s').2 := by
  have hinstruction : (a.renamed f).individual.program.instructions[
      (a.renamed f).individual.programCounter]? =
    a.individual.program.instructions[a.individual.programCounter]? := rfl
  rw [execute, execute, hinstruction]
  cases a.individual.program.instructions[a.individual.programCounter]? with
  | none => exact ⟨rfl, hs.log _ _⟩
  | some i =>
    dsimp only
    cases i.opcode with
    | error fault => exact ⟨rfl, hs.log _ _⟩
    | ok opcode =>
      obtain ⟨hactor, hstage, hfault⟩ := perform_renamed hf hw hs opcode i a
      dsimp only
      rw [hfault]
      cases (perform w opcode i a s).fault with
      | none => exact ⟨hactor, hstage⟩
      | some fault => exact ⟨hactor, hstage.log _ _⟩

omit [WordSource ρ] in
/-- A new individual runs the same program under the new name of its species. -/
theorem fresh_renamed (hw : w.Renames f w') (species : Nat) (orientation : Int) :
    fresh w'.species (f species) orientation =
      (fresh w.species species orientation).renamed f := by
  rw [fresh, fresh, hw.getD]
  rfl

/-- The actor of a renamed cell is the renamed actor. -/
theorem actorOf_renamed (hw : w.Renames f w') (c : Cell) :
    actorOf w' (c.renamed f) = (actorOf w c).renamed f := by
  have hindividual : (c.renamed f).individual?.getD
        (fresh w'.species (f c.state) w'.settings.initialOrientation) =
      (c.individual?.getD (fresh w.species c.state w.settings.initialOrientation)).renamed f := by
    rw [Cell.individual?_renamed, hw.settings, fresh_renamed hw]
    cases c.individual? <;> rfl
  exact congrArg (fun i => Actor.mk (f c.state) c.location i none) hindividual

omit [WordSource ρ] in
/-- The infection of a renamed actor goes on like that of the actor. -/
theorem advanceInfection_renamed (hw : w.Renames f w') (hs : s.Renames f s') (a : Actor) :
    (advanceInfection w' (a.renamed f) s').1 = (advanceInfection w a s).1.renamed f ∧
      (advanceInfection w a s).2.Renames f (advanceInfection w' (a.renamed f) s').2 := by
  have hinfection : (a.renamed f).individual.infection =
      a.individual.infection.map (Infection.renamed f) := rfl
  rw [advanceInfection, advanceInfection, hinfection]
  cases hx : a.individual.infection with
  | none => exact ⟨rfl, hs⟩
  | some x =>
    have hcountdown : (x.renamed f).countdown = x.countdown := rfl
    dsimp only [Option.map_some]
    rw [hcountdown]
    split
    next =>
      refine ⟨?_, hs.log _ _⟩
      have hfresh := fresh_renamed hw x.previousSpecies a.individual.orientation
      exact congrArg
        (fun i => { a.renamed f with species := f x.previousSpecies, individual := i }) hfresh
    next => exact ⟨rfl, hs⟩

/-- The individual of a renamed cell acts as that of the cell does. -/
theorem act_renamed (hf : Renaming f) (hw : w.Renames f w') (hs : s.Renames f s') (c : Cell) :
    (act w' (c.renamed f) s').1 = (act w c s).1.renamed f ∧
      (act w c s).2.Renames f (act w' (c.renamed f) s').2 := by
  obtain ⟨hactor, hstage⟩ := advanceInfection_renamed hw hs (actorOf w c)
  rw [act_eq, act_eq, actorOf_renamed hw, hactor]
  exact execute_renamed hf hw hstage (advanceInfection w (actorOf w c) s).1

omit [WordSource ρ] in
/-- Where a renamed actor has ended its turn is recorded for the renamed actor. -/
theorem conclude_renamed (hs : s.Renames f s') (origin : Location) (a : Actor) :
    (conclude origin a s).Renames f (conclude origin (a.renamed f) s') := by
  have hcell : Cell.ofIndividual (a.renamed f).species (a.renamed f).location
        (a.renamed f).advanced =
      (Cell.ofIndividual a.species a.location a.advanced).renamed f := rfl
  have hlocation : (a.renamed f).location = a.location := rfl
  rw [conclude, conclude, hcell, hlocation]
  split
  next =>
    refine ⟨?_, hs.source⟩
    dsimp only
    rw [hs.decisions, Decisions.occupy_renamed]
  next =>
    refine ⟨?_, hs.source⟩
    dsimp only
    rw [hs.decisions]
    exact (s.decisions.vacate origin).occupy_renamed _ _

omit [WordSource ρ] in
/-- The individual of a renamed cell has a turn if that of the cell has one. -/
theorem hasTurn_renamed (hf : Renaming f) (hs : s.Renames f s') (c : Cell) :
    hasTurn s' (c.renamed f) = hasTurn s c := by
  rw [hasTurn, hasTurn, Cell.isEmpty_renamed hf, hs.decisions, Decisions.isFinal_renamed]
  rfl

/-- The turn of a renamed cell is the renamed turn. -/
theorem takeTurn_renamed (hf : Renaming f) (hw : w.Renames f w') (hs : s.Renames f s')
    (c : Cell) : (takeTurn w s c).Renames f (takeTurn w' s' (c.renamed f)) := by
  have hcalled := hasTurn_renamed hf hs c
  by_cases hturn : hasTurn s c = true
  · obtain ⟨hactor, hstage⟩ := act_renamed hf hw hs c
    rw [takeTurn_of_hasTurn hturn, takeTurn_of_hasTurn (hcalled.trans hturn), Turn.ended,
      Turn.ended, hactor]
    exact conclude_renamed hstage c.location (act w c s).1
  · rw [takeTurn_of_not_hasTurn hturn, takeTurn_of_not_hasTurn (hcalled ▸ hturn)]
    exact hs

/-- The turns of renamed cells, one after the other, are the renamed turns. -/
theorem stageAfter_renamed (hf : Renaming f) (hw : w.Renames f w') (cells : List Cell)
    (hs : s.Renames f s') :
    (stageAfter w cells s).Renames f (stageAfter w' (cells.map (Cell.renamed f)) s') := by
  induction cells generalizing s s' with
  | nil => exact hs
  | cons c cells ih => exact ih (takeTurn_renamed hf hw hs c)

/-- The grid as decided is renamed with the grid and the decisions. -/
theorem Decisions.shown_renamed (hf : Renaming f) (d : Decisions) (g : Grid) :
    (d.renamed f).shown (g.renamed f) = (d.shown g).renamed f := by
  have hdimensions := g.apply_dimensions d.updates
  have hdimensions' := (g.renamed f).apply_dimensions (d.renamed f).updates
  refine Grid.ext_cellAt (hdimensions'.1.trans hdimensions.1.symm)
    (hdimensions'.2.1.trans hdimensions.2.1.symm) (hdimensions'.2.2.trans hdimensions.2.2.symm)
    fun l => ?_
  rw [Grid.cellAt_renamed, cellAt_shown, cellAt_shown, Grid.cellAt_renamed, claim?_renamed,
    isVacated_renamed, Option.map_map, Option.map_map]
  refine congrArg (fun m => (g.cellAt l).map m) (funext fun old => ?_)
  cases d.claim? l with
  | some k => rfl
  | none =>
    simp only [Function.comp_apply, Option.map_none]
    split
    · exact (Cell.renamed_empty hf l).symm
    · rfl

/-- As many updates are carried out with renamed decisions as with the decisions. -/
theorem Decisions.length_updates_renamed (d : Decisions) :
    (d.renamed f).updates.length = d.updates.length := by
  have hclaims : (d.renamed f).claims.toList.length = d.claims.toList.length := by
    rw [renamed, Std.ExtTreeMap.toList_map, List.length_map]
  have hleft : (d.renamed f).vacated.toList.filter (fun l => !(d.renamed f).isFinal l) =
      d.vacated.toList.filter fun l => !d.isFinal l := by
    simp only [isFinal_renamed]
    rfl
  simp only [updates, List.length_append, List.length_map, hclaims, hleft]

omit [WordSource ρ] in
/-- Nothing has been decided on a renamed grid when nothing has been on the grid. -/
theorem opening_renamed (f : Nat → Nat) (source : ρ) :
    (opening source).Renames f (opening source) := by
  have hclaims : (∅ : Std.ExtTreeMap Location Claim) = (∅ : Std.ExtTreeMap Location Claim).map
      fun _ k => k.renamed f := Std.ExtTreeMap.ext_getElem? fun l => by simp
  exact ⟨congrArg (Decisions.mk · ∅) hclaims, rfl⟩

/-- All turns of a tick are renamed with the grid. -/
theorem takeTurns_renamed (hf : Renaming f) (hw : w.Renames f w') (source : ρ) :
    (takeTurns w source).Renames f (takeTurns w' source) := by
  have hend := stageAfter_renamed hf hw w.grid.cellList (opening_renamed f source)
  rw [← Grid.cellList_renamed, ← hw.grid] at hend
  exact hend

end Darwin

end CellularAutomata
