import CellularAutomata.Proofs.Darwin.Renaming
import CellularAutomata.Proofs.Darwin.Soundness
import CellularAutomata.Proofs.Keys
import Mathlib.Logic.Equiv.Basic

/-!
# Runs with renamed species

A description with renamed species is accepted if the original one is, and its run goes
through the renamed grids. It also can be continued for as long, because the same numbers come
up in it.
-/

namespace CellularAutomata

variable {f : Nat → Nat}

/-- A description with its species and its initial states renamed. -/
def Configuration.renamed (f : Nat → Nat) (c : Configuration) : Configuration :=
  { c with states := c.states.map (List.map f), species := mapKeys f c.species }

/-- Rules with their species renamed. -/
def Ruleset.renamed (f : Nat → Nat) : Ruleset → Ruleset
  | .darwin r => .darwin { r with species := mapKeys f r.species }
  | other => other

/-- A simulation with its species renamed. -/
def Simulation.renamed {ρ : Type} (f : Nat → Nat) (s : Simulation ρ) : Simulation ρ :=
  { s with grid := s.grid.renamed f, rules := s.rules.renamed f }

namespace Configuration

/-- Renaming makes no row of states longer or shorter. -/
theorem firstTooLong_renamed (cols : Int) (index : Nat) (states : List (List Nat)) :
    firstTooLong cols index (states.map (List.map f)) = firstTooLong cols index states := by
  induction states generalizing index with
  | nil => rfl
  | cons row rest ih => simp only [List.map_cons, firstTooLong, List.length_map, ih]

/-- A renamed description is valid if the description is. -/
theorem validate_renamed (c : Configuration) : (c.renamed f).validate = c.validate := by
  have hcount : (c.renamed f).states.length = c.states.length := List.length_map ..
  have hrows : firstTooLong (c.renamed f).cols 0 (c.renamed f).states =
      firstTooLong c.cols 0 c.states := firstTooLong_renamed c.cols 0 c.states
  rw [validate, validate, hcount, hrows]
  rfl

/-- Initial states are renamed. -/
theorem initialState_renamed (hf : Renaming f) (c : Configuration) (row col : Nat) :
    (c.renamed f).initialState row col = f (c.initialState row col) := by
  have hempty : f 0 = 0 := hf.empty
  rw [initialState, initialState, renamed, List.getElem?_map]
  cases c.states[row]? with
  | none => exact hempty.symm
  | some states =>
    simp only [Option.map_some, Option.bind_some, List.getElem?_map]
    cases states[col]? with
    | none => exact hempty.symm
    | some state => rfl

end Configuration

/-- A renamed cell is added to a renamed grid where the cell is added to the grid. -/
theorem Grid.add_renamed (g : Grid) (c : Cell) :
    (g.renamed f).add (c.renamed f) = (g.add c).renamed f := by
  have hdimensions := g.add_dimensions c
  have hdimensions' := (g.renamed f).add_dimensions (c.renamed f)
  refine ext_cellAt (hdimensions'.1.trans hdimensions.1.symm)
    (hdimensions'.2.1.trans hdimensions.2.1.symm) (hdimensions'.2.2.trans hdimensions.2.2.symm)
    fun l => ?_
  have hlocation : (c.renamed f).location = c.location := rfl
  have hin : (g.renamed f).inBounds c.location = g.inBounds c.location := rfl
  simp only [cellAt_renamed, cellAt_add, Option.map_eq_none_iff, hlocation, hin]
  split <;> rfl

namespace Simulation

variable {c : Configuration}

/-- The programs of a renamed description are the same under their new names. -/
theorem programs_renamed (hf : Function.Injective f) (c : Configuration) :
    programs (c.renamed f) = mapKeys f (programs c) :=
  map_mapKeys hf Program.parse

/-- The rules of a Darwin world are read for renamed species if they are for the species. -/
theorem build_renamed (hf : Renaming f) (p : Parameters)
    (species : Std.ExtTreeMap Nat Program) :
    Alike (Ruleset.renamed f) (Ruleset.build .darwin p species)
      (Ruleset.build .darwin p (mapKeys f species)) := by
  have hreserved : (mapKeys f species).contains emptyState = species.contains emptyState := by
    have hold := contains_mapKeys (m := species) hf.injective emptyState
    rw [hf.empty] at hold
    exact hold
  rw [Ruleset.build, Ruleset.build, Darwin.Rules.ofParameters, Darwin.Rules.ofParameters, hreserved]
  split
  next => exact .error _ _
  next =>
    cases Darwin.Settings.ofParameters p with
    | error fault => exact .error fault fault
    | ok settings =>
      cases Seed.ofParameters p with
      | error fault => exact .error fault fault
      | ok seed => exact .ok (Ruleset.darwin ⟨settings, species, seed⟩)

/-- The cell with which a renamed state starts is the renamed cell. -/
theorem startAs_renamed (hf : Renaming f) (r : Darwin.Rules) (state : Nat) (l : Location) :
    Alike (Cell.renamed f) ((Ruleset.darwin r).startAs .darwin state l)
      (((Ruleset.darwin r).renamed f).startAs .darwin (f state) l) := by
  have hstart : ∀ (rules : Darwin.Rules) (state : Nat),
      (Ruleset.darwin rules).startAs .darwin state l = rules.start state l := fun _ _ => rfl
  rw [Ruleset.renamed, hstart, hstart, Darwin.Rules.start, Darwin.Rules.start,
    contains_mapKeys hf.injective]
  by_cases hempty : state = emptyState
  · rw [if_pos hempty, if_pos (hf.eq_empty_iff.mpr hempty)]
    have hok : Alike (ε := Fault) (Cell.renamed f) (.ok (Cell.empty l))
      (.ok ((Cell.empty l).renamed f)) := .ok _
    rwa [Cell.renamed_empty hf] at hok
  · rw [if_neg hempty, if_neg (mt hf.eq_empty_iff.mp hempty)]
    split
    next =>
      have hprogram : (mapKeys f r.species).getD (f state) .empty =
          r.species.getD state .empty := by
        rw [Std.ExtTreeMap.getD_eq_getD_getElem?, Std.ExtTreeMap.getD_eq_getD_getElem?,
          getElem?_mapKeys hf.injective]
      rw [Darwin.fresh, Darwin.fresh, hprogram]
      exact .ok (Cell.ofIndividual state l _)
    next => exact .error _ _

/-- The initial cell of a position is renamed with the description. -/
theorem placeInitial_renamed (hf : Renaming f) (c : Configuration) (r : Darwin.Rules) (g : Grid)
    (l : Location) :
    Alike (Grid.renamed f) (placeInitial c .darwin (.darwin r) g l)
      (placeInitial (c.renamed f) .darwin ((Ruleset.darwin r).renamed f) (g.renamed f) l) := by
  have hstart := startAs_renamed hf r (c.initialState l.row.toNat l.col.toNat) l
  rw [placeInitial, placeInitial, c.initialState_renamed hf]
  generalize (Ruleset.darwin r).startAs .darwin (c.initialState l.row.toNat l.col.toNat) l = x,
    ((Ruleset.darwin r).renamed f).startAs .darwin (f (c.initialState l.row.toNat l.col.toNat)) l =
      y at hstart
  cases hstart with
  | ok cell =>
    dsimp only
    rw [Grid.add_renamed]
    exact .ok (g.add cell)
  | error fault fault' => exact .error fault fault'

/-- The initial grid is renamed with the description. -/
theorem populate_renamed (hf : Renaming f) (c : Configuration) (r : Darwin.Rules) :
    Alike (Grid.renamed f) (populate c .darwin (.darwin r))
      (populate (c.renamed f) .darwin ((Ruleset.darwin r).renamed f)) := by
  have hempty : (Grid.empty c.rows c.cols c.edge).renamed f = Grid.empty c.rows c.cols c.edge :=
    Grid.ext_cellAt rfl rfl rfl fun l => by simp
  have hplaced := Alike.foldlM (placeInitial_renamed hf c r) (Grid.positions c.rows c.cols)
    (Grid.empty c.rows c.cols c.edge)
  rw [hempty] at hplaced
  rw [populate, populate, Grid.visitPositions_eq_foldlM, Grid.visitPositions_eq_foldlM]
  exact hplaced

/-- A renamed description is accepted if the description is, and it describes the renamed
simulation. -/
theorem ofConfiguration_renamed (hf : Renaming f) (hc : Kind.ofText c.automaton = .ok .darwin) :
    Alike (Simulation.renamed f) (ofConfiguration c) (ofConfiguration (c.renamed f)) := by
  have hkind : Kind.ofText (c.renamed f).automaton = .ok .darwin := hc
  have hparameters : seededParameters (c.renamed f) = seededParameters c := rfl
  unfold ofConfiguration
  rw [c.validate_renamed, hc, hkind, hparameters, programs_renamed hf.injective]
  cases c.validate with
  | error fault => exact .error fault fault
  | ok _ =>
    refine (build_renamed hf (seededParameters c) (programs c)).bind fun rules hrules => ?_
    obtain ⟨r, -, rfl⟩ := map_eq_ok.mp hrules
    exact (populate_renamed hf c r).bind fun grid _ =>
      .ok { new grid (.darwin r) (Seed.source r.seed) with metricsInterval := c.metricsInterval }

end Simulation

namespace Darwin

variable {w w' : World}

/-- A walk on a renamed grid comes upon the same numbers. -/
theorem walkNumbers_renamed (hf : Renaming f) (g : Grid) (d : Decisions) (heading : Int × Int)
    (visited : Std.ExtTreeSet Location) (count : Nat) (l : Location) :
    walkNumbers (g.renamed f) (d.renamed f) heading visited count l =
      walkNumbers g d heading visited count l := by
  induction count generalizing visited l with
  | zero => rfl
  | succ count ih =>
    simp only [walkNumbers, Grid.resolve_renamed, Decisions.isUnavailable_renamed,
      Grid.vacant_renamed hf, ih]
    rfl

/-- Looking ahead on a renamed grid comes upon the same numbers. -/
theorem scanNumbers_renamed (hf : Renaming f) (g : Grid) (d : Decisions) (a : Actor)
    (condition : Condition) (start count : Nat) :
    scanNumbers (g.renamed f) (d.renamed f) (a.renamed f) (condition.accepts (f a.species))
        start count =
      scanNumbers g d a (condition.accepts a.species) start count := by
  induction count generalizing start with
  | zero => rfl
  | succ count ih =>
    have hview : (d.renamed f).view (g.renamed f) ((a.renamed f).ahead start) =
        (d.view g (a.ahead start)).renamed f := d.view_renamed hf g (a.ahead start)
    simp only [scanNumbers, hview, Condition.accepts_renamed hf, View.renamed_eq_wall_iff, ih]
    rfl

/-- A search on a renamed grid comes upon the same numbers. -/
theorem searchNumbers_renamed (g : Grid) (origin : Location) (heading : Int × Int)
    {test test' : Location → Option Cell} (htest : ∀ l, test' l = (test l).map (Cell.renamed f))
    (start count : Nat) :
    searchNumbers (g.renamed f) origin heading test' start count =
      searchNumbers g origin heading test start count := by
  induction count generalizing start with
  | zero => rfl
  | succ count ih =>
    have hprobe : (g.renamed f).probeNumbers origin heading start =
        g.probeNumbers origin heading start := rfl
    rw [searchNumbers, searchNumbers, answer_renamed g htest, ih, hprobe]
    cases (g.resolve (origin.step heading start)).bind test <;> rfl

/-- The numbers of a search on a renamed grid fit if they do on the grid. -/
theorem searchFits_renamed (g : Grid) (origin : Location) (heading : Int × Int)
    {test test' : Location → Option Cell} (htest : ∀ l, test' l = (test l).map (Cell.renamed f))
    (count : Nat) :
    searchFits (g.renamed f) origin heading test' count =
      searchFits g origin heading test count := by
  have hlimit : sightLimit (g.renamed f) = sightLimit g := rfl
  rw [searchFits, searchFits, hlimit, searchNumbers_renamed g origin heading htest,
    firstAlong_renamed g origin heading htest, Option.isSome_map]
  rfl

/-- A conditional jump of a renamed actor comes upon the same numbers. -/
theorem branchNumbers_renamed (hf : Renaming f) (hw : w.Renames f w') (condition : Condition)
    (i : Instruction) (a : Actor) (d : Decisions) :
    branchNumbers condition w' i (a.renamed f) (d.renamed f) = branchNumbers condition w i a d := by
  have htarget : i.target (a.renamed f).individual.program.length =
      i.target a.individual.program.length := rfl
  rw [branchNumbers, branchNumbers, htarget]
  cases i.target a.individual.program.length with
  | error fault => rfl
  | ok line =>
    dsimp only
    rw [hw.grid, hw.settings]
    exact scanNumbers_renamed hf w.grid d a condition 1 w.settings.layers

/-- Actions that come upon the same numbers for every count do so for the count they have. -/
theorem countNumbers_congr {i : Instruction} {action action' : Nat → List Int}
    (h : ∀ count, action' count = action count) : countNumbers i action' = countNumbers i action :=
  congrArg (countNumbers i) (funext h)

/-- Turning a renamed actor comes upon the same numbers. -/
theorem turnNumbers_renamed (hw : w.Renames f w') (sign : Int) (a : Actor) (count : Nat) :
    turnNumbers sign w' (a.renamed f) count = turnNumbers sign w a count := by
  rw [turnNumbers, hw.settings]
  rfl

/-- The numbers of an instruction fit for a renamed actor if they do for the actor. -/
theorem instructionFits_renamed (hf : Renaming f) (hw : w.Renames f w') (opcode : Opcode)
    (i : Instruction) (a : Actor) (d : Decisions) :
    instructionFits w' opcode i (a.renamed f) (d.renamed f) = instructionFits w opcode i a d := by
  have hbranch := fun condition => branchNumbers_renamed hf hw condition i a d
  cases opcode with
  | infect =>
    simp only [instructionFits]
    cases i.count with
    | error fault => rfl
    | ok count =>
      dsimp only
      rw [hw.grid]
      exact searchFits_renamed w.grid a.location a.individual.heading
        (victim?_renamed hf w.grid d a.species) count
  | move =>
    refine congrArg (List.all · Numeral.fitsInt32) (countNumbers_congr fun count => ?_)
    rw [hw.grid]
    exact walkNumbers_renamed hf w.grid d a.individual.heading _ count a.location
  | left =>
    exact congrArg (List.all · Numeral.fitsInt32)
      (countNumbers_congr (turnNumbers_renamed hw 1 a))
  | right =>
    exact congrArg (List.all · Numeral.fitsInt32)
      (countNumbers_congr (turnNumbers_renamed hw (-1) a))
  | ifEmpty => exact congrArg (List.all · Numeral.fitsInt32) (hbranch .empty)
  | ifWall => exact congrArg (List.all · Numeral.fitsInt32) (hbranch .wall)
  | ifSame => exact congrArg (List.all · Numeral.fitsInt32) (hbranch .same)
  | ifEnemy => exact congrArg (List.all · Numeral.fitsInt32) (hbranch .enemy)
  | go => rfl
  | ifRandom => rfl

/-- All numbers of a renamed actor fit if those of the actor do. -/
theorem Actor.fits_renamed (hf : Renaming f) (hw : w.Renames f w') (a : Actor) (d : Decisions) :
    (a.renamed f).fits w' (d.renamed f) = a.fits w d := by
  have hinstruction : (a.renamed f).individual.program.instructions[
      (a.renamed f).individual.programCounter]? =
    a.individual.program.instructions[a.individual.programCounter]? := rfl
  rw [fits, fits, hinstruction]
  cases a.individual.program.instructions[a.individual.programCounter]? with
  | none => rfl
  | some i =>
    dsimp only
    cases i.opcode with
    | error fault => rfl
    | ok opcode => exact instructionFits_renamed hf hw opcode i a d

variable {ρ : Type} [WordSource ρ] {s s' : Stage ρ}

omit [WordSource ρ] in
/-- All numbers fit when a renamed cell is called if they do when the cell is. -/
theorem turnFits_renamed (hf : Renaming f) (hw : w.Renames f w') (hs : s.Renames f s') (c : Cell) :
    turnFits w' s' (c.renamed f) = turnFits w s c := by
  rw [turnFits, turnFits, hasTurn_renamed hf hs, actorOf_renamed hw,
    (advanceInfection_renamed hw hs (actorOf w c)).1, hs.decisions, Actor.fits_renamed hf hw]

/-- All numbers fit while renamed cells are called if they do while the cells are. -/
theorem turnsFit_renamed (hf : Renaming f) (hw : w.Renames f w') (cells : List Cell)
    (hs : s.Renames f s') :
    turnsFit w' (cells.map (Cell.renamed f)) s' = turnsFit w cells s := by
  induction cells generalizing s s' with
  | nil => rfl
  | cons c cells ih =>
    rw [List.map_cons, turnsFit, turnsFit, turnFits_renamed hf hw hs,
      ih (takeTurn_renamed hf hw hs c)]

end Darwin

namespace Simulation

variable {ρ : Type} [WordSource ρ] {s : Simulation ρ} {r : Darwin.Rules}

/-- A world of which the species are renamed is the same up to their names. -/
theorem renames_world (hf : Renaming f) (r : Darwin.Rules) (g : Grid) :
    (r.world g).Renames f (({ r with species := mapKeys f r.species }).world (g.renamed f)) :=
  ⟨rfl, getElem?_mapKeys hf.injective, rfl⟩

/-- A tick of a renamed Darwin world is the renamed tick. -/
theorem step_renamed (hf : Renaming f) (hr : s.rules = .darwin r) :
    (s.renamed f).step.simulation = s.step.simulation.renamed f := by
  have hr' : (s.renamed f).rules = .darwin { r with species := mapKeys f r.species } :=
    congrArg (Ruleset.renamed f) hr
  obtain ⟨hdecisions, hsource⟩ :=
    Darwin.takeTurns_renamed hf (renames_world hf r s.grid) s.source
  rw [Darwin.simulation_step hr', Darwin.simulation_step hr]
  have hgrid : (s.renamed f).grid = s.grid.renamed f := rfl
  have hstart : (s.renamed f).source = s.source := rfl
  rw [hgrid, hstart, hdecisions, hsource, Darwin.Decisions.shown_renamed hf,
    Darwin.Decisions.length_updates_renamed]
  rfl

/-- After any number of ticks a renamed Darwin world is the world after as many ticks,
renamed. -/
theorem after_renamed (hf : Renaming f) (hr : s.rules = .darwin r) (n : Nat) :
    (s.renamed f).after n = (s.after n).renamed f := by
  induction n with
  | zero => rfl
  | succ n ih => rw [after, ih, step_renamed hf ((rules_after s n).trans hr), after]

/-- A tick of a renamed Darwin world can be completed if the tick of the world can. -/
theorem isSome_step?_renamed (hf : Renaming f) (hr : s.rules = .darwin r) :
    (s.renamed f).step?.isSome = s.step?.isSome := by
  have hr' : (s.renamed f).rules = .darwin { r with species := mapKeys f r.species } :=
    congrArg (Ruleset.renamed f) hr
  have hcells : (s.renamed f).grid.cellList = s.grid.cellList.map (Cell.renamed f) :=
    s.grid.cellList_renamed
  rw [Darwin.isSome_step? hr', Darwin.isSome_step? hr, hcells]
  exact Darwin.turnsFit_renamed hf (renames_world hf r s.grid) s.grid.cellList
    (Darwin.opening_renamed f s.source)

end Simulation

namespace Darwin

/-- Species are only names. A description of a Darwin world whose species and initial states are
renamed is accepted exactly if the description is. After every number of ticks its grid is the
grid of the original run with all states and all species hidden by infections renamed, and the
next tick can be completed in both runs or in neither. -/
theorem species_are_names (hf : Renaming f) {c : Configuration}
    (hc : Kind.ofText c.automaton = .ok .darwin) :
    ((∃ s, Simulation.ofConfiguration (c.renamed f) = .ok s) ↔
      ∃ s, Simulation.ofConfiguration c = .ok s) ∧
    ∀ s s', Simulation.ofConfiguration c = .ok s →
      Simulation.ofConfiguration (c.renamed f) = .ok s' → ∀ n,
        (s'.after n).grid = (s.after n).grid.renamed f ∧
        (s'.after n).updatesApplied = (s.after n).updatesApplied ∧
        (s'.after n).step?.isSome = (s.after n).step?.isSome := by
  have hrenamed := Simulation.ofConfiguration_renamed hf hc
  refine ⟨hrenamed.succeeds_iff, ?_⟩
  intro s s' hs hs' n
  obtain ⟨r, hr⟩ := exists_darwin hc hs
  have hafter : s'.after n = (s.after n).renamed f := by
    rw [hrenamed.eq_of_ok hs hs', Simulation.after_renamed hf hr]
  rw [hafter]
  exact ⟨rfl, rfl, Simulation.isSome_step?_renamed hf ((Simulation.rules_after s n).trans hr)⟩

/-- The two species of the duel may change their names. -/
theorem duel_species_are_names : ∃ s s', Simulation.ofConfiguration duel = .ok s ∧
    Simulation.ofConfiguration (duel.renamed (Equiv.swap 1 2)) = .ok s' ∧
    ∀ n, (s'.after n).grid = (s.after n).grid.renamed (Equiv.swap 1 2) := by
  have hf : Renaming (Equiv.swap 1 2) := ⟨(Equiv.swap 1 2).injective, by decide⟩
  have hnames := species_are_names hf (c := duel) (by decide)
  obtain ⟨s, -, hs, -⟩ := exists_duel
  obtain ⟨s', hs'⟩ := hnames.1.mpr ⟨s, hs⟩
  exact ⟨s, s', hs, hs', fun n => (hnames.2 s s' hs hs' n).1⟩

end Darwin

end CellularAutomata
