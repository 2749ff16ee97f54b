import CellularAutomata.Proofs.Darwin.Effects
import CellularAutomata.Proofs.Grid.Contents

/-!
# Turns of a tick

A tick as the list of the turns that are taken in it, each with the stage at which it is
taken. What a turn decides is said once, through the claims and the positions left after
it, and nothing later looks into a turn again.
-/

namespace CellularAutomata.Darwin

/-- What does not change during a tick from a grid. -/
def Rules.world (r : Rules) (g : Grid) : World := ⟨r.settings, r.species, g⟩

/-- A turn that is taken in a tick. -/
structure Turn (ρ : Type) where
  /-- The cell of the individual, as it was before the tick. -/
  cell : Cell
  /-- The stage before the turn. -/
  stage : Stage ρ

variable {ρ : Type}

namespace Turn

/-- The individual when it comes to its instruction: its infection has gone on. -/
def ready (w : World) (t : Turn ρ) : Actor := (advanceInfection w (actorOf w t.cell) t.stage).1

/-- The instruction that is carried out, if there is one. -/
def instruction? (w : World) (t : Turn ρ) : Option Instruction :=
  (t.ready w).individual.program.instructions[(t.ready w).individual.programCounter]?

/-- The cell that is converted in the turn, if there is one. -/
def victim? (w : World) (t : Turn ρ) : Option Cell :=
  target? w (t.ready w) t.stage.decisions

variable [WordSource ρ]

/-- The individual after its instruction. -/
def ended (w : World) (t : Turn ρ) : Actor := (act w t.cell t.stage).1

/-- The cell in which the turn leaves the individual. -/
def result (w : World) (t : Turn ρ) : Cell :=
  .ofIndividual (t.ended w).species (t.ended w).location (t.ended w).advanced

/-- The claim to the position where the turn ends. -/
def claim (w : World) (t : Turn ρ) : Claim :=
  ⟨t.result w, if (t.ended w).location = t.cell.location then .stayed else .arrived⟩

end Turn

variable [WordSource ρ]

/-- The turns that some cells take, called one after the other from a stage on. -/
def turnsFrom (w : World) : List Cell → Stage ρ → List (Turn ρ)
  | [], _ => []
  | c :: rest, s =>
    if hasTurn s c then ⟨c, s⟩ :: turnsFrom w rest (takeTurn w s c)
    else turnsFrom w rest (takeTurn w s c)

/-- The stage after some cells have been called. -/
def stageAfter (w : World) (cells : List Cell) (s : Stage ρ) : Stage ρ :=
  cells.foldl (takeTurn w) s

/-- The stage before the first turn of a tick. -/
def opening {σ : Type} (source : σ) : Stage σ := ⟨.none, source, #[]⟩

/-- The turns of a tick. -/
def turns (w : World) (source : ρ) : List (Turn ρ) :=
  turnsFrom w w.grid.cellList (opening source)

/-- All turns of a tick are those of the cells in the order of the grid. -/
theorem takeTurns_eq (w : World) (source : ρ) :
    takeTurns w source = stageAfter w w.grid.cellList (opening source) := rfl

/-- The turns of the individual that is at a location before the tick. -/
def turnsOf (w : World) (source : ρ) (l : Location) : List (Turn ρ) :=
  (turns w source).filter fun t => t.cell.location = l

/-- Where the individual at a location is after some turns: where its own turn has ended,
or at the same location if it has none. -/
def endPlace (w : World) (ts : List (Turn ρ)) (l : Location) : Location :=
  match ts.find? fun t => t.cell.location = l with
  | some t => (t.ended w).location
  | none => l

omit [WordSource ρ] in
/-- The course of an infection does not move the actor, and it decides nothing. -/
theorem advanceInfection_frame (w : World) (a : Actor) (s : Stage ρ) :
    (advanceInfection w a s).1.location = a.location ∧
      (advanceInfection w a s).2.decisions = s.decisions := by
  unfold advanceInfection
  split
  next => exact ⟨rfl, rfl⟩
  next => split <;> exact ⟨rfl, rfl⟩

omit [WordSource ρ] in
/-- An individual comes to its instruction where its cell was. -/
theorem Turn.ready_location (w : World) (t : Turn ρ) :
    (t.ready w).location = t.cell.location :=
  (advanceInfection_frame w (actorOf w t.cell) t.stage).1

omit [WordSource ρ] in
/-- Nobody has jumped when it comes to its instruction. -/
theorem Turn.jump_ready (w : World) (t : Turn ρ) : (t.ready w).jump = none := by
  rw [Turn.ready, advanceInfection]
  split
  next => rfl
  next => split <;> rfl

/-- An individual runs its instruction after its infection has gone on. -/
theorem act_eq (w : World) (c : Cell) (s : Stage ρ) :
    act w c s = execute w (advanceInfection w (actorOf w c) s).1
      (advanceInfection w (actorOf w c) s).2 := rfl

/-- The turn of an individual is concluded from where its cell was. -/
theorem takeTurn_of_hasTurn {w : World} {s : Stage ρ} {c : Cell} (h : hasTurn s c = true) :
    takeTurn w s c = conclude c.location ((Turn.mk c s).ended w) (act w c s).2 := by
  rw [takeTurn, if_pos h, Turn.ended]

/-- An individual does one deed in its turn. -/
theorem Turn.deed (w : World) (t : Turn ρ) :
    Deed w t.stage.decisions (t.ready w) (t.ended w) := by
  have hd := (advanceInfection_frame w (actorOf w t.cell) t.stage).2
  rw [Turn.ready, Turn.ended]
  have he := execute_deed w (advanceInfection w (actorOf w t.cell) t.stage).1
    (advanceInfection w (actorOf w t.cell) t.stage).2
  rw [hd, ← act_eq] at he
  exact he

/-- Until a turn is concluded it decides at most the cell that it converts. -/
theorem Turn.decisions_act (w : World) (t : Turn ρ) :
    (act w t.cell t.stage).2.decisions =
      convert w (t.ready w) (t.victim? w) t.stage.decisions := by
  have hd := (advanceInfection_frame w (actorOf w t.cell) t.stage).2
  rw [act_eq, execute_decisions, hd, Turn.victim?, Turn.ready]

/-- An individual that converts a cell is left as it is. -/
theorem Turn.ended_of_victim? {w : World} {t : Turn ρ} {v : Cell} (h : t.victim? w = some v) :
    t.ended w = t.ready w := by
  have hd := (advanceInfection_frame w (actorOf w t.cell) t.stage).2
  rw [Turn.victim?, Turn.ready, ← hd] at h
  rw [Turn.ended, Turn.ready, act_eq]
  exact execute_fst_of_target? h

/-- A turn ends where it began or at a position that may be entered. -/
theorem Turn.ended_location (w : World) (t : Turn ρ) :
    (t.ended w).location = t.cell.location ∨
      Enterable w.grid t.stage.decisions (t.ended w).location := by
  have hr := t.ready_location w
  have hd := t.deed w
  generalize t.ended w = e at hd
  cases hd with
  | rest => exact Or.inl hr
  | walk l h => exact Or.inr h
  | turn degrees => exact Or.inl hr
  | jump line h => exact Or.inl hr

/-- An instruction changes neither species nor infection nor program, and the line only by
a jump. -/
theorem Turn.ended_frame (w : World) (t : Turn ρ) :
    (t.ended w).species = (t.ready w).species ∧
      (t.ended w).individual.infection = (t.ready w).individual.infection ∧
      (t.ended w).individual.program = (t.ready w).individual.program ∧
      (t.ended w).individual.programCounter = (t.ready w).individual.programCounter := by
  have hd := t.deed w
  generalize t.ended w = e at hd
  cases hd <;> exact ⟨rfl, rfl, rfl, rfl⟩

/-- A conversion decides the position of the cell that is converted. -/
theorem claim?_convert (w : World) (a : Actor) (v : Option Cell) (d : Decisions) (l : Location) :
    (convert w a v d).claim? l =
      match v with
      | none => d.claim? l
      | some cell =>
        if cell.location = l then some ⟨converted w a cell, .infected⟩ else d.claim? l := by
  cases v with
  | none => rfl
  | some cell => exact Decisions.claim?_occupy d (converted w a cell) .infected l

omit [WordSource ρ] in
/-- Concluding a turn claims the position where the actor is. -/
theorem claim?_conclude (origin : Location) (a : Actor) (s : Stage ρ) (l : Location) :
    (conclude origin a s).decisions.claim? l =
      if a.location = l then
        some ⟨.ofIndividual a.species a.location a.advanced,
          if a.location = origin then .stayed else .arrived⟩
      else s.decisions.claim? l := by
  unfold conclude
  dsimp only
  split
  next h =>
    rw [Decisions.claim?_occupy]
    rfl
  next h =>
    rw [Decisions.claim?_occupy, Decisions.claim?_vacate]
    rfl

omit [WordSource ρ] in
/-- Concluding a turn elsewhere than where it began leaves the origin. -/
theorem isVacated_conclude (origin : Location) (a : Actor) (s : Stage ρ) (l : Location) :
    (conclude origin a s).decisions.isVacated l =
      (decide (a.location ≠ origin ∧ origin = l) || s.decisions.isVacated l) := by
  unfold conclude
  dsimp only
  split
  next h => simp [h]
  next h => simp [h, Decisions.isVacated_vacate]

/-- The claims after a turn: where the turn has ended, where a cell has been converted, and
otherwise as before. -/
theorem claim?_takeTurn {w : World} {s : Stage ρ} {c : Cell} (h : hasTurn s c = true)
    (l : Location) :
    (takeTurn w s c).decisions.claim? l =
      if ((Turn.mk c s).ended w).location = l then some ((Turn.mk c s).claim w)
      else
        match (Turn.mk c s).victim? w with
        | none => s.decisions.claim? l
        | some v =>
          if v.location = l then some ⟨converted w ((Turn.mk c s).ready w) v, .infected⟩
          else s.decisions.claim? l := by
  have ha := (Turn.mk c s).decisions_act w
  rw [← claim?_convert, ← ha, takeTurn_of_hasTurn h]
  exact claim?_conclude c.location _ _ l

/-- The positions left after a turn: the one where the turn began, if it has ended
elsewhere, and those left before. -/
theorem isVacated_takeTurn {w : World} {s : Stage ρ} {c : Cell} (h : hasTurn s c = true)
    (l : Location) :
    (takeTurn w s c).decisions.isVacated l =
      (decide (((Turn.mk c s).ended w).location ≠ c.location ∧ c.location = l) ||
        s.decisions.isVacated l) := by
  have ha := (Turn.mk c s).decisions_act w
  have hv : (act w c s).2.decisions.isVacated l = s.decisions.isVacated l := by
    rw [ha]
    cases (Turn.mk c s).victim? w <;> rfl
  rw [takeTurn_of_hasTurn h, ← hv]
  exact isVacated_conclude c.location _ _ l

/-- Where a claim after a turn comes from. -/
theorem claim?_takeTurn_cases {w : World} {s : Stage ρ} {c : Cell} (h : hasTurn s c = true)
    {l : Location} {k : Claim} (hk : (takeTurn w s c).decisions.claim? l = some k) :
    (((Turn.mk c s).ended w).location = l ∧ k = (Turn.mk c s).claim w) ∨
      (∃ v, (Turn.mk c s).victim? w = some v ∧ v.location = l ∧
        k = ⟨converted w ((Turn.mk c s).ready w) v, .infected⟩) ∨
      s.decisions.claim? l = some k := by
  rw [claim?_takeTurn h] at hk
  split at hk
  next hl => exact Or.inl ⟨hl, (Option.some.inj hk).symm⟩
  next =>
    split at hk
    next => exact Or.inr (Or.inr hk)
    next v hv =>
      split at hk
      next hl => exact Or.inr (Or.inl ⟨v, hv, hl, (Option.some.inj hk).symm⟩)
      next => exact Or.inr (Or.inr hk)

/-- A claim may be replaced but is never given up. -/
theorem isSome_claim?_takeTurn (w : World) (s : Stage ρ) (c : Cell) {l : Location}
    (h : (s.decisions.claim? l).isSome = true) :
    ((takeTurn w s c).decisions.claim? l).isSome = true := by
  by_cases ht : hasTurn s c = true
  · rw [claim?_takeTurn ht]
    split
    · rfl
    · split
      · exact h
      · split
        · rfl
        · exact h
  · rw [takeTurn, if_neg ht]
    exact h

omit [WordSource ρ] in
/-- Turns are for individuals whose position has no claim. -/
theorem hasTurn_iff {s : Stage ρ} {c : Cell} :
    hasTurn s c = true ↔ c.isEmpty = false ∧ s.decisions.claim? c.location = none := by
  rw [hasTurn, Decisions.isFinal_eq_isSome_claim?]
  cases c.isEmpty <;> cases s.decisions.claim? c.location <;> simp

/-- A cell that has no turn changes nothing. -/
theorem takeTurn_of_not_hasTurn {w : World} {s : Stage ρ} {c : Cell} (h : hasTurn s c ≠ true) :
    takeTurn w s c = s := by
  rw [takeTurn, if_neg h]

end CellularAutomata.Darwin
