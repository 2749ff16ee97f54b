import CellularAutomata.Darwin.Rules
import CellularAutomata.Proofs.Darwin.Rays

/-!
# Effects of instructions

All that an instruction can do to its actor and to the decisions of the tick. The actor
walks to a position that may be entered, turns, jumps within its program or is left as it
is; a single cell may be converted, and only by an actor that is left as it is. Whatever
else is known about turns is derived from these facts.
-/

namespace CellularAutomata.Darwin

/-- Positions that may be entered: empty before the tick, and neither taken nor left
during it. -/
structure Enterable (g : Grid) (d : Decisions) (l : Location) : Prop where
  /-- Nobody has taken or left the position. -/
  available : d.isUnavailable l = false
  /-- The position was empty before the tick. -/
  empty : g.stateAt l = some emptyState

/-- What an instruction can make of its actor. -/
inductive Deed (w : World) (d : Decisions) (a : Actor) : Actor → Prop where
  /-- The actor is left as it is. -/
  | rest : Deed w d a a
  /-- The actor has moved. -/
  | walk (l : Location) (h : Enterable w.grid d l) : Deed w d a { a with location := l }
  /-- The actor has turned. -/
  | turn (degrees : Int) : Deed w d a { a with individual := a.individual.turn degrees }
  /-- The actor jumps to a line of its program. -/
  | jump (line : Nat) (h : line < a.individual.program.length) :
      Deed w d a { a with jump := some line }

/-- The cell that the instruction of an actor converts, if it converts one. -/
def target? (w : World) (a : Actor) (d : Decisions) : Option Cell :=
  match a.individual.program.instructions[a.individual.programCounter]? with
  | none => none
  | some i =>
    match i.opcode, i.count with
    | .ok .infect, .ok count =>
      firstAhead w.grid a (victim? w.grid d a.species) (min count (sightLimit w.grid))
    | _, _ => none

/-- The decisions after a conversion, if there is one. -/
def convert (w : World) (a : Actor) (victim : Option Cell) (d : Decisions) : Decisions :=
  match victim with
  | none => d
  | some cell => d.occupy (converted w a cell) .infected

variable {ρ : Type}

/-- A walk ends where it began or at a position that may be entered. -/
theorem walk_eq_or_enterable (g : Grid) (d : Decisions) (heading : Int × Int) (count : Nat)
    (visited : Std.ExtTreeSet Location) (l : Location) :
    walk g d heading visited count l = l ∨ Enterable g d (walk g d heading visited count l) := by
  induction count generalizing visited l with
  | zero => exact Or.inl rfl
  | succ count ih =>
    rw [walk]
    split
    next => exact Or.inl rfl
    next next _ =>
      split
      next => exact Or.inl rfl
      next hfree =>
        simp only [Bool.or_eq_true, bne_iff_ne, ne_eq, not_or, Decidable.not_not,
          Bool.not_eq_true] at hfree
        rcases ih (visited.insert next) next with hstop | hfurther
        · rw [hstop]
          exact Or.inr ⟨hfree.1.2, hfree.2⟩
        · exact Or.inr hfurther

/-- Moving changes where the actor is and nothing else. -/
theorem performMove_spec (w : World) (i : Instruction) (a : Actor) (s : Stage ρ) :
    Deed w s.decisions a (performMove w i a s).actor ∧ (performMove w i a s).stage = s := by
  rw [performMove]
  split
  next => exact ⟨.rest, rfl⟩
  next count _ =>
    refine ⟨?_, rfl⟩
    dsimp only
    rcases walk_eq_or_enterable w.grid s.decisions a.individual.heading count
      ((∅ : Std.ExtTreeSet Location).insert a.location) a.location with hstay | hgo
    · rw [hstay]
      exact .rest
    · exact .walk _ hgo

/-- Turning changes the orientation of the actor and nothing else. -/
theorem performTurn_spec (sign : Int) (w : World) (i : Instruction) (a : Actor) (s : Stage ρ) :
    Deed w s.decisions a (performTurn sign w i a s).actor ∧
      (performTurn sign w i a s).stage = s := by
  rw [performTurn]
  split
  next => exact ⟨.rest, rfl⟩
  next => exact ⟨.turn _, rfl⟩

/-- A jump target is a line of the program. -/
theorem target_lt {i : Instruction} {length line : Nat} (h : i.target length = .ok line) :
    line < length := by
  unfold Instruction.target at h
  split at h
  next => cases h
  next n _ =>
    split at h
    next => cases h
    next hn =>
      have hline := Except.ok.inj h
      omega

/-- Jumping changes where the actor continues and nothing else. -/
theorem performGo_spec (w : World) (i : Instruction) (a : Actor) (s : Stage ρ) :
    Deed w s.decisions a (performGo i a s).actor ∧ (performGo i a s).stage = s := by
  rw [performGo]
  split
  next => exact ⟨.rest, rfl⟩
  next line hline => exact ⟨.jump line (target_lt hline), rfl⟩

/-- Converting leaves the actor as it is. -/
theorem performInfect_actor (w : World) (i : Instruction) (a : Actor) (s : Stage ρ) :
    (performInfect w i a s).actor = a := by
  rw [performInfect]
  split
  next => rfl
  next =>
    dsimp only
    split <;> rfl

/-- Converting decides the cell that is converted and nothing else. -/
theorem performInfect_decisions (w : World) (i : Instruction) (a : Actor) (s : Stage ρ) :
    (performInfect w i a s).stage.decisions =
      match i.count with
      | .error _ => s.decisions
      | .ok count => convert w a (firstAhead w.grid a (victim? w.grid s.decisions a.species)
          (min count (sightLimit w.grid))) s.decisions := by
  rw [performInfect]
  cases i.count with
  | error fault => rfl
  | ok count =>
    dsimp only
    cases firstAhead w.grid a (victim? w.grid s.decisions a.species)
      (min count (sightLimit w.grid)) with
    | none => rfl
    | some cell => rfl

variable [WordSource ρ]

/-- A conditional jump can change where the actor continues, and decides nothing. -/
theorem performBranch_spec (condition : Condition) (w : World) (i : Instruction) (a : Actor)
    (s : Stage ρ) :
    Deed w s.decisions a (performBranch condition w i a s).actor ∧
      (performBranch condition w i a s).stage.decisions = s.decisions := by
  unfold performBranch
  split
  next => exact ⟨.rest, rfl⟩
  next line hline =>
    refine ⟨?_, rfl⟩
    -- the outer match tells a coin from a look ahead, the inner one how it came out
    dsimp only
    split <;> split
    all_goals first | exact .jump line (target_lt hline) | exact .rest

/-- A conditional jump that throws no coin is made if the condition is met ahead. -/
theorem performBranch_actor {condition : Condition} (h : condition ≠ .random) (w : World)
    {i : Instruction} {a : Actor} {line : Nat}
    (hline : i.target a.individual.program.length = .ok line) (s : Stage ρ) :
    (performBranch condition w i a s).actor =
      if meets w.grid s.decisions a (condition.accepts a.species) 1 w.settings.layers then
        { a with jump := some line }
      else a := by
  cases condition with
  | random => exact absurd rfl h
  | _ => simp only [performBranch, hline]

/-- An instruction does one deed. -/
theorem perform_deed (w : World) (opcode : Opcode) (i : Instruction) (a : Actor) (s : Stage ρ) :
    Deed w s.decisions a (perform w opcode i a s).actor := by
  cases opcode with
  | move => exact (performMove_spec w i a s).1
  | left => exact (performTurn_spec 1 w i a s).1
  | right => exact (performTurn_spec (-1) w i a s).1
  | infect =>
    change Deed w s.decisions a (performInfect w i a s).actor
    rw [performInfect_actor]
    exact .rest
  | go => exact (performGo_spec w i a s).1
  | ifEmpty => exact (performBranch_spec .empty w i a s).1
  | ifWall => exact (performBranch_spec .wall w i a s).1
  | ifSame => exact (performBranch_spec .same w i a s).1
  | ifEnemy => exact (performBranch_spec .enemy w i a s).1
  | ifRandom => exact (performBranch_spec .random w i a s).1

/-- Only a conversion decides anything. -/
theorem perform_decisions_of_ne_infect (w : World) {opcode : Opcode} (h : opcode ≠ .infect)
    (i : Instruction) (a : Actor) (s : Stage ρ) :
    (perform w opcode i a s).stage.decisions = s.decisions := by
  cases opcode with
  | infect => exact absurd rfl h
  | move => exact congrArg Stage.decisions (performMove_spec w i a s).2
  | left => exact congrArg Stage.decisions (performTurn_spec 1 w i a s).2
  | right => exact congrArg Stage.decisions (performTurn_spec (-1) w i a s).2
  | go => exact congrArg Stage.decisions (performGo_spec w i a s).2
  | ifEmpty => exact (performBranch_spec .empty w i a s).2
  | ifWall => exact (performBranch_spec .wall w i a s).2
  | ifSame => exact (performBranch_spec .same w i a s).2
  | ifEnemy => exact (performBranch_spec .enemy w i a s).2
  | ifRandom => exact (performBranch_spec .random w i a s).2

/-- An actor does one deed in its turn. -/
theorem execute_deed (w : World) (a : Actor) (s : Stage ρ) :
    Deed w s.decisions a (execute w a s).1 := by
  unfold execute
  split
  next => exact .rest
  next i _ =>
    split
    next => exact .rest
    next opcode _ =>
      have hdeed := perform_deed w opcode i a s
      dsimp only
      split <;> exact hdeed

/-- What an actor decides in its turn is what its instruction decides. -/
theorem execute_decisions_eq_perform {w : World} {a : Actor} {i : Instruction} {opcode : Opcode}
    (hi : a.individual.program.instructions[a.individual.programCounter]? = some i)
    (ho : i.opcode = .ok opcode) (s : Stage ρ) :
    (execute w a s).2.decisions = (perform w opcode i a s).stage.decisions := by
  unfold execute
  simp only [hi, ho]
  split <;> rfl

/-- What becomes of an actor in its turn is what its instruction makes of it. -/
theorem execute_fst_eq_perform {w : World} {a : Actor} {i : Instruction} {opcode : Opcode}
    (hi : a.individual.program.instructions[a.individual.programCounter]? = some i)
    (ho : i.opcode = .ok opcode) (s : Stage ρ) :
    (execute w a s).1 = (perform w opcode i a s).actor := by
  unfold execute
  simp only [hi, ho]
  split <;> rfl

/-- An actor decides nothing in its turn but the cell that it converts. -/
theorem execute_decisions (w : World) (a : Actor) (s : Stage ρ) :
    (execute w a s).2.decisions = convert w a (target? w a s.decisions) s.decisions := by
  rw [target?]
  cases hi : a.individual.program.instructions[a.individual.programCounter]? with
  | none =>
    unfold execute
    simp only [hi]
    rfl
  | some i =>
    dsimp only
    cases ho : i.opcode with
    | error fault =>
      unfold execute
      simp only [hi, ho]
      rfl
    | ok opcode =>
      rw [execute_decisions_eq_perform hi ho]
      by_cases hinfect : opcode = .infect
      · subst hinfect
        change (performInfect w i a s).stage.decisions = _
        rw [performInfect_decisions]
        cases i.count with
        | error fault => rfl
        | ok count => rfl
      · rw [perform_decisions_of_ne_infect w hinfect]
        split
        next heq _ => exact absurd (Except.ok.inj heq) hinfect
        next => rfl

/-- An actor that looks for somebody to convert is left as it is. -/
theorem execute_fst_of_infect {w : World} {a : Actor} {s : Stage ρ} {i : Instruction}
    (hi : a.individual.program.instructions[a.individual.programCounter]? = some i)
    (ho : i.opcode = .ok .infect) : (execute w a s).1 = a := by
  rw [execute_fst_eq_perform hi ho]
  exact performInfect_actor w i a s

/-- An actor that converts a cell is left as it is. -/
theorem execute_fst_of_target? {w : World} {a : Actor} {s : Stage ρ} {cell : Cell}
    (h : target? w a s.decisions = some cell) : (execute w a s).1 = a := by
  rw [target?] at h
  split at h
  next => cases h
  next i hi =>
    split at h
    next ho _ => exact execute_fst_of_infect hi ho
    next => cases h

/-- A cell that is converted is a possible victim at some position. -/
theorem exists_victim?_of_target? {w : World} {a : Actor} {d : Decisions} {cell : Cell}
    (h : target? w a d = some cell) : ∃ l, victim? w.grid d a.species l = some cell := by
  rw [target?] at h
  split at h
  next => cases h
  next =>
    split at h
    next =>
      obtain ⟨distance, -, hfound, -⟩ := firstAlong_eq_some_iff.mp h
      obtain ⟨l, -, hl⟩ := Option.bind_eq_some_iff.mp hfound
      exact ⟨l, hl⟩
    next => cases h

/-- At a position that nobody has left, entered or converted, a possible victim is an
individual of another species that is not infected. -/
theorem victim?_of_available {g : Grid} {d : Decisions} {l : Location}
    (hv : d.isVacated l = false) (hk : ∀ k, d.claim? l = some k → k.kind = .stayed)
    (species : Nat) :
    victim? g d species l = (d.current g l).filter fun cell =>
      !(cell.isEmpty || cell.state == species || cell.individual?.any Individual.isInfected) := by
  have hclaim : ((d.claim? l).any fun claim => claim.kind != .stayed) = false := by
    cases h : d.claim? l with
    | none => rfl
    | some k => simp [hk k h]
  rw [victim?, hv, hclaim]
  cases d.current g l with
  | none => rfl
  | some cell =>
    rw [if_neg Bool.false_ne_true, if_neg Bool.false_ne_true, Option.filter]
    by_cases hc : (cell.isEmpty || cell.state == species ||
        cell.individual?.any Individual.isInfected) = true
    · simp only [hc, if_true, Bool.not_true, Bool.false_eq_true, if_false]
    · simp only [Bool.not_eq_true] at hc
      simp only [hc, Bool.false_eq_true, if_false, Bool.not_false, if_true]

/-- A possible victim is seen at a position that nobody has left, entered or converted. -/
theorem available_of_victim? {g : Grid} {d : Decisions} {species : Nat} {l : Location}
    {cell : Cell} (h : victim? g d species l = some cell) :
    d.isVacated l = false ∧ ∀ k, d.claim? l = some k → k.kind = .stayed := by
  unfold victim? at h
  split at h
  next => cases h
  next hv =>
    split at h
    next => cases h
    next hclaim =>
      refine ⟨by simpa using hv, ?_⟩
      intro k hk
      simpa [hk] using hclaim

/-- What is known of a possible victim, and what makes a cell one. -/
theorem victim?_eq_some_iff {g : Grid} {d : Decisions} {species : Nat} {l : Location}
    {cell : Cell} :
    victim? g d species l = some cell ↔
      (d.isVacated l = false ∧ ∀ k, d.claim? l = some k → k.kind = .stayed) ∧
        d.current g l = some cell ∧ cell.isEmpty = false ∧ cell.state ≠ species ∧
          ∀ i, cell.individual? = some i → i.isInfected = false := by
  constructor
  · intro h
    have ha := available_of_victim? h
    rw [victim?_of_available ha.1 ha.2, Option.filter_eq_some_iff] at h
    refine ⟨ha, h.1, ?_⟩
    have hcell := h.2
    cases hi : cell.individual? <;> simp_all
  · rintro ⟨ha, hc, he, hs, hi⟩
    rw [victim?_of_available ha.1 ha.2, Option.filter_eq_some_iff]
    refine ⟨hc, ?_⟩
    cases hind : cell.individual? <;> simp_all

end CellularAutomata.Darwin
