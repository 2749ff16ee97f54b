import CellularAutomata.Proofs.Darwin.Failures
import Mathlib.Logic.Function.Iterate

/-!
# Chance in a Darwin world

Chance enters a Darwin world only where an individual throws a coin to decide whether it jumps,
and it throws one only if the jump leads to a line of its program. Whoever throws no coins acts
the same whatever the source of chance is.
-/

namespace CellularAutomata.Darwin

/-- An actor throws a coin: its instruction is a random jump to a line of its program. Lines are
counted from one here. -/
def Actor.Throws (a : Actor) : Prop :=
  ∃ i line, a.individual.program.instructions[a.individual.programCounter]? = some i ∧
    i.opcode = .ok .ifRandom ∧ i.argument 0 = .ok line ∧
    1 ≤ line ∧ line ≤ a.individual.program.length

/-- Whether an instruction of a program with `length` lines throws a coin. -/
def throwsCoin (opcode : Opcode) (i : Instruction) (length : Nat) : Bool :=
  match opcode, i.target length with
  | .ifRandom, .ok _ => true
  | _, _ => false

/-- Whether an actor throws a coin, found out in the order in which it would do so. -/
def Actor.throws (a : Actor) : Bool :=
  match a.individual.program.instructions[a.individual.programCounter]? with
  | none => false
  | some i =>
    match i.opcode with
    | .error _ => false
    | .ok opcode => throwsCoin opcode i a.individual.program.length

/-- A coin is thrown by a random jump to a line of the program. -/
theorem throwsCoin_iff {opcode : Opcode} {i : Instruction} {length : Nat} :
    throwsCoin opcode i length = true ↔
      opcode = .ifRandom ∧ ∃ line, i.argument 0 = .ok line ∧ 1 ≤ line ∧ line ≤ length := by
  rw [← Instruction.exists_target_iff]
  unfold throwsCoin
  cases opcode with
  | ifRandom => cases i.target length <;> simp
  | _ => simp

/-- It is found out whether an actor throws a coin. -/
theorem Actor.throws_iff {a : Actor} : a.throws = true ↔ a.Throws := by
  rw [throws, Throws]
  cases a.individual.program.instructions[a.individual.programCounter]? with
  | none => simp
  | some i =>
    dsimp only
    constructor
    · intro h
      split at h
      next => cases h
      next opcode hopcode =>
        obtain ⟨rfl, line, hline⟩ := throwsCoin_iff.mp h
        exact ⟨i, line, rfl, hopcode, hline⟩
    · rintro ⟨i', line, hi, hopcode, hline⟩
      obtain rfl := Option.some.inj hi
      rw [hopcode]
      exact throwsCoin_iff.mpr ⟨rfl, line, hline⟩

instance (a : Actor) : Decidable a.Throws := decidable_of_iff _ Actor.throws_iff

variable {ρ : Type}

/-- A coin is thrown in a turn. -/
def Turn.Throws (w : World) (t : Turn ρ) : Prop := (t.ready w).Throws

instance (w : World) : DecidablePred (Turn.Throws (ρ := ρ) w) :=
  fun t => inferInstanceAs (Decidable (t.ready w).Throws)

variable [WordSource ρ]

/-- The source after two words have been drawn. -/
def afterCoin (source : ρ) : ρ := (WordSource.next (WordSource.next source).2).2

/-- A coin is made of two words. -/
theorem coin_source (source : ρ) : (WordSource.coin source).2 = afterCoin source := rfl

/-- A conditional jump whose condition is no coin draws nothing. -/
theorem performBranch_source (condition : Condition) (w : World) (i : Instruction) (a : Actor)
    (s : Stage ρ) (hcondition : condition ≠ .random) :
    (performBranch condition w i a s).stage.source = s.source := by
  unfold performBranch
  split
  next => rfl
  next => cases condition <;> first | rfl | exact absurd rfl hcondition

omit [WordSource ρ] in
/-- Converting draws nothing. -/
theorem performInfect_source (w : World) (i : Instruction) (a : Actor) (s : Stage ρ) :
    (performInfect w i a s).stage.source = s.source := by
  unfold performInfect
  split
  next => rfl
  next =>
    dsimp only
    split <;> rfl

/-- An instruction that throws a coin draws two words from the source, and any other one nothing. -/
theorem perform_source (w : World) (opcode : Opcode) (i : Instruction) (a : Actor) (s : Stage ρ) :
    (perform w opcode i a s).stage.source =
      bif throwsCoin opcode i a.individual.program.length then afterCoin s.source
      else s.source := by
  cases opcode with
  | move => exact congrArg Stage.source (performMove_spec w i a s).2
  | left => exact congrArg Stage.source (performTurn_spec 1 w i a s).2
  | right => exact congrArg Stage.source (performTurn_spec (-1) w i a s).2
  | infect => exact performInfect_source w i a s
  | go => exact congrArg Stage.source (performGo_spec w i a s).2
  | ifEmpty => exact performBranch_source .empty w i a s nofun
  | ifWall => exact performBranch_source .wall w i a s nofun
  | ifSame => exact performBranch_source .same w i a s nofun
  | ifEnemy => exact performBranch_source .enemy w i a s nofun
  | ifRandom =>
    unfold perform performBranch throwsCoin
    rw [← coin_source]
    generalize WordSource.coin s.source = toss
    cases i.target a.individual.program.length <;> rfl

/-- An actor that throws a coin draws two words from the source, and any other one nothing. -/
theorem execute_source (w : World) (a : Actor) (s : Stage ρ) :
    (execute w a s).2.source = if a.Throws then afterCoin s.source else s.source := by
  have hthrows : (if a.Throws then afterCoin s.source else s.source) =
      bif a.throws then afterCoin s.source else s.source := by
    rw [Bool.cond_eq_ite]
    exact if_congr Actor.throws_iff.symm rfl rfl
  rw [hthrows, Actor.throws, execute]
  cases a.individual.program.instructions[a.individual.programCounter]? with
  | none => rfl
  | some i =>
    dsimp only
    cases i.opcode with
    | error fault => rfl
    | ok opcode =>
      have hsource := perform_source w opcode i a s
      dsimp only
      cases (perform w opcode i a s).fault with
      | none => exact hsource
      | some fault => exact hsource

omit [WordSource ρ] in
/-- The course of an infection draws nothing. -/
theorem advanceInfection_source (w : World) (a : Actor) (s : Stage ρ) :
    (advanceInfection w a s).2.source = s.source := by
  unfold advanceInfection
  split
  next => rfl
  next => split <;> rfl

omit [WordSource ρ] in
/-- Concluding a turn draws nothing. -/
theorem conclude_source (origin : Location) (a : Actor) (s : Stage ρ) :
    (conclude origin a s).source = s.source := by
  unfold conclude
  dsimp only
  split <;> rfl

/-- A turn in which a coin is thrown draws two words from the source, and any other one nothing. -/
theorem takeTurn_source {w : World} {s : Stage ρ} {c : Cell} (h : hasTurn s c = true) :
    (takeTurn w s c).source =
      if (Turn.mk c s).Throws w then afterCoin s.source else s.source := by
  rw [takeTurn_of_hasTurn h, conclude_source, act_eq, execute_source, advanceInfection_source]
  rfl

/-- Calling cells draws two words from the source for each coin that is thrown in their turns. -/
theorem stageAfter_source (w : World) (cells : List Cell) (s : Stage ρ) :
    (stageAfter w cells s).source =
      afterCoin^[(turnsFrom w cells s).countP (Turn.Throws w ·)] s.source := by
  induction cells generalizing s with
  | nil => rfl
  | cons c cells ih =>
    rw [turnsFrom]
    refine (ih (takeTurn w s c)).trans ?_
    by_cases hturn : hasTurn s c = true
    · rw [if_pos hturn, takeTurn_source hturn, List.countP_cons]
      by_cases hthrows : (Turn.mk c s).Throws w
      · simp only [hthrows, if_true, decide_true, Function.iterate_succ_apply]
      · simp only [hthrows, if_false, decide_false, Bool.false_eq_true, Nat.add_zero]
    · rw [if_neg hturn, takeTurn_of_not_hasTurn hturn]

/-- In a turn something else is run than a random jump. -/
def Turn.Calm (w : World) (t : Turn ρ) : Prop :=
  ∀ i, t.instruction? w = some i → i.opcode ≠ .ok .ifRandom

omit [WordSource ρ] in
/-- No coin is thrown in a calm turn. -/
theorem Turn.Calm.not_throws {w : World} {t : Turn ρ} (h : t.Calm w) : ¬ t.Throws w := by
  rintro ⟨i, line, hi, hrandom, -⟩
  exact h i hi hrandom

variable {σ : Type} [WordSource σ] {w : World} {s : Stage ρ} {s' : Stage σ}

/-- What an actor comes to depends on the source only when it runs a random jump. -/
theorem perform_actor_agrees (hd : s'.decisions = s.decisions) {opcode : Opcode}
    (hne : opcode ≠ .ifRandom) (i : Instruction) (a : Actor) :
    (perform w opcode i a s').actor = (perform w opcode i a s).actor := by
  have hbranch : ∀ condition, condition ≠ .random →
      (performBranch condition w i a s').actor = (performBranch condition w i a s).actor := by
    intro condition hcondition
    unfold performBranch
    split
    next => rfl
    next =>
      rw [hd]
      cases condition <;> first | rfl | exact absurd rfl hcondition
  have hturn : ∀ sign, (performTurn sign w i a s').actor = (performTurn sign w i a s).actor := by
    intro sign
    unfold performTurn
    split <;> rfl
  cases opcode with
  | move =>
    change (performMove w i a s').actor = (performMove w i a s).actor
    unfold performMove
    cases i.count with
    | error fault => rfl
    | ok count =>
      dsimp only
      rw [hd]
  | left => exact hturn 1
  | right => exact hturn (-1)
  | infect => exact (performInfect_actor w i a s').trans (performInfect_actor w i a s).symm
  | go =>
    change (performGo i a s').actor = (performGo i a s).actor
    unfold performGo
    split <;> rfl
  | ifEmpty => exact hbranch .empty nofun
  | ifWall => exact hbranch .wall nofun
  | ifSame => exact hbranch .same nofun
  | ifEnemy => exact hbranch .enemy nofun
  | ifRandom => exact absurd rfl hne

/-- An actor that runs something else than a random jump comes to the same from every
source. -/
theorem execute_fst_agrees (hd : s'.decisions = s.decisions) {a : Actor}
    (hcalm : ∀ i, a.individual.program.instructions[a.individual.programCounter]? = some i →
      i.opcode ≠ .ok .ifRandom) : (execute w a s').1 = (execute w a s).1 := by
  rw [execute, execute]
  cases hi : a.individual.program.instructions[a.individual.programCounter]? with
  | none => rfl
  | some i =>
    dsimp only
    cases hopcode : i.opcode with
    | error fault => rfl
    | ok opcode =>
      have hne : opcode ≠ .ifRandom := by
        rintro rfl
        exact hcalm i hi hopcode
      have hactor := perform_actor_agrees (w := w) hd hne i a
      dsimp only
      split <;> split <;> exact hactor

omit [WordSource ρ] [WordSource σ] in
/-- The course of an infection does not depend on the stage. -/
theorem advanceInfection_fst_agrees (w : World) (a : Actor) (s : Stage ρ) (s' : Stage σ) :
    (advanceInfection w a s').1 = (advanceInfection w a s).1 := by
  unfold advanceInfection
  split
  next => rfl
  next => split <;> rfl

omit [WordSource ρ] [WordSource σ] in
/-- Concluding a turn decides the same, whatever the source. -/
theorem conclude_agrees (hd : s'.decisions = s.decisions) (origin : Location) (a : Actor) :
    (conclude origin a s').decisions = (conclude origin a s).decisions := by
  unfold conclude
  dsimp only
  split <;> simp only [hd]

omit [WordSource ρ] [WordSource σ] in
/-- Who has a turn depends on what has been decided alone. -/
theorem hasTurn_agrees (hd : s'.decisions = s.decisions) (c : Cell) :
    hasTurn s' c = hasTurn s c := by
  rw [hasTurn, hasTurn, hd]

omit [WordSource ρ] [WordSource σ] in
/-- Whether the numbers of a turn fit depends on what has been decided alone. -/
theorem turnFits_agrees (hd : s'.decisions = s.decisions) (c : Cell) :
    turnFits w s' c = turnFits w s c := by
  rw [turnFits, turnFits, hasTurn_agrees hd, hd,
    advanceInfection_fst_agrees w (actorOf w c) s s']

/-- A calm turn decides the same, whatever the source. -/
theorem takeTurn_agrees (hd : s'.decisions = s.decisions) {c : Cell}
    (hcalm : hasTurn s c = true → (Turn.mk c s).Calm w) :
    (takeTurn w s' c).decisions = (takeTurn w s c).decisions := by
  have hcalled := hasTurn_agrees hd c
  by_cases hturn : hasTurn s c = true
  · have hready := advanceInfection_fst_agrees w (actorOf w c) s s'
    have hframe := (advanceInfection_frame w (actorOf w c) s).2
    have hframe' := (advanceInfection_frame w (actorOf w c) s').2
    -- The course of the infection may report something, but it decides nothing.
    have hd' : (advanceInfection w (actorOf w c) s').2.decisions =
        (advanceInfection w (actorOf w c) s).2.decisions := hframe'.trans (hd.trans hframe.symm)
    have hactor : (act w c s').1 = (act w c s).1 := by
      rw [act_eq, act_eq, hready]
      exact execute_fst_agrees hd' (hcalm hturn)
    have hdecisions : (act w c s').2.decisions = (act w c s).2.decisions := by
      rw [act_eq, act_eq, hready, execute_decisions, execute_decisions, hd']
    rw [takeTurn_of_hasTurn hturn, takeTurn_of_hasTurn (hcalled.trans hturn), Turn.ended,
      Turn.ended, hactor]
    exact conclude_agrees hdecisions c.location (act w c s).1
  · rw [takeTurn_of_not_hasTurn hturn, takeTurn_of_not_hasTurn (hcalled ▸ hturn)]
    exact hd

/-- Calm turns, one after the other, decide the same, whatever the source, and they come upon
the same numbers. -/
theorem stageAfter_agrees (hd : s'.decisions = s.decisions) {cells : List Cell}
    (hcalm : ∀ t ∈ turnsFrom w cells s, t.Calm w) :
    (stageAfter w cells s').decisions = (stageAfter w cells s).decisions ∧
      turnsFit w cells s' = turnsFit w cells s := by
  induction cells generalizing s s' with
  | nil => exact ⟨hd, rfl⟩
  | cons c cells ih =>
    rw [turnsFrom] at hcalm
    have hfirst : hasTurn s c = true → (Turn.mk c s).Calm w := by
      intro hturn
      rw [if_pos hturn] at hcalm
      exact hcalm _ (List.mem_cons_self ..)
    have hrest : ∀ t ∈ turnsFrom w cells (takeTurn w s c), t.Calm w := by
      intro t ht
      split at hcalm
      next => exact hcalm t (List.mem_cons_of_mem _ ht)
      next => exact hcalm t ht
    obtain ⟨hend, hfit⟩ := ih (takeTurn_agrees hd hfirst) hrest
    refine ⟨hend, ?_⟩
    rw [turnsFit, turnsFit, turnFits_agrees hd, hfit]

end CellularAutomata.Darwin
