import CellularAutomata.Proofs.Darwin.Soundness
import CellularAutomata.Proofs.Species.Check

/-!
# Failures

A turn fails if there is no instruction to run, if the operation is not known, or if the
argument is of no use to it. The program of the individual and the line where it is
decide which, a failure is reported exactly for the turns that fail, and no program that
the check accepts fails at one of its lines. Since individuals are sound, this is so for
whole runs.
-/

namespace CellularAutomata.Darwin

/-- Whether an event says that an instruction has not been carried out. -/
def reportsFailure : Event → Bool
  | .nothingToRun _ _ | .instructionSkipped _ _ | .instructionFailed _ _ _ _ => true
  | _ => false

/-- What is reported of an actor whose instruction cannot be carried out. -/
def Actor.failure? (a : Actor) : Option Event :=
  match a.individual.program.instructions[a.individual.programCounter]? with
  | none => some (.nothingToRun a.location a.species)
  | some i =>
    match i.opcode with
    | .error fault => some (.instructionSkipped a.location fault)
    | .ok opcode =>
      (i.argumentFault? opcode a.individual.program.length).map
        (.instructionFailed a.location a.species i)

variable {ρ : Type}

/-- The failures that have been reported so far. -/
def Stage.failures (s : Stage ρ) : List Event := s.events.toList.filter reportsFailure

/-- The failure that is reported in a turn, if it fails. -/
def Turn.failure? (w : World) (t : Turn ρ) : Option Event := (t.ready w).failure?

/-- The stage when the individual comes to its instruction. -/
def Turn.readyStage (w : World) (t : Turn ρ) : Stage ρ :=
  (advanceInfection w (actorOf w t.cell) t.stage).2

/-- A turn in which there is an instruction, its operation is known, and it is carried
out. -/
def Turn.Succeeds [WordSource ρ] (w : World) (t : Turn ρ) : Prop :=
  ∃ i opcode, t.instruction? w = some i ∧ i.opcode = .ok opcode ∧
    (perform w opcode i (t.ready w) (t.readyStage w)).fault = none

/-- The outcome of an instruction whose argument has a fault or has none: with a fault it
is noted and all is as it was, without one nothing goes wrong. -/
def Heeds (fault? : Option InstructionFault) (a : Actor) (s : Stage ρ) (e : Execution ρ) :
    Prop :=
  match fault? with
  | some fault => e = ⟨a, s, some fault⟩
  | none => e.fault = none

/-- Moving depends on a count. -/
theorem performMove_heeds (w : World) (i : Instruction) (a : Actor) (s : Stage ρ) :
    Heeds (faultOf? i.count) a s (performMove w i a s) := by
  rw [performMove]
  cases i.count <;> rfl

/-- Turning depends on a count. -/
theorem performTurn_heeds (sign : Int) (w : World) (i : Instruction) (a : Actor)
    (s : Stage ρ) : Heeds (faultOf? i.count) a s (performTurn sign w i a s) := by
  rw [performTurn]
  cases i.count <;> rfl

/-- Jumping depends on a target. -/
theorem performGo_heeds (i : Instruction) (a : Actor) (s : Stage ρ) :
    Heeds (faultOf? (i.target a.individual.program.length)) a s (performGo i a s) := by
  rw [performGo]
  cases i.target a.individual.program.length <;> rfl

/-- Converting depends on a count, and not on whether there is a victim. -/
theorem performInfect_heeds (w : World) (i : Instruction) (a : Actor) (s : Stage ρ) :
    Heeds (faultOf? i.count) a s (performInfect w i a s) := by
  rw [performInfect]
  cases i.count with
  | error fault => rfl
  | ok count =>
    dsimp only [Heeds, faultOf?]
    split <;> rfl

/-- Converting reports no failure. -/
theorem performInfect_failures (w : World) (i : Instruction) (a : Actor) (s : Stage ρ) :
    (performInfect w i a s).stage.failures = s.failures := by
  rw [performInfect]
  split
  next => rfl
  next =>
    dsimp only
    split
    next => rfl
    next => simp [Stage.failures, Stage.log, reportsFailure]

variable [WordSource ρ]

/-- Jumping under a condition depends on a target, whether the condition holds or not. -/
theorem performBranch_heeds (condition : Condition) (w : World) (i : Instruction) (a : Actor)
    (s : Stage ρ) :
    Heeds (faultOf? (i.target a.individual.program.length)) a s
      (performBranch condition w i a s) := by
  unfold performBranch
  cases i.target a.individual.program.length <;> rfl

/-- Jumping under a condition reports nothing. -/
theorem performBranch_events (condition : Condition) (w : World) (i : Instruction) (a : Actor)
    (s : Stage ρ) : (performBranch condition w i a s).stage.events = s.events := by
  unfold performBranch
  split <;> rfl

/-- An instruction with a known operation depends on its argument alone. -/
theorem perform_heeds (w : World) (opcode : Opcode) (i : Instruction) (a : Actor)
    (s : Stage ρ) :
    Heeds (i.argumentFault? opcode a.individual.program.length) a s
      (perform w opcode i a s) := by
  cases opcode with
  | move => exact performMove_heeds w i a s
  | left => exact performTurn_heeds 1 w i a s
  | right => exact performTurn_heeds (-1) w i a s
  | infect => exact performInfect_heeds w i a s
  | go => exact performGo_heeds i a s
  | ifEmpty => exact performBranch_heeds .empty w i a s
  | ifWall => exact performBranch_heeds .wall w i a s
  | ifSame => exact performBranch_heeds .same w i a s
  | ifEnemy => exact performBranch_heeds .enemy w i a s
  | ifRandom => exact performBranch_heeds .random w i a s

/-- An instruction reports no failure by itself. -/
theorem perform_failures (w : World) (opcode : Opcode) (i : Instruction) (a : Actor)
    (s : Stage ρ) : (perform w opcode i a s).stage.failures = s.failures := by
  have hbranch : ∀ condition,
      (performBranch condition w i a s).stage.failures = s.failures := by
    intro condition
    rw [Stage.failures, performBranch_events, Stage.failures]
  cases opcode with
  | move => exact congrArg Stage.failures (performMove_spec w i a s).2
  | left => exact congrArg Stage.failures (performTurn_spec 1 w i a s).2
  | right => exact congrArg Stage.failures (performTurn_spec (-1) w i a s).2
  | infect => exact performInfect_failures w i a s
  | go => exact congrArg Stage.failures (performGo_spec w i a s).2
  | ifEmpty => exact hbranch .empty
  | ifWall => exact hbranch .wall
  | ifSame => exact hbranch .same
  | ifEnemy => exact hbranch .enemy
  | ifRandom => exact hbranch .random

/-- What has gone wrong with an instruction is what is wrong with its argument. -/
theorem perform_fault (w : World) (opcode : Opcode) (i : Instruction) (a : Actor)
    (s : Stage ρ) :
    (perform w opcode i a s).fault = i.argumentFault? opcode a.individual.program.length := by
  have h := perform_heeds w opcode i a s
  cases hf : i.argumentFault? opcode a.individual.program.length with
  | some fault =>
    rw [hf] at h
    rw [h]
  | none =>
    rw [hf] at h
    exact h

/-- An instruction whose argument has a fault leaves everything as it is. -/
theorem perform_of_fault {w : World} {opcode : Opcode} {i : Instruction} {a : Actor}
    {s : Stage ρ} {fault : InstructionFault}
    (h : (perform w opcode i a s).fault = some fault) :
    perform w opcode i a s = ⟨a, s, some fault⟩ := by
  have hheeds := perform_heeds w opcode i a s
  rw [← perform_fault w opcode i a s, h] at hheeds
  exact hheeds

omit [WordSource ρ] in
/-- A reported event counts if it is a failure. -/
theorem Stage.failures_log (s : Stage ρ) (e : Event) :
    (s.log e).failures = s.failures ++ if reportsFailure e then [e] else [] := by
  simp [failures, log, List.filter_append, List.filter_cons]

/-- When an actor runs its instruction, its failure is reported and no other. -/
theorem execute_failures (w : World) (a : Actor) (s : Stage ρ) :
    (execute w a s).2.failures = s.failures ++ a.failure?.toList := by
  unfold execute Actor.failure?
  cases a.individual.program.instructions[a.individual.programCounter]? with
  | none => exact s.failures_log _
  | some i =>
    dsimp only
    cases i.opcode with
    | error fault => exact s.failures_log _
    | ok opcode =>
      dsimp only
      rw [← perform_fault w opcode i a s]
      cases hf : (perform w opcode i a s).fault with
      | none =>
        rw [Option.map_none, Option.toList_none, List.append_nil]
        exact perform_failures w opcode i a s
      | some fault =>
        rw [perform_of_fault hf]
        exact Stage.failures_log _ _

omit [WordSource ρ] in
/-- The course of an infection is no failure. -/
theorem advanceInfection_failures (w : World) (a : Actor) (s : Stage ρ) :
    (advanceInfection w a s).2.failures = s.failures := by
  unfold advanceInfection
  split
  next => rfl
  next =>
    split
    next => simp [Stage.failures, Stage.log, reportsFailure]
    next => rfl

omit [WordSource ρ] in
/-- Concluding a turn reports nothing. -/
theorem conclude_events (origin : Location) (a : Actor) (s : Stage ρ) :
    (conclude origin a s).events = s.events := by
  unfold conclude
  dsimp only
  split <;> rfl

/-- In a turn its failure is reported and no other. -/
theorem takeTurn_failures {w : World} {s : Stage ρ} {c : Cell} (h : hasTurn s c = true) :
    (takeTurn w s c).failures = s.failures ++ ((Turn.mk c s).failure? w).toList := by
  rw [takeTurn_of_hasTurn h, Stage.failures, conclude_events, act_eq]
  exact (execute_failures w _ _).trans
    (congrArg (· ++ ((Turn.mk c s).failure? w).toList) (advanceInfection_failures w _ s))

/-- While cells are called, the failures of their turns are reported and no others. -/
theorem stageAfter_failures (w : World) (cells : List Cell) (s : Stage ρ) :
    (stageAfter w cells s).failures =
      s.failures ++ (turnsFrom w cells s).filterMap (Turn.failure? w) := by
  induction cells generalizing s with
  | nil => simp [stageAfter, turnsFrom]
  | cons c cells ih =>
    have hfirst : stageAfter w (c :: cells) s = stageAfter w cells (takeTurn w s c) := rfl
    rw [hfirst, ih, turnsFrom]
    by_cases hturn : hasTurn s c = true
    · rw [if_pos hturn, takeTurn_failures hturn, List.append_assoc]
      cases hf : (Turn.mk c s).failure? w <;> simp [hf]
    · rw [if_neg hturn, takeTurn_of_not_hasTurn hturn]

/-- In a tick the failures of its turns are reported and no others. -/
theorem takeTurns_failures (w : World) (source : ρ) :
    (takeTurns w source).failures = (turns w source).filterMap (Turn.failure? w) := by
  rw [takeTurns_eq, stageAfter_failures]
  rfl

/-- In a step of a Darwin world the failures of its turns are reported and no others. -/
theorem step_failures {r : Rules} {s : Simulation ρ} (hr : s.rules = .darwin r) :
    s.step.events.toList.filter reportsFailure =
      (turns (r.world s.grid) s.source).filterMap (Turn.failure? (r.world s.grid)) := by
  have htick : s.rules.tick s.grid s.source = r.tick s.grid s.source := by
    rw [hr]
    rfl
  have hignored : ∀ ls : List Location,
      (ls.map Event.updateIgnored).filter reportsFailure = [] := by
    intro ls
    simp [List.filter_eq_nil_iff, reportsFailure]
  have hmetrics : ∀ s : Simulation ρ, s.metrics.filter reportsFailure = [] := by
    intro s
    unfold Simulation.metrics
    split <;> rfl
  have hevents : s.step.events.toList.filter reportsFailure =
      (r.tick s.grid s.source).events.toList.filter reportsFailure := by
    rw [Simulation.step, Ruleset.advance, htick]
    simp [hignored, hmetrics, List.filter_append, reportsFailure]
  exact hevents.trans (takeTurns_failures (r.world s.grid) s.source)

/-- A turn fails or succeeds. -/
theorem Turn.failure?_eq_none_iff {w : World} {t : Turn ρ} :
    t.failure? w = none ↔ t.Succeeds w := by
  simp only [Succeeds, perform_fault]
  rw [failure?, Actor.failure?, instruction?]
  cases (t.ready w).individual.program.instructions[(t.ready w).individual.programCounter]? with
  | none => simp
  | some i =>
    dsimp only
    cases ho : i.opcode with
    | error fault => simp [ho]
    | ok opcode => simp [ho]

omit [WordSource ρ] in
/-- No actor fails at a line of a checked program. -/
theorem Actor.failure?_of_check {a : Actor} (hcheck : a.individual.program.check = .ok ())
    (hline : a.individual.programCounter < a.individual.program.length) : a.failure? = none := by
  have hmem : a.individual.program.instructions[a.individual.programCounter] ∈
      a.individual.program.instructions := List.getElem_mem hline
  obtain ⟨opcode, ho, hfault⟩ :=
    ((Program.check_eq_ok_iff.mp hcheck).2 _ hmem).usable
  rw [Actor.failure?, List.getElem?_eq_getElem hline]
  simp only [ho, hfault, Option.map_none]

/-- The individual of a settled cell succeeds if its program is checked, since it is at a
line of it. -/
theorem Turn.succeeds_of_check {r : Rules} {g : Grid} {t : Turn ρ} (h : Settled r t.cell)
    (hcheck : (t.ready (r.world g)).individual.program.check = .ok ()) :
    t.Succeeds (r.world g) := by
  rw [← failure?_eq_none_iff]
  refine Actor.failure?_of_check hcheck ?_
  rcases (soundActor_ready h).individual.line with hline | ⟨hempty, -⟩
  · exact hline
  · exact absurd hempty (Program.check_eq_ok_iff.mp hcheck).1

/-- An individual runs the program of a species of the configuration. -/
theorem program_of_mem_turns {c : Configuration} {r : Rules} {s : Simulation ρ} {t : Turn ρ}
    (hs : Simulation.Reachable c s) (hr : s.rules = .darwin r)
    (ht : t ∈ turns (r.world s.grid) s.source) :
    (Simulation.programs c)[(t.ready (r.world s.grid)).species]? =
      some (t.ready (r.world s.grid)).individual.program := by
  rw [← (species_of_reachable hs hr).1]
  exact (Turn.soundActor_ready (settled_of_mem_turns hs hr ht)).individual.template

/-- The check rejects a program that fails in a run. -/
theorem exists_fault_of_mem_turns {c : Configuration} {r : Rules} {s : Simulation ρ} {t : Turn ρ}
    (hs : Simulation.Reachable c s) (hr : s.rules = .darwin r)
    (ht : t ∈ turns (r.world s.grid) s.source) (hfail : ¬ t.Succeeds (r.world s.grid)) :
    ∃ fault, (t.ready (r.world s.grid)).individual.program.check = .error fault := by
  cases hcheck : (t.ready (r.world s.grid)).individual.program.check with
  | error fault => exact ⟨fault, rfl⟩
  | ok _ =>
    have hsettled := settled_of_mem_turns hs hr ht
    exact absurd (Turn.succeeds_of_check hsettled hcheck) hfail

/-- A failure that is reported in a run is that of a turn of one of its ticks. -/
theorem exists_turn_of_mem_run {r : Rules} {s : Simulation ρ} (hr : s.rules = .darwin r) {n : Nat}
    {e : Event} (he : e ∈ (Simulation.run n s).2) (hfail : reportsFailure e = true) :
    ∃ k < n, ∃ t ∈ turns (r.world (s.after k).grid) (s.after k).source,
      ¬ t.Succeeds (r.world (s.after k).grid) ∧
        t.failure? (r.world (s.after k).grid) = some e := by
  rcases Simulation.mem_run_snd.mp he with rfl | ⟨k, hk, he⟩ | rfl
  · cases hfail
  · have hrules : (s.after k).rules = .darwin r := (s.rules_after k).trans hr
    have hmem : e ∈ (s.after k).step.events.toList.filter reportsFailure :=
      List.mem_filter.mpr ⟨he.val, hfail⟩
    rw [step_failures hrules, List.mem_filterMap] at hmem
    obtain ⟨t, ht, hte⟩ := hmem
    refine ⟨k, hk, t, ht, ?_, hte⟩
    rw [← Turn.failure?_eq_none_iff, hte]
    exact Option.some_ne_none e
  · cases hfail

end CellularAutomata.Darwin
