import CellularAutomata.Proofs.Darwin.Chance
import CellularAutomata.Proofs.Darwin.Failures

/-!
# Instructions that are not carried out

An instruction that is missing, that is not known or whose argument is of no use leaves no trace
but its report: the actor, the decisions of the tick and the source of random words are as they
were. The turn is not lost, though. The infection of the individual has gone on before, which can
have given it another program, and it continues at the next line of the program it then has. It
cannot if the line where it is has the greatest number that there is.
-/

namespace CellularAutomata.Darwin

variable {ρ : Type} [WordSource ρ] {w : World}

/-- An actor cannot carry out the instruction at which it is, and what is reported of it. -/
inductive Fails (w : World) (a : Actor) (s : Stage ρ) : Event → Prop
  /-- There is none. -/
  | missing (hi : a.individual.program.instructions[a.individual.programCounter]? = none) :
      Fails w a s (.nothingToRun a.location a.species)
  /-- Its operation is not known. -/
  | unknown {i : Instruction} {fault : InstructionFault}
      (hi : a.individual.program.instructions[a.individual.programCounter]? = some i)
      (ho : i.opcode = .error fault) : Fails w a s (.instructionSkipped a.location fault)
  /-- Something goes wrong when it is carried out. -/
  | refused {i : Instruction} {opcode : Opcode} {fault : InstructionFault}
      (hi : a.individual.program.instructions[a.individual.programCounter]? = some i)
      (ho : i.opcode = .ok opcode) (hfault : (perform w opcode i a s).fault = some fault) :
      Fails w a s (.instructionFailed a.location a.species i fault)

/-- Whether an actor fails is decided by its program and the line where it is. -/
theorem fails_iff {a : Actor} {s : Stage ρ} {event : Event} :
    Fails w a s event ↔ a.failure? = some event := by
  constructor
  · rintro (hi | ⟨hi, ho⟩ | ⟨hi, ho, hfault⟩)
    · rw [Actor.failure?, hi]
    · simp only [Actor.failure?, hi, ho]
    · rw [perform_fault] at hfault
      simp only [Actor.failure?, hi, ho, hfault, Option.map_some]
  · intro h
    unfold Actor.failure? at h
    split at h
    next hi =>
      obtain rfl := Option.some.inj h
      exact .missing hi
    next i hi =>
      split at h
      next fault ho =>
        obtain rfl := Option.some.inj h
        exact .unknown hi ho
      next opcode ho =>
        obtain ⟨fault, hfault, rfl⟩ := Option.map_eq_some_iff.mp h
        exact .refused hi ho ((perform_fault w opcode i a s).trans hfault)

/-- An actor that fails is as it was, and so is everything else except for the report. -/
theorem Fails.execute {a : Actor} {s : Stage ρ} {event : Event} (h : Fails w a s event) :
    Darwin.execute w a s = (a, s.log event) := by
  cases h with
  | missing hi => simp only [Darwin.execute, hi]
  | unknown hi ho => simp only [Darwin.execute, hi, ho]
  | refused hi ho hfault => simp only [Darwin.execute, hi, ho, perform_of_fault hfault]

/-- An instruction whose argument has a fault comes upon no numbers. -/
theorem instructionFits_of_fault {opcode : Opcode} {i : Instruction} {a : Actor}
    {fault : InstructionFault}
    (h : i.argumentFault? opcode a.individual.program.length = some fault) (d : Decisions) :
    instructionFits w opcode i a d = true := by
  have hcount : opcode.isControlFlow = false → i.count = .error fault := by
    intro haction
    rw [Instruction.argumentFault?, haction, if_neg Bool.false_ne_true] at h
    exact faultOf?_eq_some_iff.mp h
  have htarget : opcode.isControlFlow = true →
      i.target a.individual.program.length = .error fault := by
    intro hjump
    rw [Instruction.argumentFault?, if_pos hjump] at h
    exact faultOf?_eq_some_iff.mp h
  cases opcode with
  | move | left | right =>
    simp only [instructionFits, instructionNumbers, countNumbers, hcount rfl, List.all_nil]
  | infect => simp only [instructionFits, hcount rfl]
  | ifEmpty | ifWall | ifSame | ifEnemy =>
    simp only [instructionFits, instructionNumbers, branchNumbers, htarget rfl, List.all_nil]
  | go | ifRandom => rfl

/-- An actor that fails can complete its turn if it can go on to the next line. -/
theorem Fails.fits {a : Actor} {s : Stage ρ} {event : Event} (h : Fails w a s event)
    (hline : a.individual.program.nextFits a.individual.programCounter = true) (d : Decisions) :
    a.fits w d = true := by
  cases h with
  | missing hi => rw [Actor.fits, hi, hline]
  | unknown hi ho => simp only [Actor.fits, hi, ho]
  | refused hi ho hfault =>
    simp only [Actor.fits, hi, ho]
    exact instructionFits_of_fault ((perform_fault ..).symm.trans hfault) d

/-- How an infection goes on in a turn: the species of an individual and the individual before
and after it. -/
inductive Progress (species : Std.ExtTreeMap Nat Program) (state : Nat) (x : Individual) :
    Nat → Individual → Prop
  /-- There is no infection. -/
  | healthy (h : x.infection = none) : Progress species state x state x
  /-- It gets shorter by one tick. -/
  | shorter {f : Infection} (h : x.infection = some f) (hcount : f.countdown ≠ 0) :
      Progress species state x state
        { x with infection := some ⟨f.countdown - 1, f.previousSpecies⟩ }
  /-- It has run out, and the individual starts anew as what it was. -/
  | expired {f : Infection} (h : x.infection = some f) (hcount : f.countdown = 0) :
      Progress species state x f.previousSpecies (fresh species f.previousSpecies x.orientation)

omit [WordSource ρ] in
/-- Before an actor comes to its instruction, its infection goes on. -/
theorem advanceInfection_progress (w : World) (a : Actor) (s : Stage ρ) :
    Progress w.species a.species a.individual (advanceInfection w a s).1.species
      (advanceInfection w a s).1.individual := by
  unfold advanceInfection
  split
  next h => exact .healthy h
  next f h =>
    split
    next hcount => exact .expired h hcount
    next hcount => exact .shorter h hcount

/-- The individual at the line where it continues if it has not jumped: the next one of its
program, and the first one after the last. -/
def continued (x : Individual) : Individual :=
  { x with programCounter :=
      if x.program.length = 0 then 0 else (x.programCounter + 1) % x.program.length }

omit [WordSource ρ] in
/-- An actor that has neither moved nor jumped stays where it is and goes on to the next line. -/
theorem conclude_decisions_of_stays {origin : Location} {a : Actor} (s : Stage ρ)
    (hstays : a.location = origin) (hjump : a.jump = none) :
    (conclude origin a s).decisions =
      s.decisions.occupy (.ofIndividual a.species origin (continued a.individual)) .stayed := by
  have hadvanced : a.advanced = continued a.individual := by
    rw [Actor.advanced, hjump]
    rfl
  rw [conclude, hadvanced, if_pos hstays, hstays]

omit [WordSource ρ] in
/-- Before an individual comes to its instruction, its infection goes on. -/
theorem Turn.progress_ready (w : World) {t : Turn ρ} {state : Nat} {l : Location} {x : Individual}
    (hcell : t.cell = .ofIndividual state l x) :
    Progress w.species state x (t.ready w).species (t.ready w).individual := by
  have hprogress := advanceInfection_progress w (actorOf w t.cell) t.stage
  rw [hcell] at hprogress
  rw [Turn.ready, hcell]
  exact hprogress

/-- A turn in which an individual fails is completed, unless the line where it comes to its
instruction has the greatest number that there is. -/
theorem Fails.turnFits {t : Turn ρ} {event : Event}
    (h : Fails w (t.ready w) (t.readyStage w) event)
    (hline : (t.ready w).individual.program.length = 0 ∨
      (t.ready w).individual.programCounter + 1 < 2 ^ 64) :
    Darwin.turnFits w t.stage t.cell = true := by
  rw [Darwin.turnFits, Bool.or_eq_true]
  exact Or.inr (h.fits (Program.nextFits_iff.mpr (hline.imp_right Or.inr)) t.stage.decisions)

/-- A failed instruction leaves no trace. If something goes wrong when an instruction is carried
out, then nothing has been changed; and an actor whose instruction is missing, not known or goes
wrong is as it was after running it, like the decisions and the source of random words. The turn of
an individual that fails is completed, unless the infection has left it at the line with the
greatest number that there is. After the turn its cell is where it was, as the infection has left it
and at the next line, and this has been decided and nothing else. -/
theorem failure_leaves_no_trace :
    (∀ (w : World) (opcode : Opcode) (i : Instruction) (a : Actor) (s : Stage ρ) fault,
      (perform w opcode i a s).fault = some fault →
        perform w opcode i a s = ⟨a, s, some fault⟩) ∧
    (∀ (w : World) (a : Actor) (s : Stage ρ) event, Fails w a s event →
      execute w a s = (a, s.log event)) ∧
    ∀ (w : World) (t : Turn ρ) state l x event, t.cell = .ofIndividual state l x →
      hasTurn t.stage t.cell = true → Fails w (t.ready w) (t.readyStage w) event →
      ∃ state' x', Progress w.species state x state' x' ∧
        (x'.program.length = 0 ∨ x'.programCounter + 1 < 2 ^ 64 →
          (takeTurn? w t.stage t.cell).isSome = true) ∧
        ∀ after, takeTurn? w t.stage t.cell = some after →
          after.decisions =
            t.stage.decisions.occupy (.ofIndividual state' l (continued x')) .stayed ∧
          after.source = t.stage.source := by
  refine ⟨fun w opcode i a s fault => perform_of_fault, fun w a s event => Fails.execute, ?_⟩
  intro w t state l x event hcell hturn hfails
  have hact : act w t.cell t.stage = (t.ready w, (t.readyStage w).log event) := hfails.execute
  have hdecisions : ((t.readyStage w).log event).decisions = t.stage.decisions :=
    (advanceInfection_frame w (actorOf w t.cell) t.stage).2
  have hsource : ((t.readyStage w).log event).source = t.stage.source :=
    advanceInfection_source w (actorOf w t.cell) t.stage
  have hlocation : t.cell.location = l := by rw [hcell, Cell.ofIndividual]
  refine ⟨_, _, t.progress_ready w hcell, ?_, ?_⟩
  · intro hline
    have hcompleted := takeTurn?_eq_some_iff.mpr ⟨hfails.turnFits hline, rfl⟩
    rw [hcompleted]
    rfl
  · intro after hafter
    obtain ⟨-, rfl⟩ := takeTurn?_eq_some_iff.mp hafter
    constructor
    · rw [takeTurn_of_hasTurn hturn, Turn.ended, hact]
      rw [conclude_decisions_of_stays _ (t.ready_location w) (t.jump_ready w), hdecisions,
        hlocation]
    · rw [takeTurn_of_hasTurn hturn, conclude_source, hact, hsource]

/-- Two species on a grid with one cell. The jump with which both programs begin leads outside the
second one. -/
def relapseWorld : World where
  settings := ⟨5, 1, 1, 0⟩
  species := ((∅ : Std.ExtTreeMap Nat Program).insert 1
    ⟨[⟨"GO", ["3"]⟩, ⟨"MOVE", []⟩, ⟨"MOVE", []⟩]⟩).insert 2 ⟨[⟨"GO", ["3"]⟩, ⟨"LEFT", []⟩]⟩
  grid := .filled 1 1 .fixed fun l => .ofIndividual 1 l
    ⟨90, 0, some ⟨0, 2⟩, ⟨[⟨"GO", ["3"]⟩, ⟨"MOVE", []⟩, ⟨"MOVE", []⟩]⟩⟩

/-- The individual whose infection wears off comes to a jump that its own program does not allow.
The jump changes nothing, and neither does running it. The individual stays, as a healthy one of
its own species at the second line. -/
theorem relapse_leaves_no_trace :
    ∃ (t : Turn KeyStream) (x : Individual) (fault : InstructionFault) (event : Event),
      t.cell = .ofIndividual 1 ⟨0, 0⟩ x ∧ x.infection = some ⟨0, 2⟩ ∧
      hasTurn t.stage t.cell = true ∧
      Fails relapseWorld (t.ready relapseWorld) (t.readyStage relapseWorld) event ∧
      perform relapseWorld .go ⟨"GO", ["3"]⟩ (t.ready relapseWorld) (t.readyStage relapseWorld) =
        ⟨t.ready relapseWorld, t.readyStage relapseWorld, some fault⟩ ∧
      execute relapseWorld (t.ready relapseWorld) (t.readyStage relapseWorld) =
        (t.ready relapseWorld, (t.readyStage relapseWorld).log event) ∧
      ∃ after, takeTurn? relapseWorld t.stage t.cell = some after ∧
        after.decisions.claim? ⟨0, 0⟩ = some
          ⟨.ofIndividual 2 ⟨0, 0⟩ ⟨90, 1, none, ⟨[⟨"GO", ["3"]⟩, ⟨"LEFT", []⟩]⟩⟩, .stayed⟩ ∧
        after.source = t.stage.source := by
  let x : Individual := ⟨90, 0, some ⟨0, 2⟩, ⟨[⟨"GO", ["3"]⟩, ⟨"MOVE", []⟩, ⟨"MOVE", []⟩]⟩⟩
  let t : Turn KeyStream := ⟨.ofIndividual 1 ⟨0, 0⟩ x, opening (KeyStream.ofSeed 0)⟩
  have hturn : hasTurn t.stage t.cell = true := by decide +kernel
  have hfault : (perform relapseWorld .go ⟨"GO", ["3"]⟩ (t.ready relapseWorld)
      (t.readyStage relapseWorld)).fault = some (.jumpOutside ⟨"GO", ["3"]⟩ 2) := by decide +kernel
  have hfails : Fails relapseWorld (t.ready relapseWorld) (t.readyStage relapseWorld)
      (.instructionFailed ⟨0, 0⟩ 2 ⟨"GO", ["3"]⟩ (.jumpOutside ⟨"GO", ["3"]⟩ 2)) :=
    fails_iff.mpr (by decide +kernel)
  have hperform := failure_leaves_no_trace.1 relapseWorld .go _ _ _ _ hfault
  have hexecute := failure_leaves_no_trace.2.1 relapseWorld _ _ _ hfails
  obtain ⟨state', x', hprogress, hcompletes, hleaves⟩ :=
    failure_leaves_no_trace.2.2 relapseWorld t 1 ⟨0, 0⟩ x _ rfl hturn hfails
  have hself : (Cell.ofIndividual state' ⟨0, 0⟩ (continued x')).location = ⟨0, 0⟩ := rfl
  cases hprogress with
  | healthy hnone => cases hnone
  | shorter hsome hcount =>
    obtain rfl := Option.some.inj hsome
    exact absurd rfl hcount
  | expired hsome hcount =>
    obtain rfl := Option.some.inj hsome
    obtain ⟨after, hafter⟩ :=
      Option.isSome_iff_exists.mp (hcompletes (Or.inr (by decide : 0 + 1 < 2 ^ 64)))
    obtain ⟨hdecisions, hsource⟩ := hleaves after hafter
    refine ⟨t, x, _, _, rfl, rfl, hturn, hfails, hperform, hexecute, after, hafter, ?_, hsource⟩
    rw [hdecisions, Decisions.claim?_occupy, if_pos hself]
    decide +kernel

/-- A species with a program of three lines on a grid with one cell. -/
def edgeWorld : World where
  settings := ⟨5, 1, 1, 0⟩
  species := (∅ : Std.ExtTreeMap Nat Program).insert 1 ⟨[⟨"MOVE", []⟩, ⟨"MOVE", []⟩, ⟨"MOVE", []⟩]⟩
  grid := .empty 1 1 .fixed

/-- An individual at the line with the greatest number that there is has no instruction to run, and
its turn cannot be completed, because there is no number for the next line. -/
theorem last_line_not_continued :
    ∃ (t : Turn KeyStream) (x : Individual) (event : Event),
      t.cell = .ofIndividual 1 ⟨0, 0⟩ x ∧ x.programCounter = 18446744073709551615 ∧
      x.program.length = 3 ∧ hasTurn t.stage t.cell = true ∧
      Fails edgeWorld (t.ready edgeWorld) (t.readyStage edgeWorld) event ∧
      takeTurn? edgeWorld t.stage t.cell = none := by
  let x : Individual :=
    ⟨0, 18446744073709551615, none, ⟨[⟨"MOVE", []⟩, ⟨"MOVE", []⟩, ⟨"MOVE", []⟩]⟩⟩
  let t : Turn KeyStream := ⟨.ofIndividual 1 ⟨0, 0⟩ x, opening (KeyStream.ofSeed 0)⟩
  have hfails : Fails edgeWorld (t.ready edgeWorld) (t.readyStage edgeWorld)
      (.nothingToRun ⟨0, 0⟩ 1) := .missing (List.getElem?_eq_none (by decide +kernel))
  have hunfit : turnFits edgeWorld t.stage t.cell = false := by decide +kernel
  refine ⟨t, x, _, rfl, rfl, rfl, by decide +kernel, hfails, ?_⟩
  rw [takeTurn?, hunfit, if_neg Bool.false_ne_true]

end CellularAutomata.Darwin
