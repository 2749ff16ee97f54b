import CellularAutomata.Proofs.Success
import CellularAutomata.Species.Program

/-!
# Checked programs

What `Program.check` accepts, rule by rule. When an instruction is executed its argument
is read as a count or as a jump target; the check reads it once more and by itself. Both
come to the same: a checked program has an instruction, and each of its instructions has
a known operation and an argument that this operation can use.
-/

namespace CellularAutomata

namespace Instruction

/-- Why the argument of an instruction is of no use to an operation in a program with
`length` lines, if it is of none. -/
def argumentFault? (i : Instruction) (opcode : Opcode) (length : Nat) :
    Option InstructionFault :=
  if opcode.isControlFlow then faultOf? (i.target length) else faultOf? i.count

/-- A jump target is of use if it is the number of a line, counted from one. -/
theorem exists_target_iff {i : Instruction} {length : Nat} :
    (∃ line, i.target length = .ok line) ↔
      ∃ n, i.argument 0 = .ok n ∧ 1 ≤ n ∧ n ≤ length := by
  rw [target]
  cases i.argument 0 with
  | error fault => simp
  | ok n =>
    by_cases h : n < 1 ∨ (length : Int) < n
    · have hout : ¬ (1 ≤ n ∧ n ≤ length) := by omega
      simp [h, hout]
    · have hin : 1 ≤ n ∧ n ≤ length := by omega
      simp [h, hin]

/-- A count is of use if it is not negative. -/
theorem exists_count_iff {i : Instruction} :
    (∃ count, i.count = .ok count) ↔ ∃ n, i.argumentOr 0 1 = .ok n ∧ 0 ≤ n := by
  rw [count]
  cases i.argumentOr 0 1 with
  | error fault => simp
  | ok n =>
    by_cases h : n < 0
    · simp [h]
    · simp [h, Int.not_lt.mp h]

/-- An instruction that the check accepts in a program with `length` lines. -/
structure Fits (i : Instruction) (length : Nat) : Prop where
  /-- The operation is known, and the argument is of use to it. -/
  usable : ∃ opcode, i.opcode = .ok opcode ∧ i.argumentFault? opcode length = none
  /-- All arguments are numbers, also those that are never read. -/
  numbers : ∀ index < i.arguments.length, ∃ n, i.argument index = .ok n

end Instruction

namespace Program

/-- No argument of an instruction is bad if all of them are numbers. -/
theorem firstBadArgument_eq_ok_iff {i : Instruction} :
    firstBadArgument i = .ok () ↔ ∀ index < i.arguments.length, ∃ n, i.argument index = .ok n := by
  simp only [firstBadArgument, forM_eq_ok, List.mem_range, map_eq_ok, and_true]

/-- The check reads the argument of an instruction as its operation does. -/
theorem checkInstruction_eq_ok_iff (number : Nat) {length : Nat} {i : Instruction} :
    checkInstruction length number i = .ok () ↔ i.Fits length := by
  have hparts : i.Fits length ↔ ∃ opcode, i.opcode = .ok opcode ∧
      firstBadArgument i = .ok () ∧ i.argumentFault? opcode length = none := by
    rw [firstBadArgument_eq_ok_iff]
    constructor
    · rintro ⟨⟨opcode, ho, hf⟩, hn⟩
      exact ⟨opcode, ho, hn, hf⟩
    · rintro ⟨opcode, ho, hn, hf⟩
      exact ⟨⟨opcode, ho, hf⟩, hn⟩
  rw [hparts, checkInstruction, bind_eq_ok]
  refine exists_congr fun opcode => ?_
  rw [mapError_eq_ok, check_bind_eq_ok, mapError_eq_ok]
  refine and_congr_right fun _ => and_congr_right fun _ => ?_
  by_cases hjump : opcode.isControlFlow = true
  · rw [Instruction.argumentFault?, if_pos hjump, if_pos hjump, faultOf?_eq_none_iff,
      Instruction.exists_target_iff]
    simp only [bind_eq_ok, mapError_eq_ok, ite_throw_eq_ok, not_or, Int.not_lt]
  · rw [Instruction.argumentFault?, if_neg hjump, if_neg hjump, faultOf?_eq_none_iff,
      Instruction.exists_count_iff]
    simp only [bind_eq_ok, mapError_eq_ok, ite_throw_eq_ok, Int.not_lt]

/-- Instructions are accepted from some number on if each of them is accepted. -/
theorem checkFrom_eq_ok_iff (number : Nat) {length : Nat} {is : List Instruction} :
    checkFrom length number is = .ok () ↔ ∀ i ∈ is, i.Fits length := by
  induction is generalizing number with
  | nil => simp [checkFrom]
  | cons i is ih =>
    rw [List.forall_mem_cons, ← ih (number + 1), ← checkInstruction_eq_ok_iff number, checkFrom,
      check_bind_eq_ok]

/-- The check accepts the programs that have an instruction and whose instructions it
accepts. -/
theorem check_eq_ok_iff {p : Program} :
    p.check = .ok () ↔ p.length ≠ 0 ∧ ∀ i ∈ p.instructions, i.Fits p.length := by
  rw [check]
  by_cases h : p.length = 0
  · simp [h]
  · simp [h, checkFrom_eq_ok_iff]

end Program

end CellularAutomata
