import CellularAutomata.Proofs.Darwin.Failures
import CellularAutomata.Proofs.Darwin.Overflow

/-!
# Checked programs

If the check accepts all programs of a description, then no instruction of a run is missing, not
known or of no use, and whoever meets with such a one runs a program that the check rejects. That a
turn can be completed is another matter: the check accepts every count, and an individual that looks
for a victim further away than there are numbers stops the run.
-/

namespace CellularAutomata.Darwin

open Numeral

variable {ρ : Type} [WordSource ρ] {c : Configuration} {s : Simulation ρ} {r : Rules}

/-- The turns of a run in which the check has accepted all programs succeed. -/
theorem succeeds_of_checked (hs : Simulation.Reachable c s) (hr : s.rules = .darwin r)
    (hchecked : ∀ (species : Nat) (p : Program), (Simulation.programs c)[species]? = some p →
      p.check = .ok ()) {t : Turn ρ} (ht : t ∈ turns (r.world s.grid) s.source) :
    t.Succeeds (r.world s.grid) :=
  Turn.succeeds_of_check (settled_of_mem_turns hs hr ht)
    (hchecked _ _ (program_of_mem_turns hs hr ht))

/-- A run in which the check has accepted all programs reports no failure. -/
theorem reportsFailure_of_checked (hs : Simulation.Reachable c s) (hr : s.rules = .darwin r)
    (hchecked : ∀ (species : Nat) (p : Program), (Simulation.programs c)[species]? = some p →
      p.check = .ok ()) {n : Nat} {e : Event} (he : e ∈ (Simulation.run n s).2) :
    reportsFailure e = false := by
  by_contra hfail
  rw [Bool.not_eq_false] at hfail
  obtain ⟨k, -, t, ht, hfails, -⟩ := exists_turn_of_mem_run hr he hfail
  exact hfails (succeeds_of_checked (hs.after k) ((s.rules_after k).trans hr) hchecked ht)

/-- A turn is completed unless it looks for a victim at a location too far down or too far right. -/
theorem Turn.isSome_takeTurn?_iff (hs : Simulation.Reachable c s) (hr : s.rules = .darwin r)
    (hw : Bounded (r.world s.grid)) {t : Turn ρ} (ht : t ∈ turns (r.world s.grid) s.source) :
    (takeTurn? (r.world s.grid) t.stage t.cell).isSome = true ↔
      ∀ distance, t.Seeks (r.world s.grid) distance →
        ((t.ready (r.world s.grid)).ahead distance).row ≤ mostInt32 ∧
        ((t.ready (r.world s.grid)).ahead distance).col ≤ mostInt32 := by
  rw [← Turn.allFit_numbers_iff hs hr hw ht, ← Turn.turnFits_iff hs hr hw ht, takeTurn?]
  cases turnFits (r.world s.grid) t.stage t.cell <;> simp

/-- If the check accepts all programs of a configuration, then in every turn of a run there is an
instruction, its operation is known and its argument is of use, and no failure is reported, whether
or not the run is completed. With at most `2 ^ 30` rows and columns, fewer if they mirror, such a
turn is completed exactly if it does not look for somebody to convert at a location that is too far
down or too far right, which takes a count beyond `2 ^ 30`. In any case, whoever fails runs the
program of a species of the configuration, and the check rejects this program; and a failure is
reported only of a turn that fails. -/
theorem checked_programs_never_fail (hs : Simulation.Reachable c s) (hr : s.rules = .darwin r) :
    ((∀ (species : Nat) (p : Program), (Simulation.programs c)[species]? = some p →
        p.check = .ok ()) →
      (∀ t ∈ turns (r.world s.grid) s.source, t.Succeeds (r.world s.grid)) ∧
      (∀ n, ∀ e ∈ (Simulation.run n s).2, reportsFailure e = false) ∧
      (∀ n out, s.run? n = some out → ∀ e ∈ out.2, reportsFailure e = false) ∧
      (c.rows ≤ 2 ^ 30 → c.cols ≤ 2 ^ 30 →
        (c.edge = .mirror → c.rows < 2 ^ 30 ∧ c.cols < 2 ^ 30) →
        ∀ t ∈ turns (r.world s.grid) s.source,
          ((takeTurn? (r.world s.grid) t.stage t.cell).isSome = true ↔
            ∀ distance, t.Seeks (r.world s.grid) distance →
              ((t.ready (r.world s.grid)).ahead distance).row ≤ mostInt32 ∧
              ((t.ready (r.world s.grid)).ahead distance).col ≤ mostInt32) ∧
          ((∀ i count, t.instruction? (r.world s.grid) = some i → i.opcode = .ok .infect →
              i.count = .ok count → count ≤ 2 ^ 30) →
            (takeTurn? (r.world s.grid) t.stage t.cell).isSome = true))) ∧
    (∀ t ∈ turns (r.world s.grid) s.source, ¬ t.Succeeds (r.world s.grid) →
      (Simulation.programs c)[(t.ready (r.world s.grid)).species]? =
          some (t.ready (r.world s.grid)).individual.program ∧
        ∃ fault, (t.ready (r.world s.grid)).individual.program.check = .error fault) ∧
    ∀ n, ∀ e ∈ (Simulation.run n s).2, reportsFailure e = true →
      ∃ k < n, ∃ t ∈ turns (r.world (s.after k).grid) (s.after k).source,
        ¬ t.Succeeds (r.world (s.after k).grid) ∧
          t.failure? (r.world (s.after k).grid) = some e := by
  refine ⟨fun hchecked => ⟨fun t => succeeds_of_checked hs hr hchecked,
    fun n e => reportsFailure_of_checked hs hr hchecked, ?_, ?_⟩, ?_,
    fun n e he hfail => exists_turn_of_mem_run hr he hfail⟩
  · intro n out hout e he
    obtain ⟨-, rfl⟩ := Simulation.run?_eq_some_iff.mp hout
    exact reportsFailure_of_checked hs hr hchecked he
  · intro hrows hcols hmirror t ht
    have hw := bounded_of_reachable hs hr hrows hcols hmirror
    have hcompleted := Turn.isSome_takeTurn?_iff hs hr hw ht
    exact ⟨hcompleted, fun hcount => hcompleted.mpr fun _ hseeks =>
      Turn.ahead_le_of_count_le hs hr hw ht hcount hseeks⟩
  · intro t ht hfail
    exact ⟨program_of_mem_turns hs hr ht, exists_fault_of_mem_turns hs hr ht hfail⟩

/-- The programs of a configuration that pass a test one after the other all pass it. -/
theorem test_of_all {test : Program → Bool}
    (h : ((Simulation.programs c).toList.map Prod.snd).all test = true)
    {species : Nat} {p : Program} (hp : (Simulation.programs c)[species]? = some p) :
    test p = true :=
  List.all_eq_true.mp h p
    (List.mem_map_of_mem (Std.ExtTreeMap.mem_toList_iff_getElem?_eq_some.mpr hp))

/-- The programs of a configuration that are checked one after the other are all checked. -/
theorem checked_of_all
    (h : ((Simulation.programs c).toList.map Prod.snd).all (fun p => p.check.isOk) = true)
    (species : Nat) (p : Program) (hp : (Simulation.programs c)[species]? = some p) :
    p.check = .ok () := by
  have hok := test_of_all h hp
  cases hcheck : p.check with
  | error fault => simp [hcheck, Except.isOk, Except.toBool] at hok
  | ok _ => rfl

/-- One individual that jumps outside its program. -/
def stray : Configuration :=
  { Configuration.default with
    automaton := "darwin"
    rows := 1
    cols := 1
    states := [[1]]
    species := (∅ : Std.ExtTreeMap Nat String).insert 1 "GO 5" }

/-- A description of a Darwin world with a single turn in its first tick. -/
theorem exists_turn_of_surveyed {α : Type} {survey : World → Turn KeyStream → α} {a : α}
    (h : (Simulation.ofConfiguration c).toOption.map (surveyed survey) = some [a]) :
    ∃ s r t, Simulation.ofConfiguration c = .ok s ∧ s.rules = .darwin r ∧
      t ∈ turns (r.world s.grid) s.source ∧ survey (r.world s.grid) t = a := by
  obtain ⟨s, r, hs, hr, hfound⟩ := exists_of_surveyed h (List.cons_ne_nil _ _)
  obtain ⟨t, ht, hfound⟩ := List.map_eq_singleton_iff.mp hfound
  exact ⟨s, r, t, hs, hr, by simp [ht], hfound⟩

/-- In the duel nobody goes or looks far. -/
theorem count_le_of_duel {species : Nat} {p : Program} {i : Instruction} {count : Nat}
    (hp : (Simulation.programs duel)[species]? = some p) (hi : i ∈ p.instructions)
    (hcount : i.count = .ok count) : count ≤ 2 ^ 30 := by
  have hall : ((Simulation.programs duel).toList.map Prod.snd).all (fun p =>
      p.instructions.all fun i => i.count.toOption.getD 0 ≤ 2 ^ 30) = true := by
    decide +kernel
  have htest := test_of_all hall hp
  have hle := List.all_eq_true.mp htest i hi
  simpa [hcount, Except.toOption] using hle

/-- Nobody fails in the duel, and its turns are completed. The check rejects the program of the
stray, who does fail. -/
theorem duel_checked_programs_never_fail :
    (∃ (s : Simulation KeyStream) (r : Rules) (t : Turn KeyStream),
      Simulation.Reachable duel s ∧ s.rules = .darwin r ∧
      t ∈ turns (r.world s.grid) s.source ∧ t.Succeeds (r.world s.grid) ∧
      (takeTurn? (r.world s.grid) t.stage t.cell).isSome = true ∧
      ∃ out, s.run? 5 = some out ∧ ∀ e ∈ out.2, reportsFailure e = false) ∧
    ∃ (s : Simulation KeyStream) (r : Rules) (t : Turn KeyStream),
      Simulation.Reachable stray s ∧ s.rules = .darwin r ∧
      t ∈ turns (r.world s.grid) s.source ∧ ¬ t.Succeeds (r.world s.grid) ∧
      ∃ fault, (t.ready (r.world s.grid)).individual.program.check = .error fault := by
  constructor
  · have hfound : (Simulation.ofConfiguration duel).toOption.map
        (surveyed fun w t => (t.failure? w).isSome) = some [false] := by
      decide +kernel
    obtain ⟨s, r, t, hs, hr, ht, -⟩ := exists_turn_of_surveyed hfound
    have hreach : Simulation.Reachable duel s := Simulation.Reachable.start hs s.source
    have hruns : (Simulation.ofConfiguration duel).toOption.any
        (fun s => (s.run? 5).isSome) = true := by
      decide +kernel
    rw [hs] at hruns
    obtain ⟨out, hout⟩ := Option.isSome_iff_exists.mp hruns
    have hcount : ∀ i count, t.instruction? (r.world s.grid) = some i → i.opcode = .ok .infect →
        i.count = .ok count → count ≤ 2 ^ 30 := by
      intro i count hi _ hcount
      exact count_le_of_duel (program_of_mem_turns hreach hr ht) (List.mem_of_getElem? hi) hcount
    obtain ⟨hsucceeds, -, hnever, hcompleted⟩ :=
      (checked_programs_never_fail hreach hr).1 (checked_of_all (by decide +kernel))
    exact ⟨s, r, t, hreach, hr, ht, hsucceeds t ht,
      (hcompleted (by decide) (by decide) (by decide) t ht).2 hcount, out, hout, hnever 5 out hout⟩
  · have hfound : (Simulation.ofConfiguration stray).toOption.map
        (surveyed fun w t => (t.failure? w).isSome) = some [true] := by
      decide +kernel
    obtain ⟨s, r, t, hs, hr, ht, hfails⟩ := exists_turn_of_surveyed hfound
    have hreach : Simulation.Reachable stray s := Simulation.Reachable.start hs s.source
    have hfail : ¬ t.Succeeds (r.world s.grid) := by
      rw [← Turn.failure?_eq_none_iff]
      intro hnone
      rw [hnone] at hfails
      cases hfails
    have hrejected := (checked_programs_never_fail hreach hr).2.1 t ht hfail
    exact ⟨s, r, t, hreach, hr, ht, hfail, hrejected.2⟩

/-- The check accepts the program of the individual that infects however far, and the turn of this
individual is not completed, so the run stops in its first tick. -/
theorem overreaching_not_completed :
    (∀ (species : Nat) (p : Program), (Simulation.programs overreaching)[species]? = some p →
      p.check = .ok ()) ∧
    ∃ (s : Simulation KeyStream) (r : Rules) (t : Turn KeyStream),
      Simulation.Reachable overreaching s ∧ s.rules = .darwin r ∧
      t ∈ turns (r.world s.grid) s.source ∧
      takeTurn? (r.world s.grid) t.stage t.cell = none ∧ s.run? 1 = none := by
  refine ⟨checked_of_all (by decide +kernel), ?_⟩
  have hfound : (Simulation.ofConfiguration overreaching).toOption.map
      (surveyed fun w t => turnFits w t.stage t.cell) = some [false] := by
    decide +kernel
  obtain ⟨s, r, t, hs, hr, ht, hunfit⟩ := exists_turn_of_surveyed hfound
  have hstops : (Simulation.ofConfiguration overreaching).toOption.any
      (fun s => (s.run? 1).isNone) = true := by
    decide +kernel
  rw [hs] at hstops
  refine ⟨s, r, t, .start hs s.source, hr, ht, ?_, Option.isNone_iff_eq_none.mp hstops⟩
  rw [takeTurn?, hunfit, if_neg Bool.false_ne_true]

end CellularAutomata.Darwin
