import CellularAutomata.Random.Source

/-!
# Indices and numbers drawn by chance

Whatever words a source yields, an index that is drawn below a positive number is below it:
the index is the upper half of the product of a word and the number. This covers accepted
words as well as the last one, which is used as it is. A number drawn from the unit interval
is never below zero.
-/

namespace CellularAutomata.WordSource

variable {ρ : Type} {bits n word index : Nat}

/-- The upper half of the product of a word and a positive number is below the number. -/
theorem upper_half_lt (hword : word < Nat.pow 2 bits) (hn : 0 < n) :
    word * n / Nat.pow 2 bits < n := by
  have hproduct : word * n < Nat.pow 2 bits * n := Nat.mul_lt_mul_of_pos_right hword hn
  exact Nat.div_lt_of_lt_mul hproduct

/-- An index that is accepted for a word is the upper half of the product. -/
theorem eq_of_accept? (h : accept? bits n word = some index) :
    index = word * n / Nat.pow 2 bits := by
  unfold accept? at h
  dsimp only at h
  split at h
  next => exact (Option.some.inj h).symm
  next => cases h

/-- An index made of words of as many bits as are drawn is in range. -/
theorem indexWith_lt {draw : ρ → Nat × ρ} (hdraw : ∀ s, (draw s).1 < Nat.pow 2 bits) (hn : 0 < n)
    (tries : Nat) (source : ρ) : (indexWith bits draw n tries source).1 < n := by
  induction tries generalizing source with
  | zero => exact upper_half_lt (hdraw source) hn
  | succ tries ih =>
    have hlt := upper_half_lt (hdraw source) hn
    rw [indexWith]
    dsimp only
    split
    next index haccept =>
      have hindex := eq_of_accept? haccept
      omega
    next => exact ih (draw source).2

variable [WordSource ρ]

/-- An index made of 64-bit words is in range. -/
theorem index64_lt (hn : 0 < n) (source : ρ) : (index64 n source).1 < n := by
  refine indexWith_lt ?_ hn 4096 source
  intro s
  exact (word64 s).1.toNat_lt

/-- An index made of 32-bit words is in range. -/
theorem index32_lt (hn : 0 < n) (source : ρ) : (index32 n source).1 < n := by
  refine indexWith_lt ?_ hn 4096 source
  intro s
  exact (next s).1.toNat_lt

/-- Something is picked unless there are no candidates. -/
theorem pick_eq_none_iff {α : Type} {candidates : List α} {source : ρ} :
    (pick candidates source).1 = none ↔ candidates = [] := by
  rw [pick]
  cases candidates with
  | nil => simp
  | cons x xs =>
    have hlt := index32_lt (Nat.succ_pos xs.length) source
    rw [if_neg (by simp)]
    simp only [List.getElem?_eq_none_iff, reduceCtorEq, iff_false, Nat.not_le]
    exact hlt

/-- A number of the unit interval is not smaller than zero, whichever sign the zero has. -/
theorem unitInterval_not_less {zero : Binary64} (hzero : zero.place = some 0) (source : ρ) :
    (unitInterval source).1.less zero = false := by
  have hplace : (unitInterval source).1.place =
      some ((((word64 source).1.toNat >>> 11) * Nat.pow 2 1021 : Nat) : Int) := rfl
  rw [Binary64.less, hplace, hzero]
  exact decide_eq_false (Int.not_lt.mpr (Int.natCast_nonneg _))

end CellularAutomata.WordSource
