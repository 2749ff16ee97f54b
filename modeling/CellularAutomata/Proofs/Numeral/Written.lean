import CellularAutomata.Numeral.Shortest
import Mathlib.Data.Nat.Basic

/-!
# Well-formed numerals

The digits of a whole number are those that may stand before a point, and they stand for it. The
numeral of a double-precision number has digits wherever it should have them, in every layout,
because its shortest decimal is not zero unless the number is.
-/

namespace CellularAutomata

namespace Numeral

/-- The digits of a number are digits. -/
theorem isDigit_toDigits {n : Nat} {c : Char} (h : c ∈ Nat.toDigits 10 n) : c.isDigit = true :=
  Nat.isDigit_of_mem_toDigits (by decide) (by decide) h

/-- The digits of a number stand for it. -/
theorem ofDigits_toDigits (n : Nat) : ofDigits (Nat.toDigits 10 n) = n :=
  Nat.ofDigitChars_ten_toDigits

/-- A natural number is read from its digits. -/
theorem natural?_toDigits (n : Nat) : natural? (Nat.toDigits 10 n) = some n := by
  have hdigits : ∀ c ∈ Nat.toDigits 10 n, c.isDigit = true := fun c => isDigit_toDigits
  rw [natural?, if_pos, ofDigits_toDigits]
  simp [Nat.toDigits_ne_nil, List.all_eq_true.mpr hdigits]

/-- An integer is read from its text. -/
theorem integer?_integer (n : Int) : integer? (integer n).toList = some n := by
  rw [integer, natural]
  split
  next hnegative =>
    have htext : ("-" ++ String.ofList (Nat.toDigits 10 n.natAbs)).toList =
        '-' :: Nat.toDigits 10 n.natAbs := by simp
    rw [htext, integer?, natural?_toDigits]
    change some (-(n.natAbs : Int)) = some n
    rw [Option.some.injEq]
    omega
  next hnatural =>
    -- Digits are no signs, so the text is read as a natural number.
    have hsign : ∀ c ∈ Nat.toDigits 10 n.natAbs, c ≠ '-' ∧ c ≠ '+' := by
      intro c hc
      have hdigit := isDigit_toDigits hc
      constructor <;> rintro rfl <;> exact absurd hdigit (by decide)
    rw [String.toList_ofList]
    unfold integer?
    split
    next hcs => exact absurd rfl (hsign '-' (hcs ▸ List.mem_cons_self)).1
    next hcs => exact absurd rfl (hsign '+' (hcs ▸ List.mem_cons_self)).2
    next =>
      rw [natural?_toDigits]
      change some (n.natAbs : Int) = some n
      rw [Option.some.injEq]
      omega

/-- An integer within bounds is read from its text. -/
theorem integerWithin?_integer {least most n : Int} (h : least ≤ n ∧ n ≤ most) :
    integerWithin? least most (integer n).toList = some n := by
  rw [integerWithin?, integer?_integer]
  simp [Option.filter, h]

/-- The digits of a positive number do not start with a zero. -/
theorem head_toDigits {n : Nat} (h : 0 < n) : (Nat.toDigits 10 n).head? ≠ some '0' := by
  induction n using Nat.strong_induction_on with
  | _ n ih =>
    rcases Nat.lt_or_ge n 10 with hsmall | hlarge
    · have hall : ∀ n < 10, 0 < n → [n.digitChar].head? ≠ some '0' := by decide
      rw [Nat.toDigits_of_lt_base hsmall]
      exact hall n hsmall h
    · rw [Nat.toDigits_of_base_le (by decide) hlarge, List.head?_append]
      have hrest := ih (n / 10) (by omega) (by omega)
      cases hdigits : Nat.toDigits 10 (n / 10) with
      | nil => exact absurd hdigits Nat.toDigits_ne_nil
      | cons c cs => rwa [hdigits] at hrest

namespace Written

/-- Digits as they may stand before a point: a zero, or digits that do not start with one. -/
def IsWhole (ds : List Char) : Prop :=
  ds = ['0'] ∨ ds ≠ [] ∧ ds.head? ≠ some '0' ∧ ∀ c ∈ ds, c.isDigit = true

/-- A numeral with digits where it should have them. -/
structure WellFormed (w : Written) : Prop where
  /-- There are digits before the point. -/
  whole : IsWhole w.whole
  /-- There are only digits after the point. -/
  fraction : ∀ c ∈ w.fraction, c.isDigit = true
  /-- An exponent has digits. -/
  exponent : ∀ negative digits, w.exponent = some (negative, digits) →
    digits ≠ [] ∧ ∀ c ∈ digits, c.isDigit = true

/-- The digits of a number may stand before a point. -/
theorem isWhole_toDigits (n : Nat) : IsWhole (Nat.toDigits 10 n) := by
  rcases Nat.eq_zero_or_pos n with rfl | hpos
  · exact Or.inl rfl
  · exact Or.inr ⟨Nat.toDigits_ne_nil, head_toDigits hpos, fun c => isDigit_toDigits⟩

/-- The numeral of an integer is well-formed. -/
theorem wellFormed_ofInt (n : Int) : (ofInt n).WellFormed where
  whole := isWhole_toDigits n.natAbs
  fraction := nofun
  exponent := nofun

/-- Digits that may stand before a point are digits. -/
theorem IsWhole.isDigit {ds : List Char} (h : IsWhole ds) {c : Char} (hc : c ∈ ds) :
    c.isDigit = true := by
  rcases h with rfl | ⟨-, -, hdigits⟩
  · rw [List.mem_singleton.mp hc]
    rfl
  · exact hdigits c hc

/-- Some of the digits that may stand before a point may do so too. -/
theorem IsWhole.take {ds : List Char} (h : IsWhole ds) {count : Nat} (hcount : 0 < count) :
    IsWhole (ds.take count) := by
  obtain ⟨count, rfl⟩ := Nat.exists_eq_add_of_lt hcount
  rcases h with rfl | ⟨hne, hzero, hdigits⟩
  · exact Or.inl (by simp)
  · cases ds with
    | nil => exact absurd rfl hne
    | cons c cs =>
      exact Or.inr ⟨by simp, by simpa using hzero, fun d hd => hdigits d (List.mem_of_mem_take hd)⟩

end Written

/-- The distance of neighbors around a positive number is at most the number. -/
theorem spacing_le {units : Nat} (h : units ≠ 0) : Binary64.spacing units ≤ units := by
  have hexponent : Nat.log2 units + 1 - 53 ≤ Nat.log2 units := by omega
  exact Nat.le_trans (Nat.pow_le_pow_right (by decide) hexponent) (Nat.log2_self_le h)

/-- Zero is not read as a positive number. -/
theorem Reach.holds_zero {units : Nat} (h : units ≠ 0) (exponent : Int) :
    (Reach.ofUnits units).holds (DecimalGrid.ofExponent exponent) 0 = false := by
  have hlow : 0 < (Reach.ofUnits units).low := by
    have hstep := spacing_le h
    simp only [Reach.ofUnits]
    split <;> omega
  have hfiner : 0 < (DecimalGrid.ofExponent exponent).finer := by
    unfold DecimalGrid.ofExponent
    dsimp only
    split
    next => exact Nat.one_pos
    next => exact Nat.pow_pos (by decide)
  have hproduct := Nat.mul_pos hlow hfiner
  simp only [Reach.holds, Nat.zero_mul]
  split
  all_goals
    simp only [Bool.and_eq_false_iff, decide_eq_false_iff_not]
    omega

/-- A decimal that is found for a positive number is not zero. -/
theorem Reach.coefficient_ne_zero {units : Nat} (h : units ≠ 0) {tieUp : Bool} {exponent : Int}
    {d : Decimal} (hd : (Reach.ofUnits units).onGrid? tieUp exponent = some d) :
    d.coefficient ≠ 0 := by
  have hzero := holds_zero h exponent
  unfold Reach.onGrid? at hd
  dsimp only at hd
  generalize (Reach.ofUnits units).centre * (DecimalGrid.ofExponent exponent).finer /
    (DecimalGrid.ofExponent exponent).cell = lower at hd
  have hlower : (Reach.ofUnits units).holds (DecimalGrid.ofExponent exponent) lower = true →
      lower ≠ 0 := by
    rintro hholds rfl
    rw [hzero] at hholds
    cases hholds
  split at hd
  next hholds _ =>
    have hpos := hlower hholds
    obtain rfl := Option.some.inj hd
    dsimp only
    split <;> omega
  next hholds _ => exact Option.some.inj hd ▸ hlower hholds
  next => exact Option.some.inj hd ▸ Nat.succ_ne_zero lower
  next => cases hd

/-- Moving factors of ten makes no coefficient zero. -/
theorem Decimal.stripped_ne_zero {d : Decimal} (h : d.coefficient ≠ 0) (fuel : Nat) :
    (d.stripped fuel).coefficient ≠ 0 := by
  induction fuel generalizing d with
  | zero => exact h
  | succ fuel ih =>
    rw [Decimal.stripped]
    split
    next hten =>
      refine ih ?_
      simp only [Bool.and_eq_true, bne_iff_ne, beq_iff_eq] at hten
      change d.coefficient / 10 ≠ 0
      omega
    next => exact h

/-- The shortest decimal of a positive number is not zero, or it is the one that is used when none
is found. -/
theorem shortest_ne_zero (tieUp : Bool) {units : Nat} (h : units ≠ 0) :
    (shortest tieUp units).coefficient ≠ 0 ∨ shortest tieUp units = ⟨0, 0⟩ := by
  rw [shortest]
  cases hfound : (List.range 17).findSome? fun (n : Nat) =>
      (Reach.ofUnits units).onGrid? tieUp (decimalSize units - 1 - (n : Int)) with
  | none => exact Or.inr rfl
  | some d =>
    obtain ⟨n, -, hd⟩ := List.exists_of_findSome?_eq_some hfound
    exact Or.inl (Decimal.stripped_ne_zero (Reach.coefficient_ne_zero h hd) 20)

namespace Layout

/-- The fraction of a whole number consists of digits. -/
theorem isDigit_wholeFraction (layout : Layout) {c : Char} (h : c ∈ layout.wholeFraction) :
    c.isDigit = true := by
  unfold wholeFraction at h
  split at h
  next =>
    rw [List.mem_singleton.mp h]
    rfl
  next => cases h

/-- Digits with a point are a well-formed numeral, unless zeros follow a zero before the point. -/
theorem wellFormed_pointed (layout : Layout) (negative : Bool) {digits : List Char} {size : Int}
    (h : Written.IsWhole digits) (hsize : digits = ['0'] → size ≤ 1) :
    (layout.pointed negative digits size).WellFormed := by
  have hzero : ∀ {count : Nat} {c : Char}, c ∈ List.replicate count '0' → c.isDigit = true := by
    intro count c hc
    rw [List.eq_of_mem_replicate hc]
    rfl
  unfold pointed
  split
  next =>
    refine ⟨Or.inl rfl, ?_, nofun⟩
    intro c hc
    rcases List.mem_append.mp hc with hc | hc
    · exact hzero hc
    · exact h.isDigit hc
  next hpos =>
    split
    next =>
      exact ⟨h.take (by omega), fun c hc => h.isDigit (List.mem_of_mem_drop hc), nofun⟩
    next hlong =>
      refine ⟨?_, fun c hc => layout.isDigit_wholeFraction hc, nofun⟩
      rcases h with rfl | ⟨hne, hhead, hdigits⟩
      · have hone : size = 1 := by
          have := hsize rfl
          omega
        exact Or.inl (by rw [hone]; rfl)
      · refine Or.inr ⟨by simp [hne], ?_, ?_⟩
        · cases digits with
          | nil => exact absurd rfl hne
          | cons c cs => exact hhead
        · intro c hc
          rcases List.mem_append.mp hc with hc | hc
          · exact hdigits c hc
          · exact hzero hc

/-- Digits with an exponent are a well-formed numeral. -/
theorem wellFormed_scaled (negative : Bool) {digits : List Char} (size : Int)
    (h : Written.IsWhole digits) : (scaled negative digits size).WellFormed where
  whole := h.take Nat.one_pos
  fraction _ hc := h.isDigit (List.mem_of_mem_drop hc)
  exponent negative digits heq := by
    obtain ⟨-, rfl⟩ := Prod.mk.inj (Option.some.inj heq)
    exact ⟨Nat.toDigits_ne_nil, fun c => isDigit_toDigits⟩

/-- The numeral of any number of units is well-formed. -/
theorem wellFormed_written (layout : Layout) (negative : Bool) (units : Nat) :
    (layout.written negative units).WellFormed := by
  unfold written
  by_cases hzero : units = 0
  · rw [if_pos (by simp [hzero])]
    exact ⟨Or.inl rfl, fun c hc => layout.isDigit_wholeFraction hc, nofun⟩
  · rw [if_neg (by simp [hzero])]
    dsimp only
    have hwhole := Written.isWhole_toDigits (shortest layout.tieUp units).coefficient
    have hsize : Nat.toDigits 10 (shortest layout.tieUp units).coefficient = ['0'] →
        (shortest layout.tieUp units).exponent +
          (Nat.toDigits 10 (shortest layout.tieUp units).coefficient).length ≤ 1 := by
      intro hdigits
      rcases shortest_ne_zero layout.tieUp hzero with hne | hnone
      · have hvalue := ofDigits_toDigits (shortest layout.tieUp units).coefficient
        rw [hdigits] at hvalue
        exact absurd hvalue.symm hne
      · rw [hnone]
        decide
    have hpointed := wellFormed_pointed layout negative hwhole hsize
    split
    next =>
      split
      next => exact hpointed
      next => exact wellFormed_scaled negative _ hwhole
    next => exact hpointed

end Layout

end Numeral

end CellularAutomata
