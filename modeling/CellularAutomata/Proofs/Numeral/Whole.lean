import CellularAutomata.Parameters
import Mathlib.Tactic.Linarith

/-!
# Whole numbers among double-precision numbers

Integers of less than 53 bits are double-precision numbers themselves, and their order is
the usual one. So a parameter that has to be a whole number between two such bounds is one.
-/

namespace CellularAutomata

namespace Binary64

/-- The number of units in one is a power of two. The exponent is kept as a variable, so
that the power is never computed. -/
theorem exists_exponent : ∃ k, unitsPerOne = 2 ^ k ∧ unitsLimit = 2 ^ (k + 1024) := by
  have hpowers : ∀ m n, n = m + 1024 →
      ∃ k, Nat.pow 2 m = 2 ^ k ∧ Nat.pow 2 n = 2 ^ (k + 1024) := by
    intro m n hn
    rw [hn]
    exact ⟨m, Nat.pow_eq, Nat.pow_eq⟩
  unfold unitsPerOne unitsLimit
  exact hpowers 1074 2098 rfl

/-- One has units. -/
theorem unitsPerOne_pos : 0 < unitsPerOne := by
  obtain ⟨k, hk, -⟩ := exists_exponent
  rw [hk]
  exact Nat.two_pow_pos k

/-- A number of at most 53 bits, shifted by any number of places, is a multiple of the distance
of neighbors around it. -/
theorem spacing_dvd_shifted {m : Nat} (h : m ≤ 2 ^ 53) (k : Nat) :
    spacing (m * 2 ^ k) ∣ m * 2 ^ k := by
  rcases Nat.lt_or_eq_of_le h with hlt | rfl
  · have hexponent : Nat.log2 (m * 2 ^ k) + 1 - 53 ≤ k := by
      rcases Nat.eq_zero_or_pos m with hzero | hpos
      · simp [hzero]
      · have hne : m * 2 ^ k ≠ 0 := (Nat.mul_pos hpos (Nat.two_pow_pos k)).ne'
        have hbits : m * 2 ^ k < 2 ^ (53 + k) := by
          rw [Nat.pow_add]
          exact (Nat.mul_lt_mul_right (Nat.two_pow_pos k)).mpr hlt
        have hlog := (Nat.log2_lt hne).mpr hbits
        omega
    exact (Nat.pow_dvd_pow 2 hexponent).trans (Nat.dvd_mul_left (2 ^ k) m)
  · -- the power of two itself has one bit more, and is a multiple of every smaller power
    rw [← Nat.pow_add, spacing, Nat.log2_two_pow]
    exact Nat.pow_dvd_pow 2 (by omega)

/-- The distance of neighbors around a whole number of less than 53 bits divides it. -/
theorem spacing_dvd {m : Nat} (h : m < 2 ^ 53) :
    spacing (m * unitsPerOne) ∣ m * unitsPerOne := by
  obtain ⟨k, hk, -⟩ := exists_exponent
  rw [hk]
  exact spacing_dvd_shifted h.le k

/-- A quotient that is whole is not rounded. -/
theorem nearestEven_of_dvd {num den : Nat} (hpos : 0 < den) (h : den ∣ num) :
    nearestEven num den = num / den := by
  have hrest : num % den = 0 := Nat.mod_eq_zero_of_dvd h
  simp [nearestEven, hrest, hpos]

/-- A number of units that is a multiple of the distance of its neighbors is not rounded. -/
theorem roundUnits_of_dvd {units : Nat} (h : spacing units ∣ units) :
    roundUnits units 1 = units := by
  have hpos : 0 < spacing units := Nat.two_pow_pos _
  rw [roundUnits, Nat.div_one, Nat.one_mul, nearestEven_of_dvd hpos h, Nat.div_mul_cancel h]

/-- Whole numbers of less than 53 bits are not rounded. -/
theorem roundUnits_whole {m : Nat} (h : m < 2 ^ 53) :
    roundUnits (m * unitsPerOne) 1 = m * unitsPerOne :=
  roundUnits_of_dvd (spacing_dvd h)

/-- An integer of less than 53 bits is itself a double-precision number. -/
theorem ofInt_whole {n : Int} (h : n.natAbs < 2 ^ 53) :
    ofInt n = .finite (decide (n < 0)) (n.natAbs * unitsPerOne) := by
  have hlimit : n.natAbs * unitsPerOne < unitsLimit := by
    obtain ⟨k, hk, hlimit⟩ := exists_exponent
    rw [hk, hlimit]
    calc n.natAbs * 2 ^ k < 2 ^ 53 * 2 ^ k := (Nat.mul_lt_mul_right (Nat.two_pow_pos k)).mpr h
      _ = 2 ^ (53 + k) := (Nat.pow_add 2 53 k).symm
      _ ≤ 2 ^ (k + 1024) := Nat.pow_le_pow_right (by decide) (by omega)
  rw [ofInt, ofRatio, roundUnits_whole h, ofUnits, if_pos hlimit]

/-- Integers of less than 53 bits are in their usual order. -/
theorem place_ofInt {n : Int} (h : n.natAbs < 2 ^ 53) :
    (ofInt n).place = some (n * unitsPerOne) := by
  rw [ofInt_whole h]
  generalize unitsPerOne = one
  by_cases hneg : n < 0
  · have habs : (n.natAbs : Int) = -n := by omega
    rw [decide_eq_true hneg, place, Nat.cast_mul, habs, neg_mul, neg_neg]
  · have habs : (n.natAbs : Int) = n := by omega
    rw [decide_eq_false hneg, place, Nat.cast_mul, habs]

/-- Of two numbers with a place the one with the smaller place is the smaller one. -/
theorem less_iff {a b : Binary64} {x y : Int} (ha : a.place = some x) (hb : b.place = some y) :
    a.less b = true ↔ x < y := by
  simp [less, ha, hb]

/-- Numbers that are multiples of one are in the order of the multiples. -/
theorem less_iff_of_ones {a b : Binary64} {x y : Int} (ha : a.place = some (x * unitsPerOne))
    (hb : b.place = some (y * unitsPerOne)) : a.less b = true ↔ x < y := by
  have hone : (0 : Int) < unitsPerOne := by exact_mod_cast unitsPerOne_pos
  rw [less_iff ha hb]
  exact Int.mul_lt_mul_right hone

/-- A whole number is a multiple of one, and cutting it moves it to the nearer end if it lies
outside. -/
theorem exists_place_of_isWhole {b : Binary64} (h : b.isWhole = true) :
    ∃ n : Int, b.place = some (n * unitsPerOne) ∧
      ∀ least most : Int, b.truncated least most = max least (min most n) := by
  cases b with
  | nan => cases h
  | infinite negative => cases h
  | finite negative units =>
    have hpos := unitsPerOne_pos
    simp only [isWhole, place, truncated] at h ⊢
    -- Only that it is positive matters here; written out it has more than 300 digits.
    generalize unitsPerOne = one at h hpos ⊢
    have hdvd : one ∣ units := Nat.dvd_of_mod_eq_zero (by simpa using h)
    obtain ⟨k, rfl⟩ := hdvd
    have hquotient : one * k / one = k := Nat.mul_div_cancel_left k hpos
    cases negative with
    | false => exact ⟨k, by simp [Int.mul_comm], fun least most => by simp only [hquotient]⟩
    | true => exact ⟨-k, by simp [Int.mul_comm], fun least most => by simp only [hquotient]⟩

/-- Cutting a multiple of one moves it to the nearer end if it lies outside. -/
theorem truncated_of_ones {b : Binary64} {k : Int} (hwhole : b.isWhole = true)
    (hplace : b.place = some (k * unitsPerOne)) (least most : Int) :
    b.truncated least most = max least (min most k) := by
  have hone : (unitsPerOne : Int) ≠ 0 := by exact_mod_cast unitsPerOne_pos.ne'
  obtain ⟨k', hplace', hcut⟩ := exists_place_of_isWhole hwhole
  obtain rfl : k = k' :=
    Int.eq_of_mul_eq_mul_right hone (Option.some.inj (hplace.symm.trans hplace'))
  exact hcut least most

end Binary64

namespace Parameters

/-- A number that is read between two bounds is neither below the one nor above the other. -/
theorem numberWithin_bounds {p : Parameters} {name : String} {least most value : Binary64}
    {default : Option Binary64} (h : p.numberWithin name least most default = .ok value) :
    ¬ value.less least = true ∧ ¬ most.less value = true := by
  unfold numberWithin at h
  split at h
  next => cases h
  next read _ =>
    split at h
    next => cases h
    next hinside =>
      obtain rfl : read = value := Except.ok.inj h
      simpa using hinside

/-- A whole number that is read between two bounds of less than 53 bits lies between them. -/
theorem integerWithin_bounds {p : Parameters} {name : String} {least most n : Int}
    {default : Option Int} (hleast : least.natAbs < 2 ^ 53) (hmost : most.natAbs < 2 ^ 53)
    (h : p.integerWithin name least most default = .ok n) : least ≤ n ∧ n ≤ most := by
  unfold integerWithin at h
  split at h
  next => cases h
  next value hvalue =>
    split at h
    next hwhole =>
      obtain ⟨k, hplace, hcut⟩ := Binary64.exists_place_of_isWhole hwhole
      have hbounds : least ≤ k ∧ k ≤ most := by
        have hinside := numberWithin_bounds hvalue
        rwa [Binary64.less_iff_of_ones hplace (Binary64.place_ofInt hleast), Int.not_lt,
          Binary64.less_iff_of_ones (Binary64.place_ofInt hmost) hplace, Int.not_lt] at hinside
      have hlow : (-2 ^ 63 : Int) = Numeral.leastInt64 := by decide
      have hhigh : (2 ^ 63 - 1 : Int) = Numeral.mostInt64 := by decide
      have hsame : max Numeral.leastInt64 (min Numeral.mostInt64 k) = k := by omega
      rw [hcut, hsame] at h
      exact Except.ok.inj h ▸ hbounds
    next => cases h

end Parameters

end CellularAutomata
