import CellularAutomata.Numeral.Scientific
import CellularAutomata.Proofs.Numeral.Whole

/-!
# Rounded numbers

Which multiples of a unit are double-precision numbers: those that are multiples of the
distance of their neighbors and below the limit. Whatever is rounded is one, so whatever is
read from a text is one. A whole one that is cut to a signed 64-bit number and converted back
is cut to the same number again, although the conversion may move it.
-/

namespace CellularAutomata

namespace Binary64

-- Written out, these have hundreds of digits.
attribute [local irreducible] unitsPerOne unitsLimit

/-- The numbers of units that can be represented: those that are multiples of the distance of
their neighbors and not too large. -/
structure Represented (units : Nat) : Prop where
  /-- They are multiples of the distance of their neighbors. -/
  multiple : spacing units ∣ units
  /-- They are not too large. -/
  limit : units < unitsLimit

/-- The numbers that can be represented. What is not finite always can. -/
def Proper : Binary64 → Prop
  | .finite _ units => Represented units
  | _ => True

/-- Rounding a quotient raises it by at most one. -/
theorem nearestEven_le (num den : Nat) : nearestEven num den ≤ num / den + 1 := by
  unfold nearestEven
  dsimp only
  split <;> omega

/-- A quotient has at most 53 bits when it is counted in the distance of its neighbors. -/
theorem div_spacing_lt (units : Nat) : units / spacing units < 2 ^ 53 := by
  have hpos : 0 < spacing units := Nat.two_pow_pos _
  rw [Nat.div_lt_iff_lt_mul hpos]
  calc units < 2 ^ (Nat.log2 units + 1) := Nat.lt_log2_self
    _ ≤ 2 ^ (53 + (Nat.log2 units + 1 - 53)) := Nat.pow_le_pow_right (by decide) (by omega)
    _ = 2 ^ 53 * spacing units := Nat.pow_add 2 53 _

/-- What has been rounded is a multiple of the distance of its neighbors. -/
theorem spacing_dvd_roundUnits (num den : Nat) :
    spacing (roundUnits num den) ∣ roundUnits num den := by
  have hquotient : num / (den * spacing (num / den)) < 2 ^ 53 := by
    rw [← Nat.div_div_eq_div_mul]
    exact div_spacing_lt (num / den)
  have hle := nearestEven_le num (den * spacing (num / den))
  exact spacing_dvd_shifted (by omega) _

/-- Rounding does not depend on the unit in which a quotient is given. -/
theorem nearestEven_mul (num den : Nat) {k : Nat} (hk : 0 < k) :
    nearestEven (num * k) (den * k) = nearestEven num den := by
  have hquotient : num * k / (den * k) = num / den := Nat.mul_div_mul_right num den hk
  have hrest : num * k % (den * k) = num % den * k := Nat.mul_mod_mul_right k num den
  have hless : 2 * (num % den * k) < den * k ↔ 2 * (num % den) < den := by
    rw [← Nat.mul_assoc, Nat.mul_lt_mul_right hk]
  have hequal : 2 * (num % den * k) = den * k ↔ 2 * (num % den) = den := by
    rw [← Nat.mul_assoc, Nat.mul_left_inj hk.ne']
  simp only [nearestEven, hquotient, hrest, hless, beq_eq_decide, hequal]

/-- A rounded quotient is at most half a unit away. -/
theorem nearestEven_dist (num : Nat) {den : Nat} (hpos : 0 < den) :
    2 * (nearestEven num den * den) ≤ 2 * num + den ∧
      2 * num ≤ 2 * (nearestEven num den * den) + den := by
  have hsplit : den * (num / den) + num % den = num := Nat.div_add_mod num den
  have hlt : num % den < den := Nat.mod_lt num hpos
  rw [Nat.mul_comm _ den]
  unfold nearestEven
  dsimp only
  split
  next h =>
    simp only [Bool.or_eq_true, decide_eq_true_eq, Bool.and_eq_true, beq_iff_eq] at h
    omega
  next h =>
    simp only [Bool.or_eq_true, decide_eq_true_eq, Bool.and_eq_true, beq_iff_eq, not_or,
      not_and] at h
    rw [Nat.mul_add]
    omega

/-- The distance of neighbors around a number that has at least 53 bits is shifted with it. -/
theorem spacing_mul_two_pow {n : Nat} (h : 2 ^ 53 ≤ n) (k : Nat) :
    spacing (n * 2 ^ k) = spacing n * 2 ^ k := by
  have hne : n ≠ 0 := by omega
  have hlog : 53 ≤ Nat.log2 n := (Nat.le_log2 hne).mpr h
  have hshift : Nat.log2 (n * 2 ^ k) = Nat.log2 n + k := by
    have hmoved : n * 2 ^ k ≠ 0 := Nat.mul_ne_zero hne (Nat.two_pow_pos k).ne'
    rw [Nat.log2_eq_iff hmoved, Nat.add_right_comm, Nat.pow_add, Nat.pow_add]
    exact ⟨Nat.mul_le_mul_right _ (Nat.log2_self_le hne),
      (Nat.mul_lt_mul_right (Nat.two_pow_pos k)).mpr Nat.lt_log2_self⟩
  rw [spacing, spacing, hshift]
  have hexponent : Nat.log2 n + k + 1 - 53 = Nat.log2 n + 1 - 53 + k := by omega
  rw [hexponent]
  exact Nat.pow_add 2 _ k

/-- A shifted number is rounded as the number is. -/
theorem roundUnits_mul_two_pow (n k : Nat) :
    roundUnits (n * 2 ^ k) 1 = roundUnits n 1 * 2 ^ k := by
  rcases Nat.lt_or_ge n (2 ^ 53) with hsmall | hlarge
  · have hexact : spacing n ∣ n := by simpa using spacing_dvd_shifted hsmall.le 0
    rw [roundUnits_of_dvd (spacing_dvd_shifted hsmall.le k), roundUnits_of_dvd hexact]
  · simp only [roundUnits, Nat.div_one, Nat.one_mul, spacing_mul_two_pow hlarge]
    rw [nearestEven_mul _ _ (Nat.two_pow_pos k), Nat.mul_assoc]

/-- A natural number is rounded in ones as it is in units. -/
theorem roundUnits_mul_unitsPerOne (n : Nat) :
    roundUnits (n * unitsPerOne) 1 = roundUnits n 1 * unitsPerOne := by
  obtain ⟨k, hk, -⟩ := exists_exponent
  rw [hk]
  exact roundUnits_mul_two_pow n k

/-- A rounded number is at most half the distance of its neighbors away. -/
theorem roundUnits_dist (n : Nat) :
    2 * roundUnits n 1 ≤ 2 * n + spacing n ∧ 2 * n ≤ 2 * roundUnits n 1 + spacing n := by
  have hpos : 0 < spacing n := Nat.two_pow_pos _
  have hdist := nearestEven_dist n hpos
  simpa only [roundUnits, Nat.div_one, Nat.one_mul] using hdist

/-- A positive number is not rounded to zero. -/
theorem roundUnits_pos {n : Nat} (h : 0 < n) : 0 < roundUnits n 1 := by
  have hspacing : spacing n ≤ n :=
    (Nat.pow_le_pow_right (by decide) (by omega)).trans (Nat.log2_self_le h.ne')
  have hdist := roundUnits_dist n
  omega

/-- Rounding a number below a power of two does not lead beyond it. -/
theorem roundUnits_le_two_pow {n k : Nat} (h : n < 2 ^ k) : roundUnits n 1 ≤ 2 ^ k := by
  have hexponent : Nat.log2 n + 1 - 53 ≤ k := by
    rcases Nat.eq_zero_or_pos n with rfl | hpos
    · simp
    · have hlog := (Nat.log2_lt hpos.ne').mpr h
      omega
  obtain ⟨m, rfl⟩ := Nat.exists_eq_add_of_le' hexponent
  have hpower : 2 ^ (m + (Nat.log2 n + 1 - 53)) = 2 ^ m * spacing n := Nat.pow_add 2 m _
  have hquotient : n / spacing n < 2 ^ m := by
    have hpos : 0 < spacing n := Nat.two_pow_pos _
    rw [Nat.div_lt_iff_lt_mul hpos, ← hpower]
    exact h
  have hle : nearestEven n (spacing n) ≤ 2 ^ m :=
    (nearestEven_le n (spacing n)).trans hquotient
  rw [hpower, roundUnits, Nat.div_one, Nat.one_mul]
  exact Nat.mul_le_mul_right _ hle

/-- A number is not changed by rounding just if it is a multiple of the distance. -/
theorem roundUnits_eq_self_iff {n : Nat} : roundUnits n 1 = n ↔ spacing n ∣ n := by
  constructor
  · intro h
    have hround := spacing_dvd_roundUnits n 1
    rwa [h] at hround
  · exact roundUnits_of_dvd

/-- A quotient that has been rounded can be represented. -/
theorem proper_ofRatio (negative : Bool) (num den : Nat) : (ofRatio negative num den).Proper := by
  rw [ofRatio, ofUnits]
  split
  next hlimit => exact ⟨spacing_dvd_roundUnits _ _, hlimit⟩
  next => exact True.intro

/-- An integer that has been rounded can be represented. -/
theorem proper_ofInt (n : Int) : (ofInt n).Proper := proper_ofRatio _ _ _

/-- Zero can be represented. -/
theorem represented_zero : Represented 0 := by
  obtain ⟨k, -, hlimit⟩ := exists_exponent
  refine ⟨Nat.dvd_zero _, ?_⟩
  rw [hlimit]
  exact Nat.two_pow_pos _

/-- What is read from a text can be represented. -/
theorem proper_of_binary64? {cs : List Char} {b : Binary64}
    (h : Numeral.binary64? cs = some b) : b.Proper := by
  have hdecimal : ∀ negative (d : Numeral.Decimal), (d.toBinary64 negative).Proper := by
    intro negative d
    unfold Numeral.Decimal.toBinary64
    dsimp only
    split
    next => exact represented_zero
    next =>
      split
      next => exact True.intro
      next =>
        split
        next => exact represented_zero
        next => split <;> exact proper_ofRatio _ _ _
  have hmagnitude : ∀ negative cs, Numeral.magnitude? negative cs = some b → b.Proper := by
    intro negative cs h
    unfold Numeral.magnitude? at h
    dsimp only at h
    split at h
    next => exact Option.some.inj h ▸ True.intro
    next =>
      split at h
      next => exact Option.some.inj h ▸ True.intro
      next =>
        obtain ⟨d, -, hd⟩ := Option.map_eq_some_iff.mp h
        exact hd ▸ hdecimal negative d
  unfold Numeral.binary64? at h
  split at h <;> exact hmagnitude _ _ h

/-- What it takes that an integer is read between two bounds when the double-precision number
nearest to it is given. -/
structure Survives (least most n : Int) : Prop where
  /-- That number is whole. -/
  whole : (ofInt n).isWhole = true
  /-- It is not below the lower bound. -/
  least : ¬ (ofInt n).less (ofInt least) = true
  /-- It is not above the upper bound. -/
  most : ¬ (ofInt most).less (ofInt n) = true
  /-- It is cut to the same integer. -/
  same : (ofInt n).truncated Numeral.leastInt64 Numeral.mostInt64 = n

/-- An integer survives if the nearest number is a multiple of one that lies between the bounds
and is cut to it. -/
theorem survives_of_place {least most low high n k : Int}
    (hleast : (ofInt least).place = some (low * unitsPerOne : Int))
    (hmost : (ofInt most).place = some (high * unitsPerOne : Int))
    (hwhole : (ofInt n).isWhole = true) (hplace : (ofInt n).place = some (k * unitsPerOne : Int))
    (hlow : low ≤ k) (hhigh : k ≤ high)
    (hcut : max Numeral.leastInt64 (min Numeral.mostInt64 k) = n) : Survives least most n := by
  refine ⟨hwhole, ?_, ?_, ?_⟩
  · rw [less_iff_of_ones hplace hleast, Int.not_lt]
    exact hlow
  · rw [less_iff_of_ones hmost hplace, Int.not_lt]
    exact hhigh
  · rw [truncated_of_ones hwhole hplace, hcut]

/-- Integers between bounds of less than 53 bits survive. -/
theorem survives_of_bounds {least most n : Int} (hleast : least.natAbs < 2 ^ 53)
    (hmost : most.natAbs < 2 ^ 53) (hn : least ≤ n ∧ n ≤ most) : Survives least most n := by
  have hbits : n.natAbs < 2 ^ 53 := by omega
  have hwhole : (ofInt n).isWhole = true := by
    rw [ofInt_whole hbits, isWhole, Nat.mul_mod_left]
    rfl
  have hlow : (-2 ^ 63 : Int) = Numeral.leastInt64 := by decide
  have hhigh : (2 ^ 63 - 1 : Int) = Numeral.mostInt64 := by decide
  exact survives_of_place (place_ofInt hleast) (place_ofInt hmost) hwhole (place_ofInt hbits)
    hn.1 hn.2 (by omega)

/-- A signed 64-bit number is converted to the nearest number, which is whole. -/
theorem ofInt_rounded {n : Int} (h : n.natAbs ≤ 2 ^ 63) :
    ofInt n = .finite (decide (n < 0)) (roundUnits n.natAbs 1 * unitsPerOne) := by
  have hlimit : roundUnits n.natAbs 1 * unitsPerOne < unitsLimit := by
    obtain ⟨k, hk, hlimit⟩ := exists_exponent
    have hle : roundUnits n.natAbs 1 ≤ 2 ^ 64 := roundUnits_le_two_pow (by omega)
    rw [hk, hlimit]
    calc roundUnits n.natAbs 1 * 2 ^ k ≤ 2 ^ 64 * 2 ^ k := Nat.mul_le_mul_right _ hle
      _ = 2 ^ (64 + k) := (Nat.pow_add 2 64 k).symm
      _ < 2 ^ (k + 1024) := Nat.pow_lt_pow_right (by decide) (by omega)
  rw [ofInt, ofRatio, roundUnits_mul_unitsPerOne, ofUnits, if_pos hlimit]

/-- A natural number whose units can be represented is itself a double-precision number. -/
theorem ofInt_of_represented {n : Nat} (h : Represented (n * unitsPerOne)) :
    ofInt n = .finite false (n * unitsPerOne) := by
  have hsign : decide ((n : Int) < 0) = false := by simp
  rw [ofInt, hsign, ofRatio, Int.natAbs_natCast, roundUnits_of_dvd h.multiple, ofUnits,
    if_pos h.limit]

/-- The greatest signed 64-bit number is rounded up to a power of two. -/
theorem ofInt_mostInt64 : ofInt Numeral.mostInt64 = .finite false (2 ^ 63 * unitsPerOne) := by
  decide +kernel

/-- The units of a whole number that is not below zero can be represented with it. -/
theorem represented_of_place {b : Binary64} (hproper : b.Proper) (hwhole : b.isWhole = true)
    {units : Nat} (hplace : b.place = some (units : Int)) : Represented units := by
  cases b with
  | nan => cases hwhole
  | infinite negative => cases hwhole
  | finite negative units' =>
    cases negative with
    | false =>
      have hunits : (units' : Int) = units := Option.some.inj hplace
      exact Int.ofNat.inj hunits ▸ hproper
    | true =>
      have hunits : -(units' : Int) = units := Option.some.inj hplace
      obtain rfl : units = 0 := by omega
      exact represented_zero

/-- What has been cut to a signed 64-bit number and is not negative survives. The greatest of
these numbers is moved by one when it is converted and moved back when it is cut again. -/
theorem survives_truncated {b : Binary64} (hproper : b.Proper) (hwhole : b.isWhole = true)
    (hleast : ¬ b.less (ofInt 0) = true) (hmost : ¬ (ofInt Numeral.mostInt64).less b = true) :
    Survives 0 Numeral.mostInt64 (b.truncated Numeral.leastInt64 Numeral.mostInt64) := by
  obtain ⟨k, hplace, hcut⟩ := exists_place_of_isWhole hwhole
  have hlow : (-2 ^ 63 : Int) = Numeral.leastInt64 := by decide
  have hhigh : (2 ^ 63 - 1 : Int) = Numeral.mostInt64 := by decide
  have hwholeOf : ∀ {n : Int} {m : Nat}, ofInt n = .finite false (m * unitsPerOne) →
      (ofInt n).isWhole = true ∧ (ofInt n).place = some (m * unitsPerOne : Int) := by
    intro n m h
    rw [h, isWhole, place, Nat.mul_mod_left, Int.natCast_mul]
    exact ⟨rfl, rfl⟩
  have hplaceLeast : (ofInt 0).place = some (0 * unitsPerOne : Int) := place_ofInt (by decide)
  have hplaceMost := (hwholeOf ofInt_mostInt64).2
  have hk0 : 0 ≤ k := by rwa [less_iff_of_ones hplace hplaceLeast, Int.not_lt] at hleast
  have hk63 : k ≤ (2 ^ 63 : Nat) := by rwa [less_iff_of_ones hplaceMost hplace, Int.not_lt] at hmost
  obtain ⟨n, rfl⟩ := Int.eq_ofNat_of_zero_le hk0
  rcases Nat.lt_or_ge n (2 ^ 63) with hsmall | hlarge
  · have hsame : max Numeral.leastInt64 (min Numeral.mostInt64 (n : Int)) = n := by omega
    have hrepresented : Represented (n * unitsPerOne) :=
      represented_of_place hproper hwhole (by rw [hplace, Int.natCast_mul])
    obtain ⟨hwholeN, hplaceN⟩ := hwholeOf (ofInt_of_represented hrepresented)
    rw [hcut, hsame]
    exact survives_of_place hplaceLeast hplaceMost hwholeN hplaceN hk0 hk63 hsame
  · have hsame : max Numeral.leastInt64 (min Numeral.mostInt64 (n : Int)) =
        Numeral.mostInt64 := by omega
    have hcutMost : max Numeral.leastInt64 (min Numeral.mostInt64 ((2 ^ 63 : Nat) : Int)) =
        Numeral.mostInt64 := by omega
    rw [hcut, hsame]
    exact survives_of_place hplaceLeast hplaceMost (hwholeOf ofInt_mostInt64).1 hplaceMost
      (by omega) le_rfl hcutMost

end Binary64

end CellularAutomata
