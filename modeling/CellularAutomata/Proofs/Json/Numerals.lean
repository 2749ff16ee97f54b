import CellularAutomata.Json.Number
import CellularAutomata.Json.Parser
import CellularAutomata.Proofs.Numeral.Written
import Mathlib.Algebra.Group.Nat.Defs
import Mathlib.Algebra.Ring.Int.Defs

/-!
# Numbers in texts

What is written of a number is read as the same parts, as long as nothing follows that could be
another part, and the numeral of an integer of 64 bits is read as the integer.
-/

namespace CellularAutomata

namespace Json

open Numeral

/-- What follows a number: nothing that could be a part of it. -/
def Ends (rest : List Char) : Prop :=
  ∀ c, rest.head? = some c → c.isDigit = false ∧ c ≠ '.' ∧ c ≠ 'e' ∧ c ≠ 'E'

/-- A row of digits ends before the first character that is none. -/
theorem span_digits {digits rest : List Char} (hdigits : ∀ c ∈ digits, c.isDigit = true)
    (hrest : ∀ c, rest.head? = some c → c.isDigit = false) :
    (digits ++ rest).takeWhile Char.isDigit = digits ∧
      (digits ++ rest).dropWhile Char.isDigit = rest := by
  have hnone : rest.takeWhile Char.isDigit = [] ∧ rest.dropWhile Char.isDigit = rest := by
    cases rest with
    | nil => exact ⟨rfl, rfl⟩
    | cons c rest => simp [hrest c rfl]
  rw [List.takeWhile_append_of_pos hdigits, List.dropWhile_append_of_pos hdigits, hnone.1,
    hnone.2, List.append_nil]
  exact ⟨rfl, rfl⟩

/-- The digits before a point are read as they are written. -/
theorem wholePart_append {ds rest : List Char} (h : Written.IsWhole ds)
    (hrest : ∀ c, rest.head? = some c → c.isDigit = false) :
    wholePart (ds ++ rest) = some (ds, rest) := by
  rcases h with rfl | ⟨hne, hzero, hdigits⟩
  · rfl
  · obtain ⟨htake, hdrop⟩ := span_digits hdigits hrest
    unfold wholePart
    split
    next heq =>
      cases ds with
      | nil => exact absurd rfl hne
      | cons d ds => exact absurd (congrArg some (List.cons.inj heq).1) hzero
    next => simp [htake, hdrop, hne]

/-- The digits after a point are read as they are written. -/
theorem fractionPart_append {ds rest : List Char} (h : ∀ c ∈ ds, c.isDigit = true)
    (hrest : ∀ c, rest.head? = some c → c.isDigit = false ∧ c ≠ '.') :
    fractionPart ((if ds.isEmpty then [] else '.' :: ds) ++ rest) = some (ds, rest) := by
  cases ds with
  | nil =>
    rw [List.isEmpty_nil, if_pos rfl, List.nil_append]
    unfold fractionPart
    split
    next => exact absurd rfl (hrest '.' rfl).2
    next => rfl
  | cons d ds =>
    obtain ⟨htake, hdrop⟩ := span_digits h fun c hc => (hrest c hc).1
    rw [List.isEmpty_cons, if_neg Bool.false_ne_true, List.cons_append, fractionPart, htake, hdrop]
    rfl

/-- An exponent is read as it is written. -/
theorem exponentPart_append {e : Option (Bool × List Char)} {rest : List Char}
    (h : ∀ negative digits, e = some (negative, digits) →
      digits ≠ [] ∧ ∀ c ∈ digits, c.isDigit = true) (hrest : Ends rest) :
    exponentPart (Written.exponentChars e ++ rest) = some (e, rest) := by
  cases e with
  | none =>
    rw [Written.exponentChars, List.nil_append]
    cases rest with
    | nil => rfl
    | cons c rest =>
      obtain ⟨-, -, he, hE⟩ := hrest c rfl
      unfold exponentPart
      dsimp only
      rw [if_neg (by simp [he, hE])]
  | some e =>
    obtain ⟨negative, digits⟩ := e
    obtain ⟨hne, hdigits⟩ := h negative digits rfl
    obtain ⟨htake, hdrop⟩ := span_digits hdigits fun c hc => (hrest c hc).1
    cases negative <;>
      simp [Written.exponentChars, exponentPart, exponentDigits, htake, hdrop, hne]

/-- What is written after the digits before the point does not start with a digit. -/
theorem ends_exponentChars {e : Option (Bool × List Char)} {rest : List Char} (hrest : Ends rest)
    {c : Char} (hc : (Written.exponentChars e ++ rest).head? = some c) :
    c.isDigit = false ∧ c ≠ '.' := by
  cases e with
  | none => exact ⟨(hrest c hc).1, (hrest c hc).2.1⟩
  | some e =>
    obtain rfl : 'e' = c := Option.some.inj hc
    decide

/-- A number without its sign is read as it is written. -/
theorem unsigned_append {w : Written} (h : w.WellFormed) {rest : List Char} (hrest : Ends rest) :
    unsigned w.negative (w.whole ++ ((if w.fraction.isEmpty then [] else '.' :: w.fraction) ++
      (Written.exponentChars w.exponent ++ rest))) = some (.number w, rest) := by
  have hexponent : ∀ c, (Written.exponentChars w.exponent ++ rest).head? = some c →
      c.isDigit = false ∧ c ≠ '.' := fun c => ends_exponentChars hrest
  have hfraction : ∀ c, ((if w.fraction.isEmpty then [] else '.' :: w.fraction) ++
      (Written.exponentChars w.exponent ++ rest)).head? = some c → c.isDigit = false := by
    intro c hc
    split at hc
    next => exact (hexponent c hc).1
    next =>
      obtain rfl : '.' = c := Option.some.inj hc
      decide
  simp only [unsigned, wholePart_append h.whole hfraction,
    fractionPart_append h.fraction hexponent, exponentPart_append h.exponent hrest,
    Option.bind_eq_bind, Option.bind_some, Option.pure_def]

/-- Digits before a point start with a digit. -/
theorem exists_head_of_isWhole {ds : List Char} (h : Written.IsWhole ds) :
    ∃ c cs, ds = c :: cs ∧ c.isDigit = true := by
  rcases h with rfl | ⟨hne, -, hdigits⟩
  · exact ⟨'0', [], rfl, rfl⟩
  · cases ds with
    | nil => exact absurd rfl hne
    | cons c cs => exact ⟨c, cs, rfl, hdigits c (List.mem_cons_self ..)⟩

/-- A numeral starts with a minus sign or a digit. -/
theorem exists_head_chars {w : Written} (h : w.WellFormed) :
    ∃ c cs, w.chars = c :: cs ∧ (c = '-' ∨ c.isDigit = true) := by
  obtain ⟨c, cs, hwhole, hc⟩ := exists_head_of_isWhole h.whole
  rw [Written.chars, hwhole]
  split
  next => exact ⟨'-', _, rfl, Or.inl rfl⟩
  next => exact ⟨c, _, rfl, Or.inr hc⟩

/-- A number is read as it is written. -/
theorem number_append {w : Written} (h : w.WellFormed) {rest : List Char} (hrest : Ends rest) :
    number (w.chars ++ rest) = some (.number w, rest) := by
  have hunsigned := unsigned_append h hrest
  rw [Written.chars]
  simp only [List.append_assoc]
  cases hnegative : w.negative with
  | true =>
    rw [hnegative] at hunsigned
    exact hunsigned
  | false =>
    rw [hnegative] at hunsigned
    obtain ⟨c, cs, hwhole, hc⟩ := exists_head_of_isWhole h.whole
    have hsign : c ≠ '-' := by
      rintro rfl
      cases hc
    rw [if_neg Bool.false_ne_true, List.nil_append, ← hunsigned, hwhole, List.cons_append]
    unfold number
    split
    next heq => exact absurd (List.cons.inj heq).1 hsign
    next => rfl

/-- The numeral of an integer of 64 bits stands for it. -/
theorem integer?_ofInt {n : Int} (h : -2 ^ 63 ≤ n ∧ n < 2 ^ 64) :
    integer? (Written.ofInt n) = some n := by
  have hpow63 : Nat.pow 2 63 = 9223372036854775808 := rfl
  have hpow64 : Nat.pow 2 64 = 18446744073709551616 := rfl
  have hdigits : ofDigits (Written.ofInt n).whole = n.natAbs := ofDigits_toDigits n.natAbs
  rw [integer?, hdigits, hpow63, hpow64]
  by_cases hnegative : n < 0
  · have hsign : (Written.ofInt n).negative = true := decide_eq_true hnegative
    rw [hsign]
    simp only [Written.ofInt, List.isEmpty_nil, Option.isSome_none, Bool.not_true, Bool.or_self,
      Bool.false_eq_true, if_false, if_true]
    rw [if_pos (by omega), Option.some.injEq]
    omega
  · have hsign : (Written.ofInt n).negative = false := decide_eq_false hnegative
    rw [hsign]
    simp only [Written.ofInt, List.isEmpty_nil, Option.isSome_none, Bool.not_true, Bool.or_self,
      Bool.false_eq_true, if_false]
    rw [if_pos (by omega), Option.some.injEq]
    omega

namespace Value

/-- An integer between bounds of 64 bits is read as it is written. -/
theorem integerWithin?_ofInt {least most n : Int} (hn : least ≤ n ∧ n ≤ most)
    (hbits : -2 ^ 63 ≤ n ∧ n < 2 ^ 64) : (ofInt n).integerWithin? least most = some n := by
  rw [ofInt, integerWithin?, integer?_ofInt hbits]
  simp [Option.filter, hn]

/-- A signed 32-bit number is read as it is written. -/
theorem int32?_ofInt {n : Int} (h : leastInt32 ≤ n ∧ n ≤ mostInt32) :
    (ofInt n).int32? = some n := by
  have hleast : leastInt32 = -2147483648 := by decide
  have hmost : mostInt32 = 2147483647 := by decide
  exact integerWithin?_ofInt h (by omega)

/-- A natural number of at most 64 bits is read as it is written. -/
theorem naturalBelow?_ofInt {bits n : Nat} (h : n < 2 ^ bits) (hbits : bits ≤ 64) :
    (ofInt n).naturalBelow? bits = some n := by
  have hpow : Nat.pow 2 bits ≤ 2 ^ 64 := Nat.pow_le_pow_right (by decide) hbits
  have hn : n < Nat.pow 2 bits := h
  rw [naturalBelow?, integerWithin?_ofInt (by omega) (by omega)]
  rfl

end Value

end Json

end CellularAutomata
