import CellularAutomata.Json.Parser
import CellularAutomata.Json.Printer

/-!
# String literals

What is written of a text is read back: escapes stand for the code units that they are written
for, characters without an escape for themselves, and the literal ends at its closing quote.
-/

namespace CellularAutomata.Json

/-- The items that are written as they are read: a character that needs no escape, or a code
unit. -/
def StringItem.Canonical : StringItem → Prop
  | plain c => c ≠ '"' ∧ c ≠ '\\' ∧ 0x20 ≤ c.toNat
  | escaped unit => unit < 0x10000

/-- The items of a text are written as they are read. -/
theorem canonical_itemOf (c : Char) : (itemOf c).Canonical := by
  unfold itemOf
  split
  next hescaped =>
    change c.toNat < 0x10000
    rcases hescaped with rfl | rfl | hcontrol
    · decide
    · decide
    · exact Nat.lt_trans hcontrol (by decide)
  next hplain =>
    rw [not_or, not_or, Nat.not_lt] at hplain
    exact hplain

/-- The items of a string literal are written as they are read. -/
theorem canonical_of_mem_encode {cs : List Char} {i : StringItem} (h : i ∈ encode cs) :
    i.Canonical := by
  obtain ⟨c, -, rfl⟩ := List.mem_map.mp h
  exact canonical_itemOf c

/-- The item of a character stands for it, whatever follows. -/
theorem decode_itemOf (c : Char) (items : List StringItem) :
    decode (itemOf c :: items) = (decode items).map (c :: ·) := by
  unfold itemOf
  split
  next hescaped =>
    have hsmall : c.toNat < 0x80 := by
      rcases hescaped with rfl | rfl | hcontrol
      · decide
      · decide
      · omega
    have hhigh : isHighSurrogate c.toNat = false := by simp [isHighSurrogate]; omega
    have hlow : isLowSurrogate c.toNat = false := by simp [isLowSurrogate]; omega
    cases items with
    | nil => simp [decode, hhigh, hlow]
    | cons i items =>
      cases i with
      | plain d => simp [decode, hhigh, hlow]
      | escaped unit => simp [decode, hhigh, hlow]
  next => rfl

/-- The literal of a text stands for it. -/
theorem decode_encode (cs : List Char) : decode (encode cs) = some cs := by
  induction cs with
  | nil => rfl
  | cons c cs ih =>
    rw [encode, List.map_cons, decode_itemOf, ← encode, ih]
    rfl

/-- A hexadecimal digit has its value. -/
theorem hexValue?_hexDigit {n : Nat} (h : n < 16) : hexValue? (hexDigit n) = some n := by
  have hall : ∀ n < 16, hexValue? (hexDigit n) = some n := by decide
  exact hall n h

/-- Four hexadecimal digits stand for the code unit that they are written for. -/
theorem unit?_hexDigit {unit : Nat} (h : unit < 0x10000) :
    unit? (hexDigit (unit / 4096 % 16)) (hexDigit (unit / 256 % 16)) (hexDigit (unit / 16 % 16))
      (hexDigit (unit % 16)) = some unit := by
  have hdigit : ∀ n, hexValue? (hexDigit (n % 16)) = some (n % 16) :=
    fun n => hexValue?_hexDigit (Nat.mod_lt n (by decide))
  have hsum : ((unit / 4096 % 16 * 16 + unit / 256 % 16) * 16 + unit / 16 % 16) * 16 + unit % 16 =
      unit := by omega
  simp only [unit?, hdigit, Option.bind_eq_bind, Option.bind_some, Option.pure_def, hsum]

/-- An item is read as it is written, whatever follows. -/
theorem stringItems_chars {i : StringItem} (h : i.Canonical) (rest : List Char) :
    stringItems (i.chars ++ rest) =
      (stringItems rest).map fun (items, rest) => (i :: items, rest) := by
  cases i with
  | plain c =>
    obtain ⟨hquote, hbackslash, hcontrol⟩ := h
    rw [StringItem.chars, List.singleton_append, stringItems.eq_def]
    split
    next heq => cases heq
    next heq => exact absurd (List.cons.inj heq).1 hquote
    next heq => exact absurd (List.cons.inj heq).1 hbackslash
    next heq => exact absurd (List.cons.inj heq).1 hbackslash
    next heq =>
      obtain ⟨rfl, rfl⟩ := List.cons.inj heq
      rw [if_neg (by simp [hbackslash, hcontrol])]
  | escaped unit =>
    have hunit := unit?_hexDigit h
    rw [StringItem.chars]
    unfold escape
    split
    case h_8 => simp only [List.cons_append, List.nil_append, stringItems, hunit]
    all_goals simp [stringItems, shortEscape?]

/-- A literal is read up to and with its closing quote, as the items that are written. -/
theorem stringItems_literal {items : List StringItem} (h : ∀ i ∈ items, i.Canonical)
    (rest : List Char) :
    stringItems (items.flatMap StringItem.chars ++ '"' :: rest) = some (items, rest) := by
  induction items with
  | nil => rfl
  | cons i items ih =>
    rw [List.flatMap_cons, List.append_assoc, stringItems_chars (h i (List.mem_cons_self ..)),
      ih fun j hj => h j (List.mem_cons_of_mem i hj)]
    rfl

end CellularAutomata.Json
