import CellularAutomata.Proofs.Json.Numerals
import CellularAutomata.Proofs.Json.Strings

/-!
# Texts of trees

The compact text of a tree is read as the tree. Every value ends where the writing of it has
ended, because no character that may follow it could be a part of it; and as every value takes
at least a character and every nesting two steps, the steps suffice.
-/

namespace CellularAutomata.Json

/-- The trees that are written as they are read: their numerals are well-formed and their string
literals have items that are written as they are read. -/
inductive Writable : Value → Prop
  /-- Nothing. -/
  | null : Writable .null
  /-- A truth value. -/
  | bool (b : Bool) : Writable (.bool b)
  /-- A number. -/
  | number {w : Numeral.Written} (h : w.WellFormed) : Writable (.number w)
  /-- A string. -/
  | string {items : List StringItem} (h : ∀ i ∈ items, i.Canonical) : Writable (.string items)
  /-- An array. -/
  | array {vs : List Value} (h : ∀ v ∈ vs, Writable v) : Writable (.array vs)
  /-- An object. -/
  | object {ms : List (List StringItem × Value)} (hkeys : ∀ m ∈ ms, ∀ i ∈ m.1, i.Canonical)
      (hvalues : ∀ m ∈ ms, Writable m.2) : Writable (.object ms)

/-- A value is read as it is written, whatever follows, within two steps for each character. -/
def Reads (v : Value) : Prop :=
  ∀ steps rest, 2 * v.chars.length ≤ steps → Ends rest →
    value steps (v.chars ++ rest) = some (v, rest)

/-- Nothing has to be left out before a character that is not space. -/
theorem skip_cons {c : Char} (h : isSpace c = false) (cs : List Char) : skip (c :: cs) = c :: cs :=
  List.dropWhile_cons_of_neg (by simp [h])

/-- A number ends where the text ends. -/
theorem ends_nil : Ends [] := nofun

/-- A number ends before a comma, a bracket or a brace. -/
theorem ends_cons {c : Char} (h : c = ',' ∨ c = ']' ∨ c = '}') (cs : List Char) :
    Ends (c :: cs) := by
  rintro d hd
  obtain rfl : c = d := Option.some.inj hd
  rcases h with rfl | rfl | rfl <;> decide

/-- A numeral starts with a sign or a digit, so with no other character. -/
theorem ne_of_numeral {c d : Char} (h : c = '-' ∨ c.isDigit = true) (hdigit : d.isDigit = false)
    (hsign : d ≠ '-') : c ≠ d := by
  rintro rfl
  rcases h with rfl | h
  · exact hsign rfl
  · rw [hdigit] at h
    cases h

/-- A numeral starts with no space. -/
theorem isSpace_numeral {c : Char} (h : c = '-' ∨ c.isDigit = true) : isSpace c = false := by
  have hspace : c ≠ ' ' ∧ c ≠ '\n' ∧ c ≠ '\t' ∧ c ≠ '\r' :=
    ⟨ne_of_numeral h rfl (by decide), ne_of_numeral h rfl (by decide),
      ne_of_numeral h rfl (by decide), ne_of_numeral h rfl (by decide)⟩
  simp [isSpace, hspace]

/-- A value starts with a character that is neither space nor a closing bracket. -/
theorem Writable.exists_head {v : Value} (h : Writable v) :
    ∃ c cs, v.chars = c :: cs ∧ isSpace c = false ∧ c ≠ ']' := by
  cases h with
  | null => exact ⟨'n', _, rfl, by decide, by decide⟩
  | bool b => cases b <;> exact ⟨_, _, rfl, by decide, by decide⟩
  | number h =>
    obtain ⟨c, cs, hchars, hc⟩ := exists_head_chars h
    exact ⟨c, cs, hchars, isSpace_numeral hc, ne_of_numeral hc rfl (by decide)⟩
  | string h => exact ⟨'"', _, rfl, by decide, by decide⟩
  | array h => exact ⟨'[', _, rfl, by decide, by decide⟩
  | object hkeys hvalues => exact ⟨'\x7b', _, rfl, by decide, by decide⟩

/-- The literal `null` is read. -/
theorem reads_null : Reads .null := by
  intro steps rest hsteps _
  obtain ⟨steps, rfl⟩ := Nat.exists_eq_add_of_le' (Nat.le_trans (by decide : 1 ≤ 2 * 4) hsteps)
  rfl

/-- The literals `true` and `false` are read. -/
theorem reads_bool (b : Bool) : Reads (.bool b) := by
  intro steps rest hsteps _
  cases b with
  | true =>
    obtain ⟨steps, rfl⟩ := Nat.exists_eq_add_of_le' (Nat.le_trans (by decide : 1 ≤ 2 * 4) hsteps)
    rfl
  | false =>
    obtain ⟨steps, rfl⟩ := Nat.exists_eq_add_of_le' (Nat.le_trans (by decide : 1 ≤ 2 * 5) hsteps)
    rfl

/-- A well-formed numeral is read. -/
theorem reads_number {w : Numeral.Written} (h : w.WellFormed) : Reads (.number w) := by
  intro steps rest hsteps hrest
  obtain ⟨c, cs, hchars, hc⟩ := exists_head_chars h
  have hnumber := number_append h hrest
  rw [Value.chars, hchars, List.length_cons] at hsteps
  rw [hchars, List.cons_append] at hnumber
  obtain ⟨steps, rfl⟩ := Nat.exists_eq_add_of_le' (show 1 ≤ steps by omega)
  rw [Value.chars, hchars, List.cons_append, value, skip_cons (isSpace_numeral hc), ← hnumber]
  have hother : ∀ {d : Char} {ds : List Char}, c :: (cs ++ rest) = d :: ds →
      d.isDigit = false → d ≠ '-' → False :=
    fun heq hdigit hsign => ne_of_numeral hc hdigit hsign (List.cons.inj heq).1
  split
  next heq => exact (hother heq rfl (by decide)).elim
  next heq => exact (hother heq rfl (by decide)).elim
  next heq => exact (hother heq rfl (by decide)).elim
  next heq => exact (hother heq rfl (by decide)).elim
  next heq => exact (hother heq rfl (by decide)).elim
  next heq => exact (hother heq rfl (by decide)).elim
  next => rfl

/-- A string is read. -/
theorem reads_string {items : List StringItem} (h : ∀ i ∈ items, i.Canonical) :
    Reads (.string items) := by
  intro steps rest hsteps _
  rw [Value.chars, literal, List.length_cons] at hsteps
  obtain ⟨steps, rfl⟩ := Nat.exists_eq_add_of_le' (show 1 ≤ steps by omega)
  rw [Value.chars, literal, List.cons_append, List.append_assoc, List.singleton_append, value,
    skip_cons (by decide)]
  exact congrArg (Option.map fun read => (Value.string read.1, read.2)) (stringItems_literal h rest)

/-- Elements before others are followed by a comma. -/
theorem elementChars_cons_cons (v w : Value) (vs : List Value) :
    elementChars (v :: w :: vs) = v.chars ++ ',' :: elementChars (w :: vs) := by
  rw [elementChars]
  simp

/-- Elements start as the first of them does. -/
theorem exists_head_elementChars {v : Value} (h : Writable v) (vs : List Value) :
    ∃ c cs, elementChars (v :: vs) = c :: cs ∧ isSpace c = false ∧ c ≠ ']' := by
  obtain ⟨c, cs, hchars, hc⟩ := h.exists_head
  cases vs with
  | nil => exact ⟨c, cs ++ [']'], by rw [elementChars, hchars, List.cons_append], hc⟩
  | cons w vs =>
    refine ⟨c, cs ++ ',' :: elementChars (w :: vs), ?_, hc⟩
    rw [elementChars_cons_cons, hchars, List.cons_append]

/-- The elements of an array are read one after the other. -/
theorem elements_append {vs : List Value} (hne : vs ≠ []) (h : ∀ v ∈ vs, Reads v) {steps : Nat}
    (hsteps : 2 * (elementChars vs).length ≤ steps) (rest : List Char) :
    elements steps (elementChars vs ++ rest) = some (vs, rest) := by
  induction vs generalizing steps with
  | nil => exact absurd rfl hne
  | cons v vs ih =>
    have hv := h v List.mem_cons_self
    cases vs with
    | nil =>
      rw [elementChars, List.length_append, List.length_singleton] at hsteps
      obtain ⟨steps, rfl⟩ := Nat.exists_eq_add_of_le' (show 1 ≤ steps by omega)
      rw [elementChars, List.append_assoc, List.singleton_append, elements,
        hv steps _ (by omega) (ends_cons (by simp) rest)]
      dsimp only
      rw [skip_cons (by decide)]
      rfl
    | cons w vs =>
      rw [elementChars_cons_cons, List.length_append, List.length_cons] at hsteps
      obtain ⟨steps, rfl⟩ := Nat.exists_eq_add_of_le' (show 1 ≤ steps by omega)
      have hothers := ih (by simp) (fun x hx => h x (List.mem_cons_of_mem v hx))
        (show 2 * (elementChars (w :: vs)).length ≤ steps by omega)
      rw [elementChars_cons_cons, List.append_assoc, List.cons_append, elements,
        hv steps _ (by omega) (ends_cons (by simp) _)]
      dsimp only
      rw [skip_cons (by decide)]
      exact congrArg (Option.map fun read => (v :: read.1, read.2)) hothers

/-- What follows an opening bracket that is not closed at once is read as elements. -/
theorem value_elements (steps : Nat) {c : Char} (hspace : isSpace c = false) (hclose : c ≠ ']')
    (cs : List Char) : value (steps + 1) ('[' :: c :: cs) =
      (elements steps (c :: cs)).map fun (values, rest) => (.array values, rest) := by
  rw [value, skip_cons (by decide)]
  split
  next heq => cases heq
  next heq =>
    obtain rfl := (List.cons.inj heq).2
    rw [skip_cons hspace]
    split
    next hclosed => exact absurd (List.cons.inj hclosed).1 hclose
    next => rfl
  next heq => cases heq
  next heq => cases heq
  next heq => cases heq
  next heq => cases heq
  next _ hopen _ _ _ _ => exact absurd rfl (hopen _)

/-- An array is read when its elements are. -/
theorem reads_array {vs : List Value} (hwritable : ∀ v ∈ vs, Writable v)
    (h : ∀ v ∈ vs, Reads v) : Reads (.array vs) := by
  intro steps rest hsteps _
  rw [Value.chars, List.length_cons] at hsteps
  obtain ⟨steps, rfl⟩ := Nat.exists_eq_add_of_le' (show 1 ≤ steps by omega)
  cases vs with
  | nil => rfl
  | cons v vs =>
    have helements := elements_append (by simp) h
      (show 2 * (elementChars (v :: vs)).length ≤ steps by omega) rest
    obtain ⟨c, cs, hchars, hspace, hclose⟩ :=
      exists_head_elementChars (hwritable v List.mem_cons_self) vs
    rw [hchars, List.cons_append] at helements
    rw [Value.chars, List.cons_append, hchars, List.cons_append, value_elements steps hspace hclose,
      helements]
    rfl

/-- Members before others are followed by a comma. -/
theorem memberChars_cons_cons (key : List StringItem) (v : Value)
    (m : List StringItem × Value) (ms : List (List StringItem × Value)) :
    memberChars ((key, v) :: m :: ms) =
      literal key ++ ':' :: (v.chars ++ ',' :: memberChars (m :: ms)) := by
  rw [memberChars]
  simp

/-- Members start with the quote of the first key. -/
theorem exists_head_memberChars (m : List StringItem × Value)
    (ms : List (List StringItem × Value)) : ∃ cs, memberChars (m :: ms) = '"' :: cs := by
  obtain ⟨key, v⟩ := m
  cases ms with
  | nil => exact ⟨_, rfl⟩
  | cons m ms => exact ⟨_, memberChars_cons_cons key v m ms⟩

/-- A key with its value is read as a member. What follows decides whether it is the last one. -/
theorem members_cons {key : List StringItem} {v : Value} (hkey : ∀ i ∈ key, i.Canonical)
    {steps : Nat} {c : Char} (hspace : isSpace c = false) {rest after : List Char}
    (hv : value steps rest = some (v, c :: after)) :
    members (steps + 1) (literal key ++ ':' :: rest) =
      if c = '}' then some ([(key, v)], after)
      else if c = ',' then
        (members steps after).map fun (others, rest) => ((key, v) :: others, rest)
      else none := by
  have hcolon : skip (':' :: rest) = ':' :: rest := skip_cons (by decide) rest
  rw [literal, List.cons_append, List.append_assoc, List.singleton_append, members,
    skip_cons (by decide)]
  split
  next heq =>
    obtain rfl := (List.cons.inj heq).2
    simp only [stringItems_literal hkey, hcolon, hv, skip_cons hspace]
    split
    next hclose =>
      obtain ⟨rfl, rfl⟩ := List.cons.inj hclose
      rfl
    next hcomma =>
      obtain ⟨rfl, rfl⟩ := List.cons.inj hcomma
      rfl
    next hclose hcomma =>
      rw [if_neg fun h => hclose after (by rw [h]), if_neg fun h => hcomma after (by rw [h])]
  next hother => exact absurd rfl (hother _)

/-- The members of an object are read one after the other. -/
theorem members_append {ms : List (List StringItem × Value)} (hne : ms ≠ [])
    (hkeys : ∀ m ∈ ms, ∀ i ∈ m.1, i.Canonical) (h : ∀ m ∈ ms, Reads m.2) {steps : Nat}
    (hsteps : 2 * (memberChars ms).length ≤ steps) (rest : List Char) :
    members steps (memberChars ms ++ rest) = some (ms, rest) := by
  induction ms generalizing steps with
  | nil => exact absurd rfl hne
  | cons m ms ih =>
    obtain ⟨key, v⟩ := m
    have hkey := hkeys (key, v) List.mem_cons_self
    have hv : Reads v := h (key, v) List.mem_cons_self
    cases ms with
    | nil =>
      rw [memberChars, List.length_append, List.length_cons, List.length_append] at hsteps
      obtain ⟨steps, rfl⟩ := Nat.exists_eq_add_of_le' (show 1 ≤ steps by omega)
      have hvalue := hv steps ('}' :: rest) (by omega) (ends_cons (by simp) rest)
      rw [memberChars, List.append_assoc, List.cons_append, List.append_assoc,
        List.singleton_append, members_cons hkey (by decide) hvalue, if_pos rfl]
    | cons m ms =>
      rw [memberChars_cons_cons, List.length_append, List.length_cons, List.length_append,
        List.length_cons] at hsteps
      obtain ⟨steps, rfl⟩ := Nat.exists_eq_add_of_le' (show 1 ≤ steps by omega)
      have hothers := ih (by simp) (fun x hx => hkeys x (List.mem_cons_of_mem _ hx))
        (fun x hx => h x (List.mem_cons_of_mem _ hx))
        (show 2 * (memberChars (m :: ms)).length ≤ steps by omega)
      have hvalue := hv steps (',' :: (memberChars (m :: ms) ++ rest)) (by omega)
        (ends_cons (by simp) _)
      rw [memberChars_cons_cons, List.append_assoc, List.cons_append, List.append_assoc,
        List.cons_append, members_cons hkey (by decide) hvalue, if_neg (by decide), if_pos rfl,
        hothers]
      rfl

/-- What follows an opening brace and starts with a key is read as members. -/
theorem value_members (steps : Nat) (cs : List Char) : value (steps + 1) ('\x7b' :: '"' :: cs) =
    (members steps ('"' :: cs)).map fun (found, rest) => (.object found, rest) :=
  rfl

/-- An object is read when the values of its members are. -/
theorem reads_object {ms : List (List StringItem × Value)}
    (hkeys : ∀ m ∈ ms, ∀ i ∈ m.1, i.Canonical) (h : ∀ m ∈ ms, Reads m.2) :
    Reads (.object ms) := by
  intro steps rest hsteps _
  rw [Value.chars, List.length_cons] at hsteps
  obtain ⟨steps, rfl⟩ := Nat.exists_eq_add_of_le' (show 1 ≤ steps by omega)
  cases ms with
  | nil => rfl
  | cons m ms =>
    have hmembers := members_append (by simp) hkeys h
      (show 2 * (memberChars (m :: ms)).length ≤ steps by omega) rest
    obtain ⟨cs, hchars⟩ := exists_head_memberChars m ms
    rw [hchars, List.cons_append] at hmembers
    rw [Value.chars, List.cons_append, hchars, List.cons_append, value_members, hmembers]
    rfl

/-- Every tree that is written as it is read is read as it is written. -/
theorem Writable.reads {v : Value} (h : Writable v) : Reads v := by
  induction h with
  | null => exact reads_null
  | bool b => exact reads_bool b
  | number h => exact reads_number h
  | string h => exact reads_string h
  | array h ih => exact reads_array h ih
  | object hkeys hvalues ih => exact reads_object hkeys ih

/-- The compact text of a tree is read as the tree. -/
theorem parse_compact {v : Value} (h : Writable v) : parse v.compact = some v := by
  have hvalue := h.reads (2 * v.chars.length + 2) [] (by omega) ends_nil
  rw [List.append_nil] at hvalue
  rw [parse, Value.compact, String.toList_ofList, parseChars, hvalue]
  rfl

end CellularAutomata.Json
