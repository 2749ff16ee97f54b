import CellularAutomata.Json.Number

/-!
# Records, variants and maps in JSON

How structured values are written. A record is an object with its fields in any order
and with any other members beside them, or an array of its fields in their order. A
variant is its name, or an object with its name as the only key. A map is an object; of
two entries for one key the later counts.
-/

namespace CellularAutomata.Json

/-- The members of an object with their keys decoded. -/
def namedMembers? : List (List StringItem × Value) → Option (List (String × Value))
  | [] => some []
  | (key, v) :: rest => do
    let key ← decode key
    let rest ← namedMembers? rest
    return (String.ofList key, v) :: rest

/-- The value of the only member with the given name, if there is a member of that name.
Two such members make the whole record invalid. -/
def soleMember? (members : List (String × Value)) (name : String) : Option (Option Value) :=
  match members.filter fun member => member.1 == name with
  | [] => some none
  | [member] => some (some member.2)
  | _ => none

/-- The fields of a record by their names, from an object. -/
def objectFields? (names : List String) (members : List (List StringItem × Value)) :
    Option (List (Option Value)) := do
  let members ← namedMembers? members
  names.mapM (soleMember? members)

/-- The fields of a record whose array form is complete. -/
def fields? (names : List String) : Value → Option (List (Option Value))
  | .object members => objectFields? names members
  | .array elements =>
    if elements.length = names.length then some (elements.map some) else none
  | _ => none

/-- The fields of a record whose array form may leave out fields at its end. -/
def leadingFields? (names : List String) : Value → Option (List (Option Value))
  | .object members => objectFields? names members
  | .array elements =>
    if elements.length ≤ names.length then
      some (elements.map some ++ List.replicate (names.length - elements.length) none)
    else none
  | _ => none

/-- The name of a variant and what comes with it. -/
def variant? : Value → Option (String × Option Value)
  | .string items => (decode items).map fun name => (String.ofList name, none)
  | .object [(key, v)] => (decode key).map fun name => (String.ofList name, some v)
  | _ => none

/-- The name of a variant that nothing comes with. -/
def unitVariant? (v : Value) : Option String :=
  match variant? v with
  | some (name, none) => some name
  | some (name, some .null) => some name
  | _ => none

/-- The entries of a map. -/
def entries? : Value → Option (List (String × Value))
  | .object members => namedMembers? members
  | _ => none

/-- The characters of a string literal without escapes. -/
def plainChars? : List StringItem → Option (List Char)
  | [] => some []
  | .plain c :: rest => (plainChars? rest).map (c :: ·)
  | .escaped _ :: _ => none

/-- A key that is a natural number below `2 ^ 32`, written without escapes and without
leading zeros. -/
def naturalKey? (key : List StringItem) : Option Nat := do
  let cs ← plainChars? key
  let n ← Numeral.natural? cs
  if Nat.toDigits 10 n = cs ∧ n < Nat.pow 2 32 then some n else none

/-- The entries of a map whose keys are natural numbers. -/
def naturalEntries? : Value → Option (List (Nat × Value))
  | .object members =>
    members.mapM fun member => (naturalKey? member.1).map fun n => (n, member.2)
  | _ => none

/-- The elements of an array, each of them read by `read`. -/
def list? {α : Type} (read : Value → Option α) : Value → Option (List α)
  | .array elements => elements.mapM read
  | _ => none

/-- The value of a map whose keys are natural numbers. -/
def ofNaturalEntries (entries : List (Nat × Value)) : Value :=
  .ofMembers (entries.map fun entry => (Numeral.natural entry.1, entry.2))

end CellularAutomata.Json
