/-!
# White space, words and pieces

Program text, rule text and number text are read after white space has been taken
away. White space is the Unicode property of that name, which has twenty-five
members; letter case, by contrast, is only ever folded for the ASCII letters.
-/

namespace CellularAutomata.Text

/-- The characters of the Unicode property `White_Space`. -/
def isBlank (c : Char) : Bool :=
  let n := c.toNat
  (9 ≤ n && n ≤ 13) || n == 0x20 || n == 0x85 || n == 0xA0 || n == 0x1680 ||
    (0x2000 ≤ n && n ≤ 0x200A) || n == 0x2028 || n == 0x2029 || n == 0x202F ||
    n == 0x205F || n == 0x3000

/-- The text without the white space at its two ends. -/
def trim (cs : List Char) : List Char :=
  ((cs.dropWhile isBlank).reverse.dropWhile isBlank).reverse

/-- The stretches between the characters that satisfy `isBreak`. There is always one
stretch more than there are breaks, so the result is never empty. -/
def pieces (isBreak : Char → Bool) : List Char → List (List Char)
  | [] => [[]]
  | c :: rest =>
    if isBreak c then [] :: pieces isBreak rest
    else
      match pieces isBreak rest with
      | [] => [[c]]
      | first :: others => (c :: first) :: others

/-- The maximal stretches without white space. -/
def words (cs : List Char) : List (List Char) :=
  (pieces isBlank cs).filter fun word => !word.isEmpty

/-- Lower case for the ASCII letters; every other character stays. -/
def lower (text : String) : String := String.ofList (text.toList.map Char.toLower)

/-- Upper case for the ASCII letters; every other character stays. -/
def upper (text : String) : String := String.ofList (text.toList.map Char.toUpper)

/-- The texts one after the other with `separator` between neighbours. -/
def joined (separator : String) : List String → String
  | [] => ""
  | [text] => text
  | text :: rest => text ++ separator ++ joined separator rest

theorem pieces_ne_nil (isBreak : Char → Bool) (cs : List Char) : pieces isBreak cs ≠ [] := by
  cases cs with
  | nil => simp [pieces]
  | cons c rest =>
    rw [pieces]
    split
    · simp
    · split <;> simp

end CellularAutomata.Text
