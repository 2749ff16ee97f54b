import CellularAutomata.Numeral.Binary64

/-!
# Sources of random words

Automata that involve chance draw from a source of 32-bit words. Whatever is drawn, a
coin, a number of the unit interval or an index, is made of such words here, so an
automaton is the same function for every source.
-/

namespace CellularAutomata

/-- A type whose values yield a 32-bit word and the source after it. -/
class WordSource (ρ : Type) where
  /-- The next word and the source after it. -/
  next : ρ → UInt32 × ρ

namespace WordSource

variable {ρ : Type} [WordSource ρ]

/-- The next 64-bit word: two words, the lower half first. -/
def word64 (source : ρ) : UInt64 × ρ :=
  let (low, source) := next source
  let (high, source) := next source
  (low.toUInt64 ||| (high.toUInt64 <<< 32), source)

/-- A toss of a fair coin. -/
def coin (source : ρ) : Bool × ρ :=
  let (word, source) := word64 source
  (decide (word.toNat < Nat.pow 2 63), source)

/-- A number of the unit interval, a multiple of `2 ^ -53` smaller than one. -/
def unitInterval (source : ρ) : Binary64 × ρ :=
  let (word, source) := word64 source
  (.finite false ((word.toNat >>> 11) * Nat.pow 2 1021), source)

/-- The greatest remainder that is accepted when an index below `n` is made of a word of
`2 ^ bits` values: `n` is shifted until it fills the word. -/
def zone (bits n : Nat) : Nat := (n <<< (bits - 1 - Nat.log2 n)) - 1

/-- An index below `n` made of one word, unless the word is among those that would make
some indices likelier than others. -/
def accept? (bits n word : Nat) : Option Nat :=
  let product := word * n
  if product % Nat.pow 2 bits ≤ zone bits n then some (product / Nat.pow 2 bits) else none

/-- Draws words with `draw` until one makes an index below `n`. At least half of all
words do, so the number of tries is never exhausted in practice; the last word is then
used as it is. -/
def indexWith (bits : Nat) (draw : ρ → Nat × ρ) (n : Nat) : Nat → ρ → Nat × ρ
  | 0, source =>
    let (word, source) := draw source
    (word * n / Nat.pow 2 bits, source)
  | tries + 1, source =>
    let (word, source) := draw source
    match accept? bits n word with
    | some index => (index, source)
    | none => indexWith bits draw n tries source

/-- An index below `n` made of 64-bit words. -/
def index64 (n : Nat) (source : ρ) : Nat × ρ :=
  indexWith 64 (fun s => let (word, s) := word64 s; (word.toNat, s)) n 4096 source

/-- An index below `n` made of 32-bit words. -/
def index32 (n : Nat) (source : ρ) : Nat × ρ :=
  indexWith 32 (fun s => let (word, s) := next s; (word.toNat, s)) n 4096 source

/-- An element of a list. Nothing is drawn for the empty list. -/
def pick {α : Type} (candidates : List α) (source : ρ) : Option α × ρ :=
  if candidates.isEmpty then (none, source)
  else
    let (index, source) := index32 candidates.length source
    (candidates[index]?, source)

end WordSource

end CellularAutomata
