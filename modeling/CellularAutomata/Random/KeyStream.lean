import CellularAutomata.Random.Source

/-!
# The keystream source

The source of random words that runs use: the ChaCha keystream with eight rounds under a
key that is expanded from a 64-bit seed. Sixteen words are made at a time, from the key
and the number of the block.
-/

namespace CellularAutomata

/-- Four words that are worked on side by side. -/
structure Quad where
  /-- First word. -/
  a : UInt32
  /-- Second word. -/
  b : UInt32
  /-- Third word. -/
  c : UInt32
  /-- Fourth word. -/
  d : UInt32
  deriving DecidableEq, Repr

namespace Quad

/-- Applies an operation word by word. -/
def zipWith (f : UInt32 → UInt32 → UInt32) (x y : Quad) : Quad :=
  ⟨f x.a y.a, f x.b y.b, f x.c y.c, f x.d y.d⟩

/-- Sums word by word. -/
def add : Quad → Quad → Quad := zipWith (· + ·)

/-- Differences bit by bit. -/
def xor : Quad → Quad → Quad := zipWith (· ^^^ ·)

/-- A word with its bits moved `n` places to the left, in at the other end. -/
def rotateWord (n : UInt32) (x : UInt32) : UInt32 := (x <<< n) ||| (x >>> (32 - n))

/-- Rotates the bits of every word. -/
def rotateBits (n : UInt32) (x : Quad) : Quad :=
  ⟨rotateWord n x.a, rotateWord n x.b, rotateWord n x.c, rotateWord n x.d⟩

/-- Moves the words one place forward, the first one to the end. -/
def shift (x : Quad) : Quad := ⟨x.b, x.c, x.d, x.a⟩

/-- The four words in order. -/
def toList (x : Quad) : List UInt32 := [x.a, x.b, x.c, x.d]

end Quad

/-- The sixteen words of a block as four rows. -/
structure Block where
  /-- First row, the constants. -/
  first : Quad
  /-- Second row, the first half of the key. -/
  second : Quad
  /-- Third row, the second half of the key. -/
  third : Quad
  /-- Fourth row, the number of the block. -/
  fourth : Quad
  deriving DecidableEq, Repr

namespace Block

/-- The quarter round on each of the four columns. -/
def columns (x : Block) : Block :=
  let a := x.first.add x.second
  let d := (x.fourth.xor a).rotateBits 16
  let c := x.third.add d
  let b := (x.second.xor c).rotateBits 12
  let a := a.add b
  let d := (d.xor a).rotateBits 8
  let c := c.add d
  let b := (b.xor c).rotateBits 7
  ⟨a, b, c, d⟩

/-- The quarter round on each of the four diagonals: the rows are shifted so that the
diagonals become columns, and shifted back. -/
def diagonals (x : Block) : Block :=
  let y := columns ⟨x.first, x.second.shift, x.third.shift.shift, x.fourth.shift.shift.shift⟩
  ⟨y.first, y.second.shift.shift.shift, y.third.shift.shift, y.fourth.shift⟩

/-- A number of double rounds. -/
def rounds : Nat → Block → Block
  | 0, x => x
  | n + 1, x => rounds n x.columns.diagonals

/-- Sums word by word. -/
def add (x y : Block) : Block :=
  ⟨x.first.add y.first, x.second.add y.second, x.third.add y.third, x.fourth.add y.fourth⟩

/-- The sixteen words in order. -/
def toList (x : Block) : List UInt32 :=
  x.first.toList ++ x.second.toList ++ x.third.toList ++ x.fourth.toList

end Block

/-- The state of the keystream. -/
structure KeyStream where
  /-- First half of the key. -/
  keyLow : Quad
  /-- Second half of the key. -/
  keyHigh : Quad
  /-- The number of the next block. -/
  counter : UInt64
  /-- The words of the last block that have not been drawn yet. -/
  pending : List UInt32
  deriving DecidableEq, Repr

namespace KeyStream

/-- The constants of the first row. -/
def constants : Quad := ⟨0x61707865, 0x3320646e, 0x79622d32, 0x6b206574⟩

/-- The words of block number `counter`: eight rounds, then the initial block is added. -/
def block (s : KeyStream) : List UInt32 :=
  let start : Block :=
    ⟨constants, s.keyLow, s.keyHigh, ⟨s.counter.toUInt32, (s.counter >>> 32).toUInt32, 0, 0⟩⟩
  ((start.rounds 4).add start).toList

/-- The next word of the keystream. -/
def next (s : KeyStream) : UInt32 × KeyStream :=
  match s.pending with
  | word :: rest => (word, { s with pending := rest })
  | [] =>
    match s.block with
    | word :: rest => (word, { s with counter := s.counter + 1, pending := rest })
    | [] => (0, s)

instance : WordSource KeyStream := ⟨next⟩

/-- One step of the expansion of a seed: a word of the key and the next state. -/
def expand (state : UInt64) : UInt32 × UInt64 :=
  let state := state * 6364136223846793005 + 11634580027462260723
  let mixed := (((state >>> 18) ^^^ state) >>> 27).toUInt32
  let turn := (state >>> 59).toUInt32
  ((mixed >>> turn) ||| (mixed <<< ((32 - turn) % 32)), state)

/-- Four words of the key. -/
def expandQuad (state : UInt64) : Quad × UInt64 :=
  let (a, state) := expand state
  let (b, state) := expand state
  let (c, state) := expand state
  let (d, state) := expand state
  (⟨a, b, c, d⟩, state)

/-- The keystream of a seed. -/
def ofSeed (seed : UInt64) : KeyStream :=
  let (low, state) := expandQuad seed
  let (high, _) := expandQuad state
  ⟨low, high, 0, []⟩

end KeyStream

end CellularAutomata
