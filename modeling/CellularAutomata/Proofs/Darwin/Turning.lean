import CellularAutomata.Proofs.Darwin.Range
import CellularAutomata.Proofs.Numeral.Written
import Mathlib.Data.Int.ModEq

/-!
# Turning

How far an actor turns. The count of a turn is first brought below a full turn, and so are the
degrees that it makes, so that every number on the way fits the machine word that holds it. This
loses nothing: the new orientation is the one that is computed with whole numbers of any size and
brought below a full turn in the end. So turns add up, and a turn is undone by the opposite one.
-/

namespace CellularAutomata.Darwin

open Numeral

/-- A number that is held in a signed machine word. -/
structure Held where
  /-- How many bits the word has. -/
  bits : Nat
  /-- The number. -/
  value : Int

/-- A machine word can hold the number. -/
def Held.Fits (h : Held) : Prop := -2 ^ (h.bits - 1) ≤ h.value ∧ h.value < 2 ^ (h.bits - 1)

/-- The numbers that a turn comes upon, each in the word that holds it. The count is reduced as it
was read, in 32 bits. The degrees are computed in 64 bits and narrowed after they are reduced. The
orientation is widened, turned in 64 bits, reduced and narrowed. -/
def turnWords (sign : Int) (w : World) (a : Actor) (count : Nat) : List Held :=
  let amount := (count : Int) % 360
  let degrees := sign * amount * w.settings.orientationStep
  let turned := a.individual.orientation + degrees % 360
  [⟨32, count⟩, ⟨32, amount⟩, ⟨64, sign * amount⟩, ⟨64, degrees⟩, ⟨64, degrees % 360⟩,
    ⟨32, degrees % 360⟩, ⟨64, turned⟩, ⟨64, turned % 360⟩, ⟨32, turned % 360⟩]

/-- The numbers of a turn fit their words, whatever its count and the orientation are. -/
theorem fits_of_mem_turnWords {w : World} {a : Actor} {sign : Int} (hsign : sign = 1 ∨ sign = -1)
    (hstep : -360 ≤ w.settings.orientationStep ∧ w.settings.orientationStep ≤ 360)
    (ha : leastInt32 ≤ a.individual.orientation ∧ a.individual.orientation ≤ mostInt32)
    {count : Nat} (hcount : (count : Int) ≤ mostInt32) {h : Held}
    (hmem : h ∈ turnWords sign w a count) : h.Fits := by
  obtain ⟨hsigned, hdegrees⟩ := degrees_bounds hsign hstep count
  rw [leastInt32_eq, mostInt32_eq] at ha
  rw [mostInt32_eq] at hcount
  revert h
  simp only [turnWords, List.forall_mem_cons, Held.Fits, List.not_mem_nil, false_imp_iff,
    implies_true, and_true, Nat.reduceSub, Int.reducePow, Int.reduceNeg]
  omega

/-- The actor facing in a direction. -/
def Actor.facing (a : Actor) (degrees : Int) : Actor :=
  { a with individual := { a.individual with orientation := degrees } }

/-- The degrees of a turn may be reduced as often as one likes. -/
theorem turned_emod (o sign amount step : Int) :
    (o + (sign * (amount % 360) * step) % 360) % 360 = (o + sign * amount * step) % 360 := by
  have hreduced : sign * (amount % 360) * step ≡ sign * amount * step [ZMOD 360] :=
    ((Int.mod_modEq amount 360).mul_left sign).mul_right step
  calc (o + (sign * (amount % 360) * step) % 360) % 360
      = (o + (sign * amount * step) % 360) % 360 := by rw [hreduced]
    _ = (o + sign * amount * step) % 360 := Int.add_emod_emod ..

/-- An instruction with a count has that count. -/
theorem count_withArgument (opcode : Opcode) {count : Nat} (hcount : (count : Int) ≤ mostInt32) :
    (Instruction.withArgument opcode count).count = .ok count := by
  have hread : integerWithin? leastInt32 mostInt32 (integer count).toList = some (count : Int) :=
    integerWithin?_integer ⟨by rw [leastInt32_eq]; omega, hcount⟩
  have hargument : (Instruction.withArgument opcode count).argumentOr 0 1 = .ok (count : Int) := by
    simp only [Instruction.withArgument, Instruction.argumentOr, Instruction.argument,
      List.length_singleton, Nat.zero_lt_one, if_true, List.getElem?_cons_zero, hread]
  rw [Instruction.count, hargument]
  exact if_neg (by omega)

variable {ρ : Type}

/-- An actor that turns is oriented by the unreduced degrees, up to full turns, and nothing else
changes. -/
theorem performTurn_eq {i : Instruction} {count : Nat} (hi : i.count = .ok count) (sign : Int)
    (w : World) (a : Actor) (s : Stage ρ) :
    performTurn sign w i a s =
      ⟨a.facing ((a.individual.orientation + sign * count * w.settings.orientationStep) % 360),
        s, none⟩ := by
  rw [performTurn, hi, ← turned_emod]
  rfl

/-- The last number that a turn comes upon is the new orientation. -/
theorem getLast?_turnWords {i : Instruction} {count : Nat} (hi : i.count = .ok count) (sign : Int)
    (w : World) (a : Actor) (s : Stage ρ) :
    (turnWords sign w a count).getLast? =
      some ⟨32, (performTurn sign w i a s).actor.individual.orientation⟩ := by
  rw [performTurn, hi]
  rfl

variable [WordSource ρ]

/-- The instruction to turn by a count, carried out. -/
def turnBy (opcode : Opcode) (w : World) (count : Nat) (a : Actor) (s : Stage ρ) : Execution ρ :=
  perform w opcode (.withArgument opcode count) a s

/-- A turn to the left adds to the orientation. -/
theorem turnBy_left (w : World) {count : Nat} (hcount : (count : Int) ≤ mostInt32) (a : Actor)
    (s : Stage ρ) :
    turnBy .left w count a s =
      ⟨a.facing ((a.individual.orientation + count * w.settings.orientationStep) % 360), s,
        none⟩ := by
  have hturn := performTurn_eq (count_withArgument .left hcount) 1 w a s
  rwa [one_mul] at hturn

/-- A turn to the right subtracts from the orientation. -/
theorem turnBy_right (w : World) {count : Nat} (hcount : (count : Int) ≤ mostInt32) (a : Actor)
    (s : Stage ρ) :
    turnBy .right w count a s =
      ⟨a.facing ((a.individual.orientation - count * w.settings.orientationStep) % 360), s,
        none⟩ := by
  have hturn := performTurn_eq (count_withArgument .right hcount) (-1) w a s
  rwa [neg_one_mul, neg_mul, ← sub_eq_add_neg] at hturn

/-- A turn to the right undoes the same turn to the left, if the actor was oriented below a full
turn. -/
theorem turnBy_right_left (w : World) {count : Nat} (hcount : (count : Int) ≤ mostInt32)
    {a : Actor} (ha : 0 ≤ a.individual.orientation ∧ a.individual.orientation < 360)
    (s : Stage ρ) :
    turnBy .right w count (turnBy .left w count a s).actor s = ⟨a, s, none⟩ := by
  have hback : ((a.individual.orientation + count * w.settings.orientationStep) % 360 -
      count * w.settings.orientationStep) % 360 = a.individual.orientation := by
    rw [Int.emod_sub_emod, add_sub_cancel_right, Int.emod_eq_of_lt ha.1 ha.2]
  rw [turnBy_left w hcount, turnBy_right w hcount]
  change (⟨a.facing (((a.individual.orientation + count * w.settings.orientationStep) % 360 -
      count * w.settings.orientationStep) % 360), s, none⟩ : Execution ρ) = ⟨a, s, none⟩
  rw [hback]
  rfl

/-- A turn to the left after another one adds up to one turn by both counts. -/
theorem turnBy_left_left (w : World) {count more : Nat} (hcount : (count : Int) ≤ mostInt32)
    (hmore : (more : Int) ≤ mostInt32) (a : Actor) (s : Stage ρ) :
    turnBy .left w more (turnBy .left w count a s).actor s =
      ⟨a.facing ((a.individual.orientation +
        ((count : Int) + more) * w.settings.orientationStep) % 360), s, none⟩ := by
  have htotal : ((a.individual.orientation + count * w.settings.orientationStep) % 360 +
      more * w.settings.orientationStep) % 360 = (a.individual.orientation +
        ((count : Int) + more) * w.settings.orientationStep) % 360 := by
    rw [Int.emod_add_emod, add_mul, add_assoc]
  rw [turnBy_left w hcount, turnBy_left w hmore, ← htotal]
  rfl

/-- However an actor is oriented and by however much it turns, its orientation afterwards is the
sum or the difference of the old one and the degrees of the turn, computed with whole numbers and
brought below a full turn. Each number that comes up on the way fits the machine word that holds
it, and the last one is the new orientation. So a turn to the right undoes the same turn to the
left, if the actor was oriented below a full turn, and turns to the left add up. -/
theorem turns_are_exact {w : World}
    (hstep : -360 ≤ w.settings.orientationStep ∧ w.settings.orientationStep ≤ 360) {a : Actor}
    (ha : leastInt32 ≤ a.individual.orientation ∧ a.individual.orientation ≤ mostInt32)
    {count : Nat} (hcount : (count : Int) ≤ mostInt32) (s : Stage ρ) :
    let o := a.individual.orientation
    let step := w.settings.orientationStep
    turnBy .left w count a s = ⟨a.facing ((o + count * step) % 360), s, none⟩ ∧
    turnBy .right w count a s = ⟨a.facing ((o - count * step) % 360), s, none⟩ ∧
    (∀ opcode ∈ [Opcode.left, Opcode.right],
      0 ≤ (turnBy opcode w count a s).actor.individual.orientation ∧
        (turnBy opcode w count a s).actor.individual.orientation < 360) ∧
    (∀ sign ∈ [1, -1], ∀ h ∈ turnWords sign w a count, h.Fits) ∧
    (turnWords 1 w a count).getLast? =
      some ⟨32, (turnBy .left w count a s).actor.individual.orientation⟩ ∧
    (turnWords (-1) w a count).getLast? =
      some ⟨32, (turnBy .right w count a s).actor.individual.orientation⟩ ∧
    (0 ≤ o ∧ o < 360 →
      turnBy .right w count (turnBy .left w count a s).actor s = ⟨a, s, none⟩) ∧
    ∀ more : Nat, (more : Int) ≤ mostInt32 →
      turnBy .left w more (turnBy .left w count a s).actor s =
        ⟨a.facing ((o + ((count : Int) + more) * step) % 360), s, none⟩ ∧
      ((count : Int) + more ≤ mostInt32 →
        turnBy .left w more (turnBy .left w count a s).actor s =
          turnBy .left w (count + more) a s) := by
  intro o step
  have hleft := turnBy_left w hcount a s
  have hright := turnBy_right w hcount a s
  have hbelow : ∀ degrees : Int, 0 ≤ degrees % 360 ∧ degrees % 360 < 360 := by omega
  refine ⟨hleft, hright, ?_, ?_, getLast?_turnWords (count_withArgument .left hcount) 1 w a s,
    getLast?_turnWords (count_withArgument .right hcount) (-1) w a s,
    fun hnormal => turnBy_right_left w hcount hnormal s, ?_⟩
  · simp only [List.forall_mem_cons, List.not_mem_nil, false_imp_iff, implies_true, and_true]
    rw [hleft, hright]
    exact ⟨hbelow _, hbelow _⟩
  · intro sign hsign h hmem
    exact fits_of_mem_turnWords (by simpa using hsign) hstep ha hcount hmem
  · intro more hmore
    have htwice := turnBy_left_left w hcount hmore a s
    refine ⟨htwice, fun htotal => ?_⟩
    rw [htwice, turnBy_left w (by rwa [Nat.cast_add]), Nat.cast_add]

/-- A world in which a unit of a turn is one degree short of a full turn to the right. -/
def windingWorld : World := ⟨⟨5, 1, -359, 0⟩, ∅, .empty 1 1 .fixed⟩

/-- An actor with the greatest orientation that there is. -/
def dizzy : Actor := ⟨1, ⟨0, 0⟩, ⟨2147483647, 0, none, .empty⟩, none⟩

/-- A stage on which nothing has happened yet. -/
def quietStage : Stage KeyStream := ⟨.none, Seed.source 0, #[]⟩

/-- The dizzy actor turns to the left by the greatest count that there is, and once more. -/
theorem dizzy_turns_are_exact :
    (-360 ≤ windingWorld.settings.orientationStep ∧
      windingWorld.settings.orientationStep ≤ 360) ∧
    (leastInt32 ≤ dizzy.individual.orientation ∧ dizzy.individual.orientation ≤ mostInt32) ∧
    ((2147483647 : Nat) : Int) ≤ mostInt32 ∧
    turnBy .left windingWorld 2147483647 dizzy quietStage =
      ⟨dizzy.facing 254, quietStage, none⟩ ∧
    (∀ h ∈ turnWords 1 windingWorld dizzy 2147483647, h.Fits) ∧
    turnBy .left windingWorld 2147483647
        (turnBy .left windingWorld 2147483647 dizzy quietStage).actor quietStage =
      ⟨dizzy.facing 21, quietStage, none⟩ := by
  have hstep : -360 ≤ windingWorld.settings.orientationStep ∧
      windingWorld.settings.orientationStep ≤ 360 := by decide
  have hfacing : leastInt32 ≤ dizzy.individual.orientation ∧
      dizzy.individual.orientation ≤ mostInt32 := by decide
  have hcount : ((2147483647 : Nat) : Int) ≤ mostInt32 := by decide
  obtain ⟨hleft, -, -, hfit, -, -, -, hagain⟩ :=
    turns_are_exact hstep hfacing hcount quietStage
  exact ⟨hstep, hfacing, hcount, hleft, hfit 1 (List.mem_cons_self ..), (hagain _ hcount).1⟩

end CellularAutomata.Darwin
