import CellularAutomata.Proofs.Grid.Range
import CellularAutomata.Proofs.PredatorPrey.Coherent
import CellularAutomata.Run.Simulation

/-!
# Counters that fit

A tick of predators and prey can be completed if in each turn the breeding counter can go up, the
energy can go up by a meal and down by one unit, and the neighbors of the creature are found. On a
moderate grid they are, so only the counters decide; and whether these have room for a tick can be
told before it.
-/

namespace CellularAutomata.PredatorPrey

open Numeral

variable {ρ : Type} {r : Rules} {g : Grid} {a : Act} {state : Nat} {k : Creature}

/-- The numbers fit that a turn comes upon: the breeding counter is an unsigned 32-bit number when
it has gone up by one, and the energy of a shark is a signed one when it has eaten and when it has
used up one unit. -/
structure Rules.TurnFits (r : Rules) (a : Act) (k : Creature) : Prop where
  /-- The breeding counter goes up. -/
  timer : k.breedTimer + 1 < 2 ^ 32
  /-- The energy goes up with a meal and then down by one. -/
  energy : a.state = shark →
    AllFit [k.energy + (if a.prey.isSome then r.energyFromFish else 0),
      k.energy + (if a.prey.isSome then r.energyFromFish else 0) - 1]

/-- The counters of a creature have room for one more tick, whether it eats or not. -/
structure Rules.HasRoom (r : Rules) (state : Nat) (k : Creature) : Prop where
  /-- The breeding counter can go up. -/
  timer : k.breedTimer + 1 < 2 ^ 32
  /-- The energy of a shark can go up with a meal, and it can go down by one. -/
  energy : state = shark → leastInt32 < k.energy ∧ k.energy ≤ mostInt32 ∧
    leastInt32 < k.energy + r.energyFromFish ∧ k.energy + r.energyFromFish ≤ mostInt32

/-- Counters that have room fit in every turn. -/
theorem Rules.HasRoom.turnFits (h : r.HasRoom a.state k) : r.TurnFits a k where
  timer := h.timer
  energy hshark := by
    have henergy := h.energy hshark
    rw [leastInt32_eq, mostInt32_eq] at henergy
    simp only [allFit_cons, allFit_nil, and_true]
    split <;> omega

/-- Counters that fit in a turn are those that it looks at. -/
theorem Rules.TurnFits.energyNumbers (h : r.TurnFits a k) : AllFit (r.energyNumbers a k) := by
  rw [Rules.energyNumbers]
  split
  next hshark =>
    have henergy := h.energy hshark
    cases hprey : a.prey with
    | none =>
      simp only [hprey, allFit_cons, Option.isSome_none, Bool.false_eq_true, if_false,
        Int.add_zero] at henergy
      simpa using henergy.2
    | some target => simpa [hprey] using henergy
  next => exact allFit_nil

/-- A turn can be completed if its counters fit and the neighbors of the creature are found. -/
theorem Rules.actFits_iff : r.actFits g a k = true ↔
    (k.breedTimer + 1 < 2 ^ 32 ∧ AllFit (r.energyNumbers a k)) ∧
      AllFit (r.policy.numbers g a.origin) := by
  rw [actFits, Bool.and_eq_true, Bool.and_eq_true, decide_eq_true_eq, all_fitsInt32,
    NeighborPolicy.isSome_neighborLocations?_iff]
  rfl

variable [WordSource ρ]

/-- A tick can be completed if all its turns can. -/
theorem Rules.tickFits_iff {source : ρ} : r.tickFits g source = true ↔
    ∀ a ∈ (r.pass g source).acts, ∀ c, g.cellAt a.origin = some c →
      r.actFits g a (r.creatureOf c) = true := by
  simp only [tickFits, List.all_eq_true, Option.all_eq_true]

/-- On a moderate grid a tick can be completed if the counters fit in all its turns. -/
theorem Rules.tickFits_of_turnFits (hwf : g.WellFormed) (hg : g.Moderate)
    (hlayers : r.policy.layers ≤ 2 ^ 29) {source : ρ}
    (h : ∀ a ∈ (r.pass g source).acts, ∀ c, g.cellAt a.origin = some c →
      r.TurnFits a (r.creatureOf c)) : r.tickFits g source = true := by
  refine tickFits_iff.mpr fun a ha c hc => ?_
  have hfits := h a ha c hc
  exact actFits_iff.mpr ⟨⟨hfits.timer, hfits.energyNumbers⟩,
    NeighborPolicy.allFit_numbers hg (hwf.inBounds hc) hlayers⟩

end CellularAutomata.PredatorPrey
