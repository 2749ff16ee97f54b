import CellularAutomata.Proofs.Grid.Chains
import Mathlib.Data.ENat.Lattice
import Mathlib.Data.Set.Card

/-!
# Distances along chains

How far a position is from a goal when every step leads from a neighbor to a neighbor in one
state: the length of a shortest chain. Distances are decided step by step, every smaller
distance occurs too, and no distance is greater than the number of positions in the state.
-/

namespace CellularAutomata.NeighborPolicy

variable {n : NeighborPolicy} {g : Grid} {state : Nat} {goal : Location → Prop} {p : Location}

/-- How many positions in a state the shortest chain from a position to a goal has. It is
infinite if there is no chain to a goal. -/
noncomputable def distance (n : NeighborPolicy) (g : Grid) (state : Nat)
    (goal : Location → Prop) (p : Location) : ℕ∞ :=
  ⨅ ps : { ps : List Location // ∃ q, n.Chain g state ps p q ∧ goal q }, (ps.1.length : ℕ∞)

/-- A goal is within a distance just when there is a chain that is not longer. -/
theorem distance_le_iff {k : ℕ} : n.distance g state goal p ≤ k ↔
    ∃ ps q, n.Chain g state ps p q ∧ ps.length ≤ k ∧ goal q := by
  rw [← ENat.lt_natCast_add_one_iff, distance, iInf_lt_iff]
  constructor
  · rintro ⟨⟨ps, q, hchain, hgoal⟩, hlength⟩
    exact ⟨ps, q, hchain, by exact_mod_cast ENat.lt_natCast_add_one_iff.mp hlength, hgoal⟩
  · rintro ⟨ps, q, hchain, hlength, hgoal⟩
    exact ⟨⟨ps, q, hchain, hgoal⟩, ENat.lt_natCast_add_one_iff.mpr (by exact_mod_cast hlength)⟩

/-- No position is at distance zero, since chains have at least one position. -/
theorem not_distance_le_zero : ¬ n.distance g state goal p ≤ (0 : ℕ) := by
  rw [distance_le_iff]
  exact not_exists_chain_zero goal

/-- A position in the state is one step farther from a goal than its nearest neighbor, unless it
is a goal itself. -/
theorem distance_le_succ_iff {k : ℕ} : n.distance g state goal p ≤ (k + 1 : ℕ) ↔
    g.stateAt p = some state ∧
      (goal p ∨ ∃ b ∈ n.neighborLocations g p, n.distance g state goal b ≤ k) := by
  simp only [distance_le_iff]
  exact exists_chain_succ_iff

/-- Only positions in the state have a finite distance. -/
theorem stateAt_of_distance_le {k : ℕ} (h : n.distance g state goal p ≤ k) :
    g.stateAt p = some state := by
  cases k with
  | zero => exact absurd h not_distance_le_zero
  | succ k => exact (distance_le_succ_iff.mp h).1

/-- The next distance is that of a position in the state which is not nearer, but at a goal or
beside a position at the distance. -/
theorem distance_eq_succ_iff {k : ℕ} : n.distance g state goal p = (k + 1 : ℕ) ↔
    (g.stateAt p = some state ∧ k < n.distance g state goal p) ∧
      (k = 0 ∧ goal p ∨ ∃ b ∈ n.neighborLocations g p, n.distance g state goal b = k) := by
  constructor
  · intro heq
    have hfar : (k : ℕ∞) < n.distance g state goal p := by
      rw [heq]
      exact_mod_cast Nat.lt_succ_self k
    obtain ⟨hstate, hreach⟩ := distance_le_succ_iff.mp heq.le
    refine ⟨⟨hstate, hfar⟩, ?_⟩
    cases k with
    | zero =>
      refine Or.inl ⟨rfl, hreach.resolve_right ?_⟩
      rintro ⟨b, -, hb⟩
      exact not_distance_le_zero hb
    | succ k =>
      -- a goal, or a neighbor that is nearer, would make the position itself nearer
      have hnot : ¬ n.distance g state goal p ≤ (k + 1 : ℕ) := not_le.mpr hfar
      rw [distance_le_succ_iff] at hnot
      obtain hgoal | ⟨b, hb, hnear⟩ := hreach
      · exact absurd ⟨hstate, Or.inl hgoal⟩ hnot
      · refine Or.inr ⟨b, hb, le_antisymm hnear ?_⟩
        by_contra hlt
        rw [not_le] at hlt
        exact hnot ⟨hstate, Or.inr ⟨b, hb, ENat.lt_natCast_add_one_iff.mp (by exact_mod_cast hlt)⟩⟩
  · rintro ⟨⟨hstate, hfar⟩, hreach⟩
    refine le_antisymm (distance_le_succ_iff.mpr ⟨hstate, ?_⟩) ?_
    · obtain ⟨-, hgoal⟩ | ⟨b, hb, heq⟩ := hreach
      · exact Or.inl hgoal
      · exact Or.inr ⟨b, hb, heq.le⟩
    · exact_mod_cast Order.add_one_le_of_lt hfar

/-- Where there is a distance, there are all smaller ones. -/
theorem exists_distance_eq {k j : ℕ} (h : n.distance g state goal p = (k + j : ℕ)) (hk : 0 < k) :
    ∃ b, n.distance g state goal b = k := by
  induction j generalizing p with
  | zero => exact ⟨p, h⟩
  | succ j ih =>
    obtain ⟨-, ⟨hzero, -⟩ | ⟨b, -, hb⟩⟩ := (distance_eq_succ_iff (k := k + j)).mp h
    · omega
    · exact ih hb

/-- No distance is greater than the number of positions in the state. -/
theorem distance_le_countState (hwf : g.WellFormed) {k : ℕ}
    (h : n.distance g state goal p = k) : k ≤ g.countState state := by
  have hlevel : ∀ j ∈ Set.Icc 1 k, ∃ b, n.distance g state goal b = j := by
    rintro j ⟨hpos, hle⟩
    obtain ⟨i, rfl⟩ := Nat.exists_eq_add_of_le hle
    exact exists_distance_eq h hpos
  choose! level hlevel using hlevel
  have hcard := Set.ncard_le_ncard_of_injOn level (s := Set.Icc 1 k)
    (t := { l | g.stateAt l = some state }) ?_ ?_ ?_
  · rw [hwf.countState_eq_ncard]
    rwa [Set.ncard_eq_toFinset_card', Set.toFinset_Icc, Nat.card_Icc, Nat.add_sub_cancel] at hcard
  · intro j hj
    exact stateAt_of_distance_le (hlevel j hj).le
  · intro i hi j hj hsame
    have heq := (hlevel i hi).symm.trans ((congrArg _ hsame).trans (hlevel j hj))
    exact_mod_cast heq
  · refine g.finite_populated.subset ?_
    intro l hl
    obtain ⟨c, hc, -⟩ := Option.map_eq_some_iff.mp hl
    exact Option.isSome_iff_exists.mpr ⟨c, hc⟩

end CellularAutomata.NeighborPolicy
