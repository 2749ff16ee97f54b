import CellularAutomata.Neighborhood.Policy
import CellularAutomata.Proofs.Grid.Contents

/-!
# Chains of neighbors

Lists of positions in one state, each of them a neighbor of the one before it. What
spreads from neighbor to neighbor spreads along such chains.
-/

namespace CellularAutomata.NeighborPolicy

variable {n : NeighborPolicy} {g : Grid} {state : Nat} {p q b : Location} {ps : List Location}

/-- Which positions are neighbors depends on the dimensions and the edge alone. -/
theorem neighborLocations_congr {g' : Grid} (hrows : g'.rows = g.rows) (hcols : g'.cols = g.cols)
    (hedge : g'.edge = g.edge) (l : Location) :
    n.neighborLocations g' l = n.neighborLocations g l := by
  have hresolve : g'.resolve = g.resolve := by
    funext l
    exact Grid.resolve_congr hrows hcols hedge l
  simp only [neighborLocations, layerLocations, probes, hresolve]

/-- Some neighbor is counted in a state just when the state is seen at a neighboring position. -/
theorem countInState_pos_iff {l : Location} :
    0 < n.countInState g l state ↔ ∃ b ∈ n.neighborLocations g l, g.stateAt b = some state := by
  simp only [countInState, neighbors, List.countP_pos_iff, List.mem_filterMap, beq_iff_eq,
    Grid.stateAt, Option.map_eq_some_iff]
  constructor
  · rintro ⟨c, ⟨b, hb, hc⟩, hstate⟩
    exact ⟨b, hb, c, hc, hstate⟩
  · rintro ⟨b, hb, c, hc, hstate⟩
    exact ⟨c, ⟨b, hb, hc⟩, hstate⟩

/-- A chain of positions in a state from one position to another, each of them a neighbor of the
one before it. -/
structure Chain (n : NeighborPolicy) (g : Grid) (state : Nat) (ps : List Location)
    (p q : Location) : Prop where
  /-- The chain starts at the one position. -/
  starts : ps.head? = some p
  /-- The chain ends at the other position. -/
  ends : ps.getLast? = some q
  /-- Each position is a neighbor of the one before it. -/
  linked : ps.IsChain fun a b => b ∈ n.neighborLocations g a
  /-- All positions are in the state. -/
  inState : ∀ a ∈ ps, g.stateAt a = some state

/-- A position in the state is a chain. -/
theorem Chain.single (h : g.stateAt p = some state) : n.Chain g state [p] p p :=
  ⟨rfl, rfl, .singleton p, by simpa using h⟩

/-- A chain may be extended at its start. -/
theorem Chain.cons (h : n.Chain g state ps b q) (hp : g.stateAt p = some state)
    (hb : b ∈ n.neighborLocations g p) : n.Chain g state (p :: ps) p q := by
  refine ⟨rfl, ?_, ?_, ?_⟩
  · rw [List.getLast?_cons, h.ends]
    rfl
  · rw [List.isChain_cons]
    refine ⟨?_, h.linked⟩
    intro a ha
    rw [h.starts, Option.mem_def, Option.some.injEq] at ha
    exact ha ▸ hb
  · intro a ha
    rcases List.mem_cons.mp ha with rfl | ha
    · exact hp
    · exact h.inState a ha

/-- A chain is a single position or goes on from a neighbor of its start. -/
theorem Chain.cases (h : n.Chain g state ps p q) :
    ps = [p] ∧ q = p ∨
      ∃ b rest, ps = p :: rest ∧ b ∈ n.neighborLocations g p ∧ n.Chain g state rest b q := by
  obtain ⟨hstarts, hends, hlinked, hstate⟩ := h
  match ps, hstarts with
  | [_], rfl => exact Or.inl ⟨rfl, (Option.some.inj hends).symm⟩
  | _ :: b :: rest, rfl =>
    rw [List.isChain_cons_cons] at hlinked
    refine Or.inr ⟨b, b :: rest, rfl, hlinked.1, rfl, ?_, hlinked.2, ?_⟩
    · rwa [List.getLast?_cons_cons] at hends
    · exact fun a ha => hstate a (List.mem_cons_of_mem _ ha)

/-- There is no chain without positions. -/
theorem not_exists_chain_zero (goal : Location → Prop) :
    ¬ ∃ ps q, n.Chain g state ps p q ∧ ps.length ≤ 0 ∧ goal q := by
  rintro ⟨ps, q, hchain, hlength, -⟩
  have hstarts := hchain.starts
  rw [List.length_eq_zero_iff.mp (Nat.le_zero.mp hlength)] at hstarts
  cases hstarts

/-- A chain to a goal starts at the goal, or at a neighbor of where a shorter one starts. -/
theorem exists_chain_succ_iff {goal : Location → Prop} {k : Nat} :
    (∃ ps q, n.Chain g state ps p q ∧ ps.length ≤ k + 1 ∧ goal q) ↔
      g.stateAt p = some state ∧ (goal p ∨ ∃ b ∈ n.neighborLocations g p,
        ∃ ps q, n.Chain g state ps b q ∧ ps.length ≤ k ∧ goal q) := by
  constructor
  · rintro ⟨ps, q, hchain, hlength, hgoal⟩
    refine ⟨hchain.inState p (List.mem_of_mem_head? hchain.starts), ?_⟩
    rcases hchain.cases with ⟨-, rfl⟩ | ⟨b, rest, rfl, hb, hrest⟩
    · exact Or.inl hgoal
    · rw [List.length_cons] at hlength
      exact Or.inr ⟨b, hb, rest, q, hrest, by omega, hgoal⟩
  · rintro ⟨hp, hgoal | ⟨b, hb, ps, q, hchain, hlength, hgoal⟩⟩
    · exact ⟨[p], p, .single hp, by simp, hgoal⟩
    · exact ⟨p :: ps, q, hchain.cons hp hb, by simpa using hlength, hgoal⟩

end CellularAutomata.NeighborPolicy
