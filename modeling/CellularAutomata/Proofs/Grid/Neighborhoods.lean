import CellularAutomata.Proofs.Grid.Contents
import CellularAutomata.Neighborhood.Policy
import Mathlib.Algebra.BigOperators.Group.Finset.Basic
import Mathlib.Data.Finset.Card
import Mathlib.Data.List.Nodup
import Mathlib.Data.List.TakeWhile

/-!
# Neighborhoods on a bounded grid

On a grid with a fixed edge nothing comes in again, so a position is listed as a neighbor once for
each layer in which a step leads to it. The layer is the number of rows that lie between, or the
number of columns within a row. Only triangles have steps of two columns within a row: a position
at an even distance in the row of a triangle is reached in two layers, if there are so many, and
counts twice.
-/

namespace CellularAutomata

/-- In lists without repetitions an element occurs as often as there are lists with it. -/
theorem count_flatMap_range {α : Type} [DecidableEq α] {f : Nat → List α}
    (hf : ∀ k, (f k).Nodup) (count : Nat) (a : α) :
    ((List.range count).flatMap f).count a = ((Finset.range count).filter (a ∈ f ·)).card := by
  induction count with
  | zero => rfl
  | succ count ih =>
    rw [List.range_succ, List.flatMap_append, List.count_append, ih, Finset.range_add_one,
      Finset.filter_insert]
    by_cases hmem : a ∈ f count <;> simp [hmem, (hf count).count]

namespace Topology

/-- A step leads to a row beside it, or one column further in its row; triangles also have steps of
two columns in their row. -/
theorem step_cases {t : Topology} {row col : Int} {d : Int × Int} (hd : d ∈ t.directions row col) :
    d.1.natAbs = 1 ∨ d.1 = 0 ∧ (d.2.natAbs = 1 ∨ t = .triangle ∧ d.2.natAbs = 2) := by
  unfold directions at hd
  split at hd
  next => revert d; decide
  next => revert d; decide
  next => split at hd <;> revert d <;> decide
  next => split at hd <;> revert d <;> decide

/-- There are no two steps to the same neighbor. -/
theorem nodup_directions (t : Topology) (row col : Int) : (t.directions row col).Nodup := by
  unfold directions
  split
  next => decide
  next => decide
  next => split <;> decide
  next => split <;> decide

/-- Triangles have steps of one and of two columns in their row. -/
theorem mem_directions_triangle (row col : Int) {step : Int} (h : step ∈ [-2, -1, 1, 2]) :
    (0, step) ∈ triangle.directions row col := by
  unfold directions
  dsimp only
  split <;> revert step <;> decide

end Topology

/-- Different steps lead to different positions, if they are taken at least once. -/
theorem Location.step_left_injective (l : Location) {distance : Int} (h : distance ≠ 0) :
    Function.Injective fun direction => l.step direction distance := by
  intro d d' hsame
  simp only [step, offset, mk.injEq] at hsame
  obtain ⟨hrows, hcols⟩ := hsame
  exact Prod.ext (Int.eq_of_mul_eq_mul_right h (by omega))
    (Int.eq_of_mul_eq_mul_right h (by omega))

namespace NeighborPolicy

variable {n : NeighborPolicy} {g : Grid} {l q : Location}

/-- On a grid with a fixed edge a layer lists where its steps lead to, as far as that is on the
grid; under truncation it ends at the first step that is not. -/
theorem layerLocations_of_fixed (hedge : g.edge = .fixed) (l : Location) (layer : Nat) :
    n.layerLocations g l layer =
      let steps := (n.topology.directions l.row l.col).map fun d => l.step d layer
      if n.truncates then steps.takeWhile g.inBounds else steps.filter g.inBounds := by
  have hresolve := Grid.resolve_fixed hedge
  have hseen : Option.isSome ∘ g.resolve = g.inBounds := by
    funext l
    rw [Function.comp_apply, hresolve]
    cases g.inBounds l <;> rfl
  have hlisted : ∀ ls : List Location, (ls.map g.resolve).filterMap id = ls.filter g.inBounds := by
    intro ls
    induction ls with
    | nil => rfl
    | cons l ls ih => cases hin : g.inBounds l <;> simp [hresolve, hin, ← ih]
  have hprobes : n.probes g l layer =
      ((n.topology.directions l.row l.col).map fun d => l.step d layer).map g.resolve := by
    rw [probes, List.map_map]
    rfl
  dsimp only
  rw [layerLocations, hprobes]
  split
  next =>
    rw [List.takeWhile_map, hseen, hlisted, List.filter_eq_self]
    exact fun _ => List.mem_takeWhile_imp
  next => exact hlisted _

/-- One of the steps of a layer leads to what it lists. -/
theorem exists_step_of_mem_layerLocations (hedge : g.edge = .fixed) {layer : Nat}
    (hq : q ∈ n.layerLocations g l layer) :
    ∃ d ∈ n.topology.directions l.row l.col, l.step d layer = q := by
  rw [layerLocations_of_fixed hedge] at hq
  dsimp only at hq
  rw [← List.mem_map]
  split at hq
  next => exact (List.takeWhile_sublist _).mem hq
  next => exact List.mem_of_mem_filter hq

/-- A layer lists no position twice. -/
theorem nodup_layerLocations (hedge : g.edge = .fixed) (l : Location) {layer : Nat}
    (h : 0 < layer) : (n.layerLocations g l layer).Nodup := by
  have hsteps : ((n.topology.directions l.row l.col).map fun d => l.step d layer).Nodup :=
    (n.topology.nodup_directions l.row l.col).map (l.step_left_injective (by omega))
  rw [layerLocations_of_fixed hedge]
  dsimp only
  split
  next => exact hsteps.sublist (List.takeWhile_sublist _)
  next => exact hsteps.sublist List.filter_sublist

/-- A layer lists only positions as far away as its number says: it is the number of rows between,
or the number of columns within a row, or half of that among triangles. -/
theorem distance_of_mem_layerLocations (hedge : g.edge = .fixed) {layer : Nat}
    (hq : q ∈ n.layerLocations g l layer) :
    (q.row - l.row).natAbs = layer ∨ q.row = l.row ∧ ((q.col - l.col).natAbs = layer ∨
      n.topology = .triangle ∧ (q.col - l.col).natAbs = 2 * layer) := by
  obtain ⟨d, hd, rfl⟩ := exists_step_of_mem_layerLocations hedge hq
  have hrows : (l.step d layer).row - l.row = d.1 * layer := by
    simp [Location.step, Location.offset]
  have hcols : (l.step d layer).col - l.col = d.2 * layer := by
    simp [Location.step, Location.offset]
  rw [hrows, hcols, Int.natAbs_mul, Int.natAbs_mul, Int.natAbs_natCast]
  rcases Topology.step_cases hd with hbeside | ⟨hsame, hone | ⟨htriangle, htwo⟩⟩
  · rw [hbeside, Nat.one_mul]
    exact Or.inl rfl
  · rw [hone, Nat.one_mul]
    refine Or.inr ⟨?_, Or.inl rfl⟩
    rw [hsame, Int.zero_mul] at hrows
    omega
  · rw [htwo]
    refine Or.inr ⟨?_, Or.inr ⟨htriangle, rfl⟩⟩
    rw [hsame, Int.zero_mul] at hrows
    omega

/-- A position is listed once for each layer that lists it. -/
theorem count_neighborLocations (hedge : g.edge = .fixed) (l q : Location) :
    (n.neighborLocations g l).count q =
      ((Finset.range n.rounds).filter fun k => q ∈ n.layerLocations g l (k + 1)).card :=
  count_flatMap_range (fun _ => nodup_layerLocations hedge l (Nat.succ_pos _)) n.rounds q

/-- The position is one to which two layers of steps among triangles lead: it is in the same row,
at an even distance that is not greater than the number of layers that are gone through. -/
def Doubled (n : NeighborPolicy) (l q : Location) : Prop :=
  n.topology = .triangle ∧ q.row = l.row ∧ q.col ≠ l.col ∧ 2 ∣ q.col - l.col ∧
    (q.col - l.col).natAbs ≤ n.rounds

/-- A position is not its own neighbor. -/
theorem not_mem_neighborLocations_self (hedge : g.edge = .fixed) (l : Location) :
    l ∉ n.neighborLocations g l := by
  intro hself
  obtain ⟨k, -, hk⟩ := List.mem_flatMap.mp hself
  have hdistance := distance_of_mem_layerLocations hedge hk
  omega

/-- No position is listed more than twice. -/
theorem count_neighborLocations_le_two (hedge : g.edge = .fixed) (l q : Location) :
    (n.neighborLocations g l).count q ≤ 2 := by
  rw [count_neighborLocations hedge]
  by_cases hrow : q.row = l.row
  · -- within a row a layer is as far away as its number says or twice as far
    refine (Finset.card_le_card ?_).trans
      (Finset.card_le_two (a := (q.col - l.col).natAbs - 1) (b := (q.col - l.col).natAbs / 2 - 1))
    intro k hk
    have hdistance := distance_of_mem_layerLocations hedge (Finset.mem_filter.mp hk).2
    rw [Finset.mem_insert, Finset.mem_singleton]
    omega
  · refine le_trans (Finset.card_le_one.mpr ?_) one_le_two
    intro i hi j hj
    have hdistancei := distance_of_mem_layerLocations hedge (Finset.mem_filter.mp hi).2
    have hdistancej := distance_of_mem_layerLocations hedge (Finset.mem_filter.mp hj).2
    omega

/-- A position is listed at most once, unless two layers can lead to it. -/
theorem count_neighborLocations_le_one (hedge : g.edge = .fixed) (hq : ¬ n.Doubled l q) :
    (n.neighborLocations g l).count q ≤ 1 := by
  rw [count_neighborLocations hedge, Finset.card_le_one]
  intro i hi j hj
  obtain ⟨hi, hmemi⟩ := Finset.mem_filter.mp hi
  obtain ⟨hj, hmemj⟩ := Finset.mem_filter.mp hj
  rw [Finset.mem_range] at hi hj
  have hdistancei := distance_of_mem_layerLocations hedge hmemi
  have hdistancej := distance_of_mem_layerLocations hedge hmemj
  by_contra hne
  have htriangle : n.topology = .triangle := by
    by_contra hother
    simp only [hother, false_and, or_false] at hdistancei hdistancej
    omega
  exact hq ⟨htriangle, by omega, by omega, by omega, by omega⟩

/-- Without truncation a layer lists every position of the grid to which one of its steps leads. -/
theorem mem_layerLocations_of_step (hedge : g.edge = .fixed) (hwhole : n.truncates = false)
    {d : Int × Int} (hd : d ∈ n.topology.directions l.row l.col) {layer : Nat}
    (hin : g.inBounds (l.step d layer) = true) :
    l.step d layer ∈ n.layerLocations g l layer := by
  rw [layerLocations_of_fixed hedge, hwhole]
  exact List.mem_filter.mpr ⟨List.mem_map_of_mem hd, hin⟩

/-- A position on the grid to which two layers lead is listed twice, unless layers are
truncated. -/
theorem count_neighborLocations_of_doubled (hedge : g.edge = .fixed) (hq : n.Doubled l q)
    (hwhole : n.truncates = false) (hin : g.inBounds q = true) :
    (n.neighborLocations g l).count q = 2 := by
  obtain ⟨htriangle, hrow, hcol, ⟨half, hhalf⟩, hnear⟩ := hq
  have hlists : ∀ (step : Int) (layer : Nat), step ∈ [-2, -1, 1, 2] →
      step * layer = q.col - l.col → q ∈ n.layerLocations g l layer := by
    intro step layer hstep hreach
    have hd : ((0, step) : Int × Int) ∈ n.topology.directions l.row l.col := by
      rw [htriangle]
      exact Topology.mem_directions_triangle _ _ hstep
    have hq : l.step (0, step) layer = q := by
      obtain ⟨row, col⟩ := q
      simp only [Location.step, Location.offset, Location.mk.injEq] at hrow hreach ⊢
      omega
    rw [← hq] at hin ⊢
    exact mem_layerLocations_of_step hedge hwhole hd hin
  have hlayers : q ∈ n.layerLocations g l half.natAbs ∧
      q ∈ n.layerLocations g l (2 * half.natAbs) := by
    rcases Int.natAbs_eq half with hpos | hneg
    · exact ⟨hlists 2 _ (by simp) (by omega), hlists 1 _ (by simp) (by omega)⟩
    · exact ⟨hlists (-2) _ (by simp) (by omega), hlists (-1) _ (by simp) (by omega)⟩
  refine Nat.le_antisymm (count_neighborLocations_le_two hedge l q) ?_
  have hpair : ({half.natAbs - 1, 2 * half.natAbs - 1} : Finset Nat).card = 2 :=
    Finset.card_pair (by omega)
  rw [count_neighborLocations hedge, ← hpair]
  refine Finset.card_le_card ?_
  intro k hk
  rw [Finset.mem_insert, Finset.mem_singleton] at hk
  rw [Finset.mem_filter, Finset.mem_range]
  rcases hk with rfl | rfl
  · rw [Nat.sub_add_cancel (by omega)]
    exact ⟨by omega, hlayers.1⟩
  · rw [Nat.sub_add_cancel (by omega)]
    exact ⟨by omega, hlayers.2⟩

/-- The different positions around a location whose cells are in a state. -/
def neighborsIn (n : NeighborPolicy) (g : Grid) (l : Location) (state : Nat) : Finset Location :=
  (n.neighborLocations g l).toFinset.filter fun q => g.stateAt q = some state

/-- The neighbors in a state are counted as often as their positions are listed. -/
theorem countInState_eq_sum (n : NeighborPolicy) (g : Grid) (l : Location) (state : Nat) :
    n.countInState g l state =
      ∑ q ∈ n.neighborsIn g l state, (n.neighborLocations g l).count q := by
  have hstate : ∀ q, ((g.cellAt q).map fun c => c.state == state).getD false =
      decide (g.stateAt q = some state) := by
    intro q
    rw [Grid.stateAt]
    cases g.cellAt q <;> simp [beq_eq_decide]
  have hcount : n.countInState g l state =
      ((n.neighborLocations g l).filter fun q => g.stateAt q = some state).length := by
    rw [countInState, neighbors, List.countP_filterMap, List.countP_eq_length_filter]
    exact congrArg (fun p => ((n.neighborLocations g l).filter p).length) (funext hstate)
  rw [hcount, ← List.sum_toFinset_count_eq_length, List.toFinset_filter, neighborsIn]
  simp only [decide_eq_true_eq]
  refine Finset.sum_congr rfl fun q hq => ?_
  exact List.count_filter (by simpa using (Finset.mem_filter.mp hq).2)

/-- If no position is listed more than twice, then the neighbors in a state are counted once and
those that are listed twice once more. -/
theorem countInState_eq_add (hedge : g.edge = .fixed) (n : NeighborPolicy) (l : Location)
    (state : Nat) :
    n.countInState g l state = (n.neighborsIn g l state).card +
      ((n.neighborsIn g l state).filter fun q => (n.neighborLocations g l).count q = 2).card := by
  have hcount : ∀ q ∈ n.neighborsIn g l state, (n.neighborLocations g l).count q =
      1 + if (n.neighborLocations g l).count q = 2 then 1 else 0 := by
    intro q hq
    have hlisted := List.mem_toFinset.mp (Finset.mem_filter.mp hq).1
    have hpos := List.count_pos_iff.mpr hlisted
    have hle := n.count_neighborLocations_le_two hedge l q
    split <;> omega
  rw [countInState_eq_sum, Finset.sum_congr rfl hcount, Finset.sum_add_distrib,
    Finset.card_eq_sum_ones, Finset.card_filter]

/-- On a grid with a fixed edge a position is not its own neighbor, and it is listed at most once,
except among triangles: a position in the same row at an even distance that is not greater than
the number of layers that are gone through can be listed twice, and is if layers are not truncated.
So the neighbors in a state are counted once, and those that are listed twice once more. Where cells
are no triangles or there is one layer only, this is the number of different neighbors in the
state. -/
theorem neighbors_listed_once_unless_doubled (hedge : g.edge = .fixed) (n : NeighborPolicy)
    (l : Location) :
    l ∉ n.neighborLocations g l ∧
    (∀ q, (n.neighborLocations g l).count q ≤ 2 ∧
      (¬ n.Doubled l q → (n.neighborLocations g l).count q ≤ 1) ∧
      (n.Doubled l q → n.truncates = false → g.inBounds q = true →
        (n.neighborLocations g l).count q = 2)) ∧
    (∀ state, n.countInState g l state = (n.neighborsIn g l state).card +
      ((n.neighborsIn g l state).filter fun q =>
        (n.neighborLocations g l).count q = 2).card) ∧
    (n.topology ≠ .triangle ∨ n.layers ≤ 1 → (n.neighborLocations g l).Nodup ∧
      ∀ state, n.countInState g l state = (n.neighborsIn g l state).card) := by
  refine ⟨not_mem_neighborLocations_self hedge l, fun q =>
    ⟨count_neighborLocations_le_two hedge l q, count_neighborLocations_le_one hedge,
      count_neighborLocations_of_doubled hedge⟩, countInState_eq_add hedge n l, ?_⟩
  intro hplain
  have honce : ∀ q, (n.neighborLocations g l).count q ≤ 1 := by
    intro q
    refine count_neighborLocations_le_one hedge ?_
    rintro ⟨htriangle, -, hcol, heven, hnear⟩
    rcases hplain with hother | hone
    · exact hother htriangle
    · have hrounds := n.rounds_le
      omega
  refine ⟨List.nodup_iff_count_le_one.mpr honce, ?_⟩
  intro state
  rw [countInState_eq_add hedge, Nat.add_eq_left, Finset.card_eq_zero, Finset.filter_eq_empty_iff]
  intro q _ htwo
  have hle := honce q
  omega

/-- Three triangles in a row. -/
def strip : Grid := .filled 1 3 .fixed (.plain 1)

/-- Triangles and two layers of their neighbors. -/
def twoLayers : NeighborPolicy := ⟨.triangle, 2, false⟩

/-- Around the first triangle of the strip the last one is listed twice, and with one layer only
there are no repetitions. -/
theorem strip_neighbors_listed :
    ⟨0, 0⟩ ∉ twoLayers.neighborLocations strip ⟨0, 0⟩ ∧
    (twoLayers.neighborLocations strip ⟨0, 0⟩).count ⟨0, 2⟩ = 2 ∧
    (twoLayers.neighborLocations strip ⟨0, 0⟩).count ⟨0, 1⟩ ≤ 1 ∧
    (NeighborPolicy.neighborLocations ⟨.triangle, 1, false⟩ strip ⟨0, 0⟩).Nodup := by
  have hedge : strip.edge = .fixed := by decide +kernel
  obtain ⟨hself, hcount, -, -⟩ := neighbors_listed_once_unless_doubled hedge twoLayers ⟨0, 0⟩
  have hone := neighbors_listed_once_unless_doubled hedge ⟨.triangle, 1, false⟩ ⟨0, 0⟩
  have hnot : ¬ twoLayers.Doubled ⟨0, 0⟩ ⟨0, 1⟩ := by
    rintro ⟨-, -, -, heven, -⟩
    revert heven
    decide
  refine ⟨hself, (hcount ⟨0, 2⟩).2.2 ?_ rfl (by decide +kernel), (hcount ⟨0, 1⟩).2.1 hnot,
    (hone.2.2.2 (Or.inr (by decide))).1⟩
  exact ⟨rfl, rfl, by decide, by decide, by decide⟩

/-- Around the first triangle of the strip the last one is listed twice: three neighbors are
counted, and there are two. -/
theorem strip_listed_twice :
    strip.edge = .fixed ∧ strip.inBounds ⟨0, 0⟩ = true ∧
    1 ≤ twoLayers.layers ∧ twoLayers.layers ≤ 16 ∧
    ¬ (twoLayers.neighborLocations strip ⟨0, 0⟩).Nodup ∧
    twoLayers.countInState strip ⟨0, 0⟩ 1 = 3 ∧
    (twoLayers.neighborsIn strip ⟨0, 0⟩ 1).card = 2 := by
  decide +kernel

end NeighborPolicy

end CellularAutomata
