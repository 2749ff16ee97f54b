import CellularAutomata.Neighborhood.Policy
import CellularAutomata.Proofs.Grid.Contents
import CellularAutomata.Proofs.Keys
import Mathlib.Data.Int.ModEq

/-!
# Shifted grids

A grid all of whose cells are moved by the same number of rows and of columns, and come in
again on the opposite side. On a toroidal grid of squares the neighbors of a position are moved
along with it, also those across the edge; so as many of them are in each state.
-/

namespace CellularAutomata

namespace Grid

/-- The position that is some rows further down and some columns further right, around the
grid. -/
def shift (g : Grid) (rows cols : Int) (l : Location) : Location :=
  ⟨(l.row + rows) % g.rows, (l.col + cols) % g.cols⟩

/-- The grid with all its cells moved some rows further down and some columns further right,
around the grid. -/
def shifted (g : Grid) (rows cols : Int) : Grid :=
  { g with
    cells := mapKeys (g.shift rows cols)
      (g.cells.map fun l c => c.movedTo (g.shift rows cols l)) }

variable {g : Grid} {rows cols : Int} {l l' : Location}

/-- A coordinate is given by where it is shifted to. -/
theorem shift_coordinate_inj {x y size a : Int} (hx : 0 ≤ x ∧ x < size) (hy : 0 ≤ y ∧ y < size)
    (h : (x + a) % size = (y + a) % size) : x = y := by
  have hsame : x % size = y % size := Int.emod_add_cancel_right a |>.mp h
  rwa [Int.emod_eq_of_lt hx.1 hx.2, Int.emod_eq_of_lt hy.1 hy.2] at hsame

/-- Different positions are shifted to different ones. -/
theorem shift_inj (hl : g.inBounds l = true) (hl' : g.inBounds l' = true)
    (h : g.shift rows cols l = g.shift rows cols l') : l = l' := by
  rw [inBounds_iff] at hl hl'
  have hrow := shift_coordinate_inj hl.1 hl'.1 (congrArg Location.row h)
  have hcol := shift_coordinate_inj hl.2 hl'.2 (congrArg Location.col h)
  cases l
  cases l'
  simp_all

/-- Shifting leads to positions. -/
theorem inBounds_shift (hrows : 0 < g.rows) (hcols : 0 < g.cols) (rows cols : Int)
    (l : Location) : g.inBounds (g.shift rows cols l) = true :=
  inBounds_iff.mpr ⟨⟨Int.emod_nonneg _ hrows.ne', Int.emod_lt_of_pos _ hrows⟩,
    Int.emod_nonneg _ hcols.ne', Int.emod_lt_of_pos _ hcols⟩

/-- Every position is reached by shifting a position. -/
theorem exists_shift_eq (hl : g.inBounds l = true) (rows cols : Int) :
    ∃ old, g.inBounds old = true ∧ g.shift rows cols old = l := by
  rw [inBounds_iff] at hl
  refine ⟨g.shift (-rows) (-cols) l, inBounds_shift (by omega) (by omega) _ _ _, ?_⟩
  have hback : ∀ x size a : Int, 0 ≤ x ∧ x < size → ((x + -a) % size + a) % size = x := by
    intro x size a hx
    rw [Int.emod_add_emod, Int.neg_add_cancel_right, Int.emod_eq_of_lt hx.1 hx.2]
  rw [shift, shift]
  dsimp only
  rw [hback _ _ _ hl.1, hback _ _ _ hl.2]

/-- A cell is seen where it has been moved to. -/
theorem WellFormed.cellAt_shifted (h : g.WellFormed) (rows cols : Int)
    (hl : g.inBounds l = true) :
    (g.shifted rows cols).cellAt (g.shift rows cols l) =
      (g.cellAt l).map fun c => c.movedTo (g.shift rows cols l) := by
  have hold : ∀ old ∈ g.cells.map fun l c => c.movedTo (g.shift rows cols l),
      g.inBounds old = true := by
    intro old hmem
    rw [Std.ExtTreeMap.mem_map, Std.ExtTreeMap.mem_iff_isSome_getElem?] at hmem
    obtain ⟨c, hc⟩ := Option.isSome_iff_exists.mp hmem
    exact h.inBounds hc
  have hvalue : (g.cells.map fun l c => c.movedTo (g.shift rows cols l))[l]? =
      (g.cellAt l).map fun c => c.movedTo (g.shift rows cols l) :=
    Std.ExtTreeMap.getElem?_map
  cases hc : g.cellAt l with
  | some c =>
    rw [hc] at hvalue
    exact getElem?_mapKeys_of_some
      (fun k hk k' hk' hsame => shift_inj (hold k hk) (hold k' hk') hsame) hvalue
  | none =>
    refine getElem?_mapKeys_of_ne fun old hmem hsame => ?_
    obtain rfl := shift_inj (hold old hmem) hl hsame
    rw [Std.ExtTreeMap.mem_iff_isSome_getElem?, hvalue, hc] at hmem
    cases hmem

/-- Nothing is seen beside a shifted grid. -/
theorem WellFormed.cellAt_shifted_of_not_inBounds (h : g.WellFormed)
    (hl : ¬ g.inBounds l = true) : (g.shifted rows cols).cellAt l = none := by
  refine getElem?_mapKeys_of_ne fun old hmem hsame => hl ?_
  rw [Std.ExtTreeMap.mem_map, Std.ExtTreeMap.mem_iff_isSome_getElem?] at hmem
  obtain ⟨c, hc⟩ := Option.isSome_iff_exists.mp hmem
  have hold := inBounds_iff.mp (h.inBounds hc)
  rw [← hsame]
  exact inBounds_shift (by omega) (by omega) rows cols old

/-- Two grids of the same dimensions are equal if the same is seen at all shifted positions and
nothing beside them. -/
theorem ext_shift (rows cols : Int) {g' g'' : Grid}
    (hd' : g'.rows = g.rows ∧ g'.cols = g.cols ∧ g'.edge = g.edge)
    (hd'' : g''.rows = g.rows ∧ g''.cols = g.cols ∧ g''.edge = g.edge)
    (hbeside : ∀ l, ¬ g.inBounds l = true → g'.cellAt l = none ∧ g''.cellAt l = none)
    (hsame : ∀ l, g.inBounds l = true →
      g'.cellAt (g.shift rows cols l) = g''.cellAt (g.shift rows cols l)) : g' = g'' := by
  refine ext_cellAt (hd'.1.trans hd''.1.symm) (hd'.2.1.trans hd''.2.1.symm)
    (hd'.2.2.trans hd''.2.2.symm) fun l => ?_
  by_cases hl : g.inBounds l = true
  · obtain ⟨old, hold, rfl⟩ := exists_shift_eq hl rows cols
    exact hsame old hold
  · obtain ⟨hnone, hnone'⟩ := hbeside l hl
    rw [hnone, hnone']

/-- A well-formed grid is well-formed after it is shifted. -/
theorem WellFormed.shifted (h : g.WellFormed) (rows cols : Int) :
    (g.shifted rows cols).WellFormed := by
  have hfrom : ∀ {l : Location} {c : Cell}, (g.shifted rows cols).cellAt l = some c →
      g.inBounds l = true ∧ c.location = l := by
    intro l c hc
    by_cases hl : g.inBounds l = true
    · refine ⟨hl, ?_⟩
      obtain ⟨old, hold, rfl⟩ := exists_shift_eq hl rows cols
      rw [h.cellAt_shifted rows cols hold] at hc
      obtain ⟨c', -, rfl⟩ := Option.map_eq_some_iff.mp hc
      rfl
    · rw [h.cellAt_shifted_of_not_inBounds hl] at hc
      cases hc
  exact ⟨fun hc => (hfrom hc).2, fun hc => (hfrom hc).1⟩

/-- States are moved along with the cells. -/
theorem WellFormed.stateAt_shifted (h : g.WellFormed) (hl : g.inBounds l = true) :
    (g.shifted rows cols).stateAt (g.shift rows cols l) = g.stateAt l := by
  rw [stateAt, stateAt, h.cellAt_shifted rows cols hl, Option.map_map]
  rfl

/-- On a toroidal grid every location is looked up at a position. -/
theorem resolve_toroidal (hedge : g.edge = .toroidal) (hrows : 0 < g.rows) (hcols : 0 < g.cols)
    (l : Location) : g.resolve l = some (g.shift 0 0 l) := by
  have hadjust : g.adjust l = g.shift 0 0 l := by
    simp only [adjust, hedge, Edge.adjust, Edge.wrap_eq_emod hrows, Edge.wrap_eq_emod hcols, shift,
      Int.add_zero]
  rw [resolve, hadjust, if_pos (inBounds_shift hrows hcols 0 0 l)]

/-- On a toroidal grid a step from a shifted position leads to the shifted end of the step. -/
theorem resolve_step_shift (hedge : g.edge = .toroidal) (hrows : 0 < g.rows) (hcols : 0 < g.cols)
    (l : Location) (direction : Int × Int) (distance : Int) :
    g.resolve ((g.shift rows cols l).step direction distance) =
      (g.resolve (l.step direction distance)).map (g.shift rows cols) := by
  rw [resolve_toroidal hedge hrows hcols, resolve_toroidal hedge hrows hcols, Option.map_some]
  have hcommute : ∀ x a d size : Int,
      ((x + a) % size + d + 0) % size = ((x + d + 0) % size + a) % size := by
    intro x a d size
    rw [Int.add_zero, Int.add_zero, Int.emod_add_emod, Int.emod_add_emod, Int.add_right_comm]
  refine congrArg some ?_
  simp only [shift, Location.step, Location.offset, hcommute]

end Grid

namespace NeighborPolicy

variable {n : NeighborPolicy} {g : Grid} {rows cols : Int}

/-- The cells are squares, with or without their corners. -/
def Square (n : NeighborPolicy) : Prop := n.topology = .square4 ∨ n.topology = .square8

/-- Squares have the same steps everywhere. -/
theorem Square.directions (h : n.Square) (l l' : Location) :
    n.topology.directions l'.row l'.col = n.topology.directions l.row l.col := by
  rcases h with h | h <;> rw [h] <;> rfl

/-- Neighbors are on the grid. -/
theorem inBounds_of_mem_neighborLocations {l l' : Location}
    (h : l' ∈ n.neighborLocations g l) : g.inBounds l' = true := by
  obtain ⟨index, -, hlayer⟩ := List.mem_flatMap.mp h
  obtain ⟨probe, hprobe, hsome⟩ := List.mem_filterMap.mp hlayer
  have hmem : probe ∈ n.probes g l (index + 1) := by
    split at hprobe
    next => exact (List.takeWhile_sublist _).mem hprobe
    next => exact hprobe
  obtain ⟨direction, -, hresolve⟩ := List.mem_map.mp hmem
  exact Grid.inBounds_of_resolve (hresolve.trans hsome)

/-- The neighbors of a shifted position are the shifted neighbors. -/
theorem neighborLocations_shift (hn : n.Square) (hedge : g.edge = .toroidal) (hrows : 0 < g.rows)
    (hcols : 0 < g.cols) (l : Location) :
    n.neighborLocations g (g.shift rows cols l) =
      (n.neighborLocations g l).map (g.shift rows cols) := by
  have hprobes : ∀ layer, n.probes g (g.shift rows cols l) layer =
      (n.probes g l layer).map (Option.map (g.shift rows cols)) := by
    intro layer
    rw [probes, probes, hn.directions l, List.map_map]
    exact List.map_congr_left fun direction _ =>
      Grid.resolve_step_shift hedge hrows hcols l direction layer
  have hlayer : ∀ layer, n.layerLocations g (g.shift rows cols l) layer =
      (n.layerLocations g l layer).map (g.shift rows cols) := by
    intro layer
    have hends : Option.isSome ∘ Option.map (g.shift rows cols) = Option.isSome :=
      funext fun probe => Option.isSome_map
    have hkept : ∀ found : List (Option Location),
        (found.map (Option.map (g.shift rows cols))).filterMap id =
          (found.filterMap id).map (g.shift rows cols) := by
      intro found
      rw [List.filterMap_map, List.map_filterMap]
      rfl
    rw [layerLocations, layerLocations, hprobes]
    split
    next => rw [List.takeWhile_map, hends, hkept]
    next => exact hkept _
  rw [neighborLocations, neighborLocations, List.map_flatMap]
  exact congrArg (List.flatMap · _) (funext fun index => hlayer (index + 1))

/-- As many neighbors are in a state as the numbers of their states say. -/
theorem countInState_eq (n : NeighborPolicy) (g : Grid) (l : Location) (state : Nat) :
    n.countInState g l state =
      ((n.neighborLocations g l).filterMap g.stateAt).countP (· == state) := by
  have hstates : (n.neighborLocations g l).filterMap g.stateAt =
      ((n.neighborLocations g l).filterMap g.cellAt).map Cell.state :=
    (List.map_filterMap ..).symm
  rw [hstates, List.countP_map]
  rfl

/-- As many neighbors of a shifted position are in a state as of the position. -/
theorem countInState_shift (hn : n.Square) (hwf : g.WellFormed) (hedge : g.edge = .toroidal)
    (hrows : 0 < g.rows) (hcols : 0 < g.cols) (l : Location) (state : Nat) :
    n.countInState (g.shifted rows cols) (g.shift rows cols l) state =
      n.countInState g l state := by
  have hlocations : n.neighborLocations (g.shifted rows cols) (g.shift rows cols l) =
      (n.neighborLocations g l).map (g.shift rows cols) :=
    neighborLocations_shift hn hedge hrows hcols l
  rw [countInState_eq, countInState_eq, hlocations, List.filterMap_map]
  refine congrArg (List.countP (· == state)) (List.filterMap_congr fun l' hl' => ?_)
  exact hwf.stateAt_shifted (inBounds_of_mem_neighborLocations hl')

end NeighborPolicy

end CellularAutomata
