import CellularAutomata.Grid.Range
import CellularAutomata.Neighborhood.Range
import Mathlib.Algebra.Group.Nat.Defs
import Mathlib.Algebra.Ring.Int.Defs

/-!
# Coordinates that fit

On a grid with at most `2 ^ 30` rows and columns, fewer between mirrors, a location can be
adjusted whenever its coordinates are signed 32-bit numbers at all. So the neighbors of a position
can be found there, unless steps are taken hundreds of millions of times. Whoever finds all
neighbors finds them under truncation too, because nothing new comes up then.
-/

namespace CellularAutomata

open Numeral

/-- All numbers of a list are signed 32-bit numbers. -/
def AllFit (numbers : List Int) : Prop := ∀ n ∈ numbers, leastInt32 ≤ n ∧ n ≤ mostInt32

/-- The least number in digits. -/
theorem leastInt32_eq : leastInt32 = -2147483648 := by decide

/-- The greatest number in digits. -/
theorem mostInt32_eq : mostInt32 = 2147483647 := by decide

@[simp] theorem allFit_nil : AllFit [] := nofun

@[simp] theorem allFit_cons {n : Int} {ns : List Int} :
    AllFit (n :: ns) ↔ (-2147483648 ≤ n ∧ n ≤ 2147483647) ∧ AllFit ns := by
  simp only [AllFit, List.forall_mem_cons, leastInt32_eq, mostInt32_eq]

@[simp] theorem allFit_append {ms ns : List Int} :
    AllFit (ms ++ ns) ↔ AllFit ms ∧ AllFit ns := by
  simp only [AllFit, List.forall_mem_append]

/-- That all numbers fit is decided one by one. -/
theorem all_fitsInt32 {ns : List Int} : ns.all fitsInt32 = true ↔ AllFit ns := by
  simp only [List.all_eq_true, fitsInt32, Bool.and_eq_true, decide_eq_true_eq, AllFit]

/-- A grid whose coordinates can be adjusted. Mirroring doubles a side, so there the sides are
shorter. -/
structure Grid.Moderate (g : Grid) : Prop where
  /-- There are not too many rows. -/
  rows : g.rows ≤ 2 ^ 30
  /-- There are not too many columns. -/
  cols : g.cols ≤ 2 ^ 30
  /-- Twice a side that mirrors is still a number. -/
  mirror : g.edge = .mirror → g.rows < 2 ^ 30 ∧ g.cols < 2 ^ 30

/-- Wrapping comes upon a remainder that is raised by the size, and that need not fit. -/
theorem allFit_wrapNumbers_iff {size : Int} (hsize : 0 < size ∧ size ≤ 2147483647)
    (coordinate : Int) :
    AllFit (Edge.wrapNumbers coordinate size) ↔ coordinate.tmod size + size ≤ 2147483647 := by
  have hlow := Int.lt_tmod_of_pos coordinate hsize.1
  have hhigh := Int.tmod_lt_of_pos coordinate hsize.1
  have hlow' := Int.lt_tmod_of_pos (coordinate.tmod size + size) hsize.1
  have hhigh' := Int.tmod_lt_of_pos (coordinate.tmod size + size) hsize.1
  simp only [Edge.wrapNumbers, allFit_cons, allFit_nil, and_true]
  omega

/-- Reflecting comes upon the opposite of a negative coordinate, and upon twice the size if the
coordinate lies beyond it, and neither need fit. -/
theorem allFit_reflectNumbers_iff {size coordinate : Int} (hsize : 0 < size ∧ size ≤ 2147483647)
    (hcoordinate : -2147483648 ≤ coordinate ∧ coordinate ≤ 2147483647) :
    AllFit (Edge.reflectNumbers coordinate size) ↔
      -2147483648 < coordinate ∧ (size ≤ coordinate → size < 2 ^ 30) := by
  unfold Edge.reflectNumbers
  split
  next =>
    simp only [allFit_cons, allFit_nil, and_true]
    omega
  next =>
    split
    next =>
      simp only [allFit_cons, allFit_nil, and_true]
      omega
    next hinside => exact iff_of_true allFit_nil ⟨by omega, fun h => absurd h hinside⟩

/-- A location can be adjusted unless a remainder is too large to be raised by the side, or a
coordinate is the least number there is or lies beyond a side that cannot be doubled. -/
theorem allFit_adjustNumbers_iff {g : Grid} {l : Location}
    (hrows : 0 < g.rows ∧ g.rows ≤ 2147483647) (hcols : 0 < g.cols ∧ g.cols ≤ 2147483647)
    (hrow : -2147483648 ≤ l.row ∧ l.row ≤ 2147483647)
    (hcol : -2147483648 ≤ l.col ∧ l.col ≤ 2147483647) :
    AllFit (g.edge.adjustNumbers g.rows g.cols l) ↔
      (g.edge = .toroidal → l.row.tmod g.rows + g.rows ≤ 2147483647 ∧
        l.col.tmod g.cols + g.cols ≤ 2147483647) ∧
      (g.edge = .mirror → (-2147483648 < l.row ∧ (g.rows ≤ l.row → g.rows < 2 ^ 30)) ∧
        -2147483648 < l.col ∧ (g.cols ≤ l.col → g.cols < 2 ^ 30)) := by
  cases g.edge with
  | fixed => exact iff_of_true allFit_nil ⟨nofun, nofun⟩
  | toroidal =>
    simp only [Edge.adjustNumbers, allFit_append, allFit_wrapNumbers_iff hrows,
      allFit_wrapNumbers_iff hcols, forall_const, reduceCtorEq, false_imp_iff, and_true]
  | mirror =>
    simp only [Edge.adjustNumbers, allFit_append, allFit_reflectNumbers_iff hrows hrow,
      allFit_reflectNumbers_iff hcols hcol, forall_const, reduceCtorEq, false_imp_iff, true_and]

/-- A location that can be written down can be adjusted. -/
theorem allFit_adjustNumbers {g : Grid} {l : Location} (hg : g.Moderate)
    (hsides : 0 < g.rows ∧ 0 < g.cols) (hrow : -2147483647 ≤ l.row ∧ l.row ≤ 2147483647)
    (hcol : -2147483647 ≤ l.col ∧ l.col ≤ 2147483647) :
    AllFit (g.edge.adjustNumbers g.rows g.cols l) := by
  have hrows := hg.rows
  have hcols := hg.cols
  refine (allFit_adjustNumbers_iff (by omega) (by omega) (by omega) (by omega)).mpr
    ⟨fun _ => ?_, fun hmirror => ?_⟩
  · have hrest := Int.tmod_lt_of_pos l.row hsides.1
    have hrest' := Int.tmod_lt_of_pos l.col hsides.2
    omega
  · have hshort := hg.mirror hmirror
    omega

/-- A step leads at most two rows and two columns away. -/
theorem Topology.directions_near (t : Topology) (row col : Int) {d : Int × Int}
    (hd : d ∈ t.directions row col) : (-2 ≤ d.1 ∧ d.1 ≤ 2) ∧ -2 ≤ d.2 ∧ d.2 ≤ 2 := by
  have hall : ∀ steps ∈ [sideSteps, cornerSteps, evenColumnSteps, oddColumnSteps, upwardSteps,
      downwardSteps], ∀ d ∈ steps, (-2 ≤ d.1 ∧ d.1 ≤ 2) ∧ -2 ≤ d.2 ∧ d.2 ≤ 2 := by
    decide
  refine hall (t.directions row col) ?_ d hd
  unfold directions
  split
  next => simp
  next => simp
  next => split <;> simp
  next => split <;> simp

/-- A coordinate of a step that is taken some times is at most twice as far. -/
theorem Topology.mul_near {e : Int} (he : -2 ≤ e ∧ e ≤ 2) (count : Nat) :
    -(2 * count) ≤ e * count ∧ e * count ≤ 2 * count := by
  obtain rfl | rfl | rfl | rfl | rfl : e = -2 ∨ e = -1 ∨ e = 0 ∨ e = 1 ∨ e = 2 := by omega
  all_goals omega

/-- The sum of the coordinates of a position fits. -/
theorem Topology.allFit_directionNumbers (t : Topology) {row col : Int}
    (hrow : 0 ≤ row ∧ row < 2 ^ 30) (hcol : 0 ≤ col ∧ col < 2 ^ 30) :
    AllFit (t.directionNumbers row col) := by
  cases t with
  | triangle =>
    simp only [directionNumbers, allFit_cons, allFit_nil, and_true]
    omega
  | square4 | square8 | hex => exact allFit_nil

namespace NeighborPolicy

variable {n : NeighborPolicy} {g : Grid} {l : Location} {ls : List Location}

/-- The numbers of a layer are numbers of its steps. -/
theorem exists_mem_probeNumbers {layer : Nat} {steps : List (Int × Int)} {number : Int}
    (h : number ∈ n.stepNumbers g l layer steps) :
    ∃ d ∈ steps, number ∈ g.probeNumbers l d layer := by
  induction steps with
  | nil => cases h
  | cons d rest ih =>
    rw [stepNumbers, List.mem_append] at h
    rcases h with hfirst | hrest
    · exact ⟨d, List.mem_cons_self .., hfirst⟩
    · split at hrest
      next => cases hrest
      next =>
        obtain ⟨d', hd', hnumber⟩ := ih hrest
        exact ⟨d', List.mem_cons_of_mem d hd', hnumber⟩

/-- Without truncation the numbers of a layer are all those of its steps. -/
theorem stepNumbers_of_whole (hwhole : n.truncates = false) (layer : Nat)
    (steps : List (Int × Int)) :
    n.stepNumbers g l layer steps = steps.flatMap fun d => g.probeNumbers l d layer := by
  induction steps with
  | nil => rfl
  | cons d rest ih => rw [stepNumbers, hwhole, Bool.false_and, if_neg Bool.false_ne_true, ih,
      List.flatMap_cons]

/-- Finding the neighbors of a location comes upon the numbers of the steps and of the layers. -/
theorem allFit_numbers_iff :
    AllFit (n.numbers g l) ↔ AllFit (n.topology.directionNumbers l.row l.col) ∧
      ∀ k < n.rounds, AllFit (n.stepNumbers g l (k + 1) (n.topology.directions l.row l.col)) := by
  rw [numbers, allFit_append]
  refine and_congr_right fun _ => ?_
  simp only [AllFit, List.mem_flatMap, List.mem_range]
  constructor
  · intro h k hk number hnumber
    exact h number ⟨k, hk, hnumber⟩
  · rintro h number ⟨k, hk, hnumber⟩
    exact h k hk number hnumber

/-- The neighbors of a location are found exactly if all numbers on the way fit. -/
theorem neighborLocations?_eq_some_iff :
    n.neighborLocations? g l = some ls ↔ AllFit (n.numbers g l) ∧ n.neighborLocations g l = ls := by
  rw [neighborLocations?, ← all_fitsInt32]
  split
  next hfit => simp [hfit]
  next hunfit => simp [hunfit]

/-- Whether the neighbors of a location are found is decided by the numbers on the way. -/
theorem isSome_neighborLocations?_iff :
    (n.neighborLocations? g l).isSome = true ↔ AllFit (n.numbers g l) := by
  rw [Option.isSome_iff_exists]
  simp [neighborLocations?_eq_some_iff]

/-- The neighbors of a position of a moderate grid are found, unless there are very many layers. -/
theorem allFit_numbers (hg : g.Moderate) (hl : g.inBounds l = true) (hn : n.layers ≤ 2 ^ 29) :
    AllFit (n.numbers g l) := by
  have hrows := hg.rows
  have hcols := hg.cols
  obtain ⟨hrow, hcol⟩ := Grid.inBounds_iff.mp hl
  refine allFit_numbers_iff.mpr
    ⟨n.topology.allFit_directionNumbers (by omega) (by omega), fun k hk number hnumber => ?_⟩
  obtain ⟨d, hd, hnumber⟩ := exists_mem_probeNumbers hnumber
  have hrounds := n.rounds_le
  have hcount : k + 1 ≤ 2 ^ 29 := by omega
  obtain ⟨hdRow, hdCol⟩ := n.topology.directions_near l.row l.col hd
  have hfarRow := Topology.mul_near hdRow (k + 1)
  have hfarCol := Topology.mul_near hdCol (k + 1)
  have hprobe : AllFit (g.probeNumbers l d (k + 1)) := by
    simp only [Grid.probeNumbers, Location.stepNumbers, allFit_append, allFit_cons, allFit_nil,
      and_true]
    refine ⟨by omega, allFit_adjustNumbers hg ⟨by omega, by omega⟩ ?_ ?_⟩
    · change -2147483647 ≤ l.row + d.1 * (k + 1 : Nat) ∧ l.row + d.1 * (k + 1 : Nat) ≤ 2147483647
      omega
    · change -2147483647 ≤ l.col + d.2 * (k + 1 : Nat) ∧ l.col + d.2 * (k + 1 : Nat) ≤ 2147483647
      omega
  exact hprobe number hnumber

/-- On a moderate grid the neighbors of every position are found. -/
theorem exists_neighborLocations? (hg : g.Moderate) (hl : g.inBounds l = true)
    (hn : n.layers ≤ 2 ^ 29) : ∃ ls, n.neighborLocations? g l = some ls :=
  ⟨_, neighborLocations?_eq_some_iff.mpr ⟨allFit_numbers hg hl hn, rfl⟩⟩

end NeighborPolicy

/-- One column around a torus, with two rows more than there may be for a remainder to be raised by
their number. -/
def longRing : Grid := .empty 1073741826 1 .toroidal

end CellularAutomata
