import CellularAutomata.Proofs.Grid.Neighborhoods
import CellularAutomata.Proofs.Grid.Range
import CellularAutomata.Proofs.Grid.Shifts

/-!
# Truncated layers

Under truncation a layer ends at the first step that leaves the grid, and the next layer starts
afresh. So the truncated neighbors are found among all neighbors, in the same order, and they are
all of them just when no layer comes back to the grid after it has left it. On a torus no step
leaves the grid, and away from a fixed edge no step reaches it.
-/

namespace CellularAutomata

section Lists

variable {α : Type}

/-- The longest prefix of a list all of whose elements have a property. -/
structure LeadingRun (p : α → Prop) (xs run : List α) : Prop where
  /-- The run is at the start of the list. -/
  leads : run <+: xs
  /-- Its elements have the property. -/
  holds : ∀ a ∈ run, p a
  /-- No longer one has only such elements. -/
  longest : ∀ other, other <+: xs → (∀ a ∈ other, p a) → other.length ≤ run.length

/-- What is taken from a list as long as a property holds is the longest prefix with it. -/
theorem leadingRun_takeWhile (p : α → Bool) (xs : List α) :
    LeadingRun (fun a => p a = true) xs (xs.takeWhile p) := by
  refine ⟨List.takeWhile_prefix p, fun a => List.mem_takeWhile_imp, ?_⟩
  intro other hleads hholds
  induction xs generalizing other with
  | nil => simp [List.prefix_nil.mp hleads]
  | cons x xs ih =>
    cases other with
    | nil => simp
    | cons a other =>
      obtain ⟨rfl, hrest⟩ := List.cons_prefix_cons.mp hleads
      obtain ⟨ha, hothers⟩ := List.forall_mem_cons.mp hholds
      rw [List.takeWhile_cons_of_pos ha, List.length_cons, List.length_cons]
      exact Nat.succ_le_succ (ih other hrest hothers)

/-- What is found before the first failure is all that is found just when nothing is found after
a failure. -/
theorem filterMap_takeWhile_isSome_iff (xs : List (Option α)) :
    (xs.takeWhile Option.isSome).filterMap id = xs.filterMap id ↔
      xs.Pairwise fun x later => later.isSome → x.isSome := by
  induction xs with
  | nil => simp
  | cons x xs ih =>
    cases x with
    | some a => simpa using ih
    | none =>
      have hnone : xs.filterMap id = [] ↔ ∀ x ∈ xs, x = none := by
        rw [List.filterMap_eq_nil_iff]
        rfl
      rw [List.takeWhile_cons_of_neg (by simp), List.filterMap_cons_none rfl, List.filterMap_nil,
        eq_comm, hnone, List.pairwise_cons]
      constructor
      · intro hall
        refine ⟨fun x hx => by simp [hall x hx], List.pairwise_of_forall_mem_list ?_⟩
        intro x _ later hlater
        simp [hall later hlater]
      · rintro ⟨hall, -⟩ x hx
        simpa using hall x hx

/-- Parts of lists make up the same list only if they are the whole lists. -/
theorem append_eq_append_iff_of_sublist {xs xs' ys ys' : List α} (hxs : xs.Sublist xs')
    (hys : ys.Sublist ys') : xs ++ ys = xs' ++ ys' ↔ xs = xs' ∧ ys = ys' := by
  constructor
  · intro happend
    have hlength := congrArg List.length happend
    rw [List.length_append, List.length_append] at hlength
    have hle := hxs.length_le
    have hle' := hys.length_le
    exact ⟨hxs.eq_of_length (by omega), hys.eq_of_length (by omega)⟩
  · rintro ⟨rfl, rfl⟩
    rfl

/-- Parts of lists that follow each other make up the same list only if they are the whole
lists. -/
theorem flatMap_range_eq_iff_of_sublist {f f' : Nat → List α} (h : ∀ k, (f k).Sublist (f' k))
    (count : Nat) :
    (List.range count).flatMap f = (List.range count).flatMap f' ↔ ∀ k < count, f k = f' k := by
  induction count with
  | zero => simp
  | succ count ih =>
    have hbefore : ((List.range count).flatMap f).Sublist ((List.range count).flatMap f') :=
      List.Sublist.flatMap_right _ fun k _ => h k
    rw [List.range_succ, List.flatMap_append, List.flatMap_append, List.flatMap_singleton,
      List.flatMap_singleton, append_eq_append_iff_of_sublist hbefore (h count), ih,
      Nat.forall_lt_succ_right]

end Lists

/-- The most rows or columns that a step goes. -/
def Topology.reach (t : Topology) (row col : Int) : Nat :=
  ((t.directions row col).map fun d => max d.1.natAbs d.2.natAbs).max?.getD 0

/-- No step goes further in a coordinate than the most that steps go. -/
theorem Topology.natAbs_le_reach {t : Topology} {row col : Int} {d : Int × Int}
    (hd : d ∈ t.directions row col) :
    d.1.natAbs ≤ t.reach row col ∧ d.2.natAbs ≤ t.reach row col :=
  Nat.max_le.mp (List.le_max?_getD_of_mem
    (List.mem_map_of_mem (f := fun d : Int × Int => max d.1.natAbs d.2.natAbs) hd))

/-- The location is on the grid and at least so many rows and columns away from the outermost
ones. -/
def Grid.Inland (g : Grid) (l : Location) (distance : Nat) : Prop :=
  (distance ≤ l.row ∧ l.row + distance < g.rows) ∧ distance ≤ l.col ∧ l.col + distance < g.cols

instance (g : Grid) (l : Location) (distance : Nat) : Decidable (g.Inland l distance) :=
  inferInstanceAs (Decidable (_ ∧ _))

/-- Steps that go no further than there is room stay on the grid. -/
theorem Grid.Inland.inBounds_step {g : Grid} {l : Location} {most count : Nat}
    (h : g.Inland l (count * most)) {d : Int × Int} (hd : d.1.natAbs ≤ most ∧ d.2.natAbs ≤ most)
    {layer : Nat} (hlayer : layer ≤ count) : g.inBounds (l.step d layer) = true := by
  have hfar : ∀ e : Int, e.natAbs ≤ most → (e * layer).natAbs ≤ count * most := by
    intro e he
    rw [Int.natAbs_mul, Int.natAbs_natCast, Nat.mul_comm]
    exact Nat.mul_le_mul hlayer he
  have hrow := hfar d.1 hd.1
  have hcol := hfar d.2 hd.2
  obtain ⟨hrows, hcols⟩ := h
  rw [Grid.inBounds_iff]
  simp only [Location.step, Location.offset]
  omega

namespace NeighborPolicy

variable {n : NeighborPolicy} {g : Grid} {l : Location}

/-- The policy with layers that end at the first step off the grid. -/
def truncated (n : NeighborPolicy) : NeighborPolicy := { n with truncates := true }

/-- The policy with layers that go on after a step off the grid. -/
def whole (n : NeighborPolicy) : NeighborPolicy := { n with truncates := false }

/-- In no layer a step stays on the grid after one that leaves it. -/
def Unbroken (n : NeighborPolicy) (g : Grid) (l : Location) : Prop :=
  ∀ layer, 1 ≤ layer → layer ≤ n.rounds →
    (n.probes g l layer).Pairwise fun probe later => later.isSome → probe.isSome

/-- Layers in which no step leaves the grid are unbroken. -/
theorem unbroken_of_forall_isSome
    (h : ∀ d ∈ n.topology.directions l.row l.col, ∀ layer ≤ n.layers,
      (g.resolve (l.step d layer)).isSome) : n.Unbroken g l := by
  intro layer _ hle
  refine List.pairwise_of_forall_mem_list fun probe hprobe _ _ _ => ?_
  obtain ⟨d, hd, rfl⟩ := List.mem_map.mp hprobe
  exact h d hd layer (hle.trans n.rounds_le)

/-- On a torus layers are unbroken. -/
theorem unbroken_of_toroidal (hedge : g.edge = .toroidal) (hl : g.inBounds l = true) :
    n.Unbroken g l := by
  have hsides := Grid.inBounds_iff.mp hl
  refine unbroken_of_forall_isSome fun d _ layer _ => ?_
  rw [Grid.resolve_toroidal hedge (by omega) (by omega)]
  rfl

/-- Layers with room for all steps are unbroken. -/
theorem unbroken_of_inland (hedge : g.edge = .fixed)
    (hl : g.Inland l (n.layers * n.topology.reach l.row l.col)) : n.Unbroken g l := by
  refine unbroken_of_forall_isSome fun d hd layer hle => ?_
  rw [Grid.resolve_fixed hedge, if_pos (hl.inBounds_step (Topology.natAbs_le_reach hd) hle)]
  rfl

/-- A whole layer lists where its steps lead to, as far as that is on the grid. -/
theorem layerLocations_whole (n : NeighborPolicy) (g : Grid) (l : Location) (layer : Nat) :
    n.whole.layerLocations g l layer =
      (n.topology.directions l.row l.col).filterMap fun d => g.resolve (l.step d layer) := by
  rw [layerLocations, probes, whole, if_neg Bool.false_ne_true, List.filterMap_map]
  rfl

/-- A truncated layer lists where the steps before the first one off the grid lead to. -/
theorem layerLocations_truncated (n : NeighborPolicy) (g : Grid) (l : Location) (layer : Nat) :
    n.truncated.layerLocations g l layer =
      ((n.topology.directions l.row l.col).takeWhile fun d =>
        (g.resolve (l.step d layer)).isSome).filterMap fun d => g.resolve (l.step d layer) := by
  rw [layerLocations, probes, truncated, if_pos rfl, List.takeWhile_map, List.filterMap_map]
  rfl

/-- A truncated layer is a part of the whole layer. -/
theorem layerLocations_sublist (n : NeighborPolicy) (g : Grid) (l : Location) (layer : Nat) :
    (n.truncated.layerLocations g l layer).Sublist (n.whole.layerLocations g l layer) := by
  rw [layerLocations_truncated, layerLocations_whole]
  exact (List.takeWhile_sublist _).filterMap _

/-- Truncation leaves the neighbors as they are just when all layers are unbroken. -/
theorem neighborLocations_truncated_eq_iff (n : NeighborPolicy) (g : Grid) (l : Location) :
    n.truncated.neighborLocations g l = n.whole.neighborLocations g l ↔ n.Unbroken g l := by
  have hlayers : n.truncated.neighborLocations g l = n.whole.neighborLocations g l ↔
      ∀ k < n.rounds, n.truncated.layerLocations g l (k + 1) =
        n.whole.layerLocations g l (k + 1) :=
    flatMap_range_eq_iff_of_sublist (fun k => layerLocations_sublist n g l (k + 1)) n.rounds
  have hlayer : ∀ layer, n.truncated.layerLocations g l layer = n.whole.layerLocations g l layer ↔
      (n.probes g l layer).Pairwise fun probe later => later.isSome → probe.isSome :=
    fun layer => filterMap_takeWhile_isSome_iff (n.probes g l layer)
  simp only [hlayers, hlayer]
  constructor
  · intro hall layer hpos hle
    have hone := hall (layer - 1) (by omega)
    rwa [Nat.sub_add_cancel hpos] at hone
  · intro hall k hk
    exact hall (k + 1) (by omega) hk

/-- Under truncation the neighbors are listed layer by layer, in each one up to the first step that
leaves the grid. -/
theorem neighborLocations_truncated (n : NeighborPolicy) (g : Grid) (l : Location) :
    n.truncated.neighborLocations g l = (List.range n.rounds).flatMap fun k =>
      ((n.topology.directions l.row l.col).takeWhile fun d =>
        (g.resolve (l.step d (k + 1 : Nat))).isSome).filterMap fun d =>
          g.resolve (l.step d (k + 1 : Nat)) :=
  congrArg (List.flatMap · _) (funext fun k => layerLocations_truncated n g l (k + 1))

/-- Without truncation all steps that stay on the grid are listed. -/
theorem neighborLocations_whole (n : NeighborPolicy) (g : Grid) (l : Location) :
    n.whole.neighborLocations g l = (List.range n.rounds).flatMap fun k =>
      (n.topology.directions l.row l.col).filterMap fun d => g.resolve (l.step d (k + 1 : Nat)) :=
  congrArg (List.flatMap · _) (funext fun k => layerLocations_whole n g l (k + 1))

/-- Under truncation the neighbors are a part of all neighbors. -/
theorem neighborLocations_sublist (n : NeighborPolicy) (g : Grid) (l : Location) :
    (n.truncated.neighborLocations g l).Sublist (n.whole.neighborLocations g l) :=
  List.Sublist.flatMap_right _ fun k _ => layerLocations_sublist n g l (k + 1)

/-- Whoever finds all neighbors finds them under truncation. -/
theorem allFit_numbers_truncated (h : AllFit (n.whole.numbers g l)) :
    AllFit (n.truncated.numbers g l) := by
  obtain ⟨hdirections, hsteps⟩ := allFit_numbers_iff.mp h
  refine allFit_numbers_iff.mpr ⟨hdirections, fun k hk number hnumber => hsteps k hk number ?_⟩
  rw [stepNumbers_of_whole rfl, List.mem_flatMap]
  exact exists_mem_probeNumbers hnumber

/-- Under truncation the neighbors that are found are listed layer by layer, in each one up to the
first step that leaves the grid; this is the longest prefix of the steps all of which stay on the
grid. Otherwise all steps that stay on the grid are listed, layer by layer and step by step.
Whoever finds all neighbors finds them under truncation too, and the truncated list is a part of
the whole one. It is the same list just when in no layer a step stays on the grid after one that
leaves it. This is so on a torus, and with a fixed edge for locations that are away from it by as
many layers as there are, times the most that a step goes. On every grid with at most `2 ^ 30` rows
and columns, fewer between mirrors, all neighbors are found in up to `2 ^ 29` layers. -/
theorem truncation_ends_layers (n : NeighborPolicy) (hl : g.inBounds l = true) :
    (g.Moderate → n.layers ≤ 2 ^ 29 → ∃ whole, n.whole.neighborLocations? g l = some whole) ∧
    (∀ truncated, n.truncated.neighborLocations? g l = some truncated →
      ∃ run : Nat → List (Int × Int),
        (∀ layer : Nat, LeadingRun (fun d => (g.resolve (l.step d layer)).isSome = true)
          (n.topology.directions l.row l.col) (run layer)) ∧
        truncated = (List.range n.rounds).flatMap fun k =>
          (run (k + 1)).filterMap fun d => g.resolve (l.step d (k + 1 : Nat))) ∧
    ∀ whole, n.whole.neighborLocations? g l = some whole →
      (whole = (List.range n.rounds).flatMap fun k =>
        (n.topology.directions l.row l.col).filterMap fun d =>
          g.resolve (l.step d (k + 1 : Nat))) ∧
      ∃ truncated, n.truncated.neighborLocations? g l = some truncated ∧
        truncated.Sublist whole ∧
        (truncated = whole ↔ n.Unbroken g l) ∧
        (g.edge = .toroidal → truncated = whole) ∧
        (g.edge = .fixed → g.Inland l (n.layers * n.topology.reach l.row l.col) →
          truncated = whole) := by
  refine ⟨fun hg hlayers => exists_neighborLocations? hg hl hlayers, ?_, ?_⟩
  · intro truncated htruncated
    obtain rfl := (neighborLocations?_eq_some_iff.mp htruncated).2
    exact ⟨fun layer => (n.topology.directions l.row l.col).takeWhile fun d =>
      (g.resolve (l.step d layer)).isSome, fun layer => leadingRun_takeWhile _ _,
      neighborLocations_truncated n g l⟩
  · intro whole hwhole
    obtain ⟨hfit, rfl⟩ := neighborLocations?_eq_some_iff.mp hwhole
    have hsame := neighborLocations_truncated_eq_iff n g l
    refine ⟨neighborLocations_whole n g l, _,
      neighborLocations?_eq_some_iff.mpr ⟨allFit_numbers_truncated hfit, rfl⟩,
      neighborLocations_sublist n g l, hsame, ?_, ?_⟩
    · exact fun hedge => hsame.mpr (unbroken_of_toroidal hedge hl)
    · exact fun hedge hinland => hsame.mpr (unbroken_of_inland hedge hinland)

/-- Five rows and columns with a fixed edge. -/
def court : Grid := .empty 5 5 .fixed

/-- Five rows and columns around a torus. -/
def ring : Grid := .empty 5 5 .toroidal

/-- Squares with their corners and two layers of neighbors. -/
def twoRings : NeighborPolicy := ⟨.square8, 2, true⟩

/-- The second layer around the middle of the court reaches the edge and stays whole, and on the
torus both layers around a corner do. -/
theorem court_truncation_ends_layers :
    court.Inland ⟨2, 2⟩ (2 * Topology.square8.reach 2 2) ∧
    (∃ ls, twoRings.truncated.neighborLocations? court ⟨2, 2⟩ = some ls ∧
      twoRings.whole.neighborLocations? court ⟨2, 2⟩ = some ls ∧ ls.length = 16) ∧
    ∃ ls, twoRings.truncated.neighborLocations? ring ⟨0, 0⟩ = some ls ∧
      twoRings.whole.neighborLocations? ring ⟨0, 0⟩ = some ls ∧ ls.length = 16 := by
  have hroom : court.Inland ⟨2, 2⟩ (2 * Topology.square8.reach 2 2) := by
    decide +kernel
  have hcourt : court.Moderate := ⟨by decide, by decide, nofun⟩
  have hring : ring.Moderate := ⟨by decide, by decide, nofun⟩
  obtain ⟨hfound, -, hmiddle⟩ := truncation_ends_layers (g := court) (l := ⟨2, 2⟩) twoRings
    (by decide +kernel)
  obtain ⟨hfound', -, hcorner⟩ := truncation_ends_layers (g := ring) (l := ⟨0, 0⟩) twoRings
    (by decide +kernel)
  obtain ⟨ls, hls⟩ := hfound hcourt (by decide)
  obtain ⟨-, _, htruncated, -, -, -, hinland⟩ := hmiddle ls hls
  obtain ⟨ls', hls'⟩ := hfound' hring (by decide)
  obtain ⟨-, _, htruncated', -, -, htorus, -⟩ := hcorner ls' hls'
  obtain rfl := hinland rfl hroom
  obtain rfl := htorus rfl
  refine ⟨hroom, ⟨_, htruncated, hls, ?_⟩, _, htruncated', hls', ?_⟩
  · rw [← (neighborLocations?_eq_some_iff.mp hls).2]
    decide +kernel
  · rw [← (neighborLocations?_eq_some_iff.mp hls').2]
    decide +kernel

/-- Around the long ring neither all neighbors of the last position are found, nor those under
truncation. -/
theorem longRing_not_listed :
    longRing.edge = .toroidal ∧ longRing.inBounds ⟨1073741825, 0⟩ = true ∧
    (NeighborPolicy.whole ⟨.square4, 1, false⟩).neighborLocations? longRing ⟨1073741825, 0⟩ = none ∧
    (NeighborPolicy.truncated ⟨.square4, 1, false⟩).neighborLocations? longRing ⟨1073741825, 0⟩ =
      none := by
  decide +kernel

/-- In the last corner of the court each layer ends at its third step. -/
example : twoRings.truncated.neighborLocations court ⟨4, 4⟩ = [⟨3, 3⟩, ⟨3, 4⟩, ⟨2, 2⟩, ⟨2, 4⟩] ∧
    (twoRings.whole.neighborLocations court ⟨4, 4⟩).length = 6 := by
  decide +kernel

end NeighborPolicy

end CellularAutomata
