import CellularAutomata.Proofs.Grid.Neighborhoods
import CellularAutomata.Proofs.Grid.Range
import CellularAutomata.Proofs.Grid.Shifts
import Mathlib.Algebra.Group.Prod
import Mathlib.Algebra.Ring.Parity
import Mathlib.Data.List.Perm.Subperm
import Mathlib.Tactic.Ring

/-!
# Symmetric neighborhoods

If a position is a neighbor of another one, then this one is a neighbor of it, as long as layers
are not truncated. Every step has an opposite one. Among hexagons and triangles the opposite step
is one of those of the other end, because the steps depend only on the parity of rows and columns;
going around a torus must not change it. A mirror turns steps around in each coordinate on its own:
what leads back is the step itself where it has been reflected, and the opposite one elsewhere.
-/

namespace CellularAutomata

namespace Topology

/-- What the steps depend on does not change along a torus with so many rows and columns: the
parity of the columns among hexagons, and that of the rows and columns among triangles. -/
def Fits (t : Topology) (rows cols : Int) : Prop :=
  (t = .hex → 2 ∣ cols) ∧ (t = .triangle → 2 ∣ rows ∧ 2 ∣ cols)

instance (t : Topology) (rows cols : Int) : Decidable (t.Fits rows cols) :=
  inferInstanceAs (Decidable (_ ∧ _))

/-- The opposite of a step of a square, by a side or a corner, is a step of the square. -/
theorem neg_mem_squareSteps :
    (∀ d ∈ sideSteps, -d ∈ sideSteps) ∧ ∀ d ∈ cornerSteps, -d ∈ cornerSteps := by
  decide

/-- The opposite of a step of a hexagon is a step of the hexagon it leads to, which is in a column
of the same parity just when the step goes an even number of columns. -/
theorem neg_mem_columnSteps :
    (∀ d ∈ evenColumnSteps, -d ∈ if d.2 % 2 = 0 then evenColumnSteps else oddColumnSteps) ∧
    ∀ d ∈ oddColumnSteps, -d ∈ if d.2 % 2 = 0 then oddColumnSteps else evenColumnSteps := by
  decide

/-- The opposite of a step of a triangle is a step of the triangle it leads to, which points the
same way just when the step goes an even number of rows and columns in all. -/
theorem neg_mem_triangleSteps :
    (∀ d ∈ upwardSteps, -d ∈ if (d.1 + d.2) % 2 = 0 then upwardSteps else downwardSteps) ∧
    ∀ d ∈ downwardSteps, -d ∈ if (d.1 + d.2) % 2 = 0 then downwardSteps else upwardSteps := by
  decide

/-- An odd multiple has the parity of what is multiplied. -/
theorem mul_emod_two {k : Int} (hk : Odd k) (a : Int) : (a * k) % 2 = a % 2 := by
  obtain ⟨j, rfl⟩ := hk
  have hsum : a * (2 * j + 1) = a + 2 * (a * j) := by ring
  omega

/-- The opposite of a step is one of the steps from its end, even if it is taken an odd number of
times; among squares the number does not matter. -/
theorem neg_mem_directions {t : Topology} {row col : Int} {d : Int × Int}
    (hd : d ∈ t.directions row col) {k : Int} (hk : t = .square4 ∨ t = .square8 ∨ Odd k) :
    -d ∈ t.directions (row + d.1 * k) (col + d.2 * k) := by
  cases t with
  | square4 => exact neg_mem_squareSteps.1 d hd
  | square8 => exact neg_mem_squareSteps.2 d hd
  | hex =>
    have hodd : Odd k := by simpa using hk
    have hparity := mul_emod_two hodd d.2
    unfold directions at hd ⊢
    dsimp only at hd ⊢
    split at hd
    next heven =>
      have hback := neg_mem_columnSteps.1 d hd
      have hsame : (col + d.2 * k) % 2 = 0 ↔ d.2 % 2 = 0 := by omega
      simpa only [hsame] using hback
    next hodd =>
      have hback := neg_mem_columnSteps.2 d hd
      have hother : (col + d.2 * k) % 2 = 0 ↔ ¬ d.2 % 2 = 0 := by omega
      simpa only [hother, ite_not] using hback
  | triangle =>
    have hodd : Odd k := by simpa using hk
    have hrow := mul_emod_two hodd d.1
    have hcol := mul_emod_two hodd d.2
    unfold directions at hd ⊢
    dsimp only at hd ⊢
    split at hd
    next heven =>
      have hback := neg_mem_triangleSteps.1 d hd
      have hsame : (row + d.1 * k + (col + d.2 * k)) % 2 = 0 ↔ (d.1 + d.2) % 2 = 0 := by omega
      simpa only [hsame] using hback
    next hodd =>
      have hback := neg_mem_triangleSteps.2 d hd
      have hother : (row + d.1 * k + (col + d.2 * k)) % 2 = 0 ↔ ¬ (d.1 + d.2) % 2 = 0 := by omega
      simpa only [hother, ite_not] using hback

end Topology

namespace Grid

variable {g : Grid} {l q : Location}

/-- A step that is taken and then taken in the opposite direction leads back. -/
theorem step_neg_step (l : Location) (d : Int × Int) (k : Int) :
    (l.step d k).step (-d) k = l := by
  cases l
  simp only [Location.step, Location.offset, Prod.fst_neg, Prod.snd_neg, Location.mk.injEq]
  constructor <;> ring

/-- Around a torus a position is where it is. -/
theorem shift_zero (hl : g.inBounds l = true) : g.shift 0 0 l = l := by
  rw [inBounds_iff] at hl
  cases l
  simp only [shift, Int.add_zero, Location.mk.injEq]
  exact ⟨Int.emod_eq_of_lt hl.1.1 hl.1.2, Int.emod_eq_of_lt hl.2.1 hl.2.2⟩

/-- Unless the edge mirrors, the opposite step leads back from where a step is looked up. -/
theorem resolve_step_neg (hedge : g.edge ≠ .mirror) (hl : g.inBounds l = true) {d : Int × Int}
    {k : Int} (h : g.resolve (l.step d k) = some q) : g.resolve (q.step (-d) k) = some l := by
  cases he : g.edge with
  | fixed =>
    rw [resolve_fixed he] at h
    split at h
    next =>
      obtain rfl := Option.some.inj h
      rw [step_neg_step, resolve_fixed he, if_pos hl]
    next => cases h
  | toroidal =>
    have hsides := inBounds_iff.mp hl
    have hrows : 0 < g.rows := by omega
    have hcols : 0 < g.cols := by omega
    rw [resolve_toroidal he hrows hcols] at h
    obtain rfl := Option.some.inj h
    rw [resolve_step_shift he hrows hcols, step_neg_step, resolve_toroidal he hrows hcols,
      Option.map_some, shift_zero hl, shift_zero hl]
  | mirror => exact absurd he hedge

/-- Unless the edge mirrors, a location is looked up where the steps are the same. -/
theorem directions_resolve {t : Topology} (hedge : g.edge ≠ .mirror)
    (hfits : g.edge = .toroidal → t.Fits g.rows g.cols) (hl : 0 < g.rows ∧ 0 < g.cols)
    (h : g.resolve l = some q) : t.directions q.row q.col = t.directions l.row l.col := by
  cases he : g.edge with
  | fixed =>
    rw [resolve_fixed he] at h
    split at h
    next => rw [Option.some.inj h]
    next => cases h
  | toroidal =>
    rw [resolve_toroidal he hl.1 hl.2] at h
    obtain rfl := Option.some.inj h
    obtain ⟨hhex, htriangle⟩ := hfits he
    simp only [shift, Int.add_zero]
    cases t with
    | square4 => rfl
    | square8 => rfl
    | hex =>
      have hcol := Int.emod_emod_of_dvd l.col (hhex rfl)
      simp only [Topology.directions, hcol]
    | triangle =>
      have hrow := Int.emod_emod_of_dvd l.row (htriangle rfl).1
      have hcol := Int.emod_emod_of_dvd l.col (htriangle rfl).2
      have hsum : (l.row % g.rows + l.col % g.cols) % 2 = (l.row + l.col) % 2 := by omega
      simp only [Topology.directions, hsum]
  | mirror => exact absurd he hedge

/-- A coordinate that has been reflected is led back to by the same step, and one that has not
been by the opposite one. -/
theorem exists_reflect_eq {x size e k : Int} (hx : 0 ≤ x ∧ x < size) (hk : 0 ≤ k)
    (he : e = -1 ∨ e = 0 ∨ e = 1)
    (hin : 0 ≤ Edge.reflect (x + e * k) size ∧ Edge.reflect (x + e * k) size < size) :
    ∃ e', (e' = e ∨ e' = -e) ∧ Edge.reflect (Edge.reflect (x + e * k) size + e' * k) size = x := by
  by_cases hinside : 0 ≤ x + e * k ∧ x + e * k < size
  · refine ⟨-e, Or.inr rfl, ?_⟩
    have hback : x + e * k + -e * k = x := by ring
    rw [Edge.reflect_of_inside hinside, hback, Edge.reflect_of_inside hx]
  · refine ⟨e, Or.inl rfl, ?_⟩
    unfold Edge.reflect at hin ⊢
    rcases he with rfl | rfl | rfl <;> split_ifs at hin ⊢ <;> omega

end Grid

namespace NeighborPolicy

variable {n : NeighborPolicy} {g : Grid} {p q : Location}

/-- A layer lists a position as often as its steps are looked up there. -/
theorem count_layerLocations (hwhole : n.truncates = false) (p q : Location) (layer : Nat) :
    (n.layerLocations g p layer).count q = ((n.topology.directions p.row p.col).filter
      fun d => g.resolve (p.step d layer) = some q).length := by
  rw [layerLocations, hwhole]
  simp only [Bool.false_eq_true, if_false, probes]
  rw [List.count_filterMap, List.countP_map, List.countP_eq_length_filter]
  simp only [Function.comp_def, id, beq_eq_decide]

/-- The neighbors are the positions where the steps of the layers are looked up. -/
theorem mem_neighborLocations_iff (hwhole : n.truncates = false) :
    q ∈ n.neighborLocations g p ↔ ∃ k < n.rounds, ∃ d ∈ n.topology.directions p.row p.col,
      g.resolve (p.step d (k + 1 : Nat)) = some q := by
  rw [neighborLocations, List.mem_flatMap]
  refine exists_congr fun k => and_congr List.mem_range ?_
  rw [layerLocations, hwhole, probes]
  simp [List.mem_filterMap]

/-- The opposites of the steps that lead from a position to another one lead back. -/
theorem neg_mem_steps (hedge : g.edge ≠ .mirror)
    (hfits : g.edge = .toroidal → n.topology.Fits g.rows g.cols) (hp : g.inBounds p = true)
    {layer : Nat} (hlayer : n.Square ∨ Odd layer) {d : Int × Int}
    (hd : d ∈ n.topology.directions p.row p.col)
    (h : g.resolve (p.step d layer) = some q) :
    -d ∈ n.topology.directions q.row q.col ∧ g.resolve (q.step (-d) layer) = some p := by
  have hsides := Grid.inBounds_iff.mp hp
  have hodd : n.topology = .square4 ∨ n.topology = .square8 ∨ Odd (layer : Int) := by
    rw [← or_assoc, Int.odd_coe_nat]
    exact hlayer
  refine ⟨?_, Grid.resolve_step_neg hedge hp h⟩
  rw [Grid.directions_resolve hedge hfits ⟨by omega, by omega⟩ h]
  exact Topology.neg_mem_directions hd hodd

/-- The steps of a layer from a position to another one are not more than those back. -/
theorem count_layerLocations_le (hwhole : n.truncates = false) (hedge : g.edge ≠ .mirror)
    (hfits : g.edge = .toroidal → n.topology.Fits g.rows g.cols) (hp : g.inBounds p = true)
    {layer : Nat} (hlayer : n.Square ∨ Odd layer) (q : Location) :
    (n.layerLocations g p layer).count q ≤ (n.layerLocations g q layer).count p := by
  rw [count_layerLocations hwhole, count_layerLocations hwhole,
    ← List.length_map (f := fun d : Int × Int => -d)]
  -- Turning steps around is injective and takes the steps there to steps back.
  have hnodup := ((n.topology.nodup_directions p.row p.col).filter
    fun d => g.resolve (p.step d layer) = some q).map neg_injective
  refine (hnodup.subperm ?_).length_le
  intro back hback
  obtain ⟨d, hd, rfl⟩ := List.mem_map.mp hback
  obtain ⟨hd, hlead⟩ := List.mem_filter.mp hd
  obtain ⟨hmem, hreturn⟩ := neg_mem_steps hedge hfits hp hlayer hd (of_decide_eq_true hlead)
  exact List.mem_filter.mpr ⟨hmem, decide_eq_true hreturn⟩

/-- Two positions list each other equally often, unless the edge mirrors. -/
theorem count_neighborLocations_comm (hwhole : n.truncates = false) (hedge : g.edge ≠ .mirror)
    (hfits : g.edge = .toroidal → n.topology.Fits g.rows g.cols) (hp : g.inBounds p = true)
    (hq : g.inBounds q = true) (hlayers : n.Square ∨ ∀ k < n.rounds, Odd (k + 1)) :
    (n.neighborLocations g p).count q = (n.neighborLocations g q).count p := by
  rw [neighborLocations, neighborLocations, List.count_flatMap, List.count_flatMap]
  refine congrArg List.sum (List.map_congr_left fun k hk => ?_)
  have hlayer : n.Square ∨ Odd (k + 1) := hlayers.imp_right fun h => h k (List.mem_range.mp hk)
  exact Nat.le_antisymm (count_layerLocations_le hwhole hedge hfits hp hlayer q)
    (count_layerLocations_le hwhole hedge hfits hq hlayer p)

/-- The steps of squares fit along every torus. -/
theorem Square.fits (hn : n.Square) (rows cols : Int) : n.topology.Fits rows cols := by
  constructor <;> intro hother <;> rcases hn with hn | hn <;> rw [hn] at hother <;> cases hother

/-- The steps of squares lead to the squares that share a side, or to those with a corner too. -/
theorem Square.directions_mem (hn : n.Square) (l : Location) :
    n.topology.directions l.row l.col ∈ [Topology.sideSteps, Topology.cornerSteps] := by
  rcases hn with hn | hn <;> simp [hn, Topology.directions]

/-- The steps of squares go at most one row and one column. -/
theorem Square.step_cases (hn : n.Square) {d : Int × Int}
    (hd : d ∈ n.topology.directions p.row p.col) :
    (d.1 = -1 ∨ d.1 = 0 ∨ d.1 = 1) ∧ (d.2 = -1 ∨ d.2 = 0 ∨ d.2 = 1) := by
  have hall : ∀ steps ∈ [Topology.sideSteps, Topology.cornerSteps], ∀ d ∈ steps,
      (d.1 = -1 ∨ d.1 = 0 ∨ d.1 = 1) ∧ (d.2 = -1 ∨ d.2 = 0 ∨ d.2 = 1) := by
    decide
  exact hall _ (hn.directions_mem p) d hd

/-- A step of a square that is turned around in one coordinate or in both is a step of every
square. -/
theorem Square.mem_directions_of_turned (hn : n.Square) {d d' : Int × Int}
    (hd : d ∈ n.topology.directions p.row p.col) (hrow : d'.1 = d.1 ∨ d'.1 = -d.1)
    (hcol : d'.2 = d.2 ∨ d'.2 = -d.2) : d' ∈ n.topology.directions q.row q.col := by
  have hturned : ∀ steps ∈ [Topology.sideSteps, Topology.cornerSteps], ∀ d ∈ steps,
      d ∈ steps ∧ (d.1, -d.2) ∈ steps ∧ (-d.1, d.2) ∈ steps ∧ (-d.1, -d.2) ∈ steps := by
    decide
  obtain ⟨hsame, hcolumns, hrows, hboth⟩ := hturned _ (hn.directions_mem p) d hd
  rw [hn.directions p q]
  obtain ⟨row, col⟩ := d'
  rcases hrow with rfl | rfl <;> rcases hcol with rfl | rfl <;> assumption

/-- Where the edge mirrors, a square is a neighbor of each of its neighbors. -/
theorem mem_neighborLocations_of_mirror (hwhole : n.truncates = false) (hn : n.Square)
    (hedge : g.edge = .mirror) (hp : g.inBounds p = true) (hq : q ∈ n.neighborLocations g p) :
    p ∈ n.neighborLocations g q := by
  rw [mem_neighborLocations_iff hwhole] at hq ⊢
  obtain ⟨k, hk, d, hd, h⟩ := hq
  obtain ⟨hend, rfl⟩ := Grid.resolve_eq_some_iff.mp h
  have hinp := Grid.inBounds_iff.mp hp
  have hmirror := Grid.adjust_mirror hedge
  rw [hmirror] at hend ⊢
  have hin := Grid.inBounds_iff.mp hend
  obtain ⟨hrow, hcol⟩ := hn.step_cases hd
  obtain ⟨row, hturnedRow, hbackRow⟩ := Grid.exists_reflect_eq hinp.1 (by omega) hrow hin.1
  obtain ⟨col, hturnedCol, hbackCol⟩ := Grid.exists_reflect_eq hinp.2 (by omega) hcol hin.2
  have hback : g.adjust (Location.step ⟨Edge.reflect (p.step d (k + 1 : Nat)).row g.rows,
      Edge.reflect (p.step d (k + 1 : Nat)).col g.cols⟩ (row, col) (k + 1 : Nat)) = p := by
    rw [hmirror]
    exact congrArg₂ Location.mk hbackRow hbackCol
  refine ⟨k, hk, (row, col), hn.mem_directions_of_turned hd hturnedRow hturnedCol, ?_⟩
  rw [Grid.resolve, hback, if_pos hp]

/-- Without truncation a square is a neighbor of each of its neighbors. -/
theorem Square.mem_neighborLocations_comm (hn : n.Square) (hwhole : n.truncates = false)
    (hp : g.inBounds p = true) (hq : g.inBounds q = true) :
    q ∈ n.neighborLocations g p ↔ p ∈ n.neighborLocations g q := by
  by_cases hedge : g.edge = .mirror
  · exact ⟨mem_neighborLocations_of_mirror hwhole hn hedge hp,
      mem_neighborLocations_of_mirror hwhole hn hedge hq⟩
  · have hcount := count_neighborLocations_comm hwhole hedge (fun _ => hn.fits g.rows g.cols) hp hq
      (Or.inl hn)
    rw [← List.count_pos_iff, hcount, List.count_pos_iff]

/-- Without truncation neighbors are neighbors of each other, if both positions have their neighbors
found. They are found on every grid with at most `2 ^ 30` rows and columns, fewer between mirrors,
and with at most `2 ^ 29` layers. Among squares neighbors are neighbors of each other for every
number of layers and every edge, and unless the edge mirrors they list each other equally often.
Among hexagons and triangles they are, and they list each other equally often, with one layer, a
fixed edge or a torus along which the steps fit. -/
theorem neighbors_of_each_other (hwhole : n.truncates = false) (hp : g.inBounds p = true)
    (hq : g.inBounds q = true) :
    (g.Moderate → n.layers ≤ 2 ^ 29 →
      ∃ ps qs, n.neighborLocations? g p = some ps ∧ n.neighborLocations? g q = some qs) ∧
    ∀ ps qs, n.neighborLocations? g p = some ps → n.neighborLocations? g q = some qs →
      (n.Square → (q ∈ ps ↔ p ∈ qs) ∧ (g.edge ≠ .mirror → ps.count q = qs.count p)) ∧
      (n.layers = 1 → g.edge = .fixed ∨ g.edge = .toroidal ∧ n.topology.Fits g.rows g.cols →
        (q ∈ ps ↔ p ∈ qs) ∧ ps.count q = qs.count p) := by
  constructor
  · intro hg hlayers
    obtain ⟨ps, hps⟩ := exists_neighborLocations? hg hp hlayers
    obtain ⟨qs, hqs⟩ := exists_neighborLocations? hg hq hlayers
    exact ⟨ps, qs, hps, hqs⟩
  intro ps qs hps hqs
  obtain rfl := (neighborLocations?_eq_some_iff.mp hps).2
  obtain rfl := (neighborLocations?_eq_some_iff.mp hqs).2
  constructor
  · intro hn
    refine ⟨hn.mem_neighborLocations_comm hwhole hp hq, fun hedge => ?_⟩
    exact count_neighborLocations_comm hwhole hedge (fun _ => hn.fits g.rows g.cols) hp hq
      (Or.inl hn)
  · intro hone hshape
    have hrounds : n.rounds = 1 := (rounds_of_lt (hone ▸ by decide)).trans hone
    have hodd : ∀ k < n.rounds, Odd (k + 1) := by
      intro k hk
      obtain rfl : k = 0 := by omega
      exact odd_one
    have hedge : g.edge ≠ .mirror := by
      rcases hshape with hfixed | ⟨htorus, -⟩
      · rw [hfixed]
        exact nofun
      · rw [htorus]
        exact nofun
    have hfits : g.edge = .toroidal → n.topology.Fits g.rows g.cols := by
      intro htorus
      rcases hshape with hfixed | ⟨-, hfits⟩
      · rw [hfixed] at htorus
        cases htorus
      · exact hfits
    have hcount := count_neighborLocations_comm hwhole hedge hfits hp hq (Or.inr hodd)
    refine ⟨?_, hcount⟩
    rw [← List.count_pos_iff, hcount, List.count_pos_iff]

/-- Three rows and columns between mirrors. -/
def mirrors : Grid := .empty 3 3 .mirror

/-- Two rows of triangles around a torus of four columns. -/
def belt : Grid := .empty 2 4 .toroidal

/-- Between mirrors the corner lists the middle, and the middle lists the corner. Around the belt
triangles two columns apart list each other twice. -/
theorem mirrors_neighbors_of_each_other :
    (∃ ps qs, NeighborPolicy.neighborLocations? ⟨.square8, 2, false⟩ mirrors ⟨0, 0⟩ = some ps ∧
      NeighborPolicy.neighborLocations? ⟨.square8, 2, false⟩ mirrors ⟨1, 1⟩ = some qs ∧
      ⟨1, 1⟩ ∈ ps ∧ ⟨0, 0⟩ ∈ qs) ∧
    Topology.triangle.Fits belt.rows belt.cols ∧
    ∃ ps qs, NeighborPolicy.neighborLocations? ⟨.triangle, 1, false⟩ belt ⟨0, 0⟩ = some ps ∧
      NeighborPolicy.neighborLocations? ⟨.triangle, 1, false⟩ belt ⟨0, 2⟩ = some qs ∧
      ps.count ⟨0, 2⟩ = 2 ∧ qs.count ⟨0, 0⟩ = 2 := by
  have hmirrors : mirrors.Moderate := ⟨by decide, by decide, fun _ => by decide⟩
  have hbelt : belt.Moderate := ⟨by decide, by decide, nofun⟩
  have hfits : Topology.triangle.Fits belt.rows belt.cols := by
    decide +kernel
  obtain ⟨hfound, hsquares⟩ := neighbors_of_each_other (n := ⟨.square8, 2, false⟩) (g := mirrors)
    (p := ⟨0, 0⟩) (q := ⟨1, 1⟩) rfl (by decide +kernel) (by decide +kernel)
  obtain ⟨hfound', htriangles⟩ := neighbors_of_each_other (n := ⟨.triangle, 1, false⟩) (g := belt)
    (p := ⟨0, 0⟩) (q := ⟨0, 2⟩) rfl (by decide +kernel) (by decide +kernel)
  obtain ⟨ps, qs, hps, hqs⟩ := hfound hmirrors (by decide)
  obtain ⟨ps', qs', hps', hqs'⟩ := hfound' hbelt (by decide)
  have hmiddle : ⟨1, 1⟩ ∈ ps := by
    rw [← (neighborLocations?_eq_some_iff.mp hps).2]
    decide +kernel
  have htwice : ps'.count ⟨0, 2⟩ = 2 := by
    rw [← (neighborLocations?_eq_some_iff.mp hps').2]
    decide +kernel
  have hcount := ((htriangles ps' qs' hps' hqs').2 rfl (Or.inr ⟨rfl, hfits⟩)).2
  exact ⟨⟨ps, qs, hps, hqs, hmiddle, ((hsquares ps qs hps hqs).1 (Or.inr rfl)).1.mp hmiddle⟩, hfits,
    ps', qs', hps', hqs', htwice, hcount.symm.trans htwice⟩

/-- Around the long ring the first position lists the last one as a neighbor, but the neighbors of
the last one are not found. -/
theorem longRing_listed_one_way :
    longRing.inBounds ⟨0, 0⟩ = true ∧ longRing.inBounds ⟨1073741825, 0⟩ = true ∧
    NeighborPolicy.neighborLocations? ⟨.square4, 1, false⟩ longRing ⟨0, 0⟩ =
      some [⟨1073741825, 0⟩, ⟨0, 0⟩, ⟨0, 0⟩, ⟨1, 0⟩] ∧
    NeighborPolicy.neighborLocations? ⟨.square4, 1, false⟩ longRing ⟨1073741825, 0⟩ = none := by
  decide +kernel

end NeighborPolicy

end CellularAutomata
