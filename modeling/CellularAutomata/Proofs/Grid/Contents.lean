import CellularAutomata.Grid
import Mathlib.Data.Set.Card

/-!
# Contents of a grid

The map of a grid says nothing about where its cells believe they are. A grid that was
built cell by cell holds every cell at its own location and none beyond the edge, and
then the list of its cells, the counts by state and the effect of updates can all be read
off what is seen at each location.
-/

namespace CellularAutomata

/-- A location is before another one if it is in an earlier row, or further left in the same
row. -/
theorem Location.compare_eq_lt_iff {a b : Location} :
    compare a b = .lt ↔ a.row < b.row ∨ a.row = b.row ∧ a.col < b.col := by
  rw [compare_eq_compareLex, compareLex, Ordering.then_eq_lt]
  simp only [compareOn, Std.compare_eq_lt, Std.LawfulEqCmp.compare_eq_iff_eq]

namespace Grid

/-- Every cell is stored at its own location, which is on the grid. -/
structure WellFormed (g : Grid) : Prop where
  /-- A cell knows where it is stored. -/
  location : ∀ {l : Location} {c : Cell}, g.cellAt l = some c → c.location = l
  /-- No cell is stored off the grid. -/
  inBounds : ∀ {l : Location} {c : Cell}, g.cellAt l = some c → g.inBounds l = true

/-- A grid without cells is well-formed. -/
theorem wellFormed_empty (rows cols : Int) (edge : Edge) : (empty rows cols edge).WellFormed := by
  constructor <;> intro l c h <;> simp at h

/-- Adding a cell changes neither the dimensions nor the edge. -/
theorem add_dimensions (g : Grid) (c : Cell) :
    (g.add c).rows = g.rows ∧ (g.add c).cols = g.cols ∧ (g.add c).edge = g.edge := by
  unfold add add?
  split <;> simp

/-- Updates change neither the dimensions nor the edge. -/
theorem apply_dimensions (g : Grid) (us : List CellUpdate) :
    (g.apply us).rows = g.rows ∧ (g.apply us).cols = g.cols ∧ (g.apply us).edge = g.edge := by
  induction us generalizing g with
  | nil => exact ⟨rfl, rfl, rfl⟩
  | cons u us ih => exact ih (g.update u.next)

/-- A grid is determined by its dimensions, its edge and what is seen at each location. -/
theorem ext_cellAt {g g' : Grid} (hrows : g.rows = g'.rows) (hcols : g.cols = g'.cols)
    (hedge : g.edge = g'.edge) (h : ∀ l, g.cellAt l = g'.cellAt l) : g = g' := by
  obtain ⟨rows, cols, edge, cells⟩ := g
  obtain ⟨rows', cols', edge', cells'⟩ := g'
  have hcells : cells = cells' := Std.ExtTreeMap.ext_getElem? h
  subst hrows hcols hedge hcells
  rfl

/-- A cell and its state are seen at the same location. -/
theorem stateAt_of_cellAt {g : Grid} {l : Location} {c : Cell} (h : g.cellAt l = some c) :
    g.stateAt l = some c.state := by
  rw [stateAt, h]
  rfl

/-- Being on the grid depends on the dimensions alone. -/
theorem inBounds_congr {g g' : Grid} (hr : g'.rows = g.rows) (hc : g'.cols = g.cols)
    (l : Location) : g'.inBounds l = g.inBounds l := by
  simp only [Grid.inBounds, hr, hc]

/-- Where a location is looked up depends on the dimensions and the edge alone. -/
theorem resolve_congr {g g' : Grid} (hr : g'.rows = g.rows) (hc : g'.cols = g.cols)
    (he : g'.edge = g.edge) (l : Location) : g'.resolve l = g.resolve l := by
  have hadjust : g'.adjust l = g.adjust l := by rw [adjust, adjust, hr, hc, he]
  rw [resolve, resolve, hadjust, inBounds_congr hr hc]

/-- A location is resolved to the position at which it is looked up, if that is on the grid. -/
theorem resolve_eq_some_iff {g : Grid} {l position : Location} :
    g.resolve l = some position ↔ g.inBounds position = true ∧ g.adjust l = position := by
  rw [resolve, Option.ite_none_right_eq_some, Option.some.injEq]
  constructor <;> rintro ⟨hin, rfl⟩ <;> exact ⟨hin, rfl⟩

/-- A location that is resolved is on the grid. -/
theorem inBounds_of_resolve {g : Grid} {l position : Location} (h : g.resolve l = some position) :
    g.inBounds position = true :=
  (resolve_eq_some_iff.mp h).1

/-- On a grid with a fixed edge a location is looked up where it is. -/
theorem resolve_fixed {g : Grid} (h : g.edge = .fixed) (l : Location) :
    g.resolve l = if g.inBounds l then some l else none := by
  rw [resolve, adjust, h]
  rfl

/-- On a grid that mirrors, both coordinates of a location are reflected. -/
theorem adjust_mirror {g : Grid} (h : g.edge = .mirror) (l : Location) :
    g.adjust l = ⟨Edge.reflect l.row g.rows, Edge.reflect l.col g.cols⟩ := by
  rw [adjust, h]
  rfl

/-- A grid stays well-formed when a cell is added. -/
theorem WellFormed.add {g : Grid} (h : g.WellFormed) (c : Cell) : (g.add c).WellFormed := by
  have hd := add_dimensions g c
  constructor <;> intro l c' hc
  · rw [cellAt_add] at hc
    split at hc
    next hn =>
      obtain rfl := Option.some.inj hc
      exact hn.2.2
    next => exact h.location hc
  · rw [inBounds_congr hd.1 hd.2.1]
    rw [cellAt_add] at hc
    split at hc
    next hn => exact hn.2.2 ▸ hn.1
    next => exact h.inBounds hc

/-- A grid stays well-formed when a cell is replaced. -/
theorem WellFormed.update {g : Grid} (h : g.WellFormed) (c : Cell) : (g.update c).WellFormed := by
  constructor <;> intro l c' hc <;> rw [cellAt_update] at hc
  · split at hc
    next hl =>
      obtain ⟨_, _, rfl⟩ := Option.map_eq_some_iff.mp hc
      exact hl
    next => exact h.location hc
  · change g.inBounds l = true
    split at hc
    next hl =>
      obtain ⟨_, hold, _⟩ := Option.map_eq_some_iff.mp hc
      exact h.inBounds hold
    next => exact h.inBounds hc

/-- A grid stays well-formed under any updates. -/
theorem WellFormed.apply {g : Grid} (h : g.WellFormed) (us : List CellUpdate) :
    (g.apply us).WellFormed := by
  induction us generalizing g with
  | nil => exact h
  | cons u us ih => rw [apply_cons]; exact ih (h.update u.next)

/-- The last of several updates that puts a cell at a location, if there is one. -/
def finalUpdate? (us : List CellUpdate) (l : Location) : Option CellUpdate :=
  (us.filter fun u => u.next.location = l).getLast?

/-- There is no last update of a location that is not updated. -/
theorem finalUpdate?_eq_none {us : List CellUpdate} {l : Location}
    (h : ∀ u ∈ us, u.next.location ≠ l) : finalUpdate? us l = none := by
  rw [finalUpdate?, List.getLast?_eq_none_iff, List.filter_eq_nil_iff]
  intro u hu
  simpa using h u hu

/-- The last update of a location is one of its updates. -/
theorem exists_finalUpdate? {us : List CellUpdate} {u : CellUpdate} (hu : u ∈ us) :
    ∃ v ∈ us, v.next.location = u.next.location ∧
      finalUpdate? us u.next.location = some v := by
  have hmem : u ∈ us.filter fun v => v.next.location = u.next.location :=
    List.mem_filter.mpr ⟨hu, by simp⟩
  obtain ⟨v, hv⟩ := Option.isSome_iff_exists.mp
    (List.getLast?_isSome.mpr (List.ne_nil_of_mem hmem))
  obtain ⟨hmem, hlocation⟩ := List.mem_filter.mp (List.mem_of_getLast? hv)
  exact ⟨v, hmem, by simpa using hlocation, hv⟩

/-- A populated location holds what the last of its updates has put there. -/
theorem cellAt_apply (g : Grid) (us : List CellUpdate) (l : Location) :
    (g.apply us).cellAt l =
      (g.cellAt l).map fun old => ((finalUpdate? us l).map CellUpdate.next).getD old := by
  induction us generalizing g with
  | nil => exact Option.map_id_apply.symm
  | cons u us ih =>
    rw [apply_cons, ih, cellAt_update]
    by_cases hl : u.next.location = l
    · have hlast : finalUpdate? (u :: us) l = some ((finalUpdate? us l).getD u) := by
        rw [finalUpdate?, List.filter_cons_of_pos (by simpa using hl), List.getLast?_cons]
        rfl
      rw [if_pos hl, hlast, Option.map_map]
      cases finalUpdate? us l <;> rfl
    · have hlast : finalUpdate? (u :: us) l = finalUpdate? us l := by
        rw [finalUpdate?, List.filter_cons_of_neg (by simpa using hl)]
        rfl
      rw [if_neg hl, hlast]

/-- Updates of other locations leave a location alone. -/
theorem cellAt_apply_of_forall_ne {g : Grid} {us : List CellUpdate} {l : Location}
    (h : ∀ u ∈ us, u.next.location ≠ l) : (g.apply us).cellAt l = g.cellAt l := by
  rw [cellAt_apply, finalUpdate?_eq_none h]
  exact Option.map_id_apply

/-- Where all updates of a location agree, they decide the cell at a populated one. -/
theorem cellAt_apply_of_mem {g : Grid} {us : List CellUpdate} {u : CellUpdate} (hu : u ∈ us)
    (hsame : ∀ v ∈ us, v.next.location = u.next.location → v.next = u.next) :
    (g.apply us).cellAt u.next.location = (g.cellAt u.next.location).map fun _ => u.next := by
  obtain ⟨v, hv, hlocation, hlast⟩ := exists_finalUpdate? hu
  rw [cellAt_apply, hlast, Option.map_some, hsame v hv hlocation]
  rfl

/-- The values of a map are the second components of its entries. -/
theorem values_eq_map_toList {β : Type} (m : Std.ExtTreeMap Location β) :
    m.values = m.toList.map Prod.snd := by
  obtain ⟨⟨m⟩⟩ := m
  induction m using Quot.ind with
  | mk m =>
    change m.inner.values = (Std.DTreeMap.Internal.Impl.Const.toList m.inner).map Prod.snd
    rw [Std.DTreeMap.Internal.Impl.values_eq_map_snd,
      Std.DTreeMap.Internal.Impl.Const.toList_eq_toListModel_map, List.map_map]
    rfl

/-- The values of a map are what it holds at some location. -/
theorem mem_values {β : Type} {m : Std.ExtTreeMap Location β} {x : β} :
    x ∈ m.values ↔ ∃ l : Location, m[l]? = some x := by
  simp only [values_eq_map_toList, List.mem_map, Prod.exists, exists_eq_right,
    Std.ExtTreeMap.mem_toList_iff_getElem?_eq_some]

/-- The listed cells are those that are seen somewhere. -/
theorem mem_cellList {g : Grid} {c : Cell} : c ∈ g.cellList ↔ ∃ l, g.cellAt l = some c :=
  mem_values

/-- In a well-formed grid the listed cells are those seen at their own locations. -/
theorem WellFormed.mem_cellList_iff {g : Grid} (h : g.WellFormed) {c : Cell} :
    c ∈ g.cellList ↔ g.cellAt c.location = some c := by
  rw [mem_cellList]
  constructor
  · rintro ⟨l, hl⟩
    rw [h.location hl]
    exact hl
  · intro hc
    exact ⟨c.location, hc⟩

/-- If each cell of a map is at its own location, then the cells are listed by location. -/
theorem map_location_values {m : Std.ExtTreeMap Location Cell}
    (h : ∀ (l : Location) (c : Cell), m[l]? = some c → c.location = l) :
    m.values.map Cell.location = m.keys := by
  rw [values_eq_map_toList, List.map_map, ← Std.ExtTreeMap.map_fst_toList_eq_keys]
  refine List.map_congr_left ?_
  intro entry hentry
  exact h entry.1 entry.2 (Std.ExtTreeMap.mem_toList_iff_getElem?_eq_some.mp hentry)

/-- A well-formed grid lists its cells by location. -/
theorem WellFormed.map_location_cellList {g : Grid} (h : g.WellFormed) :
    g.cellList.map Cell.location = g.locations :=
  map_location_values fun _ _ => h.location

/-- A well-formed grid lists its cells in strict row-major order. -/
theorem WellFormed.cellList_sorted {g : Grid} (h : g.WellFormed) :
    g.cellList.Pairwise fun a b => compare a.location b.location = .lt := by
  rw [← List.pairwise_map (f := Cell.location) (R := fun a b => compare a b = .lt),
    h.map_location_cellList]
  exact Std.ExtTreeMap.ordered_keys

/-- No location is listed twice in strict row-major order. -/
theorem nodup_of_sorted {ls : List Location} (h : ls.Pairwise fun a b => compare a b = .lt) :
    ls.Nodup := by
  refine h.imp ?_
  intro a b hab heq
  rw [heq] at hab
  exact absurd hab (by simp)

/-- No two listed cells of a well-formed grid are at one location. -/
theorem WellFormed.nodup_locations {g : Grid} (h : g.WellFormed) :
    (g.cellList.map Cell.location).Nodup := by
  rw [h.map_location_cellList]
  exact nodup_of_sorted Std.ExtTreeMap.ordered_keys

/-- The locations at which some cell is seen. -/
def populated (g : Grid) : Set Location := {l | (g.cellAt l).isSome = true}

/-- Where a cell is seen there is one. -/
theorem mem_populated {g : Grid} {l : Location} {c : Cell} (h : g.cellAt l = some c) :
    l ∈ g.populated :=
  Option.isSome_iff_exists.mpr ⟨c, h⟩

/-- The locations at which somebody is. -/
def occupied (g : Grid) : Set Location := {l | ∃ c, g.cellAt l = some c ∧ c.isEmpty = false}

/-- Counting listed cells is counting the locations where they are seen. -/
theorem WellFormed.countP_cellList {g : Grid} (h : g.WellFormed) (p : Cell → Bool) :
    g.cellList.countP p = {l | ∃ c, g.cellAt l = some c ∧ p c = true}.ncard := by
  have hset : {l | ∃ c, g.cellAt l = some c ∧ p c = true} =
      (((g.cellList.filter p).map Cell.location).toFinset : Set Location) := by
    ext l
    simp only [Set.mem_ofPred_eq, List.coe_toFinset, List.mem_map, List.mem_filter,
      h.mem_cellList_iff]
    constructor
    · rintro ⟨c, hc, hp⟩
      have hl := h.location hc
      exact ⟨c, ⟨by rw [hl]; exact hc, hp⟩, hl⟩
    · rintro ⟨c, ⟨hc, hp⟩, rfl⟩
      exact ⟨c, hc, hp⟩
  have hnodup : ((g.cellList.filter p).map Cell.location).Nodup :=
    h.nodup_locations.sublist (List.filter_sublist.map Cell.location)
  rw [hset, Set.ncard_coe_finset, List.toFinset_card_of_nodup hnodup, List.length_map,
    List.countP_eq_length_filter]

/-- The number of cells in a state is the number of locations with that state. -/
theorem WellFormed.countState_eq_ncard {g : Grid} (h : g.WellFormed) (state : Nat) :
    g.countState state = {l | g.stateAt l = some state}.ncard := by
  rw [countState, h.countP_cellList]
  congr 1
  ext l
  simp [stateAt]

/-- A list of the locations with a state, each of them once, has the length of its count. -/
theorem WellFormed.countState_eq_length {g : Grid} (h : g.WellFormed) {state : Nat}
    {ls : List Location} (hnodup : ls.Nodup) (hmem : ∀ l, l ∈ ls ↔ g.stateAt l = some state) :
    g.countState state = ls.length := by
  have hset : {l | g.stateAt l = some state} = (ls.toFinset : Set Location) := by
    ext l
    rw [Set.mem_ofPred_eq, List.coe_toFinset, Set.mem_ofPred_eq, hmem]
  rw [h.countState_eq_ncard, hset, Set.ncard_coe_finset, List.toFinset_card_of_nodup hnodup]

/-- Only finitely many locations are populated. -/
theorem finite_populated (g : Grid) : g.populated.Finite := by
  refine Set.Finite.subset (List.finite_toSet g.cells.keys) ?_
  intro l hl
  have hc : g.cells.contains l = true := by rw [contains_eq_isSome_cellAt]; exact hl
  exact Std.ExtTreeMap.mem_keys.mpr hc

/-- The cells that nobody occupies are those that are populated and not occupied. -/
theorem WellFormed.countState_emptyState {g : Grid} (h : g.WellFormed) :
    g.countState emptyState = g.populated.ncard - g.occupied.ncard := by
  have hsub : g.occupied ⊆ g.populated := by
    rintro l ⟨c, hc, _⟩
    exact mem_populated hc
  rw [h.countState_eq_ncard, ← Set.ncard_sdiff hsub (g.finite_populated.subset hsub)]
  congr 1
  ext l
  cases hc : g.cellAt l with
  | none => simp [stateAt, populated, occupied, hc]
  | some c => simp [stateAt, populated, occupied, hc, Cell.isEmpty]

/-- Updates keep the populated locations. -/
theorem populated_apply (g : Grid) (us : List CellUpdate) :
    (g.apply us).populated = g.populated := by
  ext l
  simp only [populated, Set.mem_ofPred_eq, isSome_cellAt_apply]

/-- Counting a list of cells by state into a map adds to what the map holds. -/
theorem getElem?_foldl_count (cs : List Cell) (counts : Std.ExtTreeMap Nat Nat) (state : Nat) :
    (cs.foldl (fun counts c => counts.insert c.state (counts.getD c.state 0 + 1)) counts)[state]? =
      if cs.countP (fun c => c.state == state) = 0 then counts[state]?
      else some (counts.getD state 0 + cs.countP fun c => c.state == state) := by
  induction cs generalizing counts with
  | nil => simp
  | cons c cs ih =>
    rw [List.foldl_cons, ih]
    by_cases hc : c.state = state
    · subst hc
      simp only [List.countP_cons, beq_self_eq_true, if_true, Std.ExtTreeMap.getElem?_insert_self,
        Std.ExtTreeMap.getD_insert_self]
      split
      next hz => simp [hz]
      next => simp; omega
    · have hcmp : ¬ compare c.state state = .eq := by simpa using hc
      simp [hc, Std.ExtTreeMap.getElem?_insert, Std.ExtTreeMap.getD_insert, hcmp]

/-- The population has an entry for each state that occurs, with its count. -/
theorem getElem?_population (g : Grid) (state : Nat) :
    g.population[state]? =
      if g.countState state = 0 then none else some (g.countState state) := by
  rw [population, getElem?_foldl_count]
  simp [countState]

end Grid

end CellularAutomata
