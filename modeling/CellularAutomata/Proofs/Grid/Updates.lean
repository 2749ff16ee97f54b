import CellularAutomata.Proofs.Grid.Batches
import CellularAutomata.Tick

/-!
# Updates cell by cell

What a grid looks like when each of its cells is updated at most once and where it is.
Ticks that replace the states of cells are of this kind, and so is the tick of every
automaton whose cells decide their next states by themselves.
-/

namespace CellularAutomata

namespace Grid

/-- The updates that replace some of the cells where they are. -/
def places (g : Grid) (replace : Cell → Option Cell) : List CellUpdate :=
  g.cellList.filterMap fun c => (replace c).map (CellUpdate.place c.location)

variable {g : Grid} {l : Location} {c : Cell}

/-- The only update of the location of a cell is the one that replaces that cell. -/
theorem WellFormed.eq_place_of_mem_places (h : g.WellFormed) {replace : Cell → Option Cell}
    {u : CellUpdate} (hu : u ∈ g.places replace) (hc : g.cellAt l = some c)
    (hl : u.next.location = l) : ∃ new, replace c = some new ∧ u = .place l new := by
  obtain ⟨old, hold, hu⟩ := List.mem_filterMap.mp hu
  obtain ⟨new, hnew, rfl⟩ := Option.map_eq_some_iff.mp hu
  have hl : old.location = l := hl
  have hsame : old = c := by
    rw [h.mem_cellList_iff, hl, hc] at hold
    exact (Option.some.inj hold).symm
  rw [← hl, ← hsame]
  exact ⟨new, hnew, rfl⟩

/-- Replacements name the locations of the cells that are replaced. -/
theorem map_location_places (g : Grid) (replace : Cell → Option Cell) :
    (g.places replace).map CellUpdate.location =
      (g.cellList.filter fun c => (replace c).isSome).map Cell.location := by
  rw [places]
  induction g.cellList with
  | nil => rfl
  | cons c cells ih =>
    cases hnew : replace c with
    | none => simpa [hnew] using ih
    | some new => simpa [hnew, CellUpdate.place] using ih

/-- The replacements of some of the cells of a grid are a batch. -/
theorem WellFormed.admits_places (h : g.WellFormed) (replace : Cell → Option Cell) :
    g.Admits (g.places replace) where
  once := by
    rw [map_location_places]
    exact h.nodup_locations.sublist (List.filter_sublist.map Cell.location)
  populated u hu := by
    obtain ⟨c, hc, hu⟩ := List.mem_filterMap.mp hu
    obtain ⟨new, -, hplace⟩ := Option.map_eq_some_iff.mp hu
    have hcell := h.mem_cellList_iff.mp hc
    rw [← hplace]
    exact mem_populated hcell
  placed u hu := by
    obtain ⟨c, -, hu⟩ := List.mem_filterMap.mp hu
    obtain ⟨new, -, hplace⟩ := Option.map_eq_some_iff.mp hu
    exact hplace ▸ rfl

/-- If some of the cells are replaced where they are, then just those look different. -/
theorem WellFormed.cellAt_apply_places (h : g.WellFormed) (replace : Cell → Option Cell)
    (l : Location) :
    (g.apply (g.places replace)).cellAt l =
      (g.cellAt l).map fun c => ((replace c).getD c).movedTo l := by
  have hadmits := h.admits_places replace
  cases hc : g.cellAt l with
  | none =>
    have hvacant := isSome_cellAt_apply g (g.places replace) l
    rw [hc] at hvacant
    simpa using hvacant
  | some c =>
    obtain rfl := h.location hc
    rw [Option.map_some]
    cases hnew : replace c with
    | none =>
      refine (hadmits.cellAt_apply_of_forall_ne ?_).trans hc
      intro u hu hl
      rw [← hadmits.placed u hu] at hl
      obtain ⟨new, hsome, -⟩ := h.eq_place_of_mem_places hu hc hl
      rw [hnew] at hsome
      cases hsome
    | some new =>
      have hmem : CellUpdate.place c.location new ∈ g.places replace :=
        List.mem_filterMap.mpr ⟨c, h.mem_cellList_iff.mpr hc, by rw [hnew]; rfl⟩
      exact hadmits.cellAt_apply hmem

end Grid

namespace Tick

variable {ρ : Type} {nextState : Cell → ρ → Nat × ρ} {cells : List Cell}

/-- Each cell is asked once. -/
theorem map_location_replacing (source : ρ) :
    (replacing nextState cells source).1.map CellUpdate.location = cells.map Cell.location := by
  induction cells generalizing source with
  | nil => rfl
  | cons c cells ih =>
    rw [replacing, List.map_cons, List.map_cons, ih (nextState c source).2]
    rfl

/-- A cell is replaced where it is, by itself in the next state that it has decided. -/
theorem exists_of_mem_replacing {source : ρ} {u : CellUpdate}
    (hu : u ∈ (replacing nextState cells source).1) :
    ∃ c ∈ cells, ∃ s, u = .place c.location (c.withState (nextState c s).1) := by
  induction cells generalizing source with
  | nil => cases hu
  | cons c cells ih =>
    rw [replacing] at hu
    cases List.mem_cons.mp hu with
    | inl hhead => exact ⟨c, List.mem_cons_self .., source, hhead⟩
    | inr htail =>
      obtain ⟨c', hc', hplace⟩ := ih htail
      exact ⟨c', List.mem_cons_of_mem c hc', hplace⟩

/-- The next states of all cells of a grid are a batch. -/
theorem admits_cellwise {g : Grid} (h : g.WellFormed) (nextState : Cell → ρ → Nat × ρ)
    (source : ρ) : g.Admits (cellwise nextState g source).updates where
  once := by
    change ((replacing nextState g.cellList source).1.map CellUpdate.location).Nodup
    rw [map_location_replacing]
    exact h.nodup_locations
  populated u hu := by
    obtain ⟨c, hc, s, hplace⟩ := exists_of_mem_replacing hu
    have hcell := h.mem_cellList_iff.mp hc
    rw [hplace]
    exact Grid.mem_populated hcell
  placed u hu := by
    obtain ⟨c, -, s, hplace⟩ := exists_of_mem_replacing hu
    rw [hplace]
    rfl

/-- If the next states do not depend on chance, then every cell is put into its next state,
whatever is drawn. -/
theorem fst_replacing {next : Cell → Nat} (h : ∀ c s, (nextState c s).1 = next c)
    (cells : List Cell) (source : ρ) :
    (replacing nextState cells source).1 =
      cells.map fun c => .place c.location (c.withState (next c)) := by
  induction cells generalizing source with
  | nil => rfl
  | cons c cells ih =>
    rw [replacing, List.map_cons, ← ih (nextState c source).2, ← h c source]

/-- If the next states need no chance, then every cell is put into its next state. -/
theorem updates_cellwise (nextState : Cell → Nat) (g : Grid) (source : ρ) :
    (cellwise (fun c s => (nextState c, s)) g source).updates =
      g.cellList.map fun c => .place c.location (c.withState (nextState c)) := by
  have hnext : ∀ c (s : ρ), (nextState c, s).1 = nextState c := fun _ _ => rfl
  exact fst_replacing hnext g.cellList source

/-- If the next states need no chance, then nothing is drawn. -/
theorem snd_replacing (nextState : Cell → Nat) (cells : List Cell) (source : ρ) :
    (replacing (fun c s => (nextState c, s)) cells source).2 = source := by
  induction cells with
  | nil => rfl
  | cons c cells ih => exact ih

/-- A tick in which the next states do not depend on chance puts each cell into its next state. -/
theorem cellAt_apply_cellwise_of_fst {g : Grid} (h : g.WellFormed) {next : Cell → Nat}
    (hnext : ∀ c s, (nextState c s).1 = next c) (source : ρ) (l : Location) :
    (g.apply (cellwise nextState g source).updates).cellAt l =
      (g.cellAt l).map fun c => c.withState (next c) := by
  have hupdates : (cellwise nextState g source).updates =
      g.places fun c => some (c.withState (next c)) :=
    (fst_replacing hnext g.cellList source).trans
      (congrFun List.filterMap_eq_map' g.cellList).symm
  rw [hupdates, h.cellAt_apply_places]
  refine Option.map_congr ?_
  intro c hc
  obtain rfl := h.location hc
  rfl

/-- A tick in which cells decide their next states without chance puts each cell into its next
state. -/
theorem cellAt_apply_cellwise {g : Grid} (h : g.WellFormed) (nextState : Cell → Nat)
    (source : ρ) (l : Location) :
    (g.apply (cellwise (fun c s => (nextState c, s)) g source).updates).cellAt l =
      (g.cellAt l).map fun c => c.withState (nextState c) := by
  have hnext : ∀ c (s : ρ), (nextState c, s).1 = nextState c := fun _ _ => rfl
  exact cellAt_apply_cellwise_of_fst h hnext source l

end Tick

end CellularAutomata
