import CellularAutomata.Proofs.Grid.Contents

/-!
# Batches of updates

A tick computes its updates from the grid before it and only then carries them out. This
makes a well-defined step if the updates are a batch that the grid admits: they name
different locations, each of them populated, and put a cell where it belongs. The grid
afterwards then holds just what the updates say, in whichever order they are carried out.
-/

namespace CellularAutomata.Grid

/-- Updates of different populated locations that put each cell at its own location. -/
structure Admits (g : Grid) (us : List CellUpdate) : Prop where
  /-- No location is named twice. -/
  once : (us.map CellUpdate.location).Nodup
  /-- A named location holds a cell. -/
  populated : ∀ u ∈ us, u.location ∈ g.populated
  /-- The cell that is put at a location is at that location. -/
  placed : ∀ u ∈ us, u.next.location = u.location

variable {g : Grid} {us vs : List CellUpdate} {u v : CellUpdate} {l : Location}

/-- A batch has one update for a location. -/
theorem Admits.eq_of_location_eq (h : g.Admits us) (hu : u ∈ us) (hv : v ∈ us)
    (hl : u.location = v.location) : u = v :=
  List.inj_on_of_nodup_map h.once hu hv hl

/-- A named location holds the cell of its update afterwards. -/
theorem Admits.cellAt_apply (h : g.Admits us) (hu : u ∈ us) :
    (g.apply us).cellAt u.location = some u.next := by
  have hplaced := h.placed u hu
  have hsame : ∀ v ∈ us, v.next.location = u.next.location → v.next = u.next := by
    intro v hv hl
    rw [h.placed v hv, hplaced] at hl
    rw [h.eq_of_location_eq hv hu hl]
  have hcell := cellAt_apply_of_mem (g := g) hu hsame
  have hsome : (g.cellAt u.location).isSome = true := h.populated u hu
  rw [hplaced] at hcell
  rw [hcell, Option.map_eq_some_iff]
  exact ⟨(g.cellAt u.location).get hsome, Option.some_get hsome |>.symm, rfl⟩

/-- A location that is not named holds the same afterwards. -/
theorem Admits.cellAt_apply_of_forall_ne (h : g.Admits us) (hl : ∀ u ∈ us, u.location ≠ l) :
    (g.apply us).cellAt l = g.cellAt l := by
  refine Grid.cellAt_apply_of_forall_ne ?_
  intro u hu
  rw [h.placed u hu]
  exact hl u hu

/-- A batch may be listed in another order. -/
theorem Admits.perm (h : g.Admits us) (hperm : vs.Perm us) : g.Admits vs where
  once := (hperm.map CellUpdate.location).nodup_iff.mpr h.once
  populated v hv := h.populated v (hperm.mem_iff.mp hv)
  placed v hv := h.placed v (hperm.mem_iff.mp hv)

/-- The order in which a batch is carried out makes no difference. -/
theorem Admits.apply_perm (h : g.Admits us) (hperm : vs.Perm us) : g.apply vs = g.apply us := by
  have hvs := h.perm hperm
  have hdimensions := g.apply_dimensions us
  have hdimensions' := g.apply_dimensions vs
  refine ext_cellAt (hdimensions'.1.trans hdimensions.1.symm)
    (hdimensions'.2.1.trans hdimensions.2.1.symm) (hdimensions'.2.2.trans hdimensions.2.2.symm) ?_
  intro l
  by_cases hnamed : ∃ u ∈ us, u.location = l
  · obtain ⟨u, hu, hl⟩ := hnamed
    rw [← hl, h.cellAt_apply hu, hvs.cellAt_apply (hperm.mem_iff.mpr hu)]
  · have hother : ∀ u ∈ us, u.location ≠ l := fun u hu hl => hnamed ⟨u, hu, hl⟩
    have hother' : ∀ v ∈ vs, v.location ≠ l := fun v hv => hother v (hperm.mem_iff.mp hv)
    rw [h.cellAt_apply_of_forall_ne hother, hvs.cellAt_apply_of_forall_ne hother']

end CellularAutomata.Grid
