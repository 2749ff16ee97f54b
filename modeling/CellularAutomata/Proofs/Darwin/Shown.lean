import CellularAutomata.Proofs.Darwin.Orderly
import CellularAutomata.Proofs.Grid.Batches
import Mathlib.Data.Set.Function

/-!
# The grid as decided

The grid that results when the updates of some decisions are carried out. At each
position it holds the final occupant, or nobody if the position has been left, or else
what was there before; the positions where somebody is follow from the decisions alone.
-/

namespace CellularAutomata.Darwin

/-- The grid with the updates of some decisions carried out. -/
def Decisions.shown (d : Decisions) (g : Grid) : Grid := g.apply d.updates

/-- The updates of decisions are to claimed positions and to positions left unclaimed. -/
theorem Decisions.mem_updates {d : Decisions} {u : CellUpdate} :
    u ∈ d.updates ↔
      (∃ l, d.isVacated l = true ∧ d.claim? l = Option.none ∧ u = .place l (.empty l)) ∨
        ∃ l k, d.claim? l = some k ∧ u = .place l k.cell := by
  simp only [updates, List.mem_append, List.mem_map, List.mem_filter, Prod.exists,
    Std.ExtTreeSet.mem_toList, Std.ExtTreeMap.mem_toList_iff_getElem?_eq_some,
    isFinal_eq_isSome_claim?, Bool.not_eq_true', Option.isSome_eq_false_iff,
    Option.isNone_iff_eq_none]
  constructor
  · rintro (⟨l, ⟨hv, hn⟩, rfl⟩ | ⟨l, k, hk, rfl⟩)
    · exact Or.inl ⟨l, hv, hn, rfl⟩
    · exact Or.inr ⟨l, k, hk, rfl⟩
  · rintro (⟨l, hv, hn, rfl⟩ | ⟨l, k, hk, rfl⟩)
    · exact Or.inl ⟨l, ⟨hv, hn⟩, rfl⟩
    · exact Or.inr ⟨l, k, hk, rfl⟩

/-- Decisions that concern populated positions only, with final occupants that are where
they are claimed to be. -/
structure Decisions.Grounded (d : Decisions) (g : Grid) : Prop where
  /-- A claim is to the location of its cell. -/
  placed : ∀ {l : Location} {k : Claim}, d.claim? l = some k → k.cell.location = l
  /-- Only populated positions are claimed. -/
  claimed : ∀ {l : Location} {k : Claim}, d.claim? l = some k → l ∈ g.populated
  /-- Only populated positions are left. -/
  vacated : ∀ {l : Location}, d.isVacated l = true → l ∈ g.populated

/-- An orderly tick has decided about populated positions. -/
theorem Orderly.grounded {g : Grid} {waiting : List Cell} {d : Decisions}
    (h : Orderly g waiting d) : d.Grounded g where
  placed := h.placed
  claimed := h.populated
  vacated hleft := by
    obtain ⟨cell, hcell, -⟩ := (h.left hleft).1
    exact Grid.mem_populated hcell

/-- The updates of grounded decisions can be carried out in any order. -/
theorem Decisions.Grounded.admits {g : Grid} {d : Decisions} (h : d.Grounded g) :
    g.Admits d.updates where
  once := by
    have hclaimed : (d.claims.toList.map Prod.fst).Nodup := by
      rw [Std.ExtTreeMap.map_fst_toList_eq_keys]
      exact Grid.nodup_of_sorted Std.ExtTreeMap.ordered_keys
    have hleft : (d.vacated.toList.filter fun l => !d.isFinal l).Nodup :=
      (Grid.nodup_of_sorted Std.ExtTreeSet.ordered_toList).sublist List.filter_sublist
    have hlocations : d.updates.map CellUpdate.location =
        (d.vacated.toList.filter fun l => !d.isFinal l) ++ d.claims.toList.map Prod.fst := by
      rw [updates, List.map_append, List.map_map, List.map_map]
      exact congrArg (· ++ _) (List.map_id _)
    rw [hlocations, List.nodup_append]
    refine ⟨hleft, hclaimed, ?_⟩
    intro l hl l' hl' heq
    have hopen := (List.mem_filter.mp hl).2
    rw [Std.ExtTreeMap.map_fst_toList_eq_keys, Std.ExtTreeMap.mem_keys] at hl'
    rw [heq, isFinal, Std.ExtTreeMap.contains_iff_mem.mpr hl'] at hopen
    cases hopen
  populated u hu := by
    cases mem_updates.mp hu with
    | inl hvacated =>
      obtain ⟨l, hl, -, hplace⟩ := hvacated
      exact hplace ▸ h.vacated hl
    | inr hclaimed =>
      obtain ⟨l, k, hk, hplace⟩ := hclaimed
      exact hplace ▸ h.claimed hk
  placed u hu := by
    cases mem_updates.mp hu with
    | inl hvacated =>
      obtain ⟨l, -, -, hplace⟩ := hvacated
      exact hplace ▸ rfl
    | inr hclaimed =>
      obtain ⟨l, k, -, hplace⟩ := hclaimed
      exact hplace ▸ rfl

/-- What is seen on the grid as decided. -/
theorem Decisions.cellAt_shown (d : Decisions) (g : Grid) (l : Location) :
    (d.shown g).cellAt l = (g.cellAt l).map fun old =>
      match d.claim? l with
      | some k => k.cell.movedTo l
      | .none => if d.isVacated l then .empty l else old := by
  rw [shown]
  cases hk : d.claim? l with
  | some k =>
    have hmem : CellUpdate.place l k.cell ∈ d.updates :=
      mem_updates.mpr (Or.inr ⟨l, k, hk, rfl⟩)
    refine Grid.cellAt_apply_of_mem hmem ?_
    intro u hu hl
    rcases mem_updates.mp hu with ⟨l', _, hn, rfl⟩ | ⟨l', k', hk', rfl⟩
    · obtain rfl : l' = l := hl
      rw [hk] at hn
      cases hn
    · obtain rfl : l' = l := hl
      obtain rfl := Option.some.inj (hk.symm.trans hk')
      rfl
  | none =>
    by_cases hv : d.isVacated l = true
    · have hmem : CellUpdate.place l (.empty l) ∈ d.updates :=
        mem_updates.mpr (Or.inl ⟨l, hv, hk, rfl⟩)
      simp only [if_pos hv]
      refine Grid.cellAt_apply_of_mem hmem ?_
      intro u hu hl
      rcases mem_updates.mp hu with ⟨l', _, _, rfl⟩ | ⟨l', k', hk', rfl⟩
      · obtain rfl : l' = l := hl
        rfl
      · obtain rfl : l' = l := hl
        rw [hk] at hk'
        cases hk'
    · simp only [if_neg hv, Option.map_id']
      refine Grid.cellAt_apply_of_forall_ne ?_
      intro u hu hl
      rcases mem_updates.mp hu with ⟨l', hv', _, rfl⟩ | ⟨l', k', hk', rfl⟩
      · obtain rfl : l' = l := hl
        exact hv hv'
      · obtain rfl : l' = l := hl
        rw [hk] at hk'
        cases hk'

/-- A claim of an orderly tick is what is seen at its position. -/
theorem Orderly.cellAt_shown_of_claim {g : Grid} {waiting : List Cell} {d : Decisions}
    {l : Location} {k : Claim} (h : Orderly g waiting d) (hk : d.claim? l = some k) :
    (d.shown g).cellAt l = some k.cell := by
  obtain ⟨old, hold⟩ := Option.isSome_iff_exists.mp (h.populated hk)
  rw [Decisions.cellAt_shown, hold, hk]
  have hl := h.placed hk
  change some (k.cell.movedTo l) = some k.cell
  rw [← hl]
  rfl

/-- The positions at which somebody is, as decided: those with a final occupant and the
occupied ones that nobody has left. -/
def Decisions.held (d : Decisions) (g : Grid) : Set Location :=
  {l | (d.claim? l).isSome = true ∨ l ∈ g.occupied ∧ d.isVacated l = false}

/-- If final occupants are individuals, then somebody is shown exactly at the held
positions. -/
theorem Orderly.occupied_shown {g : Grid} {waiting : List Cell} {d : Decisions}
    (h : Orderly g waiting d)
    (hcells : ∀ l k, d.claim? l = some k → k.cell.isEmpty = false) :
    (d.shown g).occupied = d.held g := by
  ext l
  simp only [Grid.occupied, Decisions.held, Set.mem_ofPred_eq]
  cases hk : d.claim? l with
  | some k =>
    rw [h.cellAt_shown_of_claim hk]
    simp [hcells l k hk]
  | none =>
    rw [Decisions.cellAt_shown, hk]
    cases hc : g.cellAt l with
    | none => simp
    | some old =>
      cases hv : d.isVacated l <;> simp [Cell.isEmpty, Cell.empty, Cell.plain]

/-- The updates of a tick can be carried out in any order. -/
theorem admits_tick {ρ : Type} [WordSource ρ] (r : Rules) {g : Grid} (hwf : g.WellFormed)
    (source : ρ) : g.Admits (r.tick g source).updates :=
  (Orderly.finish (w := r.world g) hwf source).grounded.admits

/-- What a tick makes of a grid. -/
theorem Rules.apply_tick {ρ : Type} [WordSource ρ] (r : Rules) (g : Grid) (source : ρ) :
    g.apply (r.tick g source).updates =
      (takeTurns (r.world g) source).decisions.shown g := rfl

end CellularAutomata.Darwin
