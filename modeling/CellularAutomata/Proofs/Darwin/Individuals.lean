import CellularAutomata.Proofs.Darwin.Shown

/-!
# Individuals in a tick

What a tick is to one individual. It has one turn, or none because somebody has converted
it before; where it ends nobody else is, and there it is found after the tick, as its turn
or its conversion has left it.
-/

namespace CellularAutomata.Darwin

variable {ρ : Type} [WordSource ρ] {w : World}

/-- Only cells that are called take turns. -/
theorem cell_mem_of_mem_turnsFrom {cells : List Cell} {s : Stage ρ} {t : Turn ρ}
    (h : t ∈ turnsFrom w cells s) : t.cell ∈ cells := by
  induction cells generalizing s with
  | nil => simp [turnsFrom] at h
  | cons c cells ih =>
    rw [turnsFrom] at h
    split at h
    next =>
      rcases List.mem_cons.mp h with rfl | hlater
      · exact List.mem_cons_self ..
      · exact List.mem_cons_of_mem c (ih hlater)
    next => exact List.mem_cons_of_mem c (ih h)

/-- The turns of some cells and of others that are called later. -/
theorem turnsFrom_append (xs ys : List Cell) (s : Stage ρ) :
    turnsFrom w (xs ++ ys) s = turnsFrom w xs s ++ turnsFrom w ys (stageAfter w xs s) := by
  induction xs generalizing s with
  | nil => rfl
  | cons c xs ih =>
    rw [List.cons_append, turnsFrom, turnsFrom, ih]
    split <;> rfl

/-- A turn comes after those of the cells that are called before it and before those of the
cells that are called later. -/
theorem exists_split_of_mem_turnsFrom {cells : List Cell} {s : Stage ρ} {t : Turn ρ}
    (h : t ∈ turnsFrom w cells s) :
    ∃ before later, cells = before ++ t.cell :: later ∧ t.stage = stageAfter w before s ∧
      hasTurn t.stage t.cell = true ∧
      turnsFrom w cells s =
        turnsFrom w before s ++ t :: turnsFrom w later (takeTurn w t.stage t.cell) ∧
      stageAfter w cells s = stageAfter w later (takeTurn w t.stage t.cell) := by
  induction cells generalizing s with
  | nil => simp [turnsFrom] at h
  | cons c cells ih =>
    rw [turnsFrom] at h
    by_cases hturn : hasTurn s c = true
    · rw [if_pos hturn] at h
      rcases List.mem_cons.mp h with rfl | hlater
      · refine ⟨[], cells, rfl, rfl, hturn, ?_, rfl⟩
        simp only [turnsFrom, if_pos hturn, List.nil_append]
      · obtain ⟨before, later, hcells, hstage, ht, hturns, hend⟩ := ih hlater
        refine ⟨c :: before, later, by rw [hcells, List.cons_append], hstage, ht, ?_, hend⟩
        rw [turnsFrom, if_pos hturn, turnsFrom, if_pos hturn, hturns, List.cons_append]
    · rw [if_neg hturn] at h
      obtain ⟨before, later, hcells, hstage, ht, hturns, hend⟩ := ih h
      refine ⟨c :: before, later, by rw [hcells, List.cons_append], hstage, ht, ?_, hend⟩
      rw [turnsFrom, if_neg hturn, turnsFrom, if_neg hturn, hturns]

/-- At a claimed position nobody gets a turn any more. -/
theorem location_ne_of_claimed {cells : List Cell} {s : Stage ρ} {l : Location}
    (h : (s.decisions.claim? l).isSome = true) {t : Turn ρ} (ht : t ∈ turnsFrom w cells s) :
    t.cell.location ≠ l := by
  induction cells generalizing s with
  | nil => simp [turnsFrom] at ht
  | cons c cells ih =>
    have hlater := isSome_claim?_takeTurn w s c h
    rw [turnsFrom] at ht
    split at ht
    next hturn =>
      rcases List.mem_cons.mp ht with rfl | hmem
      · rintro rfl
        rw [(hasTurn_iff.mp hturn).2] at h
        cases h
      · exact ih hlater hmem
    next => exact ih hlater ht

/-- An individual has one turn, unless its position has its final occupant when it is
called; then it has none. -/
theorem turnsOf_eq (hwf : w.grid.WellFormed) {c : Cell} {before later : List Cell}
    (hcells : w.grid.cellList = before ++ c :: later) (source : ρ) :
    turnsOf w source c.location =
      if hasTurn (stageAfter w before (opening source)) c then
        [⟨c, stageAfter w before (opening source)⟩]
      else [] := by
  have hnodup := hwf.nodup_locations
  rw [hcells, List.map_append, List.map_cons, List.nodup_middle, List.nodup_cons,
    List.mem_append, not_or] at hnodup
  have helse : ∀ {cells : List Cell} {s : Stage ρ},
      c.location ∉ cells.map Cell.location →
        ((turnsFrom w cells s).filter fun t => t.cell.location = c.location) = [] := by
    intro cells s hnot
    rw [List.filter_eq_nil_iff]
    intro t ht heq
    exact hnot (of_decide_eq_true heq ▸ List.mem_map_of_mem (cell_mem_of_mem_turnsFrom ht))
  rw [turnsOf, turns, hcells, turnsFrom_append, List.filter_append, helse hnodup.1.1, turnsFrom]
  split
  next =>
    rw [List.filter_cons_of_pos (by simp), helse hnodup.1.2]
    rfl
  next =>
    rw [helse hnodup.1.2]
    rfl

/-- An individual with one turn is where that turn has ended. -/
theorem endPlace_of_turnsOf {source : ρ} {l : Location} {t : Turn ρ}
    (h : turnsOf w source l = [t]) : endPlace w (turns w source) l = (t.ended w).location := by
  rw [endPlace, ← List.head?_filter]
  rw [turnsOf] at h
  rw [h]
  rfl

/-- An individual without a turn stays where it is. -/
theorem endPlace_of_turnsOf_nil {source : ρ} {l : Location} (h : turnsOf w source l = []) :
    endPlace w (turns w source) l = l := by
  rw [endPlace, ← List.head?_filter]
  rw [turnsOf] at h
  rw [h]
  rfl

/-- A position that has been converted was so before some cells were called, or in one of
their turns. -/
theorem exists_conversion {cells : List Cell} {s : Stage ρ} {l : Location} {k : Claim}
    (hk : (stageAfter w cells s).decisions.claim? l = some k) (hkind : k.kind = .infected) :
    (∃ k', s.decisions.claim? l = some k' ∧ k'.kind = .infected) ∨
      ∃ t ∈ turnsFrom w cells s, ∃ v, t.victim? w = some v ∧ v.location = l := by
  induction cells generalizing s with
  | nil => exact Or.inl ⟨k, hk, hkind⟩
  | cons c cells ih =>
    rw [turnsFrom]
    by_cases hturn : hasTurn s c = true
    · rw [if_pos hturn]
      rcases ih hk with ⟨k', hk', hkind'⟩ | ⟨t, ht, hv⟩
      · rcases claim?_takeTurn_cases hturn hk' with ⟨-, rfl⟩ | ⟨v, hv, hl, -⟩ | hold
        · rw [Turn.claim] at hkind'
          split at hkind' <;> cases hkind'
        · exact Or.inr ⟨⟨c, s⟩, List.mem_cons_self .., v, hv, hl⟩
        · exact Or.inl ⟨k', hold, hkind'⟩
      · exact Or.inr ⟨t, List.mem_cons_of_mem _ ht, hv⟩
    · rw [if_neg hturn, takeTurn_of_not_hasTurn hturn]
      rw [stageAfter, List.foldl_cons, takeTurn_of_not_hasTurn hturn] at hk
      exact ih hk

/-- Whoever is called in a tick has a turn then, or has been converted in an earlier one. -/
theorem hasTurn_or_converted (hwf : w.grid.WellFormed) {c : Cell} {before later : List Cell}
    (hcells : w.grid.cellList = before ++ c :: later) (hne : c.isEmpty = false) (source : ρ) :
    hasTurn (stageAfter w before (opening source)) c = true ∨
      ∃ t ∈ turnsFrom w before (opening source), t.victim? w = some c := by
  have hstart := Orderly.opening hcells source
  have horder := Orderly.stageAfter hwf hstart
  by_cases hturn : hasTurn (stageAfter w before (opening source)) c = true
  · exact Or.inl hturn
  · right
    have hclaimed : (stageAfter w before (opening source)).decisions.claim? c.location ≠ none := by
      intro hnone
      exact hturn (hasTurn_iff.mpr ⟨hne, hnone⟩)
    obtain ⟨k, hk⟩ := Option.ne_none_iff_exists'.mp hclaimed
    have hkind : k.kind = .infected := by
      have hstay := (horder.waits (List.mem_cons_self ..)).2 k hk
      have harr : k.kind ≠ .arrived := by
        intro heq
        exact (horder.arrived_iff hk).mp heq ⟨c, horder.cellAt hwf, hne⟩
      cases hkind : k.kind with
      | stayed => exact absurd hkind hstay
      | arrived => exact absurd hkind harr
      | infected => rfl
    rcases exists_conversion hk hkind with ⟨k', hk', -⟩ | ⟨t, ht, v, hv, hloc⟩
    · simp [opening] at hk'
    · obtain ⟨-, rest, hthen⟩ := hstart.of_mem_turnsFrom hwf ht
      have hvic := hthen.victim?_turn (t := t) hwf hv
      rw [hloc] at hvic
      obtain rfl := hthen.victim?_waiting hwf (by simp) hvic
      exact ⟨t, ht, hv⟩

/-- Each individual has one turn, or none because an individual before it has converted it
before it was called. -/
theorem turnsOf_cases (hwf : w.grid.WellFormed) {c : Cell} (hc : w.grid.cellAt c.location = some c)
    (hne : c.isEmpty = false) (source : ρ) :
    (∃ t ∈ turns w source, t.cell = c ∧ turnsOf w source c.location = [t]) ∨
      turnsOf w source c.location = [] ∧ ∃ t ∈ turns w source,
        compare t.cell.location c.location = .lt ∧ t.victim? w = some c := by
  obtain ⟨before, later, hcells⟩ := List.append_of_mem (hwf.mem_cellList_iff.mpr hc)
  rw [turnsOf_eq hwf hcells, turns, hcells, turnsFrom_append, turnsFrom]
  by_cases hturn : hasTurn (stageAfter w before (opening source)) c = true
  · rw [if_pos hturn, if_pos hturn]
    exact Or.inl ⟨_, List.mem_append_right _ (List.mem_cons_self ..), rfl, rfl⟩
  · rcases hasTurn_or_converted hwf hcells hne source with hcalled | ⟨t, ht, hv⟩
    · exact absurd hcalled hturn
    · have hsorted := hwf.cellList_sorted
      rw [hcells, List.pairwise_append] at hsorted
      rw [if_neg hturn, if_neg hturn]
      exact Or.inr ⟨rfl, t, List.mem_append_left _ ht,
        hsorted.2.2 t.cell (cell_mem_of_mem_turnsFrom ht) c (List.mem_cons_self ..), hv⟩

/-- Turns are taken by cells of the grid. -/
theorem cellAt_of_mem_turns (hwf : w.grid.WellFormed) {source : ρ} {t : Turn ρ}
    (ht : t ∈ turns w source) : w.grid.cellAt t.cell.location = some t.cell :=
  hwf.mem_cellList_iff.mp (cell_mem_of_mem_turnsFrom ht)

/-- Whoever comes to its instruction in a tick is on the grid. -/
theorem inBounds_ready_of_mem_turns (hwf : w.grid.WellFormed) {source : ρ} {t : Turn ρ}
    (ht : t ∈ turns w source) : w.grid.inBounds (t.ready w).location = true := by
  rw [t.ready_location]
  exact hwf.inBounds (cellAt_of_mem_turns hwf ht)

/-- The turns of a tick before one of them and after it, and how the tick goes on from it. -/
theorem exists_later_of_mem_turns (hwf : w.grid.WellFormed) {source : ρ} {t : Turn ρ}
    (ht : t ∈ turns w source) :
    ∃ before later, turns w source =
        before ++ t :: turnsFrom w later (takeTurn w t.stage t.cell) ∧
      hasTurn t.stage t.cell = true ∧ Orderly w.grid (t.cell :: later) t.stage.decisions ∧
      takeTurns w source = stageAfter w later (takeTurn w t.stage t.cell) := by
  obtain ⟨before, later, hcells, hstage, hturn, hturns, hend⟩ := exists_split_of_mem_turnsFrom ht
  have horder := Orderly.opened hwf hcells source
  rw [← hstage] at horder
  exact ⟨_, later, hturns, hturn, horder, (takeTurns_eq w source).trans hend⟩

/-- Whoever has not lost its position to anybody has not left it. -/
theorem endPlace_of_claimed (hwf : w.grid.WellFormed) {source : ρ} {l : Location}
    (hl : l ∈ w.grid.occupied) (hk : (takeTurns w source).decisions.claim? l ≠ none) :
    endPlace w (turns w source) l = l := by
  obtain ⟨c, hc, hne⟩ := hl
  obtain rfl := hwf.location hc
  rcases turnsOf_cases hwf hc hne source with ⟨t, ht, rfl, hone⟩ | ⟨hnone, -⟩
  · rw [endPlace_of_turnsOf hone]
    by_contra hmoved
    obtain ⟨-, later, -, hturn, -, hend⟩ := exists_later_of_mem_turns hwf ht
    have hleft : (takeTurn w t.stage t.cell).decisions.isVacated t.cell.location = true := by
      rw [isVacated_takeTurn hturn, Bool.or_eq_true, decide_eq_true_eq]
      exact Or.inl ⟨hmoved, rfl⟩
    have hfinal : (takeTurns w source).decisions.isVacated t.cell.location = true := by
      rw [hend]
      exact isVacated_stageAfter_iff.mpr (Or.inl hleft)
    exact hk ((Orderly.finish hwf source).left hfinal).2
  · exact endPlace_of_turnsOf_nil hnone

/-- The position where a turn has ended stays that of its individual, which can still be
converted if it has not moved. -/
theorem claim?_takeTurns_of_turn (hwf : w.grid.WellFormed) {source : ρ} {t : Turn ρ}
    (ht : t ∈ turns w source) :
    (takeTurns w source).decisions.claim? (t.ended w).location = some (t.claim w) ∨
      ∃ u ∈ turns w source, u.victim? w = some (t.result w) ∧
        (takeTurns w source).decisions.claim? (t.ended w).location =
          some ⟨converted w (u.ready w) (t.result w), .infected⟩ := by
  obtain ⟨before, later, hturns, hturn, horder, hend⟩ := exists_later_of_mem_turns hwf ht
  have hclaim : (takeTurn w t.stage t.cell).decisions.claim? (t.ended w).location =
      some (t.claim w) := by
    rw [claim?_takeTurn hturn, if_pos rfl]
  rw [hend, hturns]
  rcases (horder.turn hwf hturn).claim?_stageAfter hwf hclaim with hkept | ⟨-, u, hu, hv, hconv⟩
  · exact Or.inl hkept
  · exact Or.inr ⟨u, List.mem_append_right _ (List.mem_cons_of_mem t hu), hv, hconv⟩

/-- After a turn the position of the cell that has been converted in it is decided. -/
theorem Orderly.claim?_of_victim? {rest : List Cell} {t : Turn ρ} {v : Cell}
    (hwf : w.grid.WellFormed) (h : Orderly w.grid (t.cell :: rest) t.stage.decisions)
    (hturn : hasTurn t.stage t.cell = true) (hv : t.victim? w = some v) :
    (Darwin.takeTurn w t.stage t.cell).decisions.claim? v.location =
      some ⟨converted w (t.ready w) v, .infected⟩ := by
  have hne : (t.ended w).location ≠ v.location := by
    rw [Turn.ended_of_victim? hv, Turn.ready_location]
    exact (h.victim?_ne hwf hturn hv).symm
  rw [claim?_takeTurn hturn, if_neg hne]
  simp only [hv, if_true]

/-- A position stays that of the individual that has been converted there. -/
theorem claim?_takeTurns_of_victim (hwf : w.grid.WellFormed) {source : ρ} {t : Turn ρ} {v : Cell}
    (ht : t ∈ turns w source) (hv : t.victim? w = some v) :
    (takeTurns w source).decisions.claim? v.location =
      some ⟨converted w (t.ready w) v, .infected⟩ := by
  obtain ⟨before, later, hturns, hturn, horder, hend⟩ := exists_later_of_mem_turns hwf ht
  have hclaim := horder.claim?_of_victim? hwf hturn hv
  rw [hend]
  rcases (horder.turn hwf hturn).claim?_stageAfter hwf hclaim with hkept | ⟨hstayed, -⟩
  · exact hkept
  · cases hstayed

/-- Whoever has a turn is found where it has ended, as the turn or a later conversion has
left it. -/
theorem cellAt_tick_of_turn {r : Rules} {g : Grid} (hwf : g.WellFormed) {source : ρ} {t : Turn ρ}
    (ht : t ∈ turns (r.world g) source) :
    (g.apply (r.tick g source).updates).cellAt (t.ended (r.world g)).location =
        some (t.result (r.world g)) ∨
      ∃ u ∈ turns (r.world g) source, u.victim? (r.world g) = some (t.result (r.world g)) ∧
        (g.apply (r.tick g source).updates).cellAt (t.ended (r.world g)).location =
          some (converted (r.world g) (u.ready (r.world g)) (t.result (r.world g))) := by
  have hend := Orderly.finish (w := r.world g) hwf source
  rw [Rules.apply_tick]
  rcases claim?_takeTurns_of_turn (w := r.world g) hwf ht with hkept | ⟨u, hu, hv, hconv⟩
  · exact Or.inl (hend.cellAt_shown_of_claim hkept)
  · exact Or.inr ⟨u, hu, hv, hend.cellAt_shown_of_claim hconv⟩

/-- Whoever is converted is found at the same position, as the conversion has left it. -/
theorem cellAt_tick_of_victim {r : Rules} {g : Grid} (hwf : g.WellFormed) {source : ρ}
    {t : Turn ρ} {v : Cell} (ht : t ∈ turns (r.world g) source)
    (hv : t.victim? (r.world g) = some v) :
    (g.apply (r.tick g source).updates).cellAt v.location =
      some (converted (r.world g) (t.ready (r.world g)) v) := by
  rw [Rules.apply_tick]
  exact (Orderly.finish (w := r.world g) hwf source).cellAt_shown_of_claim
    (claim?_takeTurns_of_victim (w := r.world g) hwf ht hv)

end CellularAutomata.Darwin
