import CellularAutomata.Proofs.Darwin.Turns

/-!
# Order in a tick

What the decisions of a tick look like while some cells have not been called yet. Nobody
who waits has left or acted; whoever has moved stands where nobody was; nothing that has
been left is taken again. A turn keeps this order, so it holds at every turn of a tick
and after the last one, and it decides what the grid looks like after the tick.
-/

namespace CellularAutomata.Darwin

/-- The decisions in the course of a tick, while the cells in `waiting` have not been
called. -/
structure Orderly (g : Grid) (waiting : List Cell) (d : Decisions) : Prop where
  /-- The cells are called in the order in which the grid lists them. -/
  called : waiting <:+ g.cellList
  /-- A claim is to the location of its cell. -/
  placed : ∀ {l : Location} {k : Claim}, d.claim? l = some k → k.cell.location = l
  /-- Only populated positions are claimed. -/
  populated : ∀ {l : Location} {k : Claim}, d.claim? l = some k → l ∈ g.populated
  /-- The positions that have been entered are those where nobody was. -/
  arrived_iff : ∀ {l : Location} {k : Claim}, d.claim? l = some k →
    (k.kind = .arrived ↔ l ∉ g.occupied)
  /-- A position that has been left was occupied and is not claimed. -/
  left : ∀ {l : Location}, d.isVacated l = true → l ∈ g.occupied ∧ d.claim? l = none
  /-- Nobody who waits has left or acted. -/
  waits : ∀ {c : Cell}, c ∈ waiting →
    d.isVacated c.location = false ∧ ∀ k, d.claim? c.location = some k → k.kind ≠ .stayed

variable {w : World} {rest : List Cell} {d : Decisions}

/-- A tick starts in order. -/
theorem Orderly.start (g : Grid) : Orderly g g.cellList .none where
  called := List.suffix_refl g.cellList
  placed h := by simp at h
  populated h := by simp at h
  arrived_iff h := by simp at h
  left h := by simp at h
  waits _ := by simp

/-- The cell that is called is in the grid. -/
theorem Orderly.cellAt {g : Grid} {c : Cell} (hwf : g.WellFormed) (h : Orderly g (c :: rest) d) :
    g.cellAt c.location = some c :=
  hwf.mem_cellList_iff.mp (h.called.subset (List.mem_cons_self ..))

/-- The cells that are called later are elsewhere. -/
theorem Orderly.location_ne {g : Grid} {c c' : Cell} (hwf : g.WellFormed)
    (h : Orderly g (c :: rest) d) (hc' : c' ∈ rest) : c'.location ≠ c.location := by
  have hnodup := hwf.nodup_locations.sublist (h.called.sublist.map Cell.location)
  rw [List.map_cons, List.nodup_cons] at hnodup
  intro heq
  exact hnodup.1 (heq ▸ List.mem_map_of_mem hc')

/-- A cell may be passed over. -/
theorem Orderly.skip {g : Grid} {c : Cell} (h : Orderly g (c :: rest) d) : Orderly g rest d where
  called := (List.suffix_cons c rest).trans h.called
  placed := h.placed
  populated := h.populated
  arrived_iff := h.arrived_iff
  left := h.left
  waits hc := h.waits (List.mem_cons_of_mem c hc)

/-- A possible victim is where it is seen, and somebody was there before the tick. -/
theorem Orderly.victim? {g : Grid} {species : Nat} {l : Location} {v : Cell}
    (hwf : g.WellFormed) (h : Orderly g rest d) (hv : victim? g d species l = some v) :
    v.location = l ∧ l ∈ g.occupied ∧ l ∈ g.populated := by
  obtain ⟨⟨hvac, hstayed⟩, hcur, hne, -, -⟩ := victim?_eq_some_iff.mp hv
  rw [Decisions.current] at hcur
  cases hk : d.claim? l with
  | none =>
    rw [hk] at hcur
    exact ⟨hwf.location hcur, ⟨v, hcur, hne⟩, Grid.mem_populated hcur⟩
  | some k =>
    rw [hk] at hcur
    obtain rfl := Option.some.inj hcur
    have hocc : l ∈ g.occupied := by
      by_contra hno
      have harr := (h.arrived_iff hk).mpr hno
      rw [hstayed k hk] at harr
      cases harr
    exact ⟨h.placed hk, hocc, h.populated hk⟩

/-- The possible victim where somebody waits is that individual, as it was before the
tick. -/
theorem Orderly.victim?_waiting {g : Grid} {waiting : List Cell} {species : Nat} {c v : Cell}
    (hwf : g.WellFormed) (h : Orderly g waiting d) (hc : c ∈ waiting)
    (hv : Darwin.victim? g d species c.location = some v) : v = c := by
  obtain ⟨⟨_, hstayed⟩, hcur, _⟩ := victim?_eq_some_iff.mp hv
  have hcell := hwf.mem_cellList_iff.mp (h.called.subset hc)
  cases hk : d.claim? c.location with
  | none =>
    rw [Decisions.current, hk] at hcur
    exact Option.some.inj (hcur.symm.trans hcell)
  | some k => exact absurd (hstayed k hk) ((h.waits hc).2 k hk)

variable {ρ : Type}

/-- The cell that is converted in a turn is a possible victim where it is. -/
theorem Orderly.victim?_turn {t : Turn ρ} {v : Cell} (hwf : w.grid.WellFormed)
    (h : Orderly w.grid rest t.stage.decisions) (hv : t.victim? w = some v) :
    Darwin.victim? w.grid t.stage.decisions (t.ready w).species v.location = some v := by
  obtain ⟨l, hl⟩ := exists_victim?_of_target? hv
  have hloc := (h.victim? hwf hl).1
  rw [hloc]
  exact hl

/-- An individual that is ready for its instruction has the species of its cell, unless
the cell was infected. -/
theorem Turn.ready_species_of_healthy (w : World) (t : Turn ρ)
    (h : ∀ i, t.cell.individual? = some i → i.isInfected = false) :
    (t.ready w).species = t.cell.state := by
  have hnone : (actorOf w t.cell).individual.infection = none := by
    rw [actorOf]
    cases hi : t.cell.individual? with
    | none => rfl
    | some i => simpa [Individual.isInfected] using h i hi
  rw [Turn.ready, advanceInfection, hnone]
  rfl

/-- Nobody converts itself. -/
theorem Orderly.victim?_ne {t : Turn ρ} {v : Cell} (hwf : w.grid.WellFormed)
    (h : Orderly w.grid (t.cell :: rest) t.stage.decisions)
    (hturn : hasTurn t.stage t.cell = true) (hv : t.victim? w = some v) :
    v.location ≠ t.cell.location := by
  intro heq
  have hvic := h.victim?_turn hwf hv
  rw [heq] at hvic
  obtain ⟨-, hcur, -, hspecies, hhealthy⟩ := victim?_eq_some_iff.mp hvic
  rw [Decisions.current, (hasTurn_iff.mp hturn).2] at hcur
  have hcell := h.cellAt hwf
  obtain rfl : t.cell = v := Option.some.inj (hcell.symm.trans hcur)
  exact hspecies (Turn.ready_species_of_healthy w t hhealthy).symm

variable [WordSource ρ]

/-- A turn ends where it began or at a position where nobody was, that is populated, and
that nobody has taken or left. -/
theorem Turn.ended_location_cases (t : Turn ρ) :
    (t.ended w).location = t.cell.location ∨
      (t.stage.decisions.claim? (t.ended w).location = none ∧
        t.stage.decisions.isVacated (t.ended w).location = false ∧
        (t.ended w).location ∉ w.grid.occupied ∧ (t.ended w).location ∈ w.grid.populated) := by
  rcases t.ended_location w with hstay | ⟨hav, hempty⟩
  · exact Or.inl hstay
  · right
    rw [Decisions.isUnavailable, Bool.or_eq_false_iff,
      Decisions.isFinal_eq_isSome_claim?, Option.isSome_eq_false_iff,
      Option.isNone_iff_eq_none] at hav
    obtain ⟨c, hc, hstate⟩ := Option.map_eq_some_iff.mp hempty
    refine ⟨hav.1, hav.2, ?_, Grid.mem_populated hc⟩
    rintro ⟨c', hc', hne⟩
    obtain rfl := Option.some.inj (hc.symm.trans hc')
    simp [Cell.isEmpty, hstate] at hne

/-- Only populated positions are claimed after a turn. -/
theorem Orderly.populated_turn {s : Stage ρ} {c : Cell} {l : Location} {k : Claim}
    (hwf : w.grid.WellFormed) (h : Orderly w.grid (c :: rest) s.decisions)
    (hturn : hasTurn s c = true) (hk : (takeTurn w s c).decisions.claim? l = some k) :
    l ∈ w.grid.populated := by
  rcases claim?_takeTurn_cases hturn hk with ⟨rfl, rfl⟩ | ⟨v, hv, rfl, rfl⟩ | hold
  · rcases (Turn.mk c s).ended_location_cases (w := w) with hstay | ⟨_, _, _, hpop⟩
    · rw [hstay]
      exact Grid.mem_populated (h.cellAt hwf)
    · exact hpop
  · have hvic := h.victim?_turn (t := Turn.mk c s) hwf hv
    exact (h.victim? hwf hvic).2.2
  · exact h.populated hold

/-- Whoever arrives in a turn arrives where nobody was, and nobody else is converted or stays
there. -/
theorem Orderly.arrived_iff_turn {s : Stage ρ} {c : Cell} {l : Location} {k : Claim}
    (hwf : w.grid.WellFormed) (h : Orderly w.grid (c :: rest) s.decisions)
    (hturn : hasTurn s c = true) (hk : (takeTurn w s c).decisions.claim? l = some k) :
    k.kind = .arrived ↔ l ∉ w.grid.occupied := by
  have hocc : c.location ∈ w.grid.occupied := ⟨c, h.cellAt hwf, (hasTurn_iff.mp hturn).1⟩
  rcases claim?_takeTurn_cases hturn hk with ⟨rfl, rfl⟩ | ⟨v, hv, rfl, rfl⟩ | hold
  · rw [Turn.claim]
    rcases (Turn.mk c s).ended_location_cases (w := w) with hstay | ⟨_, _, hfree, _⟩
    · simp [hstay, hocc]
    · have hmoved : ((Turn.mk c s).ended w).location ≠ c.location := by
        intro heq
        exact hfree (heq ▸ hocc)
      simp [hmoved, hfree]
  · have hvic := h.victim?_turn (t := Turn.mk c s) hwf hv
    simp [(h.victim? hwf hvic).2.1]
  · exact h.arrived_iff hold

/-- A position is not claimed in a turn that does not end there and in which nobody there is
converted. -/
theorem claim?_takeTurn_eq_none {s : Stage ρ} {c : Cell} {l : Location}
    (hturn : hasTurn s c = true) (hend : ((Turn.mk c s).ended w).location ≠ l)
    (hvictim : ∀ v, (Turn.mk c s).victim? w = some v → v.location ≠ l)
    (hnone : s.decisions.claim? l = none) : (takeTurn w s c).decisions.claim? l = none := by
  rw [claim?_takeTurn hturn, if_neg hend]
  cases hv : (Turn.mk c s).victim? w with
  | none => exact hnone
  | some v => simp only [if_neg (hvictim v hv), hnone]

/-- A position that has been left after a turn was occupied and is not claimed. -/
theorem Orderly.left_turn {s : Stage ρ} {c : Cell} {l : Location} (hwf : w.grid.WellFormed)
    (h : Orderly w.grid (c :: rest) s.decisions) (hturn : hasTurn s c = true)
    (hl : (takeTurn w s c).decisions.isVacated l = true) :
    l ∈ w.grid.occupied ∧ (takeTurn w s c).decisions.claim? l = none := by
  obtain ⟨hne, hunclaimed⟩ := hasTurn_iff.mp hturn
  rw [isVacated_takeTurn hturn, Bool.or_eq_true, decide_eq_true_eq] at hl
  rcases hl with ⟨hmoved, rfl⟩ | hold
  · refine ⟨⟨c, h.cellAt hwf, hne⟩, claim?_takeTurn_eq_none hturn hmoved ?_ hunclaimed⟩
    exact fun v hv => h.victim?_ne (t := Turn.mk c s) hwf hturn hv
  · obtain ⟨hocc, hnone⟩ := h.left hold
    refine ⟨hocc, claim?_takeTurn_eq_none hturn ?_ ?_ hnone⟩
    · rintro rfl
      rcases (Turn.mk c s).ended_location_cases (w := w) with hstay | ⟨_, hvac, _, _⟩
      · rw [hstay, (h.waits (List.mem_cons_self ..)).1] at hold
        cases hold
      · rw [hvac] at hold
        cases hold
    · rintro v hv rfl
      have hvic := h.victim?_turn (t := Turn.mk c s) hwf hv
      rw [(available_of_victim? hvic).1] at hold
      cases hold

/-- A turn neither moves those who wait nor makes them act. -/
theorem Orderly.waits_turn {s : Stage ρ} {c c' : Cell} (hwf : w.grid.WellFormed)
    (h : Orderly w.grid (c :: rest) s.decisions) (hturn : hasTurn s c = true) (hc' : c' ∈ rest) :
    (takeTurn w s c).decisions.isVacated c'.location = false ∧
      ∀ k, (takeTurn w s c).decisions.claim? c'.location = some k → k.kind ≠ .stayed := by
  have helse := h.location_ne hwf hc'
  have hold := h.waits (List.mem_cons_of_mem c hc')
  constructor
  · rw [isVacated_takeTurn hturn, hold.1, Bool.or_false, decide_eq_false_iff_not]
    rintro ⟨_, heq⟩
    exact helse heq.symm
  · intro k hk
    rcases claim?_takeTurn_cases hturn hk with ⟨hl, rfl⟩ | ⟨v, _, _, rfl⟩ | hprev
    · have hmoved : ((Turn.mk c s).ended w).location ≠ c.location := by
        rw [hl]
        exact helse
      simp [Turn.claim, hmoved]
    · simp
    · exact hold.2 k hprev

/-- A turn keeps the order. -/
theorem Orderly.turn {s : Stage ρ} {c : Cell} (hwf : w.grid.WellFormed)
    (h : Orderly w.grid (c :: rest) s.decisions) (hturn : hasTurn s c = true) :
    Orderly w.grid rest (takeTurn w s c).decisions where
  called := (List.suffix_cons c rest).trans h.called
  placed hk := by
    rcases claim?_takeTurn_cases hturn hk with ⟨hl, rfl⟩ | ⟨v, hv, hl, rfl⟩ | hold
    · exact hl
    · exact hl
    · exact h.placed hold
  populated hk := h.populated_turn hwf hturn hk
  arrived_iff hk := h.arrived_iff_turn hwf hturn hk
  left hl := h.left_turn hwf hturn hl
  waits hc' := h.waits_turn hwf hturn hc'

/-- Calling a cell keeps the order. -/
theorem Orderly.takeTurn {s : Stage ρ} {c : Cell} (hwf : w.grid.WellFormed)
    (h : Orderly w.grid (c :: rest) s.decisions) :
    Orderly w.grid rest (takeTurn w s c).decisions := by
  by_cases hturn : hasTurn s c = true
  · exact h.turn hwf hturn
  · rw [takeTurn_of_not_hasTurn hturn]
    exact h.skip

/-- What calling one cell keeps holds after some cells have been called, and held at each
of their turns. -/
theorem stageAfter_induction {J : List Cell → Stage ρ → Prop}
    (hstep : ∀ c rest s, J (c :: rest) s → J rest (Darwin.takeTurn w s c))
    (cells waiting : List Cell) (s : Stage ρ) (h : J (cells ++ waiting) s) :
    J waiting (stageAfter w cells s) ∧
      ∀ t ∈ turnsFrom w cells s, hasTurn t.stage t.cell = true ∧
        ∃ rest, J (t.cell :: (rest ++ waiting)) t.stage := by
  induction cells generalizing s with
  | nil => exact ⟨h, by simp [turnsFrom]⟩
  | cons c cells ih =>
    obtain ⟨hend, hturns⟩ := ih (Darwin.takeTurn w s c) (hstep c (cells ++ waiting) s h)
    refine ⟨hend, ?_⟩
    intro t ht
    rw [turnsFrom] at ht
    split at ht
    next hturn =>
      rcases List.mem_cons.mp ht with rfl | hlater
      · exact ⟨hturn, cells, h⟩
      · exact hturns t hlater
    next => exact hturns t ht

/-- The order is kept while some cells are called. -/
theorem Orderly.stageAfter {s : Stage ρ} {cells waiting : List Cell} (hwf : w.grid.WellFormed)
    (h : Orderly w.grid (cells ++ waiting) s.decisions) :
    Orderly w.grid waiting (stageAfter w cells s).decisions :=
  (stageAfter_induction (J := fun waiting s => Orderly w.grid waiting s.decisions)
    (fun _ _ _ h => h.takeTurn hwf) cells waiting s h).1

/-- Each turn is taken in order. -/
theorem Orderly.of_mem_turnsFrom {s : Stage ρ} {cells waiting : List Cell} {t : Turn ρ}
    (hwf : w.grid.WellFormed) (h : Orderly w.grid (cells ++ waiting) s.decisions)
    (ht : t ∈ turnsFrom w cells s) :
    hasTurn t.stage t.cell = true ∧
      ∃ rest, Orderly w.grid (t.cell :: (rest ++ waiting)) t.stage.decisions :=
  (stageAfter_induction (J := fun waiting s => Orderly w.grid waiting s.decisions)
    (fun _ _ _ h => h.takeTurn hwf) cells waiting s h).2 t ht

omit [WordSource ρ] in
/-- A tick is in order when some of its cells are about to be called. -/
theorem Orderly.opening {g : Grid} {cells waiting : List Cell}
    (hcells : g.cellList = cells ++ waiting) (source : ρ) :
    Orderly g (cells ++ waiting) (opening source).decisions := by
  rw [← hcells]
  exact Orderly.start g

/-- A tick is in order once some of its cells have been called. -/
theorem Orderly.opened {before waiting : List Cell} (hwf : w.grid.WellFormed)
    (hcells : w.grid.cellList = before ++ waiting) (source : ρ) :
    Orderly w.grid waiting (Darwin.stageAfter w before (Darwin.opening source)).decisions :=
  (Orderly.opening hcells source).stageAfter hwf

/-- Each turn of a tick is taken in order. -/
theorem Orderly.of_mem_turns {source : ρ} {t : Turn ρ} (hwf : w.grid.WellFormed)
    (ht : t ∈ turns w source) :
    hasTurn t.stage t.cell = true ∧ ∃ rest, Orderly w.grid (t.cell :: rest) t.stage.decisions := by
  obtain ⟨hturn, rest, horder⟩ :=
    (Orderly.opening (List.append_nil _).symm source).of_mem_turnsFrom hwf ht
  exact ⟨hturn, _, horder⟩

/-- A tick ends in order. -/
theorem Orderly.finish (hwf : w.grid.WellFormed) (source : ρ) :
    Orderly w.grid [] (takeTurns w source).decisions :=
  Orderly.opened hwf (List.append_nil _).symm source

/-- A claim lasts through a turn, unless it is that of somebody who has stayed and is
converted in the turn. -/
theorem Orderly.claim?_turn {s : Stage ρ} {c : Cell} {l : Location} {k : Claim}
    (hwf : w.grid.WellFormed) (h : Orderly w.grid (c :: rest) s.decisions)
    (hturn : hasTurn s c = true) (hk : s.decisions.claim? l = some k) :
    (Darwin.takeTurn w s c).decisions.claim? l = some k ∨
      k.kind = .stayed ∧ (Turn.mk c s).victim? w = some k.cell ∧
        (Darwin.takeTurn w s c).decisions.claim? l =
          some ⟨converted w ((Turn.mk c s).ready w) k.cell, .infected⟩ := by
  have hend : ((Turn.mk c s).ended w).location ≠ l := by
    rintro rfl
    rcases (Turn.mk c s).ended_location_cases (w := w) with hstay | ⟨hnone, _⟩
    · rw [hstay, (hasTurn_iff.mp hturn).2] at hk
      cases hk
    · rw [hnone] at hk
      cases hk
  rw [claim?_takeTurn hturn, if_neg hend]
  cases hv : (Turn.mk c s).victim? w with
  | none => exact Or.inl hk
  | some v =>
    by_cases hl : v.location = l
    · have hvic := h.victim?_turn (t := Turn.mk c s) hwf hv
      rw [hl] at hvic
      obtain ⟨⟨_, hstayed⟩, hcur, _⟩ := victim?_eq_some_iff.mp hvic
      rw [Decisions.current, hk] at hcur
      obtain rfl := Option.some.inj hcur
      exact Or.inr ⟨hstayed k hk, rfl, by simp only [if_pos hl]⟩
    · exact Or.inl (by simpa only [if_neg hl] using hk)

/-- A claim lasts to the end of a tick, unless it is that of somebody who has stayed and is
converted in one of the remaining turns. -/
theorem Orderly.claim?_stageAfter {s : Stage ρ} {cells : List Cell} {l : Location} {k : Claim}
    (hwf : w.grid.WellFormed) (h : Orderly w.grid cells s.decisions)
    (hk : s.decisions.claim? l = some k) :
    (Darwin.stageAfter w cells s).decisions.claim? l = some k ∨
      k.kind = .stayed ∧ ∃ t ∈ turnsFrom w cells s, t.victim? w = some k.cell ∧
        (Darwin.stageAfter w cells s).decisions.claim? l =
          some ⟨converted w (t.ready w) k.cell, .infected⟩ := by
  induction cells generalizing s k with
  | nil => exact Or.inl hk
  | cons c cells ih =>
    rw [turnsFrom]
    by_cases hturn : hasTurn s c = true
    · rw [if_pos hturn]
      rcases h.claim?_turn hwf hturn hk with hkept | ⟨hstayed, hv, hconv⟩
      · rcases ih (h.turn hwf hturn) hkept with hlast | ⟨hstayed, t, ht, hv, hlast⟩
        · exact Or.inl hlast
        · exact Or.inr ⟨hstayed, t, List.mem_cons_of_mem _ ht, hv, hlast⟩
      · -- whoever has been converted is not converted again
        rcases ih (h.turn hwf hturn) hconv with hlast | ⟨hnot, _⟩
        · exact Or.inr ⟨hstayed, ⟨c, s⟩, List.mem_cons_self .., hv, hlast⟩
        · cases hnot
    · rw [if_neg hturn]
      have hsame := takeTurn_of_not_hasTurn (w := w) hturn
      rw [Darwin.stageAfter, List.foldl_cons, hsame]
      exact ih h.skip hk

/-- The positions that have been left after some cells were called are those that had been left
before, and those where one of their turns began that has ended elsewhere. -/
theorem isVacated_stageAfter_iff {cells : List Cell} {s : Stage ρ} {l : Location} :
    (stageAfter w cells s).decisions.isVacated l = true ↔
      s.decisions.isVacated l = true ∨
        ∃ t ∈ turnsFrom w cells s, t.cell.location = l ∧ (t.ended w).location ≠ l := by
  induction cells generalizing s with
  | nil => simp [stageAfter, turnsFrom]
  | cons c cells ih =>
    have hfirst : stageAfter w (c :: cells) s = stageAfter w cells (takeTurn w s c) := rfl
    rw [hfirst, ih, turnsFrom]
    by_cases hturn : hasTurn s c = true
    · rw [if_pos hturn, isVacated_takeTurn hturn, Bool.or_eq_true, decide_eq_true_eq,
        List.exists_mem_cons_iff]
      constructor
      · rintro ((⟨hmoved, rfl⟩ | hold) | hlater)
        · exact Or.inr (Or.inl ⟨rfl, hmoved⟩)
        · exact Or.inl hold
        · exact Or.inr (Or.inr hlater)
      · rintro (hold | ⟨rfl, hmoved⟩ | hlater)
        · exact Or.inl (Or.inr hold)
        · exact Or.inl (Or.inl ⟨hmoved, rfl⟩)
        · exact Or.inr hlater
    · rw [if_neg hturn, takeTurn_of_not_hasTurn hturn]

end CellularAutomata.Darwin
