import CellularAutomata.Proofs.Darwin.Infection

/-!
# What individuals see

An individual looks at the grid before the tick through what has been decided since. It
sees what it would see on the grid as decided, if nothing were decided there: final
occupants, positions that have been left, and everything else as it was. This holds at
every moment of every turn, also between a conversion and the end of the turn.
-/

namespace CellularAutomata.Darwin

/-- What is seen at a location of a grid on which nothing has been decided yet. -/
def look (g : Grid) (l : Location) : View :=
  match g.resolve l with
  | none => .wall
  | some position =>
    match g.cellAt position with
    | none => .wall
    | some cell => if cell.isEmpty then .empty else .occupied cell

variable {g : Grid} {d : Decisions} {l : Location}

/-- A wall is seen where no position is reached, or one without a cell. -/
theorem look_eq_wall_iff :
    look g l = .wall ↔ ∀ position, g.resolve l = some position → g.cellAt position = none := by
  rw [look]
  cases g.resolve l with
  | none => simp
  | some position =>
    simp only [Option.some.injEq, forall_eq']
    cases g.cellAt position with
    | none => simp
    | some cell => by_cases hempty : cell.isEmpty = true <;> simp [hempty]

/-- An empty position is seen where a cell is reached whose state is that of empty cells. -/
theorem look_eq_empty_iff :
    look g l = .empty ↔
      ∃ position, g.resolve l = some position ∧ g.stateAt position = some emptyState := by
  rw [look]
  cases g.resolve l with
  | none => simp
  | some position =>
    simp only [Option.some.injEq, exists_eq_left', Grid.stateAt]
    cases g.cellAt position with
    | none => simp
    | some cell => by_cases hstate : cell.state = emptyState <;> simp [Cell.isEmpty, hstate]

/-- Somebody is seen where a cell in another state is reached, and it is that cell. -/
theorem look_eq_occupied_iff {cell : Cell} :
    look g l = .occupied cell ↔ ∃ position, g.resolve l = some position ∧
      g.cellAt position = some cell ∧ cell.state ≠ emptyState := by
  rw [look]
  cases g.resolve l with
  | none => simp
  | some position =>
    simp only [Option.some.injEq, exists_eq_left']
    cases g.cellAt position with
    | none => simp
    | some other =>
      by_cases hstate : other.state = emptyState
      · simp only [Cell.isEmpty, hstate, beq_self_eq_true, if_true, reduceCtorEq, false_iff,
          not_and, Option.some.injEq]
        intro hcell
        rw [← hcell]
        exact not_not.mpr hstate
      · have hother : other.isEmpty = false := by simpa [Cell.isEmpty] using hstate
        simp only [hother, Bool.false_eq_true, if_false, View.occupied.injEq, Option.some.injEq]
        constructor
        · intro hcell
          exact ⟨hcell, hcell ▸ hstate⟩
        · exact fun h => h.1

/-- On the grid as decided a position holds its final occupant, or nobody if it has been
left, or else what it held before. -/
theorem Decisions.Grounded.cellAt_shown (h : d.Grounded g) (l : Location) :
    (d.shown g).cellAt l =
      if d.isVacated l && !d.isFinal l then some (.empty l) else d.current g l := by
  rw [Decisions.cellAt_shown, Decisions.current, Decisions.isFinal_eq_isSome_claim?]
  cases hclaim : d.claim? l with
  | some k =>
    obtain ⟨old, hold⟩ := Option.isSome_iff_exists.mp (h.claimed hclaim)
    have hplaced : k.cell.movedTo l = k.cell := by
      rw [← h.placed hclaim]
      rfl
    simp [hold, hplaced]
  | none =>
    by_cases hleft : d.isVacated l = true
    · obtain ⟨old, hold⟩ := Option.isSome_iff_exists.mp (h.vacated hleft)
      simp [hold, hleft]
    · simp [hleft]

/-- What is seen through decisions is what is seen on the grid as decided. -/
theorem Decisions.Grounded.view_eq_look (h : d.Grounded g) (l : Location) :
    d.view g l = look (d.shown g) l := by
  have hdimensions := g.apply_dimensions d.updates
  have hresolve : (d.shown g).resolve l = g.resolve l :=
    Grid.resolve_congr hdimensions.1 hdimensions.2.1 hdimensions.2.2 l
  rw [Decisions.view, look, hresolve]
  cases g.resolve l with
  | none => rfl
  | some position =>
    dsimp only
    rw [h.cellAt_shown position]
    by_cases hleft : (d.isVacated position && !d.isFinal position) = true
    · rw [if_pos hleft, if_pos hleft]
      rfl
    · cases d.current g position with
      | none => rw [if_neg hleft, if_neg hleft]
      | some cell => rw [if_neg hleft, if_neg hleft]

/-- Decisions stay grounded when a cell takes the populated position where it is. -/
theorem Decisions.Grounded.occupy (h : d.Grounded g) {cell : Cell}
    (hcell : cell.location ∈ g.populated) (kind : ClaimKind) :
    (d.occupy cell kind).Grounded g where
  placed {l k} hk := by
    rw [Decisions.claim?_occupy] at hk
    split at hk
    next hl => exact Option.some.inj hk ▸ hl
    next => exact h.placed hk
  claimed {l k} hk := by
    rw [Decisions.claim?_occupy] at hk
    split at hk
    next hl => exact hl ▸ hcell
    next => exact h.claimed hk
  vacated hleft := h.vacated hleft

/-- Decisions stay grounded when a populated position is left. -/
theorem Decisions.Grounded.vacate (h : d.Grounded g) (hl : l ∈ g.populated) :
    (d.vacate l).Grounded g where
  placed hk := h.placed hk
  claimed hk := h.claimed hk
  vacated {l'} hleft := by
    rw [Decisions.isVacated_vacate, Bool.or_eq_true, decide_eq_true_eq] at hleft
    rcases hleft with heq | hold
    · exact heq ▸ hl
    · exact h.vacated hold

variable {ρ : Type} [WordSource ρ] {w : World} {t : Turn ρ}

/-- What has been decided at the moments of a turn. -/
inductive Turn.Moment (w : World) (t : Turn ρ) : Decisions → Prop where
  /-- The turn begins; here the individual looks and acts. -/
  | begun : Moment w t t.stage.decisions
  /-- The instruction has been carried out. -/
  | acted : Moment w t (act w t.cell t.stage).2.decisions
  /-- The individual has gone elsewhere and is leaving its position. -/
  | departed (h : (t.ended w).location ≠ t.cell.location) :
      Moment w t ((act w t.cell t.stage).2.decisions.vacate t.cell.location)
  /-- The turn has been concluded. -/
  | concluded : Moment w t (takeTurn w t.stage t.cell).decisions

/-- An instruction leaves decisions grounded. -/
theorem Orderly.grounded_act {rest : List Cell} (hwf : w.grid.WellFormed)
    (h : Orderly w.grid rest t.stage.decisions) :
    (act w t.cell t.stage).2.decisions.Grounded w.grid := by
  rw [t.decisions_act w]
  cases hv : t.victim? w with
  | none => exact h.grounded
  | some v =>
    have hvictim := h.victim? hwf (h.victim?_turn hwf hv)
    have hplace : (converted w (t.ready w) v).location ∈ w.grid.populated := hvictim.2.2
    exact h.grounded.occupy hplace .infected

/-- At every moment of a turn what has been decided is grounded. -/
theorem Turn.Moment.grounded {rest : List Cell} (hwf : w.grid.WellFormed)
    (h : Orderly w.grid (t.cell :: rest) t.stage.decisions) (hmoment : t.Moment w d) :
    d.Grounded w.grid := by
  cases hmoment with
  | begun => exact h.grounded
  | acted => exact h.grounded_act hwf
  | departed =>
    have hcell := Grid.mem_populated (h.cellAt hwf)
    exact (h.grounded_act hwf).vacate hcell
  | concluded => exact (h.takeTurn hwf).grounded

/-- At every moment of every turn of a reachable Darwin world, what is seen at a location, on
the grid or beyond its edge, is what the grid holds on which everything that has been decided
until then is carried out: a wall where no position is reached or one without a cell, an empty
position where the cell has the state of empty cells, and otherwise the cell itself. After the
last turn that grid is the next one. -/
theorem view_shows_decided {c : Configuration} {s : Simulation ρ} {r : Rules}
    (hs : Simulation.Reachable c s) (hr : s.rules = .darwin r) :
    (∀ t ∈ turns (r.world s.grid) s.source, ∀ d, t.Moment (r.world s.grid) d → ∀ l,
      (d.view s.grid l = .wall ↔ ∀ position, (s.grid.apply d.updates).resolve l = some position →
        (s.grid.apply d.updates).cellAt position = none) ∧
      (d.view s.grid l = .empty ↔ ∃ position,
        (s.grid.apply d.updates).resolve l = some position ∧
          (s.grid.apply d.updates).stateAt position = some emptyState) ∧
      ∀ cell, d.view s.grid l = .occupied cell ↔ ∃ position,
        (s.grid.apply d.updates).resolve l = some position ∧
          (s.grid.apply d.updates).cellAt position = some cell ∧ cell.state ≠ emptyState) ∧
    s.step.simulation.grid =
      s.grid.apply (takeTurns (r.world s.grid) s.source).decisions.updates := by
  have hwf : (r.world s.grid).grid.WellFormed := hs.wellFormed
  refine ⟨?_, grid_step hr⟩
  intro t ht d hmoment l
  have hturn := Orderly.of_mem_turns hwf ht
  obtain ⟨rest, horder⟩ := hturn.2
  have hview : d.view s.grid l = look (s.grid.apply d.updates) l :=
    (hmoment.grounded hwf horder).view_eq_look l
  rw [hview]
  exact ⟨look_eq_wall_iff, look_eq_empty_iff, fun cell => look_eq_occupied_iff⟩

/-- In the first tick of the duel somebody is converted. When this has been done and the turn of
the infector has not been concluded, those who are seen are those on the grid as decided. -/
theorem duel_view_shows_decided :
    ∃ (s : Simulation KeyStream) (r : Rules) (t : Turn KeyStream) (v : Cell) (d : Decisions),
      Simulation.Reachable duel s ∧ s.rules = .darwin r ∧
      t ∈ turns (r.world s.grid) s.source ∧ t.victim? (r.world s.grid) = some v ∧
      t.Moment (r.world s.grid) d ∧ ∀ l cell, d.view s.grid l = .occupied cell ↔ ∃ position,
        (s.grid.apply d.updates).resolve l = some position ∧
          (s.grid.apply d.updates).cellAt position = some cell ∧ cell.state ≠ emptyState := by
  obtain ⟨s, r, t, v, hs, hr, ht, hv⟩ := exists_converted_in_duel
  have hreach : Simulation.Reachable duel s := Simulation.Reachable.start hs s.source
  have hshown := (view_shows_decided hreach hr).1 t ht _ .acted
  exact ⟨s, r, t, v, _, hreach, hr, ht, hv, .acted, fun l => (hshown l).2.2⟩

end CellularAutomata.Darwin
