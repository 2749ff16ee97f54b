import CellularAutomata.Proofs.Run.Rest
import CellularAutomata.Proofs.Sand.Settling

/-!
# Conservation of sand

What a tick of falling sand makes of a grid. Walls, other matter and absent positions stay
as they are, and the grains before and after the tick correspond one to one, each of them
at most one row further down. So no run gains or loses a grain.
-/

namespace CellularAutomata.Sand

variable {ρ : Type} [WordSource ρ] {g : Grid}

/-- A tick before the first grain has settled. -/
def opening {σ : Type} (g : Grid) (source : σ) : Pass σ := ⟨g.cells.map fun _ c => c.state, source⟩

/-- Where the grain at a position is after a tick. -/
def endPlace (g : Grid) (source : ρ) (l : Location) : Location :=
  landing (sweep g) (opening g source) l

/-- The grains of a tick settle in the order of the sweep. -/
theorem settleAll_eq (g : Grid) (source : ρ) :
    settleAll g source = settleFrom (sweep g) (opening g source) := rfl

omit [WordSource ρ] in
/-- A tick begins with the states of the grid. -/
theorem getElem?_opening (g : Grid) (source : ρ) (l : Location) :
    (opening g source).states[l]? = g.stateAt l := by
  rw [opening, Std.ExtTreeMap.getElem?_map]
  rfl

/-- There are states where there are cells, and those that are neither empty nor grains are
the same at the end of the tick. -/
theorem states_settleAll (g : Grid) (source : ρ) (l : Location) :
    ((settleAll g source).states[l]?).isSome = (g.cellAt l).isSome ∧
      (g.stateAt l ≠ some air → g.stateAt l ≠ some grain →
        (settleAll g source).states[l]? = g.stateAt l) := by
  have h := states_settleFrom (sweep g) (opening g source) l
  rw [getElem?_opening, ← settleAll_eq] at h
  refine ⟨?_, h.2⟩
  rw [h.1, Grid.stateAt, Option.isSome_map]

/-- A tick replaces the cells whose states have changed. -/
theorem updates_tick (g : Grid) (source : ρ) :
    (tick g source).updates = g.places fun c =>
      ((settleAll g source).states[c.location]?.filter (· ≠ c.state)).map c.withState := by
  rw [tick, Grid.places]
  refine List.filterMap_congr ?_
  intro c _
  rw [change?]
  cases (settleAll g source).states[c.location]? with
  | none => rfl
  | some state => by_cases h : state = c.state <;> simp [h]

/-- The updates of a tick can be carried out in any order. -/
theorem admits_tick (hwf : g.WellFormed) (source : ρ) : g.Admits (tick g source).updates := by
  rw [updates_tick]
  exact hwf.admits_places _

/-- After a tick each cell is in the state in which the grains have left its position, and is
otherwise as it was. -/
theorem cellAt_tick (hwf : g.WellFormed) (source : ρ) (l : Location) :
    (g.apply (tick g source).updates).cellAt l = (g.cellAt l).map fun c =>
      c.withState ((settleAll g source).states.getD l c.state) := by
  rw [updates_tick, hwf.cellAt_apply_places]
  refine Option.map_congr ?_
  intro c hc
  obtain rfl := hwf.location hc
  rw [Std.ExtTreeMap.getD_eq_getD_getElem?]
  cases (settleAll g source).states[c.location]? with
  | none => rfl
  | some state =>
    by_cases h : state = c.state
    · simp only [h, Option.filter, ne_eq, not_true_eq_false, decide_false]
      rfl
    · simp only [h, Option.filter, ne_eq, not_false_eq_true, decide_true]
      rfl

/-- After a tick the states are those in which the grains have left the positions. -/
theorem stateAt_tick (hwf : g.WellFormed) (source : ρ) (l : Location) :
    (g.apply (tick g source).updates).stateAt l = (settleAll g source).states[l]? := by
  have hsome := (states_settleAll g source l).1
  rw [Grid.stateAt, cellAt_tick hwf, Option.map_map]
  cases hstate : (settleAll g source).states[l]? with
  | none =>
    rw [hstate, Option.isSome_none] at hsome
    simpa using hsome.symm
  | some state =>
    rw [hstate, Option.isSome_some] at hsome
    obtain ⟨c, hc⟩ := Option.isSome_iff_exists.mp hsome.symm
    have hthere : (settleAll g source).states.getD l c.state = state := by
      rw [Std.ExtTreeMap.getD_eq_getD_getElem?, hstate]
      rfl
    rw [hc]
    exact congrArg some hthere

/-- What is neither empty nor a grain stays as it is in a tick. -/
theorem cellAt_tick_of_other (hwf : g.WellFormed) (source : ρ) {l : Location}
    (hair : g.stateAt l ≠ some air) (hgrain : g.stateAt l ≠ some grain) :
    (g.apply (tick g source).updates).cellAt l = g.cellAt l := by
  rw [cellAt_tick hwf]
  cases hc : g.cellAt l with
  | none => rfl
  | some c =>
    have hthere : (settleAll g source).states.getD l c.state = c.state := by
      rw [Std.ExtTreeMap.getD_eq_getD_getElem?, (states_settleAll g source l).2 hair hgrain,
        Grid.stateAt_of_cellAt hc]
      rfl
    rw [Option.map_some, hthere]
    rfl

/-- A tick takes the grains one to one to the grains after it. -/
theorem bijOn_tick (hwf : g.WellFormed) (source : ρ) :
    Set.BijOn (endPlace g source) {l | g.stateAt l = some grain}
      {l | (g.apply (tick g source).updates).stateAt l = some grain} := by
  have h := (upward_sweep g).bijOn_landing (opening g source)
  simp only [Pass.grains, getElem?_opening, ← settleAll_eq] at h
  simp only [stateAt_tick hwf]
  exact h

/-- A grain ends where it was or in the row below. -/
theorem endPlace_eq_or_mem_lower (g : Grid) (source : ρ) (l : Location) :
    endPlace g source l = l ∨ endPlace g source l ∈ lower l :=
  landing_eq_or_mem_lower (sweep g) (opening g source) l

variable {r : Rules} {s : Simulation ρ}

/-- The next tick of falling sand is a tick of its grid. -/
theorem advance_step (hr : s.rules = .sand r) :
    s.step.simulation.grid = s.grid.apply (tick s.grid s.source).updates ∧
      s.step.simulation.source = (tick s.grid s.source).source := by
  change (s.rules.advance s.grid s.source).grid = _ ∧ (s.rules.advance s.grid s.source).source = _
  rw [hr]
  exact ⟨rfl, rfl⟩

/-- A tick keeps the number of grains. -/
theorem countState_grain_tick (hwf : g.WellFormed) (source : ρ) :
    (g.apply (tick g source).updates).countState grain = g.countState grain := by
  rw [(hwf.apply _).countState_eq_ncard, hwf.countState_eq_ncard,
    (bijOn_tick hwf source).ncard_eq]

/-- A run keeps the number of grains. -/
theorem countState_grain_after (hr : s.rules = .sand r) (hwf : s.grid.WellFormed) (n : Nat) :
    (s.after n).grid.countState grain = s.grid.countState grain := by
  induction n with
  | zero => rfl
  | succ n ih =>
    have hgrid := (advance_step ((s.rules_after n).trans hr)).1
    rw [Simulation.after, hgrid, ← ih]
    exact countState_grain_tick (Simulation.wellFormed_after hwf n) _

/-- In a tick of falling sand whatever is neither empty nor a grain stays as it is, absent
positions included. The grains before and after the tick correspond one to one; each of them
is where it was, or one row further down on the grid, straight or to one side. Hence every run
keeps the number of grains. -/
theorem grains_conserved (hr : s.rules = .sand r) (hwf : s.grid.WellFormed) :
    (∀ l, s.grid.stateAt l ≠ some air → s.grid.stateAt l ≠ some grain →
      s.step.simulation.grid.cellAt l = s.grid.cellAt l) ∧
    (∀ l, s.step.simulation.grid.cellAt l = none ↔ s.grid.cellAt l = none) ∧
    Set.BijOn (endPlace s.grid s.source) {l | s.grid.stateAt l = some grain}
      {l | s.step.simulation.grid.stateAt l = some grain} ∧
    (∀ l, s.grid.stateAt l = some grain → s.grid.inBounds (endPlace s.grid s.source l) = true ∧
      (endPlace s.grid s.source l = l ∨ endPlace s.grid s.source l = ⟨l.row + 1, l.col⟩ ∨
        endPlace s.grid s.source l = ⟨l.row + 1, l.col - 1⟩ ∨
        endPlace s.grid s.source l = ⟨l.row + 1, l.col + 1⟩)) ∧
    ∀ n, (s.after n).grid.countState grain = s.grid.countState grain := by
  have hbij := bijOn_tick hwf s.source
  rw [(advance_step hr).1]
  refine ⟨fun l => cellAt_tick_of_other hwf s.source, ?_, hbij, ?_, countState_grain_after hr hwf⟩
  · intro l
    have hsome := s.grid.isSome_cellAt_apply (tick s.grid s.source).updates l
    rw [← Option.isNone_iff_eq_none, ← Option.isNone_iff_eq_none, ← Option.not_isSome,
      ← Option.not_isSome, hsome]
  · intro l hl
    have hend : (s.grid.apply (tick s.grid s.source).updates).stateAt
        (endPlace s.grid s.source l) = some grain := hbij.mapsTo hl
    obtain ⟨c, hc, -⟩ := Option.map_eq_some_iff.mp hend
    obtain ⟨hrows, hcols, -⟩ := s.grid.apply_dimensions (tick s.grid s.source).updates
    have hin := (hwf.apply _).inBounds hc
    rw [Grid.inBounds_congr hrows hcols] at hin
    refine ⟨hin, (endPlace_eq_or_mem_lower s.grid s.source l).imp_right ?_⟩
    intro hlower
    simpa [lower, Location.offset, Int.sub_eq_add_neg] using hlower

/-- Two grains above each other on a wall, with a shaft beside the wall; nothing else is
populated. -/
def slope : Grid :=
  ((((Grid.empty 3 2 .fixed).add (.plain grain ⟨0, 0⟩)).add (.plain grain ⟨1, 0⟩)).add
    (.plain wall ⟨2, 0⟩)).add (.plain air ⟨2, 1⟩)

/-- A run of the slope. -/
def slopeRun : Simulation KeyStream := .new slope (.sand ⟨0⟩) (Seed.source 0)

/-- The slope is built cell by cell. -/
theorem wellFormed_slope : slope.WellFormed :=
  ((((Grid.wellFormed_empty 3 2 .fixed).add _).add _).add _).add _

/-- On the slope the lower grain slides into the shaft and the upper one takes its place, and no
grain is gained or lost. -/
theorem slope_grains_conserved :
    slopeRun.rules = .sand ⟨0⟩ ∧ slopeRun.grid.WellFormed ∧
      endPlace slopeRun.grid slopeRun.source ⟨1, 0⟩ = ⟨2, 1⟩ ∧
      endPlace slopeRun.grid slopeRun.source ⟨0, 0⟩ = ⟨1, 0⟩ ∧
      Set.BijOn (endPlace slopeRun.grid slopeRun.source)
        {l | slopeRun.grid.stateAt l = some grain}
        {l | slopeRun.step.simulation.grid.stateAt l = some grain} ∧
      (slopeRun.after 3).grid.countState grain = slopeRun.grid.countState grain := by
  have hends : endPlace slopeRun.grid slopeRun.source ⟨1, 0⟩ = ⟨2, 1⟩ ∧
      endPlace slopeRun.grid slopeRun.source ⟨0, 0⟩ = ⟨1, 0⟩ := by
    decide +kernel
  obtain ⟨-, -, hbij, -, hcount⟩ := grains_conserved (s := slopeRun) rfl wellFormed_slope
  exact ⟨rfl, wellFormed_slope, hends.1, hends.2, hbij, hcount 3⟩

end CellularAutomata.Sand
