import CellularAutomata.Proofs.Sand.Matter
import Mathlib.Algebra.Order.BigOperators.Group.List

/-!
# Sand at rest

Every grain that moves comes down by one row, so the height of all grains together goes
down by the number of grains that move, and sand cannot move for longer than that. A tick
without updates is one in which no grain has moved, although a column that falls together
shows only at its ends; then nothing has been drawn either, and nothing ever moves again.
-/

namespace CellularAutomata.Sand

variable {g : Grid}

/-- The positions of the grains in row-major order. -/
def grains (g : Grid) : List Location :=
  (g.cellList.filter fun c => c.state == grain).map Cell.location

/-- How many rows all grains together are above the bottom row. -/
def height (g : Grid) : Int := ((grains g).map fun l => g.rows - 1 - l.row).sum

/-- Each grain is listed where it is. -/
theorem mem_grains (hwf : g.WellFormed) {l : Location} :
    l ∈ grains g ↔ g.stateAt l = some grain := by
  simp only [grains, List.mem_map, List.mem_filter, beq_iff_eq, hwf.mem_cellList_iff,
    Grid.stateAt, Option.map_eq_some_iff]
  constructor
  · rintro ⟨c, ⟨hc, hgrain⟩, rfl⟩
    exact ⟨c, hc, hgrain⟩
  · rintro ⟨c, hc, hgrain⟩
    obtain rfl := hwf.location hc
    exact ⟨c, ⟨hc, hgrain⟩, rfl⟩

/-- No grain is listed twice. -/
theorem nodup_grains (hwf : g.WellFormed) : (grains g).Nodup :=
  hwf.nodup_locations.sublist (List.filter_sublist.map Cell.location)

/-- No grain is below the bottom row. -/
theorem height_nonneg (hwf : g.WellFormed) : 0 ≤ height g := by
  refine List.sum_nonneg ?_
  intro h hh
  obtain ⟨l, hl, rfl⟩ := List.mem_map.mp hh
  obtain ⟨c, hc, -⟩ := Option.map_eq_some_iff.mp ((mem_grains hwf).mp hl)
  have hin := Grid.mem_positions.mp (Grid.inBounds_iff_mem_positions.mp (hwf.inBounds hc))
  omega

/-- If some positions come down by a row and the others stay, then their height goes down by
the number of those that come down. -/
theorem sum_height_fall (rows : Int) (fall : Location → Location)
    (hfall : ∀ l, fall l = l ∨ fall l ∈ lower l) (ls : List Location) :
    (ls.map fun l => rows - 1 - (fall l).row).sum =
      (ls.map fun l => rows - 1 - l.row).sum - ls.countP fun l => fall l ≠ l := by
  induction ls with
  | nil => rfl
  | cons l ls ih =>
    rw [List.map_cons, List.sum_cons, List.map_cons, List.sum_cons, ih]
    rcases hfall l with hstay | hlower
    · rw [List.countP_cons_of_neg (by simpa using hstay), hstay]
      omega
    · have hrow := row_of_mem_lower hlower
      have hne : fall l ≠ l := ne_of_mem_lower hlower
      rw [List.countP_cons_of_pos (by simpa using hne), hrow]
      push_cast
      omega

variable {ρ : Type} [WordSource ρ]

/-- How many grains move in a tick. -/
def moved (g : Grid) (source : ρ) : Nat := (grains g).countP fun l => endPlace g source l ≠ l

/-- The grains after a tick are those before it, each where it has ended. -/
theorem perm_grains_tick (hwf : g.WellFormed) (source : ρ) :
    (grains (g.apply (tick g source).updates)).Perm ((grains g).map (endPlace g source)) := by
  have hbij := bijOn_tick hwf source
  have hafter := hwf.apply (tick g source).updates
  refine (List.perm_ext_iff_of_nodup (nodup_grains hafter) ?_).mpr ?_
  · refine (List.nodup_map_iff_inj_on (nodup_grains hwf)).mpr ?_
    intro a ha b hb hab
    exact hbij.injOn ((mem_grains hwf).mp ha) ((mem_grains hwf).mp hb) hab
  · intro l
    rw [mem_grains hafter, List.mem_map]
    constructor
    · intro hl
      obtain ⟨l', hl', heq⟩ := hbij.surjOn hl
      exact ⟨l', (mem_grains hwf).mpr hl', heq⟩
    · rintro ⟨l', hl', rfl⟩
      exact hbij.mapsTo ((mem_grains hwf).mp hl')

/-- The height goes down by one for each grain that moves. -/
theorem height_tick (hwf : g.WellFormed) (source : ρ) :
    height (g.apply (tick g source).updates) = height g - moved g source := by
  have hrows := (g.apply_dimensions (tick g source).updates).1
  rw [height, ((perm_grains_tick hwf source).map _).sum_eq, List.map_map, hrows]
  exact sum_height_fall g.rows (endPlace g source) (endPlace_eq_or_mem_lower g source) (grains g)

/-- If no grain moves, then the pass ends as it began, and no grain could have moved. -/
theorem settleAll_of_moved_eq_zero (hwf : g.WellFormed) {source : ρ} (h : moved g source = 0) :
    settleAll g source = opening g source ∧
      ∀ l, g.stateAt l = some grain → ∀ b ∈ lower l, g.stateAt b ≠ some air := by
  rw [moved, List.countP_eq_zero] at h
  have hstay : ∀ l ∈ (opening g source).grains, endPlace g source l = l := by
    intro l hl
    have hgrain : (opening g source).states[l]? = some grain := hl
    rw [getElem?_opening] at hgrain
    simpa using h l ((mem_grains hwf).mpr hgrain)
  obtain ⟨hsame, hblocked⟩ := (upward_sweep g).settleFrom_eq_self hstay
  refine ⟨hsame, ?_⟩
  intro l hl b hb hair
  obtain ⟨c, hc, -⟩ := Option.map_eq_some_iff.mp hl
  have hswept : l ∈ sweep g := mem_sweep.mpr (by rw [hc]; rfl)
  have hfree := hblocked l hswept (by rw [getElem?_opening]; exact hl) b hb
  rw [Bool.eq_false_iff, Ne, isFree_iff, getElem?_opening] at hfree
  exact hfree hair

/-- There are no updates just when no grain moves. -/
theorem updates_tick_eq_nil_iff (hwf : g.WellFormed) (source : ρ) :
    (tick g source).updates = [] ↔ moved g source = 0 := by
  constructor
  · intro hnone
    have hheight := height_tick hwf source
    rw [hnone, Grid.apply_nil] at hheight
    omega
  · intro hmoved
    rw [updates_tick, Grid.places, List.filterMap_eq_nil_iff]
    intro c hc
    rw [(settleAll_of_moved_eq_zero hwf hmoved).1, getElem?_opening,
      Grid.stateAt_of_cellAt (hwf.mem_cellList_iff.mp hc)]
    simp

variable {r : Rules} {s : Simulation ρ}

/-- Falling sand rests just when its next tick has no updates. -/
theorem resting_iff (hr : s.rules = .sand r) (hwf : s.grid.WellFormed) :
    s.Resting ↔ s.upcoming.updates = [] := by
  obtain ⟨hgrid, hsource⟩ := advance_step hr
  have hupcoming : s.upcoming = tick s.grid s.source := by
    rw [Simulation.upcoming, hr]
    rfl
  rw [hupcoming]
  constructor
  · intro hrest
    have hheight := height_tick hwf s.source
    rw [← hgrid, hrest.grid] at hheight
    rw [updates_tick_eq_nil_iff hwf]
    omega
  · intro hnone
    refine ⟨?_, ?_⟩
    · rw [hgrid, hnone, Grid.apply_nil]
    · have hmoved := (updates_tick_eq_nil_iff hwf s.source).mp hnone
      rw [hsource, tick, (settleAll_of_moved_eq_zero hwf hmoved).1]
      rfl

/-- As long as sand does not rest, grains move. -/
theorem moved_pos (hr : s.rules = .sand r) (hwf : s.grid.WellFormed) (h : ¬ s.Resting) :
    0 < moved s.grid s.source := by
  rw [resting_iff hr hwf, Simulation.upcoming, hr] at h
  exact Nat.pos_of_ne_zero fun hzero => h ((updates_tick_eq_nil_iff hwf s.source).mpr hzero)

/-- A tick of falling sand that has updates lowers the height of all grains together by the
number of grains that move, and some do; so within as many ticks as this height there is one
without updates. Such a tick draws nothing and leaves the grid as it is, the ticks after it
have no updates either, and no grain is above an empty cell, straight or to one side. -/
theorem comes_to_rest (hr : s.rules = .sand r) (hwf : s.grid.WellFormed) :
    (s.upcoming.updates ≠ [] → 0 < moved s.grid s.source ∧
      height s.step.simulation.grid = height s.grid - moved s.grid s.source) ∧
    (∃ n : Nat, (n : Int) ≤ height s.grid ∧ (s.after n).upcoming.updates = []) ∧
    (s.upcoming.updates = [] →
      s.upcoming.source = s.source ∧ s.step.simulation.grid = s.grid ∧
      (∀ n, (s.after n).upcoming.updates = []) ∧
      ∀ l, s.grid.stateAt l = some grain → ∀ b ∈ lower l, s.grid.stateAt b ≠ some air) := by
  have hrules : ∀ n, (s.after n).rules = .sand r := fun n => (s.rules_after n).trans hr
  have hwell : ∀ n, (s.after n).grid.WellFormed := Simulation.wellFormed_after hwf
  refine ⟨?_, ?_, ?_⟩
  · intro hsome
    refine ⟨moved_pos hr hwf fun hrest => hsome ((resting_iff hr hwf).mp hrest), ?_⟩
    rw [(advance_step hr).1]
    exact height_tick hwf s.source
  · have hrest : ∃ n ≤ (height s.grid).toNat, (s.after n).Resting := by
      refine Simulation.exists_resting_le (fun g => (height g).toNat) ?_
      intro n hmoving
      have hpos := moved_pos (hrules n) (hwell n) hmoving
      have hheight := height_tick (hwell n) (s.after n).source
      have hafter := height_nonneg (hwell (n + 1))
      rw [← (advance_step (hrules n)).1] at hheight
      rw [Simulation.after] at hafter ⊢
      omega
    obtain ⟨n, hn, hrest⟩ := hrest
    refine ⟨n, ?_, (resting_iff (hrules n) (hwell n)).mp hrest⟩
    have hpos := height_nonneg hwf
    omega
  · intro hnone
    have hrest := (resting_iff hr hwf).mpr hnone
    have hsource : s.upcoming.source = s.source := hrest.source
    refine ⟨hsource, hrest.grid, ?_, ?_⟩
    · intro n
      obtain ⟨hgrid, hsource⟩ := hrest.after n
      rw [Simulation.upcoming, s.rules_after, hgrid, hsource]
      exact hnone
    · rw [Simulation.upcoming, hr] at hnone
      exact (settleAll_of_moved_eq_zero hwf ((updates_tick_eq_nil_iff hwf s.source).mp hnone)).2

/-- On the slope both grains move in the first tick, which lowers the height from three to one,
and then the slope is at rest for good. -/
theorem slope_comes_to_rest :
    slopeRun.grid.WellFormed ∧ slopeRun.upcoming.updates ≠ [] ∧
      height slopeRun.grid = 3 ∧ moved slopeRun.grid slopeRun.source = 2 ∧
      height slopeRun.step.simulation.grid = 1 ∧
      (slopeRun.after 1).upcoming.updates = [] ∧
      ∀ n, ((slopeRun.after 1).after n).upcoming.updates = [] := by
  have hfacts : slopeRun.upcoming.updates ≠ [] ∧ height slopeRun.grid = 3 ∧
      moved slopeRun.grid slopeRun.source = 2 ∧ (slopeRun.after 1).upcoming.updates = [] := by
    decide +kernel
  obtain ⟨hsome, hheight, hmoved, hnone⟩ := hfacts
  have hfirst := (comes_to_rest (s := slopeRun) rfl wellFormed_slope).1 hsome
  have hsecond := (comes_to_rest (s := slopeRun.after 1) rfl
    (Simulation.wellFormed_after wellFormed_slope 1)).2.2 hnone
  refine ⟨wellFormed_slope, hsome, hheight, hmoved, ?_, hnone, hsecond.2.2.1⟩
  rw [hfirst.2, hheight, hmoved]
  rfl

end CellularAutomata.Sand
