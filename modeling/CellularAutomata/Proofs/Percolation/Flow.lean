import CellularAutomata.Proofs.Grid.Chains
import CellularAutomata.Proofs.Grid.Updates
import CellularAutomata.Proofs.Run.Rest

/-!
# Flow of the fluid

Which positions the fluid has reached after some ticks: just those from which a chain of
open positions, at most as long as the number of ticks, leads to the top row or to a
position that was filled at the start. A tick that changes the grid fills an open position,
so the fluid stands still after as many ticks as there are open positions.
-/

namespace CellularAutomata.Percolation

variable {ρ : Type} [WordSource ρ] {r : Rules} {s : Simulation ρ} {p : Location}

/-- Where the fluid comes in: in the top row and beside filled positions. -/
def Rules.Inlet (r : Rules) (g : Grid) (q : Location) : Prop :=
  q.row = 0 ∨ ∃ b ∈ r.policy.neighborLocations g q, g.stateAt b = some filled

/-- A tick of percolation puts each cell into its next state and draws nothing. -/
theorem advance_step (hr : s.rules = .percolation r) (hwf : s.grid.WellFormed) :
    (∀ l, s.step.simulation.grid.cellAt l =
      (s.grid.cellAt l).map fun c => c.withState (r.nextState s.grid c)) ∧
    s.step.simulation.source = s.source := by
  have htick : s.rules.tick s.grid s.source =
      Tick.cellwise (fun c source => (r.nextState s.grid c, source)) s.grid s.source := by
    rw [hr]
    rfl
  constructor
  · intro l
    change (s.grid.apply (s.rules.tick s.grid s.source).updates).cellAt l = _
    rw [htick]
    exact Tick.cellAt_apply_cellwise hwf (r.nextState s.grid) s.source l
  · change (s.rules.tick s.grid s.source).source = _
    rw [htick]
    exact Tick.snd_replacing (r.nextState s.grid) s.grid.cellList s.source

/-- The next state of a cell is filled just when the cell is filled, or open and at an inlet. -/
theorem Rules.nextState_eq_filled_iff (r : Rules) (g : Grid) (c : Cell) :
    r.nextState g c = filled ↔
      c.state = filled ∨ c.state = opened ∧ r.Inlet g c.location := by
  rw [nextState, Inlet, ← NeighborPolicy.countInState_pos_iff]
  split
  next h => simp [h]
  next h => simp [h]

/-- A cell that is not filled next keeps its state. -/
theorem Rules.nextState_of_ne_filled {r : Rules} {g : Grid} {c : Cell}
    (h : r.nextState g c ≠ filled) : r.nextState g c = c.state := by
  rw [nextState] at h ⊢
  split at h
  next => exact absurd rfl h
  next hkept => rw [if_neg hkept]

/-- After a tick a position is filled just when it was filled, or open and at an inlet. -/
theorem stateAt_step_eq_filled_iff (hr : s.rules = .percolation r) (hwf : s.grid.WellFormed) :
    s.step.simulation.grid.stateAt p = some filled ↔
      s.grid.stateAt p = some filled ∨ s.grid.stateAt p = some opened ∧ r.Inlet s.grid p := by
  rw [Grid.stateAt, (advance_step hr hwf).1]
  cases hc : s.grid.cellAt p with
  | none => simp [Grid.stateAt, hc]
  | some c =>
    obtain rfl := hwf.location hc
    rw [Grid.stateAt_of_cellAt hc, Option.some.injEq, Option.some.injEq]
    exact Option.some_inj.trans (r.nextState_eq_filled_iff s.grid c)

/-- A position that is not filled after a tick keeps its cell. -/
theorem cellAt_step_of_ne_filled (hr : s.rules = .percolation r) (hwf : s.grid.WellFormed)
    (h : s.step.simulation.grid.stateAt p ≠ some filled) :
    s.step.simulation.grid.cellAt p = s.grid.cellAt p := by
  rw [Grid.stateAt, (advance_step hr hwf).1] at h
  rw [(advance_step hr hwf).1]
  cases hc : s.grid.cellAt p with
  | none => rfl
  | some c =>
    rw [hc] at h
    have hkept : r.nextState s.grid c = c.state :=
      Rules.nextState_of_ne_filled fun heq => h (congrArg some heq)
    rw [Option.map_some, hkept]
    rfl

/-- What is not filled after some ticks is as it was at the start. -/
theorem cellAt_after_of_ne_filled (hr : s.rules = .percolation r) (hwf : s.grid.WellFormed)
    {k : Nat} (h : (s.after k).grid.stateAt p ≠ some filled) :
    (s.after k).grid.cellAt p = s.grid.cellAt p := by
  induction k with
  | zero => rfl
  | succ k ih =>
    have hrules := (s.rules_after k).trans hr
    have hwell := Simulation.wellFormed_after hwf k
    have hbefore : (s.after k).grid.stateAt p ≠ some filled := fun hfilled =>
      h ((stateAt_step_eq_filled_iff hrules hwell).mpr (Or.inl hfilled))
    rw [← ih hbefore]
    exact cellAt_step_of_ne_filled hrules hwell h

/-- A position that is open after some ticks was open at the start, and one that was open is
open or filled. -/
theorem stateAt_after_eq_opened_iff (hr : s.rules = .percolation r) (hwf : s.grid.WellFormed)
    {k : Nat} : (s.after k).grid.stateAt p = some opened ↔
      s.grid.stateAt p = some opened ∧ (s.after k).grid.stateAt p ≠ some filled := by
  by_cases hfilled : (s.after k).grid.stateAt p = some filled
  · simp [hfilled, filled, opened]
  · have hsame : (s.after k).grid.stateAt p = s.grid.stateAt p := by
      rw [Grid.stateAt, cellAt_after_of_ne_filled hr hwf hfilled, Grid.stateAt]
    rw [hsame] at hfilled ⊢
    simp [hfilled]

/-- The inlets after some ticks are those of the top row and beside what has been filled. -/
theorem inlet_after_iff {k : Nat} : r.Inlet (s.after k).grid p ↔
    p.row = 0 ∨ ∃ b ∈ r.policy.neighborLocations s.grid p,
      (s.after k).grid.stateAt b = some filled := by
  obtain ⟨hrows, hcols, hedge⟩ := s.after_dimensions k
  rw [Rules.Inlet, NeighborPolicy.neighborLocations_congr hrows hcols hedge]

/-- After some ticks a position is filled just when it was filled at the start, or a chain of
positions that were open, at most as long as there were ticks, leads from it to an inlet. -/
theorem stateAt_after_eq_filled_iff (hr : s.rules = .percolation r) (hwf : s.grid.WellFormed)
    (k : Nat) (p : Location) : (s.after k).grid.stateAt p = some filled ↔
      s.grid.stateAt p = some filled ∨ ∃ ps q, r.policy.Chain s.grid opened ps p q ∧
        ps.length ≤ k ∧ r.Inlet s.grid q := by
  induction k generalizing p with
  | zero => exact (or_iff_left (NeighborPolicy.not_exists_chain_zero (r.Inlet s.grid))).symm
  | succ k ih =>
    rw [Simulation.after, stateAt_step_eq_filled_iff ((s.rules_after k).trans hr)
      (Simulation.wellFormed_after hwf k), stateAt_after_eq_opened_iff hr hwf, inlet_after_iff,
      NeighborPolicy.exists_chain_succ_iff]
    constructor
    · rintro (hfilled | ⟨⟨hopen, -⟩, htop | ⟨b, hb, hfilled⟩⟩)
      · refine ((ih p).mp hfilled).imp_right ?_
        rintro ⟨ps, q, hchain, hlength, hinlet⟩
        exact NeighborPolicy.exists_chain_succ_iff.mp ⟨ps, q, hchain, by omega, hinlet⟩
      · exact Or.inr ⟨hopen, Or.inl (Or.inl htop)⟩
      · rcases (ih b).mp hfilled with hstart | hchain
        · exact Or.inr ⟨hopen, Or.inl (Or.inr ⟨b, hb, hstart⟩)⟩
        · exact Or.inr ⟨hopen, Or.inr ⟨b, hb, hchain⟩⟩
    · rintro (hstart | ⟨hopen, hreached⟩)
      · exact Or.inl ((ih p).mpr (Or.inl hstart))
      · by_cases hfilled : (s.after k).grid.stateAt p = some filled
        · exact Or.inl hfilled
        refine Or.inr ⟨⟨hopen, hfilled⟩, ?_⟩
        rcases hreached with (htop | ⟨b, hb, hstart⟩) | ⟨b, hb, hchain⟩
        · exact Or.inl htop
        · exact Or.inr ⟨b, hb, (ih b).mpr (Or.inl hstart)⟩
        · exact Or.inr ⟨b, hb, (ih b).mpr (Or.inr hchain)⟩

/-- A tick that changes the grid leaves fewer open positions. -/
theorem countState_opened_lt (hr : s.rules = .percolation r) (hwf : s.grid.WellFormed)
    (h : ¬ s.Resting) :
    s.step.simulation.grid.countState opened < s.grid.countState opened := by
  have hchanged : ∃ l, s.step.simulation.grid.cellAt l ≠ s.grid.cellAt l := by
    by_contra hsame
    obtain ⟨hrows, hcols, hedge⟩ := s.after_dimensions 1
    refine h ⟨Grid.ext_cellAt hrows hcols hedge ?_, (advance_step hr hwf).2⟩
    exact fun l => not_not.mp fun hl => hsame ⟨l, hl⟩
  obtain ⟨l, hl⟩ := hchanged
  have hfilled : s.step.simulation.grid.stateAt l = some filled := by
    by_contra hnot
    exact hl (cellAt_step_of_ne_filled hr hwf hnot)
  have hiff : ∀ p, s.step.simulation.grid.stateAt p = some opened ↔
      s.grid.stateAt p = some opened ∧ s.step.simulation.grid.stateAt p ≠ some filled :=
    fun p => stateAt_after_eq_opened_iff hr hwf (k := 1)
  have hwell : s.step.simulation.grid.WellFormed := Simulation.wellFormed_after hwf 1
  rw [hwell.countState_eq_ncard, hwf.countState_eq_ncard]
  refine Set.ncard_lt_ncard ⟨?_, ?_⟩ ?_
  · exact fun p hp => ((hiff p).mp hp).1
  · intro hback
    rcases (stateAt_step_eq_filled_iff hr hwf).mp hfilled with hold | ⟨hopen, -⟩
    · refine hl ?_
      rw [(advance_step hr hwf).1]
      obtain ⟨c, hc, hstate⟩ := Option.map_eq_some_iff.mp hold
      have hnext := (r.nextState_eq_filled_iff s.grid c).mpr (Or.inl hstate)
      rw [hc, Option.map_some, hnext, ← hstate]
      rfl
    · exact ((hiff l).mp (hback hopen)).2 hfilled
  · refine s.grid.finite_populated.subset ?_
    intro p hp
    obtain ⟨c, hc, -⟩ := Option.map_eq_some_iff.mp hp
    exact Option.isSome_iff_exists.mpr ⟨c, hc⟩

/-- After as many ticks as there are open positions the grid stays the same. -/
theorem grid_after_eq (hr : s.rules = .percolation r) (hwf : s.grid.WellFormed) {k : Nat}
    (hk : s.grid.countState opened ≤ k) :
    (s.after k).grid = (s.after (s.grid.countState opened)).grid := by
  obtain ⟨n, hn, hrest⟩ := Simulation.exists_resting_le (fun g => g.countState opened)
    fun n hflowing => countState_opened_lt ((s.rules_after n).trans hr)
      (Simulation.wellFormed_after hwf n) hflowing
  rw [hrest.grid_after_of_le (hn.trans hk), hrest.grid_after_of_le hn]

/-- A grid percolates just when a position of the bottom row is filled. -/
theorem percolates_iff {g : Grid} (hwf : g.WellFormed) :
    percolates g = true ↔ ∃ p : Location, p.row = g.rows - 1 ∧ g.stateAt p = some filled := by
  simp only [percolates, List.any_eq_true, Bool.and_eq_true, beq_iff_eq, hwf.mem_cellList_iff,
    Grid.stateAt, Option.map_eq_some_iff]
  constructor
  · rintro ⟨c, hc, hrow, hfilled⟩
    exact ⟨c.location, hrow, c, hc, hfilled⟩
  · rintro ⟨p, hrow, c, hc, hfilled⟩
    obtain rfl := hwf.location hc
    exact ⟨c, hc, hrow, hfilled⟩

/-- After some ticks a position is filled just when it was filled at the start, or was open and
a chain of open positions, at most as long as there were ticks, leads from it to the top row or
to a neighbor of a filled position; all other positions keep their cells. After as many ticks
as there were open positions the grid stays the same, and it percolates just when a position of
the bottom row was filled or has such a chain of any length. -/
theorem flow_reaches (hr : s.rules = .percolation r) (hwf : s.grid.WellFormed) :
    (∀ k p, ((s.after k).grid.stateAt p = some filled ↔
        s.grid.stateAt p = some filled ∨ ∃ ps q, r.policy.Chain s.grid opened ps p q ∧
          ps.length ≤ k ∧ r.Inlet s.grid q) ∧
      ((s.after k).grid.stateAt p ≠ some filled →
        (s.after k).grid.cellAt p = s.grid.cellAt p)) ∧
    ∀ k, s.grid.countState opened ≤ k →
      (s.after k).grid = (s.after (s.grid.countState opened)).grid ∧
      (percolates (s.after k).grid = true ↔
        ∃ p : Location, p.row = s.grid.rows - 1 ∧
          (s.grid.stateAt p = some filled ∨
            ∃ ps q, r.policy.Chain s.grid opened ps p q ∧ r.Inlet s.grid q)) := by
  refine ⟨?_, ?_⟩
  · exact fun k p => ⟨stateAt_after_eq_filled_iff hr hwf k p, cellAt_after_of_ne_filled hr hwf⟩
  · intro k hk
    refine ⟨grid_after_eq hr hwf hk, ?_⟩
    rw [percolates_iff (Simulation.wellFormed_after hwf k), (s.after_dimensions k).1]
    refine exists_congr fun p => and_congr_right fun _ => ?_
    constructor
    · intro hfilled
      refine ((stateAt_after_eq_filled_iff hr hwf k p).mp hfilled).imp_right ?_
      rintro ⟨ps, q, hchain, -, hinlet⟩
      exact ⟨ps, q, hchain, hinlet⟩
    · intro hreached
      -- a longer chain would need more ticks, but these change nothing
      have hlater : ∃ m, k ≤ m ∧ (s.after m).grid.stateAt p = some filled := by
        rcases hreached with hstart | ⟨ps, q, hchain, hinlet⟩
        · exact ⟨k, Nat.le_refl k, (stateAt_after_eq_filled_iff hr hwf k p).mpr (Or.inl hstart)⟩
        · refine ⟨max k ps.length, Nat.le_max_left .., ?_⟩
          exact (stateAt_after_eq_filled_iff hr hwf _ p).mpr
            (Or.inr ⟨ps, q, hchain, Nat.le_max_right .., hinlet⟩)
      obtain ⟨m, hm, hfilled⟩ := hlater
      rw [grid_after_eq hr hwf (hk.trans hm), ← grid_after_eq hr hwf hk] at hfilled
      exact hfilled

/-- A passage of four open cells that winds from the top row to the bottom row. -/
def cave : Grid :=
  (((((Grid.empty 3 2 .fixed).add (.plain opened ⟨0, 0⟩)).add (.plain blocked ⟨0, 1⟩)).add
    (.plain opened ⟨1, 0⟩)).add (.plain opened ⟨1, 1⟩)).add (.plain opened ⟨2, 1⟩)

/-- Rules under which the fluid flows through sides. -/
def caveRules : Rules := ⟨⟨.square4, 1, false⟩⟩

/-- A run of the cave. -/
def caveRun : Simulation KeyStream := .new cave (.percolation caveRules) (Seed.source 0)

/-- The end of the passage is filled after four ticks and not before, because a chain of four
open positions leads from it to the top row; from then on the cave percolates. -/
theorem cave_flow_reaches :
    caveRun.rules = .percolation caveRules ∧ caveRun.grid.WellFormed ∧
      percolates (caveRun.after 3).grid = false ∧
      (∃ ps q, caveRules.policy.Chain caveRun.grid opened ps ⟨2, 1⟩ q ∧ ps.length ≤ 4 ∧
        caveRules.Inlet caveRun.grid q) ∧
      ∀ k, 4 ≤ k → percolates (caveRun.after k).grid = true := by
  have hwf : cave.WellFormed :=
    (((((Grid.wellFormed_empty 3 2 .fixed).add _).add _).add _).add _).add _
  have hfacts : percolates (caveRun.after 3).grid = false ∧
      (caveRun.after 4).grid.stateAt ⟨2, 1⟩ = some filled ∧
      caveRun.grid.stateAt ⟨2, 1⟩ ≠ some filled ∧ caveRun.grid.countState opened = 4 := by
    decide +kernel
  obtain ⟨hdry, hfilled, hstart, hcount⟩ := hfacts
  have hflow := flow_reaches (s := caveRun) rfl hwf
  have hchain := ((hflow.1 4 ⟨2, 1⟩).1.mp hfilled).resolve_left hstart
  refine ⟨rfl, hwf, hdry, hchain, ?_⟩
  intro k hk
  obtain ⟨ps, q, hchain, -, hinlet⟩ := hchain
  exact (hflow.2 k (hcount.le.trans hk)).2.mpr ⟨⟨2, 1⟩, rfl, Or.inr ⟨ps, q, hchain, hinlet⟩⟩

end CellularAutomata.Percolation
