import CellularAutomata.Proofs.Grid.Distances
import CellularAutomata.Proofs.Random.Draws
import CellularAutomata.Proofs.Run.Rest
import CellularAutomata.Proofs.Run.States

/-!
# The front of a fire

A fire that nothing but its neighbors spreads, on ground where nothing grows. Each tree burns
in exactly one tick, whose number is the length of the shortest chain of trees from it to a
tree beside the first fire. So the fire is out after one tick more than there are trees, and
then nothing changes any more, although draws are still made.
-/

namespace CellularAutomata.Fire

variable {ρ : Type} [WordSource ρ] {r : Rules} {s : Simulation ρ} {p : Location}

/-- Rules that leave nothing to chance: no tree grows, and none catches fire by itself. -/
structure Rules.Calm (r : Rules) : Prop where
  /-- Trees grow with probability zero. -/
  growth : r.growth.place = some 0
  /-- Trees without a burning neighbor catch fire with probability zero. -/
  ignition : r.ignition.place = some 0

/-- Where fire comes from a neighbor. -/
def Rules.Exposed (r : Rules) (g : Grid) (q : Location) : Prop :=
  ∃ b ∈ r.policy.neighborLocations g q, g.stateAt b = some burning

/-- How many trees the shortest chain of trees has that leads from a tree to one beside a fire.
It is infinite if no chain does. -/
noncomputable def Rules.distance (r : Rules) (g : Grid) (p : Location) : ℕ∞ :=
  r.policy.distance g tree (r.Exposed g) p

/-- The next state of a cell when nothing is left to chance. -/
def Rules.spread (r : Rules) (g : Grid) (c : Cell) : Nat :=
  if c.state = burning then bare
  else if c.state = tree ∧ 0 < r.policy.countInState g c.location burning then burning
  else c.state

/-- Under calm rules draws are made, but they decide nothing. -/
theorem Rules.Calm.nextState_fst (h : r.Calm) (g : Grid) (c : Cell) (source : ρ) :
    (r.nextState g c source).1 = r.spread g c := by
  have hgrowth := WordSource.unitInterval_not_less h.growth source
  have hignition := WordSource.unitInterval_not_less h.ignition source
  unfold nextState spread
  by_cases hburning : c.state = burning
  · rw [if_pos hburning, if_pos hburning]
  rw [if_neg hburning, if_neg hburning]
  by_cases hbare : c.state = bare
  · simp [hbare, hgrowth, bare, tree]
  rw [if_neg hbare]
  by_cases htree : c.state = tree
  · by_cases hbeside : 0 < r.policy.countInState g c.location burning
    · simp [htree, hbeside]
    · simp [htree, hbeside, hignition]
  · simp [htree]

/-- A tick puts each cell into the state that the fire leaves it in. -/
theorem cellAt_step (hr : s.rules = .fire r) (hcalm : r.Calm) (hwf : s.grid.WellFormed)
    (l : Location) : s.step.simulation.grid.cellAt l =
      (s.grid.cellAt l).map fun c => c.withState (r.spread s.grid c) := by
  have htick : s.rules.tick s.grid s.source =
      Tick.cellwise (r.nextState s.grid) s.grid s.source := by
    rw [hr]
    rfl
  change (s.grid.apply (s.rules.tick s.grid s.source).updates).cellAt l = _
  rw [htick]
  exact Tick.cellAt_apply_cellwise_of_fst hwf (hcalm.nextState_fst s.grid) s.source l

/-- Exposed trees burn next, and nothing else does. -/
theorem Rules.spread_eq_burning_iff (r : Rules) (g : Grid) (c : Cell) :
    r.spread g c = burning ↔ c.state = tree ∧ r.Exposed g c.location := by
  rw [spread, Exposed, ← NeighborPolicy.countInState_pos_iff]
  by_cases hburning : c.state = burning
  · simp [hburning, burning, bare, tree]
  · rw [if_neg hburning]
    split
    next h => exact iff_of_true rfl h
    next h => exact iff_of_false hburning h

/-- The trees that are left are those that were not exposed. -/
theorem Rules.spread_eq_tree_iff (r : Rules) (g : Grid) (c : Cell) :
    r.spread g c = tree ↔ c.state = tree ∧ ¬ r.Exposed g c.location := by
  rw [spread, Exposed, ← NeighborPolicy.countInState_pos_iff]
  by_cases hburning : c.state = burning
  · simp [hburning, burning, bare, tree]
  · rw [if_neg hburning]
    split
    next h => exact iff_of_false (by decide) fun hnot => hnot.2 h.2
    next h => exact ⟨fun htree => ⟨htree, fun hpos => h ⟨htree, hpos⟩⟩, And.left⟩

/-- What is seen at a position after a tick, if it is decided by what was there. -/
theorem stateAt_step_iff (hr : s.rules = .fire r) (hcalm : r.Calm) (hwf : s.grid.WellFormed)
    {state before : Nat} {P : Location → Prop}
    (h : ∀ c, r.spread s.grid c = state ↔ c.state = before ∧ P c.location) :
    s.step.simulation.grid.stateAt p = some state ↔ s.grid.stateAt p = some before ∧ P p := by
  rw [Grid.stateAt, cellAt_step hr hcalm hwf]
  cases hc : s.grid.cellAt p with
  | none => simp [Grid.stateAt, hc]
  | some c =>
    obtain rfl := hwf.location hc
    rw [Grid.stateAt_of_cellAt hc, Option.some.injEq]
    exact Option.some_inj.trans (h c)

/-- Where nothing is exposed or burns, a tick leaves the grid as it is. -/
theorem grid_step_of_out (hr : s.rules = .fire r) (hcalm : r.Calm) (hwf : s.grid.WellFormed)
    (hout : ∀ p, s.grid.stateAt p ≠ some burning) : s.step.simulation.grid = s.grid := by
  obtain ⟨hrows, hcols, hedge⟩ := s.after_dimensions 1
  refine Grid.ext_cellAt hrows hcols hedge ?_
  intro l
  rw [cellAt_step hr hcalm hwf]
  cases hc : s.grid.cellAt l with
  | none => rfl
  | some c =>
    have hburning : c.state ≠ burning := fun h =>
      hout l (by rw [Grid.stateAt_of_cellAt hc, h])
    have hsheltered : ¬ (c.state = tree ∧
        0 < r.policy.countInState s.grid c.location burning) := by
      rintro ⟨-, hpos⟩
      obtain ⟨b, -, hb⟩ := NeighborPolicy.countInState_pos_iff.mp hpos
      exact hout b hb
    rw [Option.map_some, Rules.spread, if_neg hburning, if_neg hsheltered]
    rfl

/-- What is exposed after some ticks are the neighbors of what burns then. -/
theorem exposed_after_iff {k : Nat} : r.Exposed (s.after k).grid p ↔
    ∃ b ∈ r.policy.neighborLocations s.grid p, (s.after k).grid.stateAt b = some burning := by
  obtain ⟨hrows, hcols, hedge⟩ := s.after_dimensions k
  rw [Rules.Exposed, NeighborPolicy.neighborLocations_congr hrows hcols hedge]

/-- After some ticks the trees that are farther away than that are left, and what burns are the
trees at that distance, or the first fire if there was no tick yet. -/
theorem front_after (hr : s.rules = .fire r) (hcalm : r.Calm) (hwf : s.grid.WellFormed) (k : Nat)
    (p : Location) :
    ((s.after k).grid.stateAt p = some tree ↔
      s.grid.stateAt p = some tree ∧ k < r.distance s.grid p) ∧
    ((s.after k).grid.stateAt p = some burning ↔
      k = 0 ∧ s.grid.stateAt p = some burning ∨ r.distance s.grid p = k) := by
  induction k generalizing p with
  | zero =>
    have hpos : ((0 : ℕ) : ℕ∞) < r.distance s.grid p :=
      not_le.mp NeighborPolicy.not_distance_le_zero
    refine ⟨(and_iff_left hpos).symm, ?_⟩
    rw [or_iff_left hpos.ne', and_iff_right rfl]
    rfl
  | succ k ih =>
    have hrules := (s.rules_after k).trans hr
    have hwell := Simulation.wellFormed_after hwf k
    -- fire comes to a position from a neighbor at the distance that burns now
    have hexposed : r.Exposed (s.after k).grid p ↔ k = 0 ∧ r.Exposed s.grid p ∨
        ∃ b ∈ r.policy.neighborLocations s.grid p, r.distance s.grid b = k := by
      rw [exposed_after_iff, Rules.Exposed]
      simp only [(ih _).2]
      constructor
      · rintro ⟨b, hb, ⟨hzero, hfire⟩ | hfar⟩
        · exact Or.inl ⟨hzero, b, hb, hfire⟩
        · exact Or.inr ⟨b, hb, hfar⟩
      · rintro (⟨hzero, b, hb, hfire⟩ | ⟨b, hb, hfar⟩)
        · exact ⟨b, hb, Or.inl ⟨hzero, hfire⟩⟩
        · exact ⟨b, hb, Or.inr hfar⟩
    have hnext : r.distance s.grid p = (k + 1 : ℕ) ↔
        (s.grid.stateAt p = some tree ∧ k < r.distance s.grid p) ∧
          r.Exposed (s.after k).grid p := by
      rw [hexposed]
      exact NeighborPolicy.distance_eq_succ_iff
    constructor
    · rw [Simulation.after,
        stateAt_step_iff (P := fun q => ¬ r.Exposed (s.after k).grid q) hrules hcalm hwell
          (r.spread_eq_tree_iff (s.after k).grid), (ih p).1, and_assoc]
      refine and_congr_right fun htree => ?_
      constructor
      · rintro ⟨hfar, hsheltered⟩
        refine lt_of_le_of_ne ?_ fun heq => hsheltered (hnext.mp heq.symm).2
        exact_mod_cast Order.add_one_le_of_lt hfar
      · intro hfar
        have hbefore : (k : ℕ∞) < r.distance s.grid p :=
          lt_trans (by exact_mod_cast Nat.lt_succ_self k) hfar
        exact ⟨hbefore, fun hfire => hfar.ne (hnext.mpr ⟨⟨htree, hbefore⟩, hfire⟩).symm⟩
    · rw [Simulation.after,
        stateAt_step_iff (P := r.Exposed (s.after k).grid) hrules hcalm hwell
          (r.spread_eq_burning_iff (s.after k).grid), (ih p).1, ← hnext]
      exact (or_iff_right fun hzero => Nat.succ_ne_zero k hzero.1).symm

/-- A fire keeps its cells in the three states. -/
theorem statesBelow_after (hr : s.rules = .fire r) (h : s.grid.StatesBelow 3) (k : Nat) :
    (s.after k).grid.StatesBelow 3 := by
  induction k with
  | zero => exact h
  | succ k ih =>
    have hstep : (s.after (k + 1)).grid =
        (s.after k).grid.apply ((s.after k).rules.tick _ (s.after k).source).updates := rfl
    rw [hstep, s.rules_after, hr]
    exact (Ruleset.fire r).statesBelow_cellwise ih _

/-- After the first tick, what neither burns nor is a tree is bare. -/
theorem stateAt_after_eq_bare_iff (hr : s.rules = .fire r) (hcalm : r.Calm)
    (hwf : s.grid.WellFormed) (hstates : s.grid.StatesBelow 3) {k : Nat} (hk : 0 < k) :
    (s.after k).grid.stateAt p = some bare ↔ (s.grid.cellAt p).isSome = true ∧
      (s.grid.stateAt p = some tree → r.distance s.grid p < k) := by
  obtain ⟨htree, hburning⟩ := front_after hr hcalm hwf k p
  have hpopulated : ((s.after k).grid.cellAt p).isSome = (s.grid.cellAt p).isSome := by
    clear htree hburning hk
    induction k with
    | zero => rfl
    | succ k ih => exact ((s.after k).grid.isSome_cellAt_apply _ p).trans ih
  have hpassed : (s.grid.stateAt p = some tree → r.distance s.grid p < k) ↔
      (s.after k).grid.stateAt p ≠ some tree ∧ (s.after k).grid.stateAt p ≠ some burning := by
    rw [Ne, Ne, htree, hburning]
    constructor
    · intro h
      refine ⟨fun hfar => (h hfar.1).not_gt hfar.2, ?_⟩
      rintro (⟨hzero, -⟩ | hhere)
      · omega
      · exact (h (NeighborPolicy.stateAt_of_distance_le hhere.le)).ne hhere
    · rintro ⟨hleft, hgone⟩ hstart
      refine lt_of_le_of_ne (not_lt.mp fun hfar => hleft ⟨hstart, hfar⟩) ?_
      exact fun hhere => hgone (Or.inr hhere)
  rw [hpassed, ← hpopulated]
  cases hc : (s.after k).grid.cellAt p with
  | none => simp [Grid.stateAt, hc]
  | some c =>
    have hlt := statesBelow_after hr hstates k p c hc
    simp only [Grid.stateAt, hc, Option.map_some, Option.some.injEq, Option.isSome_some,
      true_and, ne_eq, bare, tree, burning]
    omega

/-- After more ticks than there are trees nothing burns. -/
theorem stateAt_after_ne_burning (hr : s.rules = .fire r) (hcalm : r.Calm)
    (hwf : s.grid.WellFormed) {k : Nat} (hk : s.grid.countState tree < k) :
    (s.after k).grid.stateAt p ≠ some burning := by
  rw [Ne, (front_after hr hcalm hwf k p).2]
  rintro (⟨hzero, -⟩ | hhere)
  · omega
  · have hle := NeighborPolicy.distance_le_countState hwf hhere
    omega

/-- From then on the grid stays as it is. -/
theorem grid_after_eq (hr : s.rules = .fire r) (hcalm : r.Calm) (hwf : s.grid.WellFormed)
    {k : Nat} (hk : s.grid.countState tree < k) :
    (s.after k).grid = (s.after (s.grid.countState tree + 1)).grid := by
  induction k, hk using Nat.le_induction with
  | base => rfl
  | succ k hk ih =>
    rw [← ih]
    exact grid_step_of_out ((s.rules_after k).trans hr) hcalm (Simulation.wellFormed_after hwf k)
      fun p => stateAt_after_ne_burning hr hcalm hwf hk

/-- If nothing grows and no tree catches fire by itself, then after some ticks those trees burn
whose distance is the number of ticks, the trees at a greater distance are left, and all other
positions are bare, whatever is drawn. After one tick more than there were trees nothing burns,
and from then on the grid stays the same. -/
theorem trees_burn_at_distance (hr : s.rules = .fire r) (hcalm : r.Calm)
    (hwf : s.grid.WellFormed) (hstates : s.grid.StatesBelow 3) :
    (∀ k, 1 ≤ k → ∀ p,
      ((s.after k).grid.stateAt p = some burning ↔
        s.grid.stateAt p = some tree ∧ r.distance s.grid p = k) ∧
      ((s.after k).grid.stateAt p = some tree ↔
        s.grid.stateAt p = some tree ∧ k < r.distance s.grid p) ∧
      ((s.after k).grid.stateAt p = some bare ↔ (s.grid.cellAt p).isSome = true ∧
        (s.grid.stateAt p = some tree → r.distance s.grid p < k))) ∧
    ∀ k, s.grid.countState tree + 1 ≤ k →
      (∀ p, (s.after k).grid.stateAt p ≠ some burning) ∧
      (s.after k).grid = (s.after (s.grid.countState tree + 1)).grid := by
  refine ⟨?_, ?_⟩
  · intro k hk p
    obtain ⟨htree, hburning⟩ := front_after hr hcalm hwf k p
    refine ⟨?_, htree, stateAt_after_eq_bare_iff hr hcalm hwf hstates hk⟩
    rw [hburning, or_iff_right fun hzero => by omega]
    exact ⟨fun hhere => ⟨NeighborPolicy.stateAt_of_distance_le hhere.le, hhere⟩, And.right⟩
  · intro k hk
    exact ⟨fun p => stateAt_after_ne_burning hr hcalm hwf hk, grid_after_eq hr hcalm hwf hk⟩

/-- A fire in the corner of a small wood with a clearing, around which the fire has to go. -/
def grove : Grid :=
  ((((((Grid.empty 2 3 .fixed).add (.plain burning ⟨0, 0⟩)).add (.plain bare ⟨0, 1⟩)).add
    (.plain tree ⟨0, 2⟩)).add (.plain tree ⟨1, 0⟩)).add (.plain tree ⟨1, 1⟩)).add
    (.plain tree ⟨1, 2⟩)

/-- Rules under which fire spreads across sides and in no other way. -/
def groveRules : Rules := ⟨.zero, .zero, ⟨.square4, 1, false⟩, 7⟩

/-- A run of the grove. -/
def groveRun : Simulation KeyStream := .new grove (.fire groveRules) (Seed.source 7)

/-- The tree across the clearing burns in the fourth tick, because four trees lead from it to the
fire, and nothing burns after the fifth one. -/
theorem grove_trees_burn_at_distance :
    groveRun.rules = .fire groveRules ∧ groveRules.Calm ∧ groveRun.grid.WellFormed ∧
      groveRun.grid.StatesBelow 3 ∧ (groveRun.after 4).grid.stateAt ⟨0, 2⟩ = some burning ∧
      groveRules.distance groveRun.grid ⟨0, 2⟩ = 4 ∧
      ∀ k, 5 ≤ k → ∀ p, (groveRun.after k).grid.stateAt p ≠ some burning := by
  have hcalm : groveRules.Calm := ⟨rfl, rfl⟩
  have hwf : grove.WellFormed :=
    ((((((Grid.wellFormed_empty 2 3 .fixed).add _).add _).add _).add _).add _).add _
  have hstates : grove.StatesBelow 3 := by
    intro l c hc
    have hall : ∀ c ∈ grove.cellList, c.state < 3 := by decide +kernel
    obtain rfl := hwf.location hc
    exact hall c (hwf.mem_cellList_iff.mpr hc)
  have hfacts : (groveRun.after 4).grid.stateAt ⟨0, 2⟩ = some burning ∧
      groveRun.grid.countState tree = 4 := by decide +kernel
  obtain ⟨hburning, hcount⟩ := hfacts
  have hfront := trees_burn_at_distance (s := groveRun) rfl hcalm hwf hstates
  have hdistance := ((hfront.1 4 (by decide) ⟨0, 2⟩).1.mp hburning).2
  refine ⟨rfl, hcalm, hwf, hstates, hburning, hdistance, ?_⟩
  intro k hk
  exact (hfront.2 k (hcount ▸ hk)).1

end CellularAutomata.Fire
