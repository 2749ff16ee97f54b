import CellularAutomata.Proofs.Grid.Census
import CellularAutomata.Proofs.Run.States

/-!
# Running worlds

What holds of the grid of every simulation that a run can come to, whichever automaton it
is: there is one cell at each position of the rectangle that was described, where the cell
itself says it is, the cells are listed row by row, their states are states of the
automaton, and the population accounts for all of them.
-/

namespace CellularAutomata.Simulation

variable {ρ : Type} [WordSource ρ] {c : Configuration} {s : Simulation ρ}

/-- A valid configuration describes a grid with at least one position. -/
theorem dimensions_pos (h : c.validate = .ok ()) : 0 < c.rows ∧ 0 < c.cols := by
  unfold Configuration.validate at h
  split at h
  next => cases h
  next hpositive => omega

/-- Wherever an initial cell is placed or there was one already, there is one in the end. -/
theorem mem_populated_of_foldlM {kind : Kind} {rules : Ruleset} {ls : List Location}
    {start g : Grid} (hin : ∀ l ∈ ls, start.inBounds l = true)
    (h : ls.foldlM (placeInitial c kind rules) start = .ok g) {l : Location}
    (hl : l ∈ start.populated ∨ l ∈ ls) : l ∈ g.populated := by
  induction ls generalizing start with
  | nil =>
    have hsame : start = g := Except.ok.inj h
    rw [← hsame]
    exact hl.resolve_right List.not_mem_nil
  | cons first rest ih =>
    rw [List.foldlM_cons] at h
    obtain ⟨next, hnext, hrest⟩ := bind_eq_ok.mp h
    obtain ⟨cell, hcell, hadd⟩ := placeInitial_eq_ok hnext
    have hlocation : cell.location = first := (start_eq_ok (startAs_eq_ok hcell)).2
    have hdimensions := start.add_dimensions cell
    have hfirst : start.inBounds cell.location = true := by
      rw [hlocation]
      exact hin first (List.mem_cons_self ..)
    rw [hadd] at hrest
    refine ih ?_ hrest ?_
    · intro l hl
      rw [Grid.inBounds_congr hdimensions.1 hdimensions.2.1]
      exact hin l (List.mem_cons_of_mem first hl)
    · rw [Grid.mem_populated_add, hlocation]
      cases hl with
      | inl hold => exact Or.inl (Or.inl hold)
      | inr hmem =>
        cases List.mem_cons.mp hmem with
        | inl heq => exact Or.inl (Or.inr ⟨hlocation ▸ hfirst, heq.symm⟩)
        | inr hlater => exact Or.inr hlater

/-- The initial grid has the dimensions and the edge that are described for it. -/
theorem populate_dimensions {kind : Kind} {rules : Ruleset} {g : Grid}
    (h : populate c kind rules = .ok g) : g.rows = c.rows ∧ g.cols = c.cols ∧ g.edge = c.edge := by
  refine populate_induction (P := fun g => g.rows = c.rows ∧ g.cols = c.cols ∧ g.edge = c.edge)
    ⟨rfl, rfl, rfl⟩ ?_ h
  intro g l cell hg _
  have hdimensions := g.add_dimensions cell
  exact ⟨hdimensions.1.trans hg.1, hdimensions.2.1.trans hg.2.1, hdimensions.2.2.trans hg.2.2⟩

/-- The initial grid has a cell at each of its positions. -/
theorem populate_full {kind : Kind} {rules : Ruleset} {g : Grid}
    (h : populate c kind rules = .ok g) : g.Full := by
  have hdimensions := populate_dimensions h
  rw [populate, Grid.visitPositions_eq_foldlM] at h
  have hstart : ∀ l ∈ Grid.positions c.rows c.cols,
      (Grid.empty c.rows c.cols c.edge).inBounds l = true :=
    fun l hl => Grid.inBounds_iff_mem_positions.mpr hl
  intro l hl
  rw [Grid.inBounds_iff_mem_positions, hdimensions.1, hdimensions.2.1] at hl
  exact mem_populated_of_foldlM hstart h (Or.inr hl)

/-- The grid of a reachable simulation has the dimensions and the edge that are described
for it. -/
theorem Reachable.dimensions (h : Reachable c s) :
    s.grid.rows = c.rows ∧ s.grid.cols = c.cols ∧ s.grid.edge = c.edge := by
  induction h with
  | start h source =>
    obtain ⟨_, -, -, -, hgrid⟩ := ofConfiguration_eq_ok h
    exact populate_dimensions hgrid
  | @step s _ ih =>
    have hdimensions := s.grid.apply_dimensions (s.rules.tick s.grid s.source).updates
    exact ⟨hdimensions.1.trans ih.1, hdimensions.2.1.trans ih.2.1, hdimensions.2.2.trans ih.2.2⟩

/-- The grid of a reachable simulation has a cell at each of its positions. -/
theorem Reachable.full (h : Reachable c s) : s.grid.Full := by
  induction h with
  | start h source =>
    obtain ⟨_, -, -, -, hgrid⟩ := ofConfiguration_eq_ok h
    exact populate_full hgrid
  | step _ ih => exact ih.apply _

/-- A simulation is reached from a valid configuration only. -/
theorem Reachable.valid (h : Reachable c s) : c.validate = .ok () := by
  induction h with
  | start h source =>
    obtain ⟨_, hvalid, -⟩ := ofConfiguration_eq_ok h
    exact hvalid
  | step _ ih => exact ih

/-- In a Darwin world whose species are below the greatest 32-bit number, the number of states
is a 32-bit number. -/
theorem darwin_states_lt {r : Darwin.Rules} (h : Reachable c s) (hr : s.rules = .darwin r)
    (hspecies : ∀ species ∈ c.species, species < 2 ^ 32 - 1) : s.rules.states < 2 ^ 32 := by
  have hprograms := (Darwin.species_of_reachable h hr).1
  rw [hr, Ruleset.states, Darwin.Rules.states]
  split
  next => decide
  next greatest hgreatest =>
    have hmem := (Std.ExtTreeMap.maxKey?_eq_some_iff_mem_and_forall.mp hgreatest).1
    rw [hprograms, programs, Std.ExtTreeMap.mem_map] at hmem
    have hlt := hspecies greatest hmem
    omega

/-- Whichever automaton runs, and however long, its grid has exactly one cell at each position
of the rectangle that was described and none elsewhere, each cell is at its own location and in
a state of the automaton, the cells are listed in strict row-major order, and the counts of the
population add up to the number of positions. -/
theorem worlds_stay_complete (hs : Reachable c s) :
    s.grid.cellList.map Cell.location = Grid.positions c.rows c.cols ∧
    (∀ l, (s.grid.cellAt l).isSome = true ↔
      (0 ≤ l.row ∧ l.row < c.rows) ∧ 0 ≤ l.col ∧ l.col < c.cols) ∧
    (∀ l cell, s.grid.cellAt l = some cell →
      cell.location = l ∧ cell.state < s.rules.states) ∧
    (s.grid.cellList.Pairwise fun a b => a.location.row < b.location.row ∨
      a.location.row = b.location.row ∧ a.location.col < b.location.col) ∧
    ((s.grid.population.toList.map Prod.snd).sum : Int) = c.rows * c.cols ∧
    ∀ r, s.rules = .darwin r → (∀ species ∈ c.species, species < 2 ^ 32 - 1) →
      s.rules.states < 2 ^ 32 := by
  have hwf := hs.wellFormed
  have hfull := hs.full
  have hdimensions := hs.dimensions
  have hpositive := dimensions_pos hs.valid
  have hpositions := hwf.map_location_eq_positions hfull
  rw [hdimensions.1, hdimensions.2.1] at hpositions
  refine ⟨hpositions, ?_, ?_, ?_, ?_, fun r hr => darwin_states_lt hs hr⟩
  · intro l
    have hpopulated := hwf.mem_populated_iff hfull (l := l)
    rw [Grid.inBounds_iff_mem_positions, hdimensions.1, hdimensions.2.1, Grid.mem_positions]
      at hpopulated
    exact hpopulated
  · intro l cell hcell
    exact ⟨hwf.location hcell, hs.statesBelow l cell hcell⟩
  · refine hwf.cellList_sorted.imp ?_
    intro a b hab
    exact Location.compare_eq_lt_iff.mp hab
  · have hcount := hwf.length_cellList hfull
    rw [hdimensions.1, hdimensions.2.1] at hcount
    rw [Grid.sum_population, hcount, Nat.cast_mul, Int.toNat_of_nonneg hpositive.1.le,
      Int.toNat_of_nonneg hpositive.2.le]

/-- The three cells of the duel are still there after some ticks, in one of three states. -/
theorem duel_worlds_stay_complete :
    ∃ s : Simulation KeyStream, Reachable Darwin.duel (s.after 3) ∧
      (∀ species ∈ Darwin.duel.species, species < 2 ^ 32 - 1) ∧
      (s.after 3).grid.cellList.map Cell.location = [⟨0, 0⟩, ⟨0, 1⟩, ⟨0, 2⟩] ∧
      ((s.after 3).grid.population.toList.map Prod.snd).sum = 3 ∧
      (s.after 3).rules.states < 2 ^ 32 := by
  obtain ⟨s, r, hs, hr⟩ := Darwin.exists_duel
  have hreach : Reachable Darwin.duel (s.after 3) := (Reachable.start hs s.source).after 3
  have hspecies : ∀ species ∈ Darwin.duel.species, species < 2 ^ 32 - 1 := by
    intro species hmem
    simp only [Darwin.duel, Std.ExtTreeMap.mem_insert, Std.LawfulEqCmp.compare_eq_iff_eq,
      Std.ExtTreeMap.not_mem_empty, or_false] at hmem
    omega
  obtain ⟨hlist, -, -, -, hsum, hstates⟩ := worlds_stay_complete hreach
  have hpositions : Grid.positions Darwin.duel.rows Darwin.duel.cols =
      [⟨0, 0⟩, ⟨0, 1⟩, ⟨0, 2⟩] := by decide
  have hsize : Darwin.duel.rows * Darwin.duel.cols = 3 := by decide
  rw [hpositions] at hlist
  rw [hsize] at hsum
  have hrules : (s.after 3).rules = .darwin r := (s.rules_after 3).trans hr
  exact ⟨s, hreach, hspecies, hlist, by exact_mod_cast hsum, hstates r hrules hspecies⟩

end CellularAutomata.Simulation
