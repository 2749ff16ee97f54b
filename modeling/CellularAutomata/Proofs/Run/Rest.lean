import CellularAutomata.Proofs.Run.Reachability

/-!
# Runs that come to rest

A simulation rests when its next tick leaves the grid and the source of random words as
they are; every later tick does so too. If some measure of the grid goes down in every
tick before that, a run comes to rest within as many ticks.
-/

namespace CellularAutomata.Simulation

variable {ρ : Type} [WordSource ρ] {s : Simulation ρ}

/-- The tick that comes next. -/
def upcoming (s : Simulation ρ) : Tick ρ := s.rules.tick s.grid s.source

/-- A simulation whose next tick changes nothing and draws nothing. -/
structure Resting (s : Simulation ρ) : Prop where
  /-- The grid stays as it is. -/
  grid : s.step.simulation.grid = s.grid
  /-- The source of random words stays as it is. -/
  source : s.step.simulation.source = s.source

/-- Ticks may be counted in two parts. -/
theorem after_add (s : Simulation ρ) (m n : Nat) : s.after (m + n) = (s.after m).after n := by
  induction n with
  | zero => rfl
  | succ n ih => rw [← Nat.add_assoc, after, ih, after]

/-- A run keeps the grid well-formed. -/
theorem wellFormed_after (h : s.grid.WellFormed) (n : Nat) : (s.after n).grid.WellFormed := by
  induction n with
  | zero => exact h
  | succ n ih => exact ih.apply _

/-- A run keeps the dimensions and the edge of the grid. -/
theorem after_dimensions (s : Simulation ρ) (n : Nat) :
    (s.after n).grid.rows = s.grid.rows ∧ (s.after n).grid.cols = s.grid.cols ∧
      (s.after n).grid.edge = s.grid.edge := by
  induction n with
  | zero => exact ⟨rfl, rfl, rfl⟩
  | succ n ih =>
    obtain ⟨hrows, hcols, hedge⟩ := (s.after n).grid.apply_dimensions (s.after n).upcoming.updates
    exact ⟨hrows.trans ih.1, hcols.trans ih.2.1, hedge.trans ih.2.2⟩

/-- What is at rest stays as it is. -/
theorem Resting.after (h : s.Resting) (n : Nat) :
    (s.after n).grid = s.grid ∧ (s.after n).source = s.source := by
  induction n with
  | zero => exact ⟨rfl, rfl⟩
  | succ n ih =>
    have hgrid : (s.after (n + 1)).grid =
        ((s.after n).rules.advance (s.after n).grid (s.after n).source).grid := rfl
    have hsource : (s.after (n + 1)).source =
        ((s.after n).rules.advance (s.after n).grid (s.after n).source).source := rfl
    rw [hgrid, hsource, s.rules_after, ih.1, ih.2]
    exact ⟨h.grid, h.source⟩

/-- Once a run rests, its grid is always the same. -/
theorem Resting.grid_after_of_le {n k : Nat} (h : (s.after n).Resting) (hk : n ≤ k) :
    (s.after k).grid = (s.after n).grid := by
  obtain ⟨m, rfl⟩ := Nat.exists_eq_add_of_le hk
  rw [after_add]
  exact (h.after m).1

/-- If a measure of the grid goes down in every tick before the run rests, then the run rests
after at most as many ticks. -/
theorem exists_resting_le (measure : Grid → Nat)
    (h : ∀ n, ¬ (s.after n).Resting → measure (s.after (n + 1)).grid < measure (s.after n).grid) :
    ∃ n ≤ measure s.grid, (s.after n).Resting := by
  by_contra hnone
  have hdown : ∀ n ≤ measure s.grid + 1, measure (s.after n).grid + n ≤ measure s.grid := by
    intro n
    induction n with
    | zero => exact fun _ => Nat.le_refl _
    | succ n ih =>
      intro hn
      have hprevious := ih (by omega)
      have hstep := h n fun hrest => hnone ⟨n, by omega, hrest⟩
      omega
  have hlast := hdown (measure s.grid + 1) (Nat.le_refl _)
  omega

end CellularAutomata.Simulation
