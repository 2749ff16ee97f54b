import CellularAutomata.Proofs.Grid.Contents
import CellularAutomata.Proofs.Success
import CellularAutomata.Run.Simulation

/-!
# Reachable simulations

The simulations that a run from a configuration can come to, whatever source of random
words it draws from. What holds of the grid at the start and is kept by every tick holds
of each of them; that the grid is well-formed is the first such fact.
-/

namespace CellularAutomata.Simulation

variable {ρ : Type} [WordSource ρ]

/-- The simulation with another source of random words. -/
def withSource {σ : Type} (s : Simulation σ) (source : ρ) : Simulation ρ :=
  ⟨s.grid, s.rules, source, s.tick, s.metricsInterval, s.updatesApplied⟩

/-- The simulation after some ticks. -/
def after (s : Simulation ρ) : Nat → Simulation ρ
  | 0 => s
  | n + 1 => (s.after n).step.simulation

/-- The simulations that a run from a configuration can come to. -/
inductive Reachable (c : Configuration) : Simulation ρ → Prop
  /-- The simulation that the configuration describes, with any source of random words. -/
  | start {s : Simulation KeyStream} (h : ofConfiguration c = .ok s) (source : ρ) :
      Reachable c (s.withSource source)
  /-- The simulation after one more tick. -/
  | step {s : Simulation ρ} (h : Reachable c s) : Reachable c s.step.simulation

/-- The first of several ticks can be split off. -/
theorem after_step (s : Simulation ρ) (n : Nat) : s.step.simulation.after n = s.after (n + 1) := by
  induction n with
  | zero => rfl
  | succ n ih =>
    rw [after, ih]
    rfl

/-- Advancing a simulation by some ticks comes to what so many single ticks come to. -/
theorem steps_fst (n : Nat) (s : Simulation ρ) (events : Array Event) :
    (steps n s events).1 = s.after n := by
  induction n generalizing s events with
  | zero => rfl
  | succ n ih => rw [steps, ih, after_step]

/-- A run is so many single ticks. -/
theorem run_fst (n : Nat) (s : Simulation ρ) : (run n s).1 = s.after n :=
  steps_fst n s _

/-- What is reported while a simulation is advanced is what its ticks report, after what was
reported before. -/
theorem mem_steps_snd {n : Nat} {s : Simulation ρ} {events : Array Event} {e : Event} :
    e ∈ (steps n s events).2 ↔ e ∈ events ∨ ∃ k < n, e ∈ (s.after k).step.events := by
  induction n generalizing s events with
  | zero => simp [steps]
  | succ n ih =>
    have hlater : (∃ k < n, e ∈ (s.step.simulation.after k).step.events) ↔
        ∃ k < n, e ∈ (s.after (k + 1)).step.events := by
      simp only [after_step]
    rw [steps, ih, Array.mem_append, hlater, or_assoc, Nat.exists_lt_succ_left]
    rfl

/-- What a run reports is that it starts, what its ticks report, and that it is completed. -/
theorem mem_run_snd {n : Nat} {s : Simulation ρ} {e : Event} :
    e ∈ (run n s).2 ↔ e = .runStarted n ∨ (∃ k < n, e ∈ (s.after k).step.events) ∨
      e = .runComplete (s.after n).tick (s.after n).updatesApplied := by
  have hrun : (run n s).2 = (steps n s #[.runStarted n]).2.push
      (.runComplete (steps n s #[.runStarted n]).1.tick
        (steps n s #[.runStarted n]).1.updatesApplied) := rfl
  rw [hrun, Array.mem_push, mem_steps_snd, steps_fst, or_assoc, Array.mem_singleton]

/-- A simulation can be advanced exactly if the tick can be completed. -/
theorem isSome_step? (s : Simulation ρ) : s.step?.isSome = s.rules.completes s.grid s.source := by
  rw [step?]
  cases s.rules.completes s.grid s.source <;> rfl

/-- A tick that is completed comes to what the tick comes to. -/
theorem step?_eq_some_iff {s : Simulation ρ} {a : Advance ρ} :
    s.step? = some a ↔ s.step?.isSome = true ∧ s.step = a := by
  rw [isSome_step?, step?, Option.ite_none_right_eq_some, Option.some.injEq]

/-- Some ticks are completed if each of them is, and then they come to what the ticks come to. -/
theorem steps?_eq_some_iff {n : Nat} {s : Simulation ρ} {events : Array Event}
    {out : Simulation ρ × Array Event} : steps? n s events = some out ↔
      (∀ k < n, (s.after k).step?.isSome = true) ∧ steps n s events = out := by
  induction n generalizing s events with
  | zero => simp [steps?, steps]
  | succ n ih =>
    have hlater : (∀ k < n, (s.step.simulation.after k).step?.isSome = true) ↔
        ∀ k < n, (s.after (k + 1)).step?.isSome = true := by
      simp only [after_step]
    rw [steps?, steps, Nat.forall_lt_succ_left, after, ← hlater, and_assoc, ← ih]
    cases hstep : s.step? with
    | none => simp
    | some advance =>
      obtain ⟨-, rfl⟩ := step?_eq_some_iff.mp hstep
      simp

/-- A run is completed if all its ticks are, and then it comes to what the run comes to. -/
theorem run?_eq_some_iff {n : Nat} {s : Simulation ρ} {out : Simulation ρ × Array Event} :
    s.run? n = some out ↔ (∀ k < n, (s.after k).step?.isSome = true) ∧ s.run n = out := by
  rw [run?, Option.map_eq_some_iff]
  constructor
  · rintro ⟨reached, hreached, rfl⟩
    obtain ⟨hall, rfl⟩ := steps?_eq_some_iff.mp hreached
    exact ⟨hall, rfl⟩
  · rintro ⟨hall, rfl⟩
    exact ⟨_, steps?_eq_some_iff.mpr ⟨hall, rfl⟩, rfl⟩

/-- The rules stay the same in a run. -/
theorem rules_after (s : Simulation ρ) (n : Nat) : (s.after n).rules = s.rules := by
  induction n with
  | zero => rfl
  | succ n ih => exact ih

/-- Whatever comes after a reachable simulation is reachable. -/
theorem Reachable.after {c : Configuration} {s : Simulation ρ} (h : Reachable c s) (n : Nat) :
    Reachable c (s.after n) := by
  induction n with
  | zero => exact h
  | succ n ih => exact ih.step

/-- A configuration describes a simulation if it is valid, names a kind, and has parameters and
states that fit the kind. -/
theorem ofConfiguration_eq_ok_iff {c : Configuration} {s : Simulation KeyStream} :
    ofConfiguration c = .ok s ↔
      ∃ kind, c.validate = .ok () ∧ Kind.ofText c.automaton = .ok kind ∧
        Ruleset.build kind (seededParameters c) (programs c) = .ok s.rules ∧
        populate c kind s.rules = .ok s.grid ∧
        s = { new s.grid s.rules s.rules.source with metricsInterval := c.metricsInterval } := by
  unfold ofConfiguration
  simp only [bind_eq_ok]
  constructor
  · rintro ⟨⟨⟩, hvalid, kind, hkind, rules, hrules, grid, hgrid, h⟩
    obtain rfl := Except.ok.inj h
    exact ⟨kind, hvalid, hkind, hrules, hgrid, rfl⟩
  · rintro ⟨kind, hvalid, hkind, hrules, hgrid, hs⟩
    exact ⟨(), hvalid, kind, hkind, s.rules, hrules, s.grid, hgrid, congrArg Except.ok hs.symm⟩

/-- A configuration describes a simulation only if it is valid, names a kind, and has
parameters and states that fit the kind. -/
theorem ofConfiguration_eq_ok {c : Configuration} {s : Simulation KeyStream}
    (h : ofConfiguration c = .ok s) :
    ∃ kind, c.validate = .ok () ∧ Kind.ofText c.automaton = .ok kind ∧
      Ruleset.build kind (seededParameters c) (programs c) = .ok s.rules ∧
      populate c kind s.rules = .ok s.grid := by
  obtain ⟨kind, hvalid, hkind, hrules, hgrid, -⟩ := ofConfiguration_eq_ok_iff.mp h
  exact ⟨kind, hvalid, hkind, hrules, hgrid⟩

/-- No updates have been carried out when a run starts. -/
theorem updatesApplied_ofConfiguration {c : Configuration} {s : Simulation KeyStream}
    (h : ofConfiguration c = .ok s) : s.updatesApplied = 0 := by
  obtain ⟨_, -, -, -, -, hs⟩ := ofConfiguration_eq_ok_iff.mp h
  rw [hs]
  rfl

/-- An initial cell is got for a position and added to the grid. -/
theorem placeInitial_eq_ok {c : Configuration} {kind : Kind} {rules : Ruleset} {g g' : Grid}
    {l : Location} (h : placeInitial c kind rules g l = .ok g') :
    ∃ cell, rules.startAs kind (c.initialState l.row.toNat l.col.toNat) l = .ok cell ∧
      g' = g.add cell := by
  rw [placeInitial] at h
  split at h
  next => cases h
  next cell hcell => exact ⟨cell, hcell, (Except.ok.inj h).symm⟩

/-- What holds of the empty grid and is kept when an initial cell is added holds of the
grid with all its initial cells. -/
theorem populate_induction {c : Configuration} {kind : Kind} {rules : Ruleset} {g : Grid}
    {P : Grid → Prop} (hempty : P (Grid.empty c.rows c.cols c.edge))
    (hadd : ∀ g l cell, P g →
      rules.startAs kind (c.initialState l.row.toNat l.col.toNat) l = .ok cell → P (g.add cell))
    (h : populate c kind rules = .ok g) : P g := by
  rw [populate, Grid.visitPositions_eq_foldlM] at h
  revert h hempty
  generalize Grid.empty c.rows c.cols c.edge = start
  generalize Grid.positions c.rows c.cols = ls
  intro hstart h
  induction ls generalizing start with
  | nil =>
    obtain rfl : start = g := by simpa [pure, Except.pure] using h
    exact hstart
  | cons l ls ih =>
    rw [List.foldlM_cons] at h
    obtain ⟨next, hnext, h⟩ := bind_eq_ok.mp h
    obtain ⟨cell, hcell, rfl⟩ := placeInitial_eq_ok hnext
    exact ih _ (hadd start l cell hstart hcell) h

/-- The cell with which a state starts is in that state, and it is where it is asked for. -/
theorem start_eq_ok {rules : Ruleset} {state : Nat} {l : Location} {cell : Cell}
    (h : rules.start state l = .ok cell) : cell.state = state ∧ cell.location = l := by
  have hplain : ∀ {rules : Ruleset}, rules.startPlain state l = .ok cell →
      cell.state = state ∧ cell.location = l := by
    intro rules h
    rw [Ruleset.startPlain] at h
    split at h
    next => cases h
    next => exact Except.ok.inj h ▸ ⟨rfl, rfl⟩
  cases rules with
  | predatorPrey rules =>
    rw [Ruleset.start, PredatorPrey.Rules.start] at h
    split at h
    next hwater => exact Except.ok.inj h ▸ ⟨hwater.symm, rfl⟩
    next =>
      split at h
      next => exact Except.ok.inj h ▸ ⟨rfl, rfl⟩
      next => cases h
  | darwin rules =>
    rw [Ruleset.start, Darwin.Rules.start] at h
    split at h
    next hempty => exact Except.ok.inj h ▸ ⟨hempty.symm, rfl⟩
    next =>
      split at h
      next => exact Except.ok.inj h ▸ ⟨rfl, rfl⟩
      next => cases h
  | _ => exact hplain h

/-- Rules are read for the kind of automaton that is asked for. -/
theorem kind_of_build {kind : Kind} {p : Parameters} {species : Std.ExtTreeMap Nat Program}
    {rules : Ruleset} (h : Ruleset.build kind p species = .ok rules) : rules.kind = kind := by
  cases kind <;>
    · obtain ⟨rules, -, rfl⟩ := map_eq_ok.mp h
      rfl

/-- Rules that are used for their own kind of automaton are not refused. -/
theorem startAs_of_kind {rules : Ruleset} {kind : Kind} (h : rules.kind = kind) (state : Nat)
    (l : Location) : rules.startAs kind state l = rules.start state l := by
  rw [Ruleset.startAs, Ruleset.name, h, if_pos rfl]

/-- A cell that is got for a kind of automaton is the one with which the state starts. -/
theorem startAs_eq_ok {rules : Ruleset} {kind : Kind} {state : Nat} {l : Location} {cell : Cell}
    (h : rules.startAs kind state l = .ok cell) : rules.start state l = .ok cell := by
  rw [Ruleset.startAs] at h
  split at h
  next => exact h
  next => cases h

/-- The initial grid is well-formed, and each of its cells is the one with which the state
given for its location starts. -/
theorem populate_cells {c : Configuration} {kind : Kind} {rules : Ruleset} {g : Grid}
    (h : populate c kind rules = .ok g) :
    g.WellFormed ∧ ∀ l cell, g.cellAt l = some cell →
      rules.start (c.initialState l.row.toNat l.col.toNat) l = .ok cell := by
  refine populate_induction (P := fun g => g.WellFormed ∧ ∀ l cell, g.cellAt l = some cell →
    rules.start (c.initialState l.row.toNat l.col.toNat) l = .ok cell) ?_ ?_ h
  · refine ⟨Grid.wellFormed_empty c.rows c.cols c.edge, ?_⟩
    intro l cell hl
    simp at hl
  · rintro g l cell ⟨hwf, hcells⟩ hcell
    refine ⟨hwf.add cell, ?_⟩
    intro l' cell' hl'
    rw [Grid.cellAt_add] at hl'
    split at hl'
    next hnew =>
      obtain rfl := Option.some.inj hl'
      have hstart := startAs_eq_ok hcell
      have hll : l = l' := (start_eq_ok hstart).2.symm.trans hnew.2.2
      rw [← hll]
      exact hstart
    next => exact hcells l' cell' hl'

/-- The grid of a reachable simulation is well-formed. -/
theorem Reachable.wellFormed {c : Configuration} {s : Simulation ρ} (h : Reachable c s) :
    s.grid.WellFormed := by
  induction h with
  | start h source =>
    obtain ⟨_, _, _, _, hg⟩ := ofConfiguration_eq_ok h
    exact (populate_cells hg).1
  | step _ ih => exact ih.apply _

end CellularAutomata.Simulation
