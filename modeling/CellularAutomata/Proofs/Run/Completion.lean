import CellularAutomata.Proofs.Grid.Range
import CellularAutomata.Proofs.Parameters.Effective
import CellularAutomata.Proofs.Run.Worlds

/-!
# Runs that are completed

A configuration with at most `2 ^ 30` rows and columns, fewer between mirrors, describes a moderate
grid, and it stays one. Where nobody has counters or programs, looking for neighbors is all in which
numbers come up; so all ticks can be completed there.
-/

namespace CellularAutomata

/-- The policies by which cells look for neighbors are read from parameters. -/
theorem Ruleset.ranged_of_lookup? {kind : Kind} {p : Parameters}
    {species : Std.ExtTreeMap Nat Program} {r : Ruleset} (h : build kind p species = .ok r)
    {c : Cell} {n : NeighborPolicy} (hn : r.lookup? c = some n) : n.Ranged := by
  cases kind with
  | life =>
    obtain ⟨rules, hrules, rfl⟩ := map_eq_ok.mp h
    obtain rfl := Option.some.inj hn
    exact (Life.Rules.ranged_of_ofParameters hrules).policy
  | percolation =>
    obtain ⟨rules, hrules, rfl⟩ := map_eq_ok.mp h
    obtain ⟨policy, hpolicy, hrules⟩ := bind_eq_ok.mp hrules
    obtain rfl := Except.ok.inj hrules
    obtain ⟨-, hn⟩ := Option.ite_none_right_eq_some.mp hn
    obtain rfl := Option.some.inj hn
    exact NeighborPolicy.ranged_of_ofParameters hpolicy
  | fire =>
    obtain ⟨rules, hrules, rfl⟩ := map_eq_ok.mp h
    obtain ⟨-, hn⟩ := Option.ite_none_right_eq_some.mp hn
    obtain rfl := Option.some.inj hn
    exact (Fire.Rules.ranged_of_ofParameters hrules).1.policy
  | segregation =>
    obtain ⟨rules, hrules, rfl⟩ := map_eq_ok.mp h
    obtain ⟨-, hn⟩ := Option.ite_none_left_eq_some.mp hn
    obtain rfl := Option.some.inj hn
    exact (Segregation.Rules.ranged_of_ofParameters hrules).1.policy
  | dominance =>
    obtain ⟨rules, hrules, rfl⟩ := map_eq_ok.mp h
    obtain rfl := Option.some.inj hn
    exact (Dominance.Rules.ranged_of_ofParameters hrules).policy
  | predatorPrey =>
    obtain ⟨rules, -, rfl⟩ := map_eq_ok.mp h
    cases hn
  | sand =>
    obtain ⟨rules, -, rfl⟩ := map_eq_ok.mp h
    cases hn
  | darwin =>
    obtain ⟨rules, -, rfl⟩ := map_eq_ok.mp h
    cases hn

/-- Cyclic dominance has at most ten states. -/
theorem Ruleset.states_le_of_dominance {kind : Kind} {p : Parameters}
    {species : Std.ExtTreeMap Nat Program} {rules : Dominance.Rules}
    (h : build kind p species = .ok (dominance rules)) : rules.states ≤ 10 := by
  obtain rfl : kind = .dominance := (Simulation.kind_of_build h).symm
  obtain ⟨_, hrules, heq⟩ := map_eq_ok.mp h
  obtain rfl := Ruleset.dominance.inj heq
  have hstates := (Dominance.Rules.ranged_of_ofParameters hrules).states
  omega

/-- Where nobody has counters or programs, a tick can be completed if all cells can decide. -/
theorem Ruleset.completes_of_cellFits {ρ : Type} [WordSource ρ] {r : Ruleset}
    (hkind : r.kind ≠ .predatorPrey ∧ r.kind ≠ .darwin) {g : Grid}
    (h : ∀ c ∈ g.cellList, r.cellFits g c = true) (source : ρ) :
    r.completes g source = true := by
  cases r with
  | predatorPrey rules => exact absurd rfl hkind.1
  | darwin rules => exact absurd rfl hkind.2
  | _ => exact List.all_eq_true.mpr h

namespace Simulation

variable {ρ : Type} [WordSource ρ] {c : Configuration} {s : Simulation ρ}

/-- The rules of a reachable simulation are those that the configuration describes. -/
theorem Reachable.exists_build (h : Reachable c s) :
    ∃ kind, Ruleset.build kind (seededParameters c) (programs c) = .ok s.rules := by
  induction h with
  | start h source =>
    obtain ⟨kind, -, -, hbuild, -⟩ := ofConfiguration_eq_ok h
    exact ⟨kind, hbuild⟩
  | step h ih => exact ih

/-- The grid of a reachable simulation is moderate if its sides are short enough. -/
theorem Reachable.moderate (h : Reachable c s) (hrows : c.rows ≤ 2 ^ 30) (hcols : c.cols ≤ 2 ^ 30)
    (hmirror : c.edge = .mirror → c.rows < 2 ^ 30 ∧ c.cols < 2 ^ 30) : s.grid.Moderate := by
  obtain ⟨hgridRows, hgridCols, hedge⟩ := h.dimensions
  refine ⟨hgridRows ▸ hrows, hgridCols ▸ hcols, fun hg => ?_⟩
  rw [hgridRows, hgridCols]
  exact hmirror (hedge.symm.trans hg)

/-- The cells of a reachable simulation on a moderate grid find the neighbors that they look for. -/
theorem Reachable.lookupFits (h : Reachable c s) (hg : s.grid.Moderate) {cell : Cell}
    (hcell : cell ∈ s.grid.cellList) : s.rules.lookupFits s.grid cell = true := by
  obtain ⟨kind, hbuild⟩ := h.exists_build
  rw [Ruleset.lookupFits, Option.all_eq_true]
  intro n hn
  have hlayers : n.layers ≤ 2 ^ 29 := (Ruleset.ranged_of_lookup? hbuild hn).2.trans (by decide)
  have hl := h.wellFormed.inBounds (h.wellFormed.mem_cellList_iff.mp hcell)
  exact NeighborPolicy.isSome_neighborLocations?_iff.mpr
    (NeighborPolicy.allFit_numbers hg hl hlayers)

/-- The cells of a reachable simulation on a moderate grid can decide. The last state is far below
the greatest number. -/
theorem Reachable.cellFits (h : Reachable c s) (hg : s.grid.Moderate) {cell : Cell}
    (hcell : cell ∈ s.grid.cellList) : s.rules.cellFits s.grid cell = true := by
  have hlookup := h.lookupFits hg hcell
  have hstate := h.statesBelow _ _ (h.wellFormed.mem_cellList_iff.mp hcell)
  cases hr : s.rules with
  | dominance rules =>
    obtain ⟨kind, hbuild⟩ := h.exists_build
    rw [hr] at hlookup hstate hbuild
    have hmost := Ruleset.states_le_of_dominance hbuild
    have hfits : Dominance.successorFits cell.state = true := by
      refine decide_eq_true (Nat.lt_of_lt_of_le (Nat.succ_lt_succ hstate) ?_)
      exact (Nat.succ_le_succ hmost).trans (by decide)
    rw [Ruleset.cellFits, hfits, hlookup]
    rfl
  | _ =>
    rw [hr] at hlookup
    exact hlookup

/-- Runs of all automata but that of predators and prey and Darwin worlds are completed, however
long they are, if the sides of the grid are short enough. -/
theorem Reachable.exists_run? (h : Reachable c s) (hrows : c.rows ≤ 2 ^ 30)
    (hcols : c.cols ≤ 2 ^ 30) (hmirror : c.edge = .mirror → c.rows < 2 ^ 30 ∧ c.cols < 2 ^ 30)
    (hkind : s.rules.kind ≠ .predatorPrey ∧ s.rules.kind ≠ .darwin) (n : Nat) :
    ∃ out, s.run? n = some out := by
  refine ⟨_, run?_eq_some_iff.mpr ⟨fun k _ => ?_, rfl⟩⟩
  have hafter := h.after k
  rw [isSome_step?]
  rw [← rules_after s k] at hkind
  exact Ruleset.completes_of_cellFits hkind
    (fun cell hcell => hafter.cellFits (hafter.moderate hrows hcols hmirror) hcell) _

end Simulation

end CellularAutomata
