import CellularAutomata.Proofs.Darwin.Soundness
import CellularAutomata.Proofs.PredatorPrey.Accounting
import CellularAutomata.Proofs.Sand.Matter
import CellularAutomata.Proofs.Segregation.Moves

/-!
# Ticks in two phases

A tick first computes updates from the grid as it is and then carries them all out. For
every automaton the updates name different populated positions and put each cell where it
belongs, so none is lost or overwritten and their order does not matter.
-/

namespace CellularAutomata

variable {ρ σ : Type} [WordSource ρ] [WordSource σ]

/-- The updates of a tick can be carried out in any order, whichever automaton it is. -/
theorem Ruleset.admits_tick (r : Ruleset) {g : Grid} (hwf : g.WellFormed) (source : ρ) :
    g.Admits (r.tick g source).updates := by
  cases r with
  | segregation rules => exact Segregation.admits_tick rules hwf source
  | predatorPrey rules => exact PredatorPrey.admits_tick rules hwf source
  | sand _ => exact Sand.admits_tick hwf source
  | darwin rules => exact Darwin.admits_tick rules hwf source
  | life _ | percolation _ | fire _ | dominance _ => exact Tick.admits_cellwise hwf _ source

namespace Simulation

/-- In a tick of any automaton from a state that a run can come to, whatever is drawn, the
updates name each position at most once, name only positions with a cell, and each carries a
cell that is at the named position. So the next grid holds the cells of the updates at the named
positions and the old cells at all others, and carrying the updates out in another order leads
to the same grid. -/
theorem tick_in_two_phases {c : Configuration} {s : Simulation ρ} (hs : Reachable c s)
    (source : σ) :
    ((s.rules.tick s.grid source).updates.map CellUpdate.location).Nodup ∧
    (∀ u ∈ (s.rules.tick s.grid source).updates,
      (s.grid.cellAt u.location).isSome = true ∧ u.next.location = u.location) ∧
    (∀ u ∈ (s.rules.tick s.grid source).updates,
      (s.rules.advance s.grid source).grid.cellAt u.location = some u.next) ∧
    (∀ l, (∀ u ∈ (s.rules.tick s.grid source).updates, u.location ≠ l) →
      (s.rules.advance s.grid source).grid.cellAt l = s.grid.cellAt l) ∧
    ∀ us, us.Perm (s.rules.tick s.grid source).updates →
      s.grid.apply us = (s.rules.advance s.grid source).grid := by
  have hadmits := s.rules.admits_tick hs.wellFormed source
  refine ⟨hadmits.once, ?_, ?_, ?_, ?_⟩
  · intro u hu
    exact ⟨hadmits.populated u hu, hadmits.placed u hu⟩
  · intro u hu
    exact hadmits.cellAt_apply hu
  · intro l hl
    exact hadmits.cellAt_apply_of_forall_ne hl
  · intro us hperm
    exact hadmits.apply_perm hperm

/-- In the first tick of the duel two positions are updated, and this may as well be done in the
opposite order. -/
theorem duel_tick_in_two_phases :
    ∃ s : Simulation KeyStream, Reachable Darwin.duel s ∧
      (s.rules.tick s.grid s.source).updates.map CellUpdate.location = [⟨0, 0⟩, ⟨0, 1⟩] ∧
      s.grid.apply (s.rules.tick s.grid s.source).updates.reverse = s.step.simulation.grid := by
  have hnamed : (ofConfiguration Darwin.duel).toOption.map (fun s =>
      (s.rules.tick s.grid s.source).updates.map CellUpdate.location) =
        some [⟨0, 0⟩, ⟨0, 1⟩] := by decide +kernel
  obtain ⟨s, r, hs, -⟩ := Darwin.exists_duel
  rw [hs] at hnamed
  have hreach : Reachable Darwin.duel s := Reachable.start hs s.source
  have hphases := tick_in_two_phases hreach s.source
  exact ⟨s, hreach, Option.some.inj hnamed, hphases.2.2.2.2 _ (List.reverse_perm _)⟩

end Simulation

end CellularAutomata
