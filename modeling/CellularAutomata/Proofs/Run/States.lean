import CellularAutomata.Proofs.Darwin.Soundness
import CellularAutomata.Proofs.Grid.Layout
import CellularAutomata.Proofs.PredatorPrey.Accounting
import CellularAutomata.Proofs.Sand.Matter
import CellularAutomata.Proofs.Segregation.Moves

/-!
# States of running automata

Every automaton has a number of states, and its cells are in states below it, however long
it runs. Cells that decide by themselves get a state of their automaton; agents only change
places; falling sand and creatures are in one of three states; individuals of a Darwin
world have the state of a known species, also after an infection or a reversion.
-/

namespace CellularAutomata

variable {ρ : Type} [WordSource ρ] {g : Grid}

/-- The next state of a living or dead cell is one of the two. -/
theorem Life.Rules.nextState_lt (r : Life.Rules) {c : Cell} (h : c.state < 2) :
    r.nextState g c < 2 := by
  unfold Life.Rules.nextState
  dsimp only
  split
  next => decide
  next =>
    split
    next => decide
    next => exact h

/-- The next state of a cell of a percolating grid is one of the three. -/
theorem Percolation.Rules.nextState_lt (r : Percolation.Rules) {c : Cell} (h : c.state < 3) :
    r.nextState g c < 3 := by
  unfold Percolation.Rules.nextState
  split
  next => decide
  next => exact h

/-- The next state of a cell of a burning grid is one of the three, whatever is drawn. -/
theorem Fire.Rules.nextState_lt (r : Fire.Rules) {c : Cell} (h : c.state < 3) (source : ρ) :
    (r.nextState g c source).1 < 3 := by
  have hbare : bare < 3 := by decide
  have htree : tree < 3 := by decide
  have hburning : burning < 3 := by decide
  unfold Fire.Rules.nextState
  split
  next => exact hbare
  next =>
    split
    next =>
      dsimp only
      split
      next => exact htree
      next => exact hbare
    next =>
      split
      next =>
        split
        next => exact hburning
        next =>
          dsimp only
          split
          next => exact hburning
          next => exact htree
      next => exact h

/-- The state that beats another one is below the number of states. -/
theorem Dominance.Rules.nextState_lt (r : Dominance.Rules) {c : Cell} (h : c.state < r.states) :
    r.nextState g c < r.states := by
  have hpos : 0 < r.states := by omega
  have hpredator : r.predator c.state < r.states := Nat.mod_lt _ hpos
  unfold Dominance.Rules.nextState
  dsimp only
  split
  next => exact hpredator
  next => exact h

/-- The next state of a cell is a state of the automaton. -/
theorem Ruleset.nextState_lt (r : Ruleset) {c : Cell} (h : c.state < r.states) (source : ρ) :
    (r.nextState g c source).1 < r.states := by
  cases r with
  | life rules => exact rules.nextState_lt h
  | percolation rules => exact rules.nextState_lt h
  | fire rules => exact rules.nextState_lt h source
  | dominance rules => exact rules.nextState_lt h
  | _ => exact h

/-- Cells that decide by themselves come to states of the automaton. -/
theorem Ruleset.statesBelow_cellwise (r : Ruleset) (h : g.StatesBelow r.states) (source : ρ) :
    (g.apply (Tick.cellwise (r.nextState g) g source).updates).StatesBelow r.states := by
  refine h.apply ?_
  intro u hu
  obtain ⟨c, hc, s, hplace⟩ := Tick.exists_of_mem_replacing hu
  obtain ⟨l, hcell⟩ := Grid.mem_cellList.mp hc
  have hnext := r.nextState_lt (g := g) (h l c hcell) s
  rw [hplace]
  exact hnext

/-- Agents and vacancies keep their states when they change places. -/
theorem Segregation.statesBelow_tick (r : Segregation.Rules) {n : Nat} (hwf : g.WellFormed)
    (h : g.StatesBelow n) (source : ρ) :
    (g.apply (r.tick g source).updates).StatesBelow n := by
  obtain ⟨moves, hupdates, -, -, hfeasible⟩ := exists_moves_tick r hwf source
  refine h.apply ?_
  intro u hu
  rw [hupdates] at hu
  obtain ⟨m, hm, hu⟩ := List.mem_flatMap.mp hu
  cases List.mem_cons.mp hu with
  | inl harrival =>
    rw [harrival]
    exact h _ m.agent (hfeasible.agent m hm)
  | inr hdeparture =>
    rw [List.mem_singleton.mp hdeparture]
    exact h _ m.vacancy (hfeasible.vacancy m hm)

/-- Falling sand is in one of three states. -/
theorem Sand.statesBelow_tick (hwf : g.WellFormed) (h : g.StatesBelow 3) (source : ρ) :
    (g.apply (Sand.tick g source).updates).StatesBelow 3 := by
  have hopening : ∀ (x : Location) (state : Nat), (opening g source).states[x]? = some state →
      state < 3 := by
    intro x state hx
    rw [getElem?_opening] at hx
    obtain ⟨c, hc, hstate⟩ := Option.map_eq_some_iff.mp hx
    exact hstate ▸ h x c hc
  have hsettled :=
    forall_states_settleFrom (P := (· < 3)) (by decide) (by decide) (sweep g) hopening
  intro l c hc
  have hstate := Grid.stateAt_of_cellAt hc
  rw [stateAt_tick hwf] at hstate
  exact hsettled l c.state hstate

omit [WordSource ρ] in
/-- A cell that a turn has written is in one of three states. -/
theorem PredatorPrey.Coherent.state_lt {r : PredatorPrey.Rules} {p : PredatorPrey.Pass ρ}
    (h : Coherent r g p) (hg : g.StatesBelow 3) {l : Location} {c : Cell}
    (hc : p.next[l]? = some c) : c.state < 3 := by
  by_cases htouch : ∃ a ∈ p.acts, a.Touches l
  · obtain ⟨a, ha, hl⟩ := htouch
    have hlawful := h.lawful a ha
    have hkind : a.state < 3 := by
      cases hlawful.kind with
      | inl hshark => rw [hshark]; decide
      | inr hfish => rw [hfish]; decide
    have hwater : water < 3 := by decide
    by_cases hend : a.destination = l
    · obtain ⟨old, hold, -⟩ := Option.map_eq_some_iff.mp hlawful.origin
      have hended := h.ended a ha old hold
      rw [hend, hc] at hended
      rw [Option.some.inj hended, Act.state_endCell]
      split
      next => exact hwater
      next => exact hkind
    · have horigin := hl.resolve_right hend
      have hleft := h.left a ha (horigin ▸ hend)
      rw [horigin, hc] at hleft
      rw [Option.some.inj hleft, Rules.state_leftCell]
      split
      next => exact hkind
      next => exact hwater
  · have hkept := h.kept l fun a ha hl => htouch ⟨a, ha, hl⟩
    rw [hc] at hkept
    exact hg l c hkept.symm

/-- Water, fish and sharks are in one of three states. -/
theorem PredatorPrey.statesBelow_tick (r : PredatorPrey.Rules) (hwf : g.WellFormed)
    (h : g.StatesBelow 3) (source : ρ) :
    (g.apply (r.tick g source).updates).StatesBelow 3 := by
  have hcoherent := (coherent_pass r hwf source).1
  intro l c hc
  rw [cellAt_tick r hwf source] at hc
  exact hcoherent.state_lt h hc

/-- A known species is below the number of states. -/
theorem Darwin.Rules.lt_states {r : Darwin.Rules} {species : Nat} (h : species ∈ r.species) :
    species < r.states := by
  rw [Darwin.Rules.states]
  split
  next hnone =>
    rw [Std.ExtTreeMap.maxKey?_eq_none_iff] at hnone
    simp [hnone] at h
  next greatest hgreatest =>
    have hle := (Std.ExtTreeMap.maxKey?_eq_some_iff_mem_and_forall.mp hgreatest).2 species h
    rw [Std.isLE_compare] at hle
    omega

/-- An empty cell and a settled one are in a state of the automaton. -/
theorem Darwin.Rules.state_lt {r : Darwin.Rules} {c : Cell}
    (h : c = .empty c.location ∨ Settled r c) : c.state < r.states := by
  cases h with
  | inl hempty =>
    have hpos : 0 < r.states := by
      rw [Darwin.Rules.states]
      split <;> omega
    rw [hempty]
    exact hpos
  | inr hsettled =>
    obtain ⟨i, -, hsound⟩ := hsettled
    exact Rules.lt_states hsound.known

/-- The cells of a sound grid are in states of the automaton. -/
theorem Darwin.SoundGrid.statesBelow {r : Darwin.Rules} (h : SoundGrid r g) :
    g.StatesBelow r.states :=
  fun l c hc => Rules.state_lt (h l c hc)

/-- The cell with which a state starts is in a state of the automaton. -/
theorem Ruleset.state_start_lt {r : Ruleset} {state : Nat} {l : Location} {c : Cell}
    (h : r.start state l = .ok c) : c.state < r.states := by
  have hplain : ∀ {r : Ruleset}, r.startPlain state l = .ok c → c.state < r.states := by
    intro r h
    rw [Ruleset.startPlain] at h
    split at h
    next => cases h
    next hknown =>
      rw [← Except.ok.inj h]
      exact Nat.lt_of_not_le hknown
  cases r with
  | predatorPrey rules =>
    rw [Ruleset.start, PredatorPrey.Rules.start] at h
    split at h
    next =>
      have hwater : PredatorPrey.water < 3 := by decide
      rw [← Except.ok.inj h]
      exact hwater
    next =>
      split at h
      next hkind =>
        have hstate : state < 3 := by
          cases hkind with
          | inl hfish => rw [hfish]; decide
          | inr hshark => rw [hshark]; decide
        rw [← Except.ok.inj h]
        exact hstate
      next => cases h
  | darwin rules => exact Darwin.Rules.state_lt (Darwin.sound_start h)
  | _ => exact hplain h

/-- The cells of a reachable simulation are in states of its automaton. -/
theorem Simulation.Reachable.statesBelow {c : Configuration} {s : Simulation ρ}
    (h : Reachable c s) : s.grid.StatesBelow s.rules.states := by
  induction h with
  | @start first h source =>
    obtain ⟨kind, -, -, -, hgrid⟩ := ofConfiguration_eq_ok h
    intro l cell hcell
    exact Ruleset.state_start_lt ((populate_cells hgrid).2 l cell hcell)
  | @step s h ih =>
    have hwf := h.wellFormed
    have hstep : s.step.simulation.grid = s.grid.apply (s.rules.tick s.grid s.source).updates := rfl
    have hrules : s.step.simulation.rules = s.rules := rfl
    rw [hstep, hrules]
    cases hr : s.rules with
    | segregation rules =>
      rw [hr] at ih
      exact Segregation.statesBelow_tick rules hwf ih s.source
    | predatorPrey rules =>
      rw [hr] at ih
      exact PredatorPrey.statesBelow_tick rules hwf ih s.source
    | sand rules =>
      rw [hr] at ih
      exact Sand.statesBelow_tick hwf ih s.source
    | darwin rules =>
      have hsound := Darwin.sound_of_reachable h hr
      exact (hsound.tick hwf s.source).statesBelow
    | _ =>
      rw [hr] at ih
      exact Ruleset.statesBelow_cellwise _ ih s.source

end CellularAutomata
