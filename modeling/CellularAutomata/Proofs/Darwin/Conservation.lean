import CellularAutomata.Proofs.Darwin.Individuals
import CellularAutomata.Proofs.Darwin.Soundness

/-!
# Conservation of individuals

No individual of a Darwin world is lost, doubled or made in a tick. A turn replaces the
position where it began by the one where it ended in the set of held positions, and the
latter was not held; so going from origin to end of every turn is a one-to-one
correspondence between the occupied positions before and after the tick.
-/

namespace CellularAutomata.Darwin

variable {ρ : Type} [WordSource ρ] {w : World} {rest : List Cell}

/-- A turn replaces its origin by its end among the held positions. -/
theorem held_turn {s : Stage ρ} {c : Cell} (hwf : w.grid.WellFormed)
    (h : Orderly w.grid (c :: rest) s.decisions) (hturn : hasTurn s c = true) :
    (takeTurn w s c).decisions.held w.grid =
      insert ((Turn.mk c s).ended w).location (s.decisions.held w.grid \ {c.location}) := by
  have hunclaimed := (hasTurn_iff.mp hturn).2
  ext l
  simp only [Decisions.held, Set.mem_ofPred_eq, Set.mem_insert_iff, Set.mem_sdiff,
    Set.mem_singleton_iff]
  rw [claim?_takeTurn hturn, isVacated_takeTurn hturn]
  by_cases hend : ((Turn.mk c s).ended w).location = l
  · simp [hend]
  · rw [if_neg hend]
    by_cases horigin : c.location = l
    · subst horigin
      have hself : ∀ v, (Turn.mk c s).victim? w = some v → v.location ≠ c.location :=
        fun v hv => h.victim?_ne (t := Turn.mk c s) hwf hturn hv
      have hleft : decide (((Turn.mk c s).ended w).location ≠ c.location ∧
          c.location = c.location) = true := by simpa using hend
      rw [hleft]
      cases hv : (Turn.mk c s).victim? w with
      | none => simp [hunclaimed, Ne.symm hend]
      | some v => simp [hunclaimed, hself v hv, Ne.symm hend]
    · have hkept : decide (((Turn.mk c s).ended w).location ≠ c.location ∧ c.location = l) =
          false := by simp [horigin]
      rw [hkept, Bool.false_or]
      cases hv : (Turn.mk c s).victim? w with
      | none => simp [Ne.symm hend, Ne.symm horigin]
      | some v =>
        have hvic := h.victim?_turn (t := Turn.mk c s) hwf hv
        have hocc := (h.victim? hwf hvic).2.1
        have hvac := (available_of_victim? hvic).1
        by_cases hl : v.location = l
        · subst hl
          simp [Ne.symm horigin, hocc, hvac]
        · simp [hl, Ne.symm hend, Ne.symm horigin]

/-- Going from origin to end of one turn, and staying elsewhere, is a one-to-one
correspondence between the positions held before and after it. -/
theorem bijOn_turn {s : Stage ρ} {c : Cell} (hwf : w.grid.WellFormed)
    (h : Orderly w.grid (c :: rest) s.decisions) (hturn : hasTurn s c = true) :
    Set.BijOn (fun l => if c.location = l then ((Turn.mk c s).ended w).location else l)
      (s.decisions.held w.grid) ((takeTurn w s c).decisions.held w.grid) := by
  have hne := (hasTurn_iff.mp hturn).1
  have horigin : c.location ∈ s.decisions.held w.grid :=
    Or.inr ⟨⟨c, h.cellAt hwf, hne⟩, (h.waits (List.mem_cons_self ..)).1⟩
  have hothers : Set.BijOn
      (fun l => if c.location = l then ((Turn.mk c s).ended w).location else l)
      (s.decisions.held w.grid \ {c.location}) (s.decisions.held w.grid \ {c.location}) := by
    refine (Set.bijOn_id _).congr ?_
    intro l hl
    exact (if_neg (Ne.symm hl.2)).symm
  have hnew : ((Turn.mk c s).ended w).location ∉ s.decisions.held w.grid \ {c.location} := by
    rintro ⟨hheld, helse⟩
    rcases (Turn.mk c s).ended_location_cases (w := w) with hstay | ⟨hclaim, _, hfree, _⟩
    · exact helse hstay
    · rcases hheld with hsome | ⟨hocc, _⟩
      · rw [hclaim] at hsome
        cases hsome
      · exact hfree hocc
  have hall := hothers.insert (a := c.location) (by rw [if_pos rfl]; exact hnew)
  rw [if_pos rfl, Set.insert_sdiff_singleton, Set.insert_eq_of_mem horigin] at hall
  rw [held_turn hwf h hturn]
  exact hall

/-- Where individuals end is a one-to-one correspondence between the positions held before
and after the remaining turns of a tick. -/
theorem bijOn_endPlace {cells : List Cell} {s : Stage ρ} (hwf : w.grid.WellFormed)
    (h : Orderly w.grid cells s.decisions) :
    Set.BijOn (endPlace w (turnsFrom w cells s)) (s.decisions.held w.grid)
      ((stageAfter w cells s).decisions.held w.grid) := by
  induction cells generalizing s with
  | nil => exact Set.bijOn_id _
  | cons c cells ih =>
    have hrest := ih (h.takeTurn (w := w) hwf)
    rw [turnsFrom]
    by_cases hturn : hasTurn s c = true
    · rw [if_pos hturn]
      refine (hrest.comp (bijOn_turn hwf h hturn)).congr ?_
      intro l _
      rw [Function.comp_apply]
      by_cases hl : c.location = l
      · -- whoever has come to the end of this turn has no turn of its own there
        have hclaimed : ((takeTurn w s c).decisions.claim?
            ((Turn.mk c s).ended w).location).isSome = true := by
          rw [claim?_takeTurn hturn, if_pos rfl]
          rfl
        have hnone : ((turnsFrom w cells (takeTurn w s c)).find? fun t =>
            t.cell.location = ((Turn.mk c s).ended w).location) = none := by
          rw [List.find?_eq_none]
          intro t ht heq
          exact location_ne_of_claimed hclaimed ht (of_decide_eq_true heq)
        rw [if_pos hl, endPlace, hnone, endPlace, List.find?_cons_of_pos (by simpa using hl)]
      · rw [if_neg hl, endPlace, endPlace, List.find?_cons_of_neg (by simpa using hl)]
    · rw [if_neg hturn]
      rw [takeTurn_of_not_hasTurn hturn] at hrest ⊢
      rw [stageAfter, List.foldl_cons, takeTurn_of_not_hasTurn hturn]
      exact hrest

variable {r : Rules} {g : Grid}

/-- Final occupants of a tick of a sound grid are individuals. -/
theorem SoundStage.isEmpty_claim {waiting : List Cell} {d : Decisions}
    (h : SoundStage r g waiting d) (hzero : emptyState ∉ r.species) (l : Location) (k : Claim)
    (hk : d.claim? l = some k) : k.cell.isEmpty = false :=
  (h.settled hk).isEmpty hzero

/-- Where individuals end is a one-to-one correspondence between the occupied positions
before and after a tick. -/
theorem bijOn_tick (hwf : g.WellFormed) (hg : SoundGrid r g) (hzero : emptyState ∉ r.species)
    (source : ρ) :
    Set.BijOn (endPlace (r.world g) (turns (r.world g) source)) g.occupied
      (g.apply (r.tick g source).updates).occupied := by
  have hstart : (opening source).decisions.held g = g.occupied := by
    ext l
    simp [opening, Decisions.held]
  have hend := hg.finish hwf source
  have hbij := bijOn_endPlace (w := r.world g) (s := opening source) hwf (Orderly.start g)
  rw [Rules.apply_tick, hend.orderly.occupied_shown (hend.isEmpty_claim hzero), ← hstart]
  exact hbij

/-- A position at which nobody is before or after a tick keeps its cell. -/
theorem cellAt_tick_of_vacant (hwf : g.WellFormed) (hg : SoundGrid r g)
    (hzero : emptyState ∉ r.species) (source : ρ) {l : Location} (hbefore : l ∉ g.occupied)
    (hafter : l ∉ (g.apply (r.tick g source).updates).occupied) :
    (g.apply (r.tick g source).updates).cellAt l = g.cellAt l := by
  have hend := hg.finish hwf source
  rw [Rules.apply_tick, hend.orderly.occupied_shown (hend.isEmpty_claim hzero)] at hafter
  have hclaim : (takeTurns (r.world g) source).decisions.claim? l = none := by
    by_contra hsome
    exact hafter (Or.inl (Option.isSome_iff_ne_none.mpr hsome))
  have hvacated : (takeTurns (r.world g) source).decisions.isVacated l =
      false := by
    by_contra hleft
    exact hbefore (hend.orderly.left (Bool.not_eq_false _ ▸ hleft)).1
  rw [Rules.apply_tick, Decisions.cellAt_shown, hclaim, hvacated]
  simp

/-- A tick keeps the number of empty cells. -/
theorem countState_emptyState_tick (hwf : g.WellFormed) (hg : SoundGrid r g)
    (hzero : emptyState ∉ r.species) (source : ρ) :
    (g.apply (r.tick g source).updates).countState emptyState = g.countState emptyState := by
  rw [(hwf.apply _).countState_emptyState, hwf.countState_emptyState, Grid.populated_apply,
    (bijOn_tick hwf hg hzero source).ncard_eq]

/-- A run keeps the number of empty cells. -/
theorem countState_emptyState_after {c : Configuration} {s : Simulation ρ}
    (hs : Simulation.Reachable c s) (hr : s.rules = .darwin r) (n : Nat) :
    (s.after n).grid.countState emptyState = s.grid.countState emptyState := by
  induction n with
  | zero => rfl
  | succ n ih =>
    have hreach := hs.after n
    have hrules : (s.after n).rules = .darwin r := (s.rules_after n).trans hr
    have hzero := (species_of_reachable hreach hrules).2
    rw [Simulation.after, grid_step hrules, ← ih]
    exact countState_emptyState_tick hreach.wellFormed (sound_of_reachable hreach hrules) hzero _

/-- In a tick of a reachable Darwin world the individuals before and after it correspond
one to one. Each of them has one turn and is where that has ended, or is where it was and
has been converted by an individual before it; its cell is as its turn or its conversion
has left it. Positions where nobody is or was keep their cells. Hence the population of
empty cells stays the same in every run. -/
theorem individuals_conserved {c : Configuration} {s : Simulation ρ}
    (hs : Simulation.Reachable c s) (hr : s.rules = .darwin r) :
    Set.BijOn (endPlace (r.world s.grid) (turns (r.world s.grid) s.source))
        s.grid.occupied s.step.simulation.grid.occupied ∧
      (∀ l ∈ s.grid.occupied,
        (∃ t, turnsOf (r.world s.grid) s.source l = [t] ∧
          endPlace (r.world s.grid) (turns (r.world s.grid) s.source) l =
            (t.ended (r.world s.grid)).location ∧
          (s.step.simulation.grid.cellAt (t.ended (r.world s.grid)).location =
              some (t.result (r.world s.grid)) ∨
            ∃ u ∈ turns (r.world s.grid) s.source,
              u.victim? (r.world s.grid) = some (t.result (r.world s.grid)) ∧
              s.step.simulation.grid.cellAt (t.ended (r.world s.grid)).location =
                some (converted (r.world s.grid) (u.ready (r.world s.grid))
                  (t.result (r.world s.grid))))) ∨
        (turnsOf (r.world s.grid) s.source l = [] ∧
          endPlace (r.world s.grid) (turns (r.world s.grid) s.source) l = l ∧
          ∃ t ∈ turns (r.world s.grid) s.source, compare t.cell.location l = .lt ∧
            ∃ v, s.grid.cellAt l = some v ∧ t.victim? (r.world s.grid) = some v ∧
              s.step.simulation.grid.cellAt l =
                some (converted (r.world s.grid) (t.ready (r.world s.grid)) v))) ∧
      (∀ l, l ∉ s.grid.occupied →
        (∀ l' ∈ s.grid.occupied,
          endPlace (r.world s.grid) (turns (r.world s.grid) s.source) l' ≠ l) →
        s.step.simulation.grid.cellAt l = s.grid.cellAt l) ∧
      ∀ n, (s.after n).grid.population[emptyState]? = s.grid.population[emptyState]? := by
  have hwf := hs.wellFormed
  have hsound := sound_of_reachable hs hr
  have hzero := (species_of_reachable hs hr).2
  have hbij := bijOn_tick hwf hsound hzero s.source
  rw [grid_step hr]
  refine ⟨hbij, ?_, ?_, ?_⟩
  · rintro l ⟨cell, hcell, hne⟩
    obtain rfl := hwf.location hcell
    rcases turnsOf_cases (w := r.world s.grid) hwf hcell hne s.source with
      ⟨t, ht, -, hone⟩ | ⟨hnone, t, ht, hbefore, hv⟩
    · exact Or.inl ⟨t, hone, endPlace_of_turnsOf hone, cellAt_tick_of_turn hwf ht⟩
    · exact Or.inr ⟨hnone, endPlace_of_turnsOf_nil hnone, t, ht, hbefore, cell, hcell, hv,
        cellAt_tick_of_victim hwf ht hv⟩
  · intro l hbefore hentered
    refine cellAt_tick_of_vacant hwf hsound hzero s.source hbefore ?_
    intro hafter
    obtain ⟨l', hl', heq⟩ := hbij.surjOn hafter
    exact hentered l' hl' heq
  · intro n
    rw [Grid.getElem?_population, Grid.getElem?_population, countState_emptyState_after hs hr]

/-- The second tick of the duel takes the occupied positions one to one to those after it, and
any three ticks after the first keep the number of empty cells. -/
theorem duel_individuals_conserved :
    ∃ (s : Simulation KeyStream) (r : Rules),
      Simulation.Reachable duel (s.after 1) ∧ (s.after 1).rules = .darwin r ∧
      Set.BijOn (endPlace (r.world (s.after 1).grid)
          (turns (r.world (s.after 1).grid) (s.after 1).source))
        (s.after 1).grid.occupied (s.after 1).step.simulation.grid.occupied ∧
      ((s.after 1).after 3).grid.population[emptyState]? =
        (s.after 1).grid.population[emptyState]? := by
  obtain ⟨s, r, hs, hr⟩ := exists_duel
  have hreach : Simulation.Reachable duel (s.after 1) :=
    (Simulation.Reachable.start hs s.source).after 1
  have hconserved := individuals_conserved hreach hr
  exact ⟨s, r, hreach, hr, hconserved.1, hconserved.2.2.2 3⟩

end CellularAutomata.Darwin
