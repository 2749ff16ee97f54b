import CellularAutomata.Proofs.Darwin.Infection

/-!
# How individuals see themselves

A ray may lead back to the position where it begins. An individual that looks there sees its
cell as it was before the tick, because its own turn decides about the position only when it
ends. So it takes itself for somebody of its species, and for an enemy in the one turn in which
its infection wears off, when its species has changed since.
-/

namespace CellularAutomata.Darwin

variable {g : Grid} {d : Decisions} {a : Actor} {accepts : View → Bool}

/-- A view that is accepted is met if there is one at some distance and no wall before. -/
theorem meets_iff {start count : Nat} :
    meets g d a accepts start count = true ↔
      ∃ distance, (start ≤ distance ∧ distance < start + count) ∧
        accepts (d.view g (a.ahead distance)) = true ∧
        ∀ e, start ≤ e → e < distance → d.view g (a.ahead e) ≠ .wall := by
  induction count generalizing start with
  | zero =>
    simp only [meets, Bool.false_eq_true, false_iff]
    rintro ⟨distance, hdistance, -⟩
    omega
  | succ count ih =>
    rw [meets]
    by_cases hfirst : accepts (d.view g (a.ahead start)) = true
    · simp only [hfirst, if_true, true_iff]
      exact ⟨start, by omega, hfirst, by omega⟩
    · rw [if_neg hfirst]
      by_cases hwall : d.view g (a.ahead start) = .wall
      · simp only [hwall, if_true, Bool.false_eq_true, false_iff]
        rintro ⟨distance, hdistance, haccepted, hbefore⟩
        rcases Nat.eq_or_lt_of_le hdistance.1 with rfl | hlater
        · exact hfirst haccepted
        · exact hbefore start (Nat.le_refl start) hlater hwall
      · rw [if_neg hwall, ih]
        constructor
        · rintro ⟨distance, hdistance, haccepted, hbefore⟩
          refine ⟨distance, by omega, haccepted, fun e he hed => ?_⟩
          rcases Nat.eq_or_lt_of_le he with rfl | hlater
          · exact hwall
          · exact hbefore e hlater hed
        · rintro ⟨distance, hdistance, haccepted, hbefore⟩
          rcases Nat.eq_or_lt_of_le hdistance.1 with rfl | hlater
          · exact absurd haccepted hfirst
          · exact ⟨distance, by omega, haccepted, fun e he hed => hbefore e (by omega) hed⟩

/-- An enemy is a cell of another species that somebody occupies. -/
theorem accepts_enemy_iff {species : Nat} {view : View} :
    Condition.enemy.accepts species view = true ↔
      ∃ cell, view = .occupied cell ∧ cell.state ≠ species := by
  cases view <;> simp [Condition.accepts]

/-- Whoever is called is seen where it is as its cell was before the tick. -/
theorem Orderly.view_of_called {c : Cell} {rest : List Cell} {l : Location} (hwf : g.WellFormed)
    (h : Orderly g (c :: rest) d) (hne : c.isEmpty = false)
    (hunclaimed : d.claim? c.location = none) (hl : g.resolve l = some c.location) :
    d.view g l = .occupied c := by
  have hkept := (h.waits (List.mem_cons_self ..)).1
  have hcurrent : d.current g c.location = some c := by
    rw [Decisions.current, hunclaimed]
    exact h.cellAt hwf
  rw [Decisions.view, hl]
  simp only [hkept, Bool.false_and, hcurrent, hne, Bool.false_eq_true, if_false]

variable {ρ : Type}

/-- The infection of the individual wears off in the turn. -/
def Turn.Reverts (t : Turn ρ) : Prop :=
  ∃ i x, t.cell.individual? = some i ∧ i.infection = some x ∧ x.countdown = 0

/-- A settled individual has the species of its cell when it comes to its instruction, unless
its infection has worn off. -/
theorem Turn.state_eq_species_iff {r : Rules} {t : Turn ρ} (w : World) (h : Settled r t.cell) :
    t.cell.state = (t.ready w).species ↔ ¬ t.Reverts := by
  obtain ⟨i, hattr, hsound⟩ := h
  have hi : t.cell.individual? = some i := by rw [Cell.individual?, hattr]
  constructor
  · rintro hstate ⟨j, x, hj, hx, hcount⟩
    obtain rfl := Option.some.inj (hi.symm.trans hj)
    rw [t.ready_of_expired w hi hx hcount] at hstate
    exact (hsound.infection x hx).2.2 hstate.symm
  · intro hgoes
    cases hx : i.infection with
    | none =>
      refine (t.ready_species_of_healthy w fun j hj => ?_).symm
      obtain rfl := Option.some.inj (hi.symm.trans hj)
      rw [Individual.isInfected, hx]
      rfl
    | some x =>
      have hcount : x.countdown ≠ 0 := fun hcount => hgoes ⟨i, x, hi, hx, hcount⟩
      rw [t.ready_of_infected w hi hx hcount]

variable [WordSource ρ] {w : World}

/-- An actor jumps by IFENEMY if it meets an enemy. -/
theorem execute_fst_of_ifEnemy {s : Stage ρ} {i : Instruction} {line : Nat}
    (hi : a.individual.program.instructions[a.individual.programCounter]? = some i)
    (ho : i.opcode = .ok .ifEnemy) (hline : i.target a.individual.program.length = .ok line) :
    (execute w a s).1 =
      if meets w.grid s.decisions a (Condition.enemy.accepts a.species) 1 w.settings.layers then
        { a with jump := some line }
      else a := by
  rw [execute_fst_eq_perform hi ho]
  exact performBranch_actor (by decide) w hline s

/-- An individual jumps by IFENEMY if there is an enemy at one of the distances at which it looks
and no wall before. -/
theorem Turn.jump_iff_of_ifEnemy {t : Turn ρ} {i : Instruction} {line : Nat}
    (hi : t.instruction? w = some i) (ho : i.opcode = .ok .ifEnemy)
    (hline : i.target (t.ready w).individual.program.length = .ok line) :
    (t.ended w).jump = some line ↔
      ∃ distance cell, (1 ≤ distance ∧ distance ≤ w.settings.layers) ∧
        (∀ e, 1 ≤ e → e < distance →
          t.stage.decisions.view w.grid ((t.ready w).ahead e) ≠ .wall) ∧
        t.stage.decisions.view w.grid ((t.ready w).ahead distance) = .occupied cell ∧
        cell.state ≠ (t.ready w).species := by
  have hd := (advanceInfection_frame w (actorOf w t.cell) t.stage).2
  have hended : t.ended w = if meets w.grid t.stage.decisions (t.ready w)
      (Condition.enemy.accepts (t.ready w).species) 1 w.settings.layers then
        { t.ready w with jump := some line }
      else t.ready w := by
    have hexecuted := execute_fst_of_ifEnemy (w := w) (a := t.ready w)
      (s := (advanceInfection w (actorOf w t.cell) t.stage).2) hi ho hline
    rw [hd] at hexecuted
    exact hexecuted
  have hjump : (t.ended w).jump = some line ↔ meets w.grid t.stage.decisions (t.ready w)
      (Condition.enemy.accepts (t.ready w).species) 1 w.settings.layers = true := by
    rw [hended]
    split
    next hmeets => simp [hmeets]
    next hmeets => simp [hmeets, t.jump_ready w]
  rw [hjump, meets_iff]
  constructor
  · rintro ⟨distance, hdistance, haccepted, hbefore⟩
    obtain ⟨cell, hview, hforeign⟩ := accepts_enemy_iff.mp haccepted
    exact ⟨distance, cell, by omega, hbefore, hview, hforeign⟩
  · rintro ⟨distance, cell, hdistance, hbefore, hview, hforeign⟩
    exact ⟨distance, by omega, accepts_enemy_iff.mpr ⟨cell, hview, hforeign⟩, hbefore⟩

variable {r : Rules} {c : Configuration} {s : Simulation ρ} {t : Turn ρ}

/-- In every turn of a reachable Darwin world an individual that looks at its own position sees
its cell as it was before the tick. This is a cell of its species unless its infection wears off
in the turn, and then it is one of another species. So what IFENEMY finds at the own position
does not make the individual jump unless its infection wears off in the turn, and then it does
if there is no wall before. -/
theorem foreign_to_itself_iff_reverts (hs : Simulation.Reachable c s) (hr : s.rules = .darwin r)
    (ht : t ∈ turns (r.world s.grid) s.source) :
    (∀ distance,
      s.grid.resolve ((t.ready (r.world s.grid)).ahead distance) = some t.cell.location →
      t.stage.decisions.view s.grid ((t.ready (r.world s.grid)).ahead distance) =
        .occupied t.cell) ∧
    (t.cell.state = (t.ready (r.world s.grid)).species ↔ ¬ t.Reverts) ∧
    ∀ i line, t.instruction? (r.world s.grid) = some i → i.opcode = .ok .ifEnemy →
      i.target (t.ready (r.world s.grid)).individual.program.length = .ok line →
      ((t.ended (r.world s.grid)).jump = some line ↔
        ∃ distance cell, (1 ≤ distance ∧ distance ≤ r.settings.layers) ∧
          (∀ e, 1 ≤ e → e < distance →
            t.stage.decisions.view s.grid ((t.ready (r.world s.grid)).ahead e) ≠ .wall) ∧
          t.stage.decisions.view s.grid ((t.ready (r.world s.grid)).ahead distance) =
            .occupied cell ∧
          cell.state ≠ (t.ready (r.world s.grid)).species ∧
          (s.grid.resolve ((t.ready (r.world s.grid)).ahead distance) = some t.cell.location →
            t.Reverts)) := by
  have hwf : (r.world s.grid).grid.WellFormed := hs.wellFormed
  obtain ⟨hturn, rest, horder⟩ := Orderly.of_mem_turns hwf ht
  obtain ⟨hne, hunclaimed⟩ := hasTurn_iff.mp hturn
  have hself : ∀ distance,
      s.grid.resolve ((t.ready (r.world s.grid)).ahead distance) = some t.cell.location →
      t.stage.decisions.view s.grid ((t.ready (r.world s.grid)).ahead distance) =
        .occupied t.cell := fun distance hl =>
    horder.view_of_called hwf hne hunclaimed hl
  have hspecies : t.cell.state = (t.ready (r.world s.grid)).species ↔ ¬ t.Reverts :=
    t.state_eq_species_iff _ (settled_of_mem_turns hs hr ht)
  refine ⟨hself, hspecies, ?_⟩
  intro i line hi ho hline
  rw [t.jump_iff_of_ifEnemy hi ho hline]
  constructor
  · rintro ⟨distance, cell, hdistance, hbefore, hview, hforeign⟩
    refine ⟨distance, cell, hdistance, hbefore, hview, hforeign, fun hl => ?_⟩
    by_contra hgoes
    obtain rfl := View.occupied.inj (hview.symm.trans (hself distance hl))
    exact hforeign (hspecies.mpr hgoes)
  · rintro ⟨distance, cell, hdistance, hbefore, hview, hforeign, -⟩
    exact ⟨distance, cell, hdistance, hbefore, hview, hforeign⟩

/-- Two individuals in a row whose right end is a mirror: the first converts the second for one
tick only, and the second looks two cells ahead for enemies. -/
def mirrored : Configuration :=
  { Configuration.default with
    automaton := "darwin"
    rows := 1
    cols := 3
    edge := .mirror
    parameters := (Parameters.empty.insert "infectionTime" (.ofInt 0)).insert "layers" (.ofInt 2)
    states := [[1, 2]]
    species := ((∅ : Std.ExtTreeMap Nat String).insert 1 "INFECT").insert 2
      "IFENEMY 3\nMOVE 0\nMOVE 0" }

/-- In the turn the individual looks two cells ahead for enemies. The first cell is empty and the
second one its own, which it sees as a cell of another species, and so it jumps. -/
def Startled (r : Rules) (g : Grid) (t : Turn ρ) : Prop :=
  t.instruction? (r.world g) = some ⟨"IFENEMY", ["3"]⟩ ∧ r.settings.layers = 2 ∧
    t.stage.decisions.view g ((t.ready (r.world g)).ahead 1) = .empty ∧
    g.resolve ((t.ready (r.world g)).ahead 2) = some t.cell.location ∧
    t.stage.decisions.view g ((t.ready (r.world g)).ahead 2) = .occupied t.cell ∧
    t.cell.state ≠ (t.ready (r.world g)).species ∧ (t.ended (r.world g)).jump = some 2

instance (r : Rules) (g : Grid) (t : Turn ρ) : Decidable (Startled r g t) :=
  inferInstanceAs (Decidable (_ ∧ _ ∧ _ ∧ _ ∧ _ ∧ _ ∧ _))

/-- Whether somebody is startled in the next tick of a Darwin world. -/
def startles (s : Simulation ρ) : Bool :=
  match s.rules with
  | .darwin r => (turns (r.world s.grid) s.source).any fun t => Startled r s.grid t
  | _ => false

/-- Somebody is startled in the second tick between the mirrors. -/
theorem exists_startled : ∃ (s : Simulation KeyStream) (r : Rules) (t : Turn KeyStream),
    Simulation.Reachable mirrored s ∧ s.rules = .darwin r ∧
      t ∈ turns (r.world s.grid) s.source ∧ Startled r s.grid t := by
  have hstartles : (Simulation.ofConfiguration mirrored).toOption.map
      (fun s => startles s.step.simulation) = some true := by decide +kernel
  obtain ⟨s, hs, hsome⟩ := exists_of_map_toOption hstartles
  have hreach : Simulation.Reachable mirrored s.step.simulation :=
    (Simulation.Reachable.start hs s.source).step
  rw [startles] at hsome
  split at hsome
  next r hr =>
    obtain ⟨t, ht, hstartled⟩ := List.any_eq_true.mp hsome
    exact ⟨_, r, t, hreach, hr, ht, of_decide_eq_true hstartled⟩
  next => cases hsome

/-- Between the mirrors an individual takes itself for an enemy: it finds nobody but itself, as
somebody of another species, and jumps because of that. -/
theorem mirrored_enemy_of_itself :
    ∃ (s : Simulation KeyStream) (r : Rules) (t : Turn KeyStream),
      Simulation.Reachable mirrored s ∧ s.rules = .darwin r ∧
      t ∈ turns (r.world s.grid) s.source ∧
      t.instruction? (r.world s.grid) = some ⟨"IFENEMY", ["3"]⟩ ∧ r.settings.layers = 2 ∧
      t.stage.decisions.view s.grid ((t.ready (r.world s.grid)).ahead 1) = .empty ∧
      s.grid.resolve ((t.ready (r.world s.grid)).ahead 2) = some t.cell.location ∧
      t.stage.decisions.view s.grid ((t.ready (r.world s.grid)).ahead 2) = .occupied t.cell ∧
      t.cell.state ≠ (t.ready (r.world s.grid)).species ∧
      (t.ended (r.world s.grid)).jump = some 2 :=
  exists_startled

/-- The individual that takes itself for an enemy between the mirrors is one whose infection
wears off. -/
theorem mirrored_foreign_to_itself_iff_reverts :
    ∃ (s : Simulation KeyStream) (r : Rules) (t : Turn KeyStream),
      Simulation.Reachable mirrored s ∧ s.rules = .darwin r ∧
      t ∈ turns (r.world s.grid) s.source ∧ (t.ended (r.world s.grid)).jump = some 2 ∧
      t.Reverts := by
  obtain ⟨s, r, t, hs, hr, ht, -, -, -, -, -, hforeign, hjump⟩ := exists_startled
  refine ⟨s, r, t, hs, hr, ht, hjump, ?_⟩
  by_contra hgoes
  exact hforeign ((foreign_to_itself_iff_reverts hs hr ht).2.1.mpr hgoes)

end CellularAutomata.Darwin
