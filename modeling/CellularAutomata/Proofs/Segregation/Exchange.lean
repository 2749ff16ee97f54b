import CellularAutomata.Proofs.Grid.Census
import CellularAutomata.Proofs.Run.Rest
import CellularAutomata.Proofs.Segregation.Moves

/-!
# Agents change places with vacancies

What a tick of segregation makes of a grid. Each agent that moves changes places with a
vacancy of its own and everything else stays as it is. So no run changes what the grid
holds, disregarding where, and in particular the population stays the same.
-/

namespace CellularAutomata.Segregation

variable {g : Grid} {m : Move} {moves : List Move}

/-- The first of feasible moves is feasible by itself. -/
theorem Feasible.head (h : Feasible g (m :: moves)) : Feasible g [m] where
  agent x hx := h.agent x (List.mem_cons.mpr (Or.inl (List.mem_singleton.mp hx)))
  vacancy x hx := h.vacancy x (List.mem_cons.mpr (Or.inl (List.mem_singleton.mp hx)))
  apart := by
    have hapart := h.apart
    rw [List.flatMap_cons, List.nodup_append] at hapart
    rw [List.flatMap_cons, List.flatMap_nil, List.append_nil]
    exact hapart.1

/-- Where a move is made its vacancy holds the agent and the place of the agent the vacancy, and
every other position holds the same as before. -/
theorem Feasible.cellAt_apply (h : Feasible g moves) :
    (∀ m ∈ moves,
      (g.apply (moves.flatMap Move.updates)).cellAt m.vacancy.location =
        some (m.agent.movedTo m.vacancy.location) ∧
      (g.apply (moves.flatMap Move.updates)).cellAt m.agent.location =
        some (m.vacancy.movedTo m.agent.location)) ∧
    ∀ l, (∀ m ∈ moves, l ∉ m.places) →
      (g.apply (moves.flatMap Move.updates)).cellAt l = g.cellAt l := by
  have hadmits := h.admits
  constructor
  · intro m hm
    have harrival : CellUpdate.place m.vacancy.location m.agent ∈ moves.flatMap Move.updates :=
      List.mem_flatMap.mpr ⟨m, hm, by simp [Move.updates]⟩
    have hdeparture : CellUpdate.place m.agent.location m.vacancy ∈ moves.flatMap Move.updates :=
      List.mem_flatMap.mpr ⟨m, hm, by simp [Move.updates]⟩
    exact ⟨hadmits.cellAt_apply harrival, hadmits.cellAt_apply hdeparture⟩
  · intro l hl
    refine hadmits.cellAt_apply_of_forall_ne ?_
    intro u hu heq
    have hplace := List.mem_map_of_mem (f := CellUpdate.location) hu
    rw [map_location_updates, List.mem_flatMap] at hplace
    obtain ⟨m, hm, hmem⟩ := hplace
    exact hl m hm (heq ▸ hmem)

/-- After a move the remaining ones are still feasible. -/
theorem Feasible.tail (h : Feasible g (m :: moves)) : Feasible (g.apply m.updates) moves := by
  have hapart := h.apart
  rw [List.flatMap_cons, List.nodup_append] at hapart
  have hkept : ∀ l ∈ moves.flatMap Move.places, (g.apply m.updates).cellAt l = g.cellAt l := by
    intro l hl
    have hmove := h.head.cellAt_apply.2 l
    rw [List.flatMap_cons, List.flatMap_nil, List.append_nil] at hmove
    refine hmove ?_
    intro x hx hplace
    rw [List.mem_singleton.mp hx] at hplace
    exact hapart.2.2 l hplace l hl rfl
  refine ⟨?_, ?_, hapart.2.1⟩
  · intro x hx
    rw [hkept _ (List.mem_flatMap.mpr ⟨x, hx, by simp [Move.places]⟩)]
    exact h.agent x (List.mem_cons_of_mem m hx)
  · intro x hx
    rw [hkept _ (List.mem_flatMap.mpr ⟨x, hx, by simp [Move.places]⟩)]
    exact h.vacancy x (List.mem_cons_of_mem m hx)

/-- A move does not change what the grid holds: the agent and the vacancy change places. -/
theorem Feasible.perm_contents_move (hwf : g.WellFormed) (h : Feasible g [m]) :
    (g.apply m.updates).contents.Perm g.contents := by
  have hagent := h.agent m (List.mem_singleton_self m)
  have hvacancy := h.vacancy m (List.mem_singleton_self m)
  have hmove := h.cellAt_apply
  rw [List.flatMap_cons, List.flatMap_nil, List.append_nil] at hmove
  obtain ⟨harrived, hleft⟩ := hmove.1 m (List.mem_singleton_self m)
  refine hwf.perm_contents (hwf.apply _) (Equiv.swap m.agent.location m.vacancy.location) ?_
  intro l
  rw [Equiv.swap_apply_def]
  by_cases hla : l = m.agent.location
  · rw [if_pos hla, harrived, hla, hagent]
    rfl
  · rw [if_neg hla]
    by_cases hlv : l = m.vacancy.location
    · rw [if_pos hlv, hleft, hlv, hvacancy]
      rfl
    · rw [if_neg hlv, hmove.2 l]
      intro x hx
      rw [List.mem_singleton.mp hx]
      simp [Move.places, hla, hlv]

/-- Feasible moves do not change what the grid holds. -/
theorem Feasible.perm_contents (hwf : g.WellFormed) (h : Feasible g moves) :
    (g.apply (moves.flatMap Move.updates)).contents.Perm g.contents := by
  induction moves generalizing g with
  | nil => exact List.Perm.refl _
  | cons m moves ih =>
    have hfirst := h.head.perm_contents_move hwf
    have hrest := ih (hwf.apply m.updates) h.tail
    rw [List.flatMap_cons, Grid.apply_append]
    exact hrest.trans hfirst

/-- What a tick makes of a grid: some agents have changed places with vacancies. -/
structure Relocation (r : Rules) (g g' : Grid) (moves : List Move) : Prop where
  /-- As many agents move as want to, if there are enough vacancies, or else as many as there
  are vacancies. -/
  length : moves.length = min (r.unsatisfied g).length (vacancies g).length
  /-- The agents that move are the first ones that want to. -/
  first : moves.map Move.agent = (r.unsatisfied g).take moves.length
  /-- Nobody was where they move to. -/
  vacant : ∀ m ∈ moves, m.vacancy ∈ vacancies g
  /-- No two of them move to the same position. -/
  once : (moves.map fun m => m.vacancy.location).Nodup
  /-- Each of them is where it has moved to. -/
  arrived : ∀ m ∈ moves,
    g'.cellAt m.vacancy.location = some (m.agent.movedTo m.vacancy.location)
  /-- Nobody is where they were. -/
  left : ∀ m ∈ moves, g'.stateAt m.agent.location = some emptyState
  /-- Everything else is as it was. -/
  kept : ∀ l, (∀ m ∈ moves, l ≠ m.agent.location ∧ l ≠ m.vacancy.location) →
    g'.cellAt l = g.cellAt l

variable {ρ : Type} [WordSource ρ]

/-- A tick relocates agents. -/
theorem exists_relocation (r : Rules) (hwf : g.WellFormed) (source : ρ) :
    ∃ moves, Relocation r g (g.apply (r.tick g source).updates) moves := by
  obtain ⟨moves, hupdates, hagents, hvacant, hfeasible⟩ := exists_moves_tick r hwf source
  have hlength : moves.length = min (r.unsatisfied g).length (vacancies g).length := by
    have hcount := congrArg List.length hagents
    rw [List.length_map, List.length_take] at hcount
    omega
  have hmoves := hfeasible.cellAt_apply
  have honce := (perm_places moves).nodup_iff.mp hfeasible.apart
  rw [List.nodup_append] at honce
  rw [hupdates]
  refine ⟨moves, hlength, ?_, hvacant, honce.1, fun m hm => (hmoves.1 m hm).1, ?_, ?_⟩
  · rw [hagents, hlength, List.take_eq_take_min, Nat.min_comm]
  · intro m hm
    have hempty := (List.mem_filter.mp (hvacant m hm)).2
    rw [Grid.stateAt_of_cellAt (hmoves.1 m hm).2]
    exact congrArg some (beq_iff_eq.mp hempty)
  · intro l hl
    refine hmoves.2 l ?_
    intro m hm hplace
    have hother := hl m hm
    simp [Move.places, hother.1, hother.2] at hplace

variable {r : Rules} {s : Simulation ρ}

/-- A step of a segregation world is a tick of its rules. -/
theorem grid_step (hr : s.rules = .segregation r) :
    s.step.simulation.grid = s.grid.apply (r.tick s.grid s.source).updates := by
  change s.grid.apply (s.rules.tick s.grid s.source).updates = _
  rw [hr]
  rfl

/-- A tick does not change what the grid holds. -/
theorem perm_contents_tick (r : Rules) (hwf : g.WellFormed) (source : ρ) :
    (g.apply (r.tick g source).updates).contents.Perm g.contents := by
  obtain ⟨moves, hupdates, -, -, hfeasible⟩ := exists_moves_tick r hwf source
  rw [hupdates]
  exact hfeasible.perm_contents hwf

/-- A run does not change what the grid holds. -/
theorem perm_contents_after (hr : s.rules = .segregation r) (hwf : s.grid.WellFormed) (n : Nat) :
    (s.after n).grid.contents.Perm s.grid.contents := by
  induction n with
  | zero => exact List.Perm.refl _
  | succ n ih =>
    have hgrid := grid_step ((s.rules_after n).trans hr)
    have htick := perm_contents_tick r (Simulation.wellFormed_after hwf n) (s.after n).source
    rw [Simulation.after, hgrid]
    exact htick.trans ih

/-- In a tick of segregation the agents that want to move do so in row-major order until all
have moved or there is no vacancy left: each of them changes places with an empty cell of its
own, and everything else stays as it is. Hence every run keeps what the cells are apart from
their locations, and with it the population. -/
theorem agents_change_places (hr : s.rules = .segregation r) (hwf : s.grid.WellFormed) :
    (s.grid.cellList.Pairwise fun a b => compare a.location b.location = .lt) ∧
    (∃ moves, Relocation r s.grid s.step.simulation.grid moves) ∧
    ∀ n, (Simulation.run n s).1.grid.contents.Perm s.grid.contents ∧
      (Simulation.run n s).1.summary.population = s.grid.population := by
  refine ⟨hwf.cellList_sorted, ?_, ?_⟩
  · rw [grid_step hr]
    exact exists_relocation r hwf s.source
  · intro n
    have hperm := perm_contents_after hr hwf n
    rw [Simulation.run_fst]
    exact ⟨hperm, Grid.population_eq_of_perm hperm⟩

/-- Three agents of two types and one vacancy. -/
def crowd : Grid :=
  ((((Grid.empty 2 2 .fixed).add (.plain 1 ⟨0, 0⟩)).add (.plain 2 ⟨0, 1⟩)).add
    (.plain 2 ⟨1, 0⟩)).add (.plain 0 ⟨1, 1⟩)

/-- Rules under which an agent wants all its neighbors to be of its own type. -/
def strict : Rules := ⟨.ofInt 1, 2, ⟨.square8, 1, false⟩, 0⟩

/-- A run of the crowd. -/
def crowdRun : Simulation KeyStream := .new crowd (.segregation strict) (Seed.source 0)

/-- The crowd is built cell by cell. -/
theorem wellFormed_crowd : crowd.WellFormed :=
  ((((Grid.wellFormed_empty 2 2 .fixed).add _).add _).add _).add _

/-- In the crowd all three agents want to move and only the first one can. -/
theorem crowd_agents_change_places :
    crowdRun.rules = .segregation strict ∧ crowdRun.grid.WellFormed ∧
      (strict.unsatisfied crowdRun.grid).length = 3 ∧ (vacancies crowdRun.grid).length = 1 ∧
      (∃ moves, moves.length = 1 ∧
        Relocation strict crowdRun.grid crowdRun.step.simulation.grid moves) ∧
      (Simulation.run 5 crowdRun).1.summary.population = crowdRun.grid.population := by
  have hcounts : (strict.unsatisfied crowdRun.grid).length = 3 ∧
      (vacancies crowdRun.grid).length = 1 := by
    decide +kernel
  have hplaces := agents_change_places (s := crowdRun) rfl wellFormed_crowd
  obtain ⟨moves, hmoves⟩ := hplaces.2.1
  have hlength : moves.length = 1 := by
    rw [hmoves.length, hcounts.1, hcounts.2]
    rfl
  exact ⟨rfl, wellFormed_crowd, hcounts.1, hcounts.2, ⟨moves, hlength, hmoves⟩,
    (hplaces.2.2 5).2⟩

end CellularAutomata.Segregation
