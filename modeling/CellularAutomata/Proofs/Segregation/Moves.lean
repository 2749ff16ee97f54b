import CellularAutomata.Motion.Segregation
import CellularAutomata.Proofs.Grid.Batches
import CellularAutomata.Proofs.Random.Draws

/-!
# Moves of agents

A tick of segregation as a list of moves, each of an agent to a vacancy. The agents that
want to move do so in row-major order until no vacancy is left, and however the vacancies
are drawn, none is given away twice. So all positions that are written are different.
-/

namespace CellularAutomata.Segregation

/-- An agent and the vacancy that it moves to, as they were before the tick. -/
structure Move where
  /-- The agent. -/
  agent : Cell
  /-- The vacancy. -/
  vacancy : Cell

/-- The positions that a move concerns. -/
def Move.places (m : Move) : List Location := [m.vacancy.location, m.agent.location]

/-- The updates of a move: the vacancy receives the agent and the agent's place the vacancy. -/
def Move.updates (m : Move) : List CellUpdate :=
  [.place m.vacancy.location m.agent, .place m.agent.location m.vacancy]

/-- The cells of the agents that want to move, in row-major order. -/
def Rules.unsatisfied (r : Rules) (g : Grid) : List Cell :=
  g.cellList.filter fun c => !c.isEmpty && !r.isSatisfied g c

/-- The cells that nobody occupies. -/
def vacancies (g : Grid) : List Cell := g.cellList.filter Cell.isEmpty

/-- Moves of agents and vacancies of a grid that concern different positions. -/
structure Feasible (g : Grid) (moves : List Move) : Prop where
  /-- Each agent is where it is moved from. -/
  agent : ∀ m ∈ moves, g.cellAt m.agent.location = some m.agent
  /-- Each vacancy is where an agent is moved to. -/
  vacancy : ∀ m ∈ moves, g.cellAt m.vacancy.location = some m.vacancy
  /-- No two positions of the moves are the same. -/
  apart : (moves.flatMap Move.places).Nodup

/-- Whichever entry is taken away, it and the remaining ones are the entries. -/
theorem perm_swapRemove {α : Type} (entries : Array α) {index : Nat} (h : index < entries.size) :
    (entries[index] :: (swapRemove entries index h).toList).Perm entries.toList := by
  have hlast : entries.size - 1 < entries.size := by omega
  have hswap : (entries.swap index (entries.size - 1)).toList.Perm entries.toList :=
    (Array.swap_perm h hlast).toList
  have hne : (entries.swap index (entries.size - 1)).toList ≠ [] := by
    intro hnil
    have hlength := congrArg List.length hnil
    rw [Array.length_toList, Array.size_swap, List.length_nil] at hlength
    omega
  have hgetLast : (entries.swap index (entries.size - 1)).toList.getLast hne = entries[index] := by
    rw [List.getLast_eq_getElem]
    simp
  rw [swapRemove, Array.toList_pop, ← hgetLast]
  refine List.Perm.trans (List.perm_append_singleton _ _).symm ?_
  rw [List.dropLast_append_getLast hne]
  exact hswap

/-- When an entry is taken away there is one entry less. -/
theorem size_swapRemove {α : Type} (entries : Array α) {index : Nat} (h : index < entries.size) :
    (swapRemove entries index h).size = entries.size - 1 := by
  rw [swapRemove, Array.size_pop, Array.size_swap]

variable {ρ : Type} [WordSource ρ]

/-- Agents of a list that want to move do so as long as there are vacancies, each of which is
given away at most once. -/
theorem exists_moves (r : Rules) (g : Grid) (agents : List Cell) (free : Array Cell)
    (source : ρ) :
    ∃ moves : List Move,
      (r.relocate g agents free source).updates = moves.flatMap Move.updates ∧
      moves.map Move.agent = (agents.filter fun c => !r.isSatisfied g c).take free.size ∧
      (moves.map Move.vacancy).Subperm free.toList := by
  induction agents generalizing free source with
  | nil => exact ⟨[], rfl, by simp, List.nil_subperm⟩
  | cons agent rest ih =>
    rw [Rules.relocate]
    by_cases hsatisfied : r.isSatisfied g agent = true
    · rw [if_pos hsatisfied, List.filter_cons_of_neg (by simpa using hsatisfied)]
      exact ih free source
    · rw [if_neg hsatisfied, List.filter_cons_of_pos (by simpa using hsatisfied)]
      by_cases hempty : free.isEmpty = true
      · obtain ⟨moves, hupdates, hagents, hfree⟩ := ih free source
        have hsize : free.size = 0 := by simpa using hempty
        rw [hsize, List.take_zero] at hagents
        rw [if_pos hempty, hsize, List.take_zero]
        exact ⟨moves, hupdates, hagents, hfree⟩
      · have hpos : 0 < free.size := by
          have hne : free.size ≠ 0 := by simpa using hempty
          omega
        have hindex := WordSource.index64_lt hpos source
        rw [if_neg hempty]
        dsimp only
        rw [dif_pos hindex]
        obtain ⟨moves, hupdates, hagents, hfree⟩ :=
          ih (swapRemove free _ hindex) (WordSource.index64 free.size source).2
        rw [size_swapRemove] at hagents
        refine ⟨⟨agent, free[(WordSource.index64 free.size source).1]⟩ :: moves, ?_, ?_, ?_⟩
        · rw [hupdates]
          rfl
        · rw [List.map_cons, hagents, List.take_cons hpos]
        · rw [List.map_cons]
          exact ((List.subperm_cons _).mpr hfree).trans (perm_swapRemove free hindex).subperm

variable {g : Grid} {m : Move} {moves : List Move}

/-- Moves write the positions that they concern. -/
theorem map_location_updates (moves : List Move) :
    (moves.flatMap Move.updates).map CellUpdate.location = moves.flatMap Move.places := by
  rw [List.map_flatMap]
  rfl

/-- The positions that moves concern are those of the vacancies and those of the agents. -/
theorem perm_places (moves : List Move) :
    (moves.flatMap Move.places).Perm
      (moves.map (fun m => m.vacancy.location) ++ moves.map fun m => m.agent.location) := by
  have hperm := List.map_append_flatMap_perm moves (fun m => m.vacancy.location)
    fun m => [m.agent.location]
  rw [← List.map_eq_flatMap] at hperm
  exact hperm.symm

/-- The updates of feasible moves can be carried out in any order. -/
theorem Feasible.admits (h : Feasible g moves) : g.Admits (moves.flatMap Move.updates) where
  once := by
    rw [map_location_updates]
    exact h.apart
  populated u hu := by
    obtain ⟨m, hm, hu⟩ := List.mem_flatMap.mp hu
    have hagent := h.agent m hm
    have hvacancy := h.vacancy m hm
    cases List.mem_cons.mp hu with
    | inl harrival =>
      rw [harrival]
      exact Grid.mem_populated hvacancy
    | inr hdeparture =>
      rw [List.mem_singleton.mp hdeparture]
      exact Grid.mem_populated hagent
  placed u hu := by
    obtain ⟨m, -, hu⟩ := List.mem_flatMap.mp hu
    cases List.mem_cons.mp hu with
    | inl harrival => rw [harrival]; rfl
    | inr hdeparture => rw [List.mem_singleton.mp hdeparture]; rfl

/-- Different agents that move to different vacancies concern different positions. -/
theorem feasible_of_sublists (hwf : g.WellFormed)
    (hagents : (moves.map Move.agent).Sublist (g.cellList.filter fun c => !c.isEmpty))
    (hvacancies : (moves.map Move.vacancy).Subperm (vacancies g)) : Feasible g moves where
  agent m hm := by
    have hmem := hagents.subset (List.mem_map_of_mem hm)
    exact hwf.mem_cellList_iff.mp (List.mem_filter.mp hmem).1
  vacancy m hm := by
    have hmem := hvacancies.subset (List.mem_map_of_mem hm)
    exact hwf.mem_cellList_iff.mp (List.mem_filter.mp hmem).1
  apart := by
    have hfrom : (moves.map fun m => m.agent.location).Nodup := by
      have hsub := (hagents.trans List.filter_sublist).map Cell.location
      rw [List.map_map] at hsub
      exact hwf.nodup_locations.sublist hsub
    have hto : (moves.map fun m => m.vacancy.location).Nodup := by
      obtain ⟨taken, hperm, hsub⟩ := hvacancies
      have hnodup := hwf.nodup_locations.sublist
        ((hsub.trans List.filter_sublist).map Cell.location)
      rw [(hperm.map Cell.location).nodup_iff, List.map_map] at hnodup
      exact hnodup
    rw [(perm_places moves).nodup_iff, List.nodup_append]
    refine ⟨hto, hfrom, ?_⟩
    intro l hl l' hl' heq
    obtain ⟨m, hm, hlv⟩ := List.mem_map.mp hl
    obtain ⟨m', hm', hla⟩ := List.mem_map.mp hl'
    have hv := List.mem_filter.mp (hvacancies.subset (List.mem_map_of_mem hm))
    have ha := List.mem_filter.mp (hagents.subset (List.mem_map_of_mem hm'))
    -- an occupied cell and an empty one would be the same
    have hcell := hwf.mem_cellList_iff.mp hv.1
    have hcell' := hwf.mem_cellList_iff.mp ha.1
    have hsame : m.vacancy = m'.agent := by
      rw [hlv, heq, ← hla, hcell'] at hcell
      exact (Option.some.inj hcell).symm
    rw [hsame] at hv
    rw [hv.2] at ha
    exact absurd ha.2 (by simp)

/-- The updates of a tick are those of feasible moves: the agents that want to move do so in
row-major order, as many of them as there are vacancies. -/
theorem exists_moves_tick (r : Rules) (hwf : g.WellFormed) (source : ρ) :
    ∃ moves : List Move, (r.tick g source).updates = moves.flatMap Move.updates ∧
      moves.map Move.agent = (r.unsatisfied g).take (vacancies g).length ∧
      (∀ m ∈ moves, m.vacancy ∈ vacancies g) ∧ Feasible g moves := by
  obtain ⟨moves, hupdates, hagents, hvacancies⟩ :=
    exists_moves r g (g.cellList.filter fun c => !c.isEmpty) (vacancies g).toArray source
  rw [List.size_toArray] at hagents
  have hsub : (moves.map Move.agent).Sublist (g.cellList.filter fun c => !c.isEmpty) := by
    rw [hagents]
    exact (List.take_sublist _ _).trans List.filter_sublist
  have hunsatisfied : ((g.cellList.filter fun c => !c.isEmpty).filter
      fun c => !r.isSatisfied g c) = r.unsatisfied g := by
    rw [List.filter_filter, Rules.unsatisfied]
    refine List.filter_congr ?_
    intro c _
    exact Bool.and_comm _ _
  rw [hunsatisfied] at hagents
  refine ⟨moves, hupdates, hagents, ?_, feasible_of_sublists hwf hsub hvacancies⟩
  intro m hm
  exact hvacancies.subset (List.mem_map_of_mem hm)

/-- The updates of a tick can be carried out in any order. -/
theorem admits_tick (r : Rules) (hwf : g.WellFormed) (source : ρ) :
    g.Admits (r.tick g source).updates := by
  obtain ⟨moves, hupdates, -, -, hfeasible⟩ := exists_moves_tick r hwf source
  rw [hupdates]
  exact hfeasible.admits

end CellularAutomata.Segregation
