import CellularAutomata.Proofs.Grid.Contents
import Mathlib.Logic.Equiv.Basic

/-!
# Census of a grid

What a grid holds, disregarding where it is held, and how this is counted. Two grids whose
locations correspond one to one, with the same at corresponding locations, hold the same
and have the same population. The counts of a population add up to the number of cells.
-/

namespace CellularAutomata

/-- What a cell is apart from its location. -/
def Cell.content (c : Cell) : Nat × Attributes := (c.state, c.attributes)

namespace Grid

/-- What the cells of a grid are apart from their locations. -/
def contents (g : Grid) : List (Nat × Attributes) := g.cellList.map Cell.content

variable {g g' : Grid}

/-- Cells in a state are counted like the states of the cells. -/
theorem countState_eq_count (g : Grid) (state : Nat) :
    g.countState state = (g.cellList.map Cell.state).count state := by
  rw [countState, List.count_eq_countP, List.countP_map]
  rfl

/-- The number of cells in a state follows from the contents. -/
theorem countState_eq_countP_contents (g : Grid) (state : Nat) :
    g.countState state = g.contents.countP fun content => content.1 == state := by
  rw [contents, List.countP_map]
  rfl

/-- The population has entries for just the states that occur. -/
theorem mem_keys_population {state : Nat} :
    state ∈ g.population.keys ↔ state ∈ g.cellList.map Cell.state := by
  rw [Std.ExtTreeMap.mem_keys, Std.ExtTreeMap.mem_iff_isSome_getElem?, getElem?_population,
    countState_eq_count, ← List.count_pos_iff]
  split
  next hzero => simp [hzero]
  next hpositive => simpa using Nat.pos_of_ne_zero hpositive

/-- The counts of a population add up to the number of cells. -/
theorem sum_population (g : Grid) :
    (g.population.toList.map Prod.snd).sum = g.cellList.length := by
  have hcount : ∀ entry ∈ g.population.toList, entry.2 = g.countState entry.1 := by
    intro entry hentry
    have hsome := Std.ExtTreeMap.mem_toList_iff_getElem?_eq_some.mp hentry
    rw [getElem?_population] at hsome
    split at hsome
    next => cases hsome
    next => exact (Option.some.inj hsome).symm
  have hkeys : g.population.keys.Perm (g.cellList.map Cell.state).dedup := by
    have hnodup : g.population.keys.Nodup := by
      refine Std.ExtTreeMap.distinct_keys.imp ?_
      intro a b hab heq
      exact hab (by simp [heq])
    refine (List.perm_ext_iff_of_nodup hnodup (List.nodup_dedup _)).mpr ?_
    intro state
    rw [mem_keys_population, List.mem_dedup]
  calc (g.population.toList.map Prod.snd).sum
      = (g.population.toList.map fun entry => g.countState entry.1).sum := by
        rw [List.map_congr_left hcount]
    _ = (g.population.keys.map g.countState).sum := by
        rw [← Std.ExtTreeMap.map_fst_toList_eq_keys, List.map_map]
        rfl
    _ = ((g.cellList.map Cell.state).dedup.map g.countState).sum :=
        (hkeys.map g.countState).sum_eq
    _ = ((g.cellList.map Cell.state).dedup.map fun state =>
          (g.cellList.map Cell.state).count state).sum := by
        rw [List.map_congr_left fun state _ => g.countState_eq_count state]
    _ = g.cellList.length := by
        rw [List.sum_map_count_dedup_eq_length, List.length_map]

/-- Grids with the same contents have the same population. -/
theorem population_eq_of_perm (h : g'.contents.Perm g.contents) :
    g'.population = g.population := by
  refine Std.ExtTreeMap.ext_getElem? ?_
  intro state
  have hcount : g'.countState state = g.countState state := by
    rw [countState_eq_countP_contents, countState_eq_countP_contents]
    exact h.countP_eq _
  rw [getElem?_population, getElem?_population, hcount]

/-- A content occurs as often as there are locations that hold it. -/
theorem WellFormed.count_contents (h : g.WellFormed) (content : Nat × Attributes) :
    g.contents.count content =
      {l | (g.cellAt l).map Cell.content = some content}.ncard := by
  rw [contents, List.count_eq_countP, List.countP_map, h.countP_cellList]
  congr 1
  ext l
  simp [Option.map_eq_some_iff]

/-- Grids hold the same if their locations correspond one to one, with the same content at
corresponding locations. -/
theorem WellFormed.perm_contents (h : g.WellFormed) (h' : g'.WellFormed)
    (σ : Equiv.Perm Location)
    (hσ : ∀ l, (g'.cellAt (σ l)).map Cell.content = (g.cellAt l).map Cell.content) :
    g'.contents.Perm g.contents := by
  refine List.perm_iff_count.mpr ?_
  intro content
  have himage : {l | (g'.cellAt l).map Cell.content = some content} =
      σ '' {l | (g.cellAt l).map Cell.content = some content} := by
    ext l
    rw [Equiv.image_eq_preimage_symm]
    simp only [Set.mem_preimage, Set.mem_ofPred_eq, ← hσ (σ.symm l), Equiv.apply_symm_apply]
  rw [h.count_contents, h'.count_contents, himage]
  exact Set.ncard_image_of_injective _ σ.injective

end Grid

end CellularAutomata
