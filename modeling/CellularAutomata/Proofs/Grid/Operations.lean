import CellularAutomata.Proofs.Grid.Census
import CellularAutomata.Proofs.Grid.Layout

/-!
# Operations on a grid

A grid comes about from an empty one by adding cells, replacing single cells and carrying out
updates. Whatever is asked for, also off the grid, at a position that is taken or at one that has
never been populated, the grid stays in order, and each operation changes just the locations that
it names.
-/

namespace CellularAutomata.Grid

/-- What can be asked of a grid. -/
inductive Operation where
  /-- To add a cell, if there is room for it. -/
  | add (c : Cell)
  /-- To replace the cell at the location of the given one. -/
  | update (c : Cell)
  /-- To carry out the updates that place cells at locations, one after the other. -/
  | apply (placements : List (Location × Cell))

/-- The updates that place cells at locations. -/
def placing (placements : List (Location × Cell)) : List CellUpdate :=
  placements.map fun p => .place p.1 p.2

/-- The cell that the last of several placements puts at a location, if there is one. -/
def lastPlaced? (placements : List (Location × Cell)) (l : Location) : Option Cell :=
  ((placements.filter fun p => p.1 = l).getLast?).map fun p => p.2.movedTo l

/-- The grid after an operation. -/
def perform (g : Grid) : Operation → Grid
  | .add c => g.add c
  | .update c => g.update c
  | .apply placements => g.apply (placing placements)

/-- The grid after several operations. -/
def performAll (g : Grid) (operations : List Operation) : Grid := operations.foldl perform g

variable {g : Grid}

/-- An operation changes neither the dimensions nor the edge. -/
theorem perform_dimensions (g : Grid) (o : Operation) :
    (g.perform o).rows = g.rows ∧ (g.perform o).cols = g.cols ∧ (g.perform o).edge = g.edge := by
  cases o with
  | add c => exact g.add_dimensions c
  | update c => exact ⟨rfl, rfl, rfl⟩
  | apply placements => exact g.apply_dimensions (placing placements)

/-- A grid stays well-formed in an operation. -/
theorem WellFormed.perform (h : g.WellFormed) (o : Operation) : (g.perform o).WellFormed := by
  cases o with
  | add c => exact h.add c
  | update c => exact h.update c
  | apply placements => exact h.apply (placing placements)

/-- Operations change neither the dimensions nor the edge. -/
theorem performAll_dimensions (g : Grid) (operations : List Operation) :
    (g.performAll operations).rows = g.rows ∧ (g.performAll operations).cols = g.cols ∧
      (g.performAll operations).edge = g.edge := by
  induction operations generalizing g with
  | nil => exact ⟨rfl, rfl, rfl⟩
  | cons o rest ih =>
    obtain ⟨hrows, hcols, hedge⟩ := g.perform_dimensions o
    obtain ⟨hrows', hcols', hedge'⟩ := ih (g.perform o)
    exact ⟨hrows'.trans hrows, hcols'.trans hcols, hedge'.trans hedge⟩

/-- A grid stays well-formed in any operations. -/
theorem WellFormed.performAll (h : g.WellFormed) (operations : List Operation) :
    (g.performAll operations).WellFormed := by
  induction operations generalizing g with
  | nil => exact h
  | cons o rest ih => exact ih (h.perform o)

/-- A cell can be added just where the grid has a vacant position. -/
theorem isSome_add?_iff {c : Cell} :
    (g.add? c).isSome = true ↔ g.inBounds c.location = true ∧ g.cellAt c.location = none := by
  rw [Option.isSome_iff_exists]
  constructor
  · rintro ⟨g', h⟩
    exact (add?_eq_some_iff.mp h).1
  · intro h
    exact ⟨_, add?_eq_some_iff.mpr ⟨h, rfl⟩⟩

/-- A cell that can be added is seen at its location, and everything else is as before. -/
theorem cellAt_add_of_isSome {c : Cell} (h : (g.add? c).isSome = true) (l : Location) :
    (g.add c).cellAt l = if l = c.location then some c else g.cellAt l := by
  obtain ⟨hin, hvacant⟩ := isSome_add?_iff.mp h
  rw [cellAt_add]
  simp only [hin, hvacant, true_and, eq_comm]

/-- Nothing happens when a cell cannot be added. -/
theorem add_of_isSome_eq_false {c : Cell} (h : (g.add? c).isSome = false) : g.add c = g := by
  have hnone : g.add? c = none := by simpa using h
  rw [add, hnone]
  rfl

/-- A replaced cell leaves the populated locations as they are. -/
theorem populated_update (g : Grid) (c : Cell) : (g.update c).populated = g.populated := by
  ext l
  simp only [populated, Set.mem_ofPred_eq, cellAt_update]
  split <;> simp

/-- The last placement at a location comes with the last update of it. -/
theorem map_next_finalUpdate? (placements : List (Location × Cell)) (l : Location) :
    (finalUpdate? (placing placements) l).map CellUpdate.next = lastPlaced? placements l := by
  rw [finalUpdate?, placing, List.filter_map, List.getLast?_map, Option.map_map, lastPlaced?]
  refine Option.map_congr fun p hp => ?_
  have hl : p.1 = l := by
    simpa [CellUpdate.place, Cell.movedTo] using (List.mem_filter.mp (List.mem_of_getLast? hp)).2
  exact congrArg p.2.movedTo hl

/-- A populated location holds what the last placement at it has put there. -/
theorem cellAt_apply_placing (g : Grid) (placements : List (Location × Cell)) (l : Location) :
    (g.apply (placing placements)).cellAt l =
      (g.cellAt l).map fun old => (lastPlaced? placements l).getD old := by
  rw [cellAt_apply, map_next_finalUpdate?]

/-- The population has an entry for just the states that occur, and it is their number. -/
theorem getElem?_population_eq_some_iff {state n : Nat} :
    g.population[state]? = some n ↔ g.countState state = n ∧ 0 < n := by
  rw [getElem?_population]
  split
  next hzero =>
    constructor
    · nofun
    · omega
  next hpositive =>
    rw [Option.some.injEq]
    omega

/-- As many cells are listed as there are. -/
theorem WellFormed.length_cellList_eq_size (h : g.WellFormed) : g.cellList.length = g.size := by
  rw [← length_locations, ← h.map_location_cellList, List.length_map]

/-- After any operations on an empty grid, the grid has the dimensions and the edge with which it
began, it holds cells at positions only, and each is at its own location. A cell is added just
where there is a vacant position, and then nothing else changes; otherwise nothing changes at
all. Replacing a cell and carrying out updates keep the populated locations and change only
those that are named, where the last update of a location decides. The cells are listed in strict
row-major order, each once. The population has an entry for just the states that occur, with the
number of locations in that state, and these numbers add up to the number of cells. -/
theorem operations_keep_order (rows cols : Int) (edge : Edge) (operations : List Operation) :
    let g := (empty rows cols edge).performAll operations
    (g.rows = rows ∧ g.cols = cols ∧ g.edge = edge) ∧
    (∀ l c, g.cellAt l = some c →
      c.location = l ∧ (0 ≤ l.row ∧ l.row < rows) ∧ 0 ≤ l.col ∧ l.col < cols) ∧
    (∀ c, ((g.add? c).isSome = true ↔ ((0 ≤ c.location.row ∧ c.location.row < rows) ∧
        0 ≤ c.location.col ∧ c.location.col < cols) ∧ g.cellAt c.location = none) ∧
      ((g.add? c).isSome = true → ∀ l, (g.perform (.add c)).cellAt l =
        if l = c.location then some c else g.cellAt l) ∧
      ((g.add? c).isSome = false → g.perform (.add c) = g)) ∧
    (∀ c, (g.perform (.update c)).populated = g.populated ∧
      ∀ l, (g.perform (.update c)).cellAt l =
        if c.location = l then (g.cellAt l).map fun _ => c else g.cellAt l) ∧
    (∀ placements, (g.perform (.apply placements)).populated = g.populated ∧
      ∀ l, (g.perform (.apply placements)).cellAt l =
        (g.cellAt l).map fun old => (lastPlaced? placements l).getD old) ∧
    (g.cellList.Pairwise fun a b => a.location.row < b.location.row ∨
      a.location.row = b.location.row ∧ a.location.col < b.location.col) ∧
    (∀ c, c ∈ g.cellList ↔ g.cellAt c.location = some c) ∧
    (∀ state n, g.population[state]? = some n ↔ g.countState state = n ∧ 0 < n) ∧
    (∀ state, g.countState state = {l | g.stateAt l = some state}.ncard) ∧
    (g.population.toList.map Prod.snd).sum = g.size := by
  intro g
  have hwf : g.WellFormed := (wellFormed_empty rows cols edge).performAll operations
  have hdimensions : g.rows = rows ∧ g.cols = cols ∧ g.edge = edge :=
    performAll_dimensions (empty rows cols edge) operations
  have hin : ∀ l, g.inBounds l = true ↔
      (0 ≤ l.row ∧ l.row < rows) ∧ 0 ≤ l.col ∧ l.col < cols := by
    intro l
    rw [inBounds_iff, hdimensions.1, hdimensions.2.1]
  refine ⟨hdimensions, ?_, ?_, ?_, ?_, ?_, ?_, ?_, hwf.countState_eq_ncard, ?_⟩
  · intro l c hc
    exact ⟨hwf.location hc, (hin l).mp (hwf.inBounds hc)⟩
  · intro c
    rw [← hin, isSome_add?_iff]
    refine ⟨Iff.rfl, fun hadded => ?_, add_of_isSome_eq_false⟩
    exact cellAt_add_of_isSome (isSome_add?_iff.mpr hadded)
  · intro c
    exact ⟨populated_update g c, g.cellAt_update c⟩
  · intro placements
    exact ⟨populated_apply g (placing placements), g.cellAt_apply_placing placements⟩
  · refine hwf.cellList_sorted.imp ?_
    intro a b hab
    exact Location.compare_eq_lt_iff.mp hab
  · intro c
    exact hwf.mem_cellList_iff
  · intro state n
    exact getElem?_population_eq_some_iff
  · rw [sum_population, hwf.length_cellList_eq_size]

/-- Some operations of which only the first has an effect: the position is taken, the location is
off the grid, and there is nothing to be replaced. -/
def attempts : List Operation :=
  [.add (.plain 1 ⟨0, 1⟩), .add (.plain 2 ⟨0, 1⟩), .add (.plain 3 ⟨0, 2⟩),
    .update (.plain 4 ⟨1, 1⟩)]

/-- After the attempts there is one cell. Another one may be added elsewhere, and of two
placements at its location the second one decides, wherever the cell has been before. -/
theorem attempts_keep_order :
    let g := (empty 2 2 .fixed).performAll attempts
    (g.add? (.plain 5 ⟨1, 1⟩)).isSome = true ∧
    (g.perform (.add (.plain 5 ⟨1, 1⟩))).cellAt ⟨1, 1⟩ = some (.plain 5 ⟨1, 1⟩) ∧
    (g.perform (.apply [(⟨0, 1⟩, .plain 6 ⟨0, 1⟩), (⟨0, 1⟩, .plain 7 ⟨0, 0⟩)])).cellAt ⟨0, 1⟩ =
      some (.plain 7 ⟨0, 1⟩) ∧
    g.population[1]? = some 1 ∧ (g.population.toList.map Prod.snd).sum = 1 := by
  intro g
  have hcells : g.cellAt ⟨0, 1⟩ = some (.plain 1 ⟨0, 1⟩) ∧ g.cellAt ⟨1, 1⟩ = none ∧
      g.countState 1 = 1 ∧ g.size = 1 := by decide +kernel
  obtain ⟨hone, hvacant, hcount, hsize⟩ := hcells
  obtain ⟨-, -, hadd, -, hplace, -, -, hpopulation, -, hsum⟩ :=
    operations_keep_order 2 2 .fixed attempts
  obtain ⟨hroom, hadded, -⟩ := hadd (.plain 5 ⟨1, 1⟩)
  have hnew := hroom.mpr ⟨by decide, hvacant⟩
  refine ⟨hnew, hadded hnew ⟨1, 1⟩, ?_, (hpopulation 1 1).mpr ⟨hcount, by decide⟩, ?_⟩
  · rw [(hplace _).2]
    change (g.cellAt ⟨0, 1⟩).map _ = _
    rw [hone]
    rfl
  · exact hsum.trans hsize

end CellularAutomata.Grid
