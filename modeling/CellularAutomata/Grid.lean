import CellularAutomata.Cell
import CellularAutomata.Edge
import CellularAutomata.Fault

/-!
# Grids

A rectangle of positions, each with at most one cell. Cells are only ever added where
there is none and replaced where there is one, so the set of populated positions grows
by `add?` alone. Cells are listed in row-major order. What each operation does is said
once through `cellAt`, the cell that is seen at a location.
-/

namespace CellularAutomata

/-- A rectangle of cells. -/
structure Grid where
  /-- How many rows there are. -/
  rows : Int
  /-- How many columns there are. -/
  cols : Int
  /-- What happens beyond the edge. -/
  edge : Edge
  /-- The cells by location. -/
  cells : Std.ExtTreeMap Location Cell

namespace Grid

/-- A grid without cells. -/
def empty (rows cols : Int) (edge : Edge) : Grid := ⟨rows, cols, edge, ∅⟩

/-- The positions of a `rows` by `cols` rectangle in row-major order. -/
def positions (rows cols : Int) : List Location :=
  (List.range rows.toNat).flatMap fun (row : Nat) =>
    (List.range cols.toNat).map fun (col : Nat) => ⟨row, col⟩

/-- Visits positions of a row from a column on, until there is a fault. -/
def visitRow {σ ε : Type} (visit : σ → Location → Except ε σ) (row : Nat) :
    Nat → Nat → σ → Except ε σ
  | 0, _, s => .ok s
  | count + 1, col, s =>
    match visit s ⟨row, col⟩ with
    | .error fault => .error fault
    | .ok s => visitRow visit row count (col + 1) s

/-- Visits rows from a row on, until there is a fault. -/
def visitRows {σ ε : Type} (visit : σ → Location → Except ε σ) (cols : Nat) :
    Nat → Nat → σ → Except ε σ
  | 0, _, s => .ok s
  | count + 1, row, s =>
    match visitRow visit row cols 0 s with
    | .error fault => .error fault
    | .ok s => visitRows visit cols count (row + 1) s

/-- Visits the positions of a rectangle in row-major order until there is a fault. No more
positions are formed than are visited. -/
def visitPositions {σ ε : Type} (visit : σ → Location → Except ε σ) (rows cols : Int) (s : σ) :
    Except ε σ :=
  visitRows visit cols.toNat rows.toNat 0 s

/-- Whether a location is on the grid. -/
def inBounds (g : Grid) (l : Location) : Bool :=
  decide (0 ≤ l.row) && decide (l.row < g.rows) && decide (0 ≤ l.col) && decide (l.col < g.cols)

/-- Where a location is looked up, which may still be off the grid. -/
def adjust (g : Grid) (l : Location) : Location := g.edge.adjust g.rows g.cols l

/-- The position at which a location is looked up, if it is on the grid. -/
def resolve (g : Grid) (l : Location) : Option Location :=
  if g.inBounds (g.adjust l) then some (g.adjust l) else none

/-- The cell at a location, if there is one. -/
def cellAt (g : Grid) (l : Location) : Option Cell := g.cells[l]?

/-- The state at a location, if there is a cell. -/
def stateAt (g : Grid) (l : Location) : Option Nat := (g.cellAt l).map Cell.state

/-- The cell at a location that has to be on the grid. -/
def cell (g : Grid) (l : Location) : Except Fault (Option Cell) :=
  if g.inBounds l then .ok (g.cellAt l) else .error (.outOfBounds l g.rows g.cols)

/-- Adds a cell. This fails off the grid and where there is a cell already. -/
def add? (g : Grid) (c : Cell) : Option Grid :=
  if g.inBounds c.location && !g.cells.contains c.location then
    some { g with cells := g.cells.insert c.location c }
  else none

/-- Adds a cell where that is possible. -/
def add (g : Grid) (c : Cell) : Grid := (g.add? c).getD g

/-- Replaces the cell at the location of the given one. Nothing happens where there is
none. -/
def update (g : Grid) (c : Cell) : Grid :=
  { g with cells := g.cells.modify c.location fun _ => c }

/-- A grid with a cell at every position. -/
def filled (rows cols : Int) (edge : Edge) (make : Location → Cell) : Grid :=
  (positions rows cols).foldl (fun g l => g.add (make l)) (empty rows cols edge)

/-- Carries out updates one after the other. -/
def apply (g : Grid) (updates : List CellUpdate) : Grid :=
  updates.foldl (fun g u => g.update u.next) g

/-- The locations of updates that do nothing because there is no cell. -/
def ignored (g : Grid) (updates : List CellUpdate) : List Location :=
  (updates.map fun u => u.next.location).filter fun l => !g.cells.contains l

/-- The populated positions in row-major order. -/
def locations (g : Grid) : List Location := g.cells.keys

/-- The cells in row-major order. -/
def cellList (g : Grid) : List Cell := g.cells.values

/-- How many cells there are. -/
def size (g : Grid) : Nat := g.cells.size

/-- How many cells there are in each state that occurs. -/
def population (g : Grid) : Std.ExtTreeMap Nat Nat :=
  g.cellList.foldl (fun counts c => counts.insert c.state (counts.getD c.state 0 + 1)) ∅

/-- How many cells are in a state. -/
def countState (g : Grid) (state : Nat) : Nat := g.cellList.countP fun c => c.state == state

@[simp] theorem cellAt_empty (rows cols : Int) (edge : Edge) (l : Location) :
    (empty rows cols edge).cellAt l = none := by
  simp [cellAt, empty]

theorem contains_eq_isSome_cellAt (g : Grid) (l : Location) :
    g.cells.contains l = (g.cellAt l).isSome :=
  Std.ExtTreeMap.contains_eq_isSome_getElem?

/-- A cell is added exactly where the grid has a vacant position for it. -/
theorem add?_eq_some_iff {g g' : Grid} {c : Cell} :
    g.add? c = some g' ↔
      (g.inBounds c.location = true ∧ g.cellAt c.location = none) ∧
        g' = { g with cells := g.cells.insert c.location c } := by
  unfold add?
  rw [contains_eq_isSome_cellAt]
  cases g.inBounds c.location <;> cases g.cellAt c.location <;> simp [eq_comm]

theorem add?_eq_none_iff {g : Grid} {c : Cell} :
    g.add? c = none ↔ (g.inBounds c.location = true → (g.cellAt c.location).isSome) := by
  unfold add?
  rw [contains_eq_isSome_cellAt]
  cases g.inBounds c.location <;> cases g.cellAt c.location <;> simp

/-- Only the location of the added cell can look different afterwards. -/
theorem cellAt_add (g : Grid) (c : Cell) (l : Location) :
    (g.add c).cellAt l =
      if g.inBounds c.location = true ∧ g.cellAt c.location = none ∧ c.location = l then some c
      else g.cellAt l := by
  cases h : g.add? c with
  | none =>
    have : ¬ (g.inBounds c.location = true ∧ g.cellAt c.location = none ∧ c.location = l) := by
      intro hc
      simpa [hc.2.1] using add?_eq_none_iff.1 h hc.1
    simp [add, h, this]
  | some g' =>
    obtain ⟨⟨hin, hnone⟩, rfl⟩ := add?_eq_some_iff.1 h
    rw [add, h, Option.getD_some]
    simp only [hin, hnone, true_and]
    simp [cellAt, Std.ExtTreeMap.getElem?_insert]

/-- An update replaces the cell at its location, if there is one. -/
theorem cellAt_update (g : Grid) (c : Cell) (l : Location) :
    (g.update c).cellAt l = if c.location = l then (g.cellAt l).map fun _ => c else g.cellAt l := by
  by_cases h : c.location = l
  · subst h
    simp [update, cellAt]
  · simp [update, cellAt, Std.ExtTreeMap.getElem?_modify, h]

@[simp] theorem apply_nil (g : Grid) : g.apply [] = g := rfl

@[simp] theorem apply_cons (g : Grid) (u : CellUpdate) (us : List CellUpdate) :
    g.apply (u :: us) = (g.update u.next).apply us := rfl

theorem apply_append (g : Grid) (us vs : List CellUpdate) :
    g.apply (us ++ vs) = (g.apply us).apply vs := by
  simp [apply, List.foldl_append]

/-- Updates never change which positions are populated. -/
theorem isSome_cellAt_apply (g : Grid) (us : List CellUpdate) (l : Location) :
    ((g.apply us).cellAt l).isSome = (g.cellAt l).isSome := by
  induction us generalizing g with
  | nil => rfl
  | cons u us ih =>
    rw [apply_cons, ih, cellAt_update]
    split <;> simp

/-- The positions of a rectangle are the locations with a row and a column in range. -/
theorem mem_positions {rows cols : Int} {l : Location} :
    l ∈ positions rows cols ↔ (0 ≤ l.row ∧ l.row < rows) ∧ 0 ≤ l.col ∧ l.col < cols := by
  simp only [positions, List.mem_flatMap, List.mem_map, List.mem_range]
  constructor
  · rintro ⟨row, hrow, col, hcol, rfl⟩
    exact ⟨⟨by simp, by simp; omega⟩, by simp, by simp; omega⟩
  · rintro ⟨⟨hrow, hrow'⟩, hcol, hcol'⟩
    refine ⟨l.row.toNat, by omega, l.col.toNat, by omega, ?_⟩
    rw [Int.toNat_of_nonneg hrow, Int.toNat_of_nonneg hcol]

/-- A position is given by its coordinates. -/
theorem inBounds_iff {g : Grid} {l : Location} : g.inBounds l = true ↔
    (0 ≤ l.row ∧ l.row < g.rows) ∧ 0 ≤ l.col ∧ l.col < g.cols := by
  simp only [inBounds, Bool.and_eq_true, decide_eq_true_eq, and_assoc]

theorem visitRow_eq_foldlM {σ ε : Type} (visit : σ → Location → Except ε σ)
    (row count col : Nat) (s : σ) :
    visitRow visit row count col s =
      ((List.range' col count).map fun (c : Nat) => (⟨row, c⟩ : Location)).foldlM visit s := by
  induction count generalizing col s with
  | zero => rfl
  | succ count ih =>
    rw [List.range'_succ, List.map_cons, List.foldlM_cons, visitRow]
    cases visit s ⟨row, col⟩ with
    | error fault => rfl
    | ok s => exact ih (col + 1) s

theorem visitRows_eq_foldlM {σ ε : Type} (visit : σ → Location → Except ε σ)
    (cols count row : Nat) (s : σ) :
    visitRows visit cols count row s =
      ((List.range' row count).flatMap fun (r : Nat) =>
        (List.range cols).map fun (c : Nat) => (⟨r, c⟩ : Location)).foldlM visit s := by
  induction count generalizing row s with
  | zero => rfl
  | succ count ih =>
    rw [List.range'_succ, List.flatMap_cons, List.foldlM_append, visitRows, visitRow_eq_foldlM,
      ← List.range_eq_range']
    cases List.foldlM visit s ((List.range cols).map fun (c : Nat) => (⟨row, c⟩ : Location)) with
    | error fault => rfl
    | ok s => exact ih (row + 1) s

/-- Visiting the positions of a rectangle is going through their list. -/
theorem visitPositions_eq_foldlM {σ ε : Type} (visit : σ → Location → Except ε σ)
    (rows cols : Int) (s : σ) :
    visitPositions visit rows cols s = (positions rows cols).foldlM visit s := by
  rw [visitPositions, visitRows_eq_foldlM, positions, ← List.range_eq_range']

/-- The positions of a grid are the locations that are in bounds. -/
theorem inBounds_iff_mem_positions {g : Grid} {l : Location} :
    g.inBounds l = true ↔ l ∈ positions g.rows g.cols := by
  rw [inBounds_iff, mem_positions]

end Grid

end CellularAutomata
