import CellularAutomata.Proofs.Grid.Range
import CellularAutomata.Proofs.Grid.Shifts
import Mathlib.Data.Int.ModEq

/-!
# Where locations are looked up

The position at which a location is looked up, if there is one. A fixed edge has positions looked
up, and nothing else. Around a torus every location is looked up somewhere, and going all the way
around does not change where. Between mirrors a location is looked up if one reflection brings it
back to the grid, and then its position is the only one from which it can be reached by
reflections, however many; so another reflection does not change it either. Machine words lead to
the same positions as whole numbers, as long as every number on the way fits.
-/

namespace CellularAutomata

namespace Edge

variable {size x y z : Int}

/-- A coordinate can be reached from another one by reflections about the outermost of so many
cells: up to full periods, which are twice as long as the way from the first cell to the last, it
is the same coordinate or the opposite one. -/
def Mirrored (size x y : Int) : Prop :=
  y ≡ x [ZMOD 2 * (size - 1)] ∨ y ≡ -x [ZMOD 2 * (size - 1)]

/-- Reflections can be taken back. -/
theorem Mirrored.symm (h : Mirrored size x y) : Mirrored size y x := by
  rcases h with hsame | hopposite
  · exact Or.inl hsame.symm
  · have hback : -y ≡ x [ZMOD 2 * (size - 1)] := by simpa using hopposite.neg
    exact Or.inr hback.symm

/-- Reflections can be followed by reflections. -/
theorem Mirrored.trans (h : Mirrored size x y) (h' : Mirrored size y z) : Mirrored size x z := by
  rcases h with h | h <;> rcases h' with h' | h'
  · exact Or.inl (h'.trans h)
  · exact Or.inr (h'.trans h.neg)
  · exact Or.inr (h'.trans h)
  · have hback : -y ≡ x [ZMOD 2 * (size - 1)] := by simpa using h.neg
    exact Or.inl (h'.trans hback)

/-- A coordinate is reflected about the first cell to the opposite one. -/
theorem mirrored_neg (size x : Int) : Mirrored size x (-x) := Or.inr rfl

/-- A coordinate is reflected about the last cell to the one that is as far away from it on the
other side. -/
theorem mirrored_far (size x : Int) : Mirrored size x (2 * size - 2 - x) := by
  refine Or.inr (Int.modEq_iff_dvd.mpr ⟨-1, ?_⟩)
  omega

/-- A coordinate and its reflections about the first and the last cell can be reached from it. -/
theorem mirrored_of_mem (h : y ∈ [x, -x, 2 * size - 2 - x]) : Mirrored size x y := by
  simp only [List.mem_cons, List.not_mem_nil, or_false] at h
  rcases h with rfl | rfl | rfl
  · exact Or.inl rfl
  · exact mirrored_neg size x
  · exact mirrored_far size x

/-- One reflection, if any, leads to the coordinate at which another one is looked up. -/
theorem mirrored_reflect (size x : Int) : Mirrored size x (reflect x size) := by
  unfold reflect
  split
  · exact mirrored_neg size x
  · split
    · have hfar : 2 * size - x - 2 = 2 * size - 2 - x := by omega
      rw [hfar]
      exact mirrored_far size x
    · exact Or.inl rfl

/-- No two cells can be reached from each other by reflections. -/
theorem Mirrored.eq_of_inside (h : Mirrored size x y) (hx : 0 ≤ x ∧ x < size)
    (hy : 0 ≤ y ∧ y < size) : y = x := by
  by_cases hone : size = 1
  · omega
  rcases h with hsame | hopposite
  -- A period is at least as long as all the cells.
  · rw [Int.ModEq, Int.emod_eq_of_lt hx.1 (by omega), Int.emod_eq_of_lt hy.1 (by omega)] at hsame
    exact hsame
  -- Two cells add up to a full period only at the last cell, and to nothing only at the first.
  · have hsum : x + y ≡ 0 [ZMOD 2 * (size - 1)] := by
      simpa using hopposite.add_left x
    by_cases hlast : x + y = 2 * (size - 1)
    · omega
    · rw [Int.ModEq, Int.zero_emod, Int.emod_eq_of_lt (by omega) (by omega)] at hsum
      omega

/-- The coordinate at which another one is looked up is the only one of a cell that can be reached
from it by reflections. -/
theorem eq_reflect_iff (hx : 0 ≤ reflect x size ∧ reflect x size < size) :
    y = reflect x size ↔ (0 ≤ y ∧ y < size) ∧ Mirrored size x y := by
  constructor
  · rintro rfl
    exact ⟨hx, mirrored_reflect size x⟩
  · rintro ⟨hy, hreached⟩
    exact ((mirrored_reflect size x).symm.trans hreached).eq_of_inside hx hy

/-- Coordinates that can be reached from each other by reflections are looked up at the same one,
if both of them are looked up at a cell. -/
theorem Mirrored.reflect_eq (h : Mirrored size x y)
    (hx : 0 ≤ reflect x size ∧ reflect x size < size)
    (hy : 0 ≤ reflect y size ∧ reflect y size < size) : reflect y size = reflect x size :=
  (eq_reflect_iff hx).mpr ⟨hy, h.trans (mirrored_reflect size y)⟩

end Edge

/-- A location whose coordinates are held in machine words. -/
structure WordLocation where
  /-- Counted downwards from the top row, which is row 0. -/
  row : Int32
  /-- Counted to the right from the leftmost column, which is column 0. -/
  col : Int32

/-- The location that is held. -/
def WordLocation.value (w : WordLocation) : Location := ⟨w.row.toInt, w.col.toInt⟩

namespace Edge

/-- One reflection in machine words. -/
def reflectWord (coordinate size : Int32) : Int32 :=
  if coordinate < 0 then -coordinate
  else if size ≤ coordinate then 2 * size - coordinate - 2
  else coordinate

/-- Wrapping in machine words, whose remainders have the sign of the coordinate. -/
def wrapWord (coordinate size : Int32) : Int32 := (coordinate % size + size) % size

/-- Where a location is looked up, in machine words. -/
def adjustWords (edge : Edge) (rows cols : Int32) (w : WordLocation) : WordLocation :=
  match edge with
  | fixed => w
  | toroidal => ⟨wrapWord w.row rows, wrapWord w.col cols⟩
  | mirror => ⟨reflectWord w.row rows, reflectWord w.col cols⟩

/-- The position at which a location is looked up, in machine words, if it is on a grid with so
many rows and columns. -/
def resolveWords (edge : Edge) (rows cols : Int32) (w : WordLocation) : Option WordLocation :=
  let found := edge.adjustWords rows cols w
  if (0 ≤ found.row ∧ found.row < rows) ∧ 0 ≤ found.col ∧ found.col < cols then some found
  else none

/-- A number that fits is not changed by the machine. -/
theorem bmod_of_fits {n : Int} (h : -2147483648 ≤ n ∧ n ≤ 2147483647) : n.bmod (2 ^ 32) = n :=
  Int.bmod_eq_of_le_mul_two (by omega) (by omega)

/-- A remainder with the sign of the coordinate that is raised by the size before the remainder is
taken once more is the remainder with the sign of the size. -/
theorem tmod_add_tmod {size : Int} (hsize : 0 < size) (coordinate : Int) :
    (coordinate.tmod size + size).tmod size = wrap coordinate size := by
  have hlow := Int.lt_tmod_of_pos coordinate hsize
  have hrest : coordinate.tmod size = coordinate - size * coordinate.tdiv size :=
    Int.tmod_def coordinate size
  rw [wrap_eq_emod hsize, Int.tmod_eq_emod_of_nonneg (by omega), Int.add_emod_right, hrest,
    Int.sub_mul_emod_self_left]

/-- Machine words are wrapped as whole numbers are, if the numbers on the way fit. -/
theorem toInt_wrapWord {coordinate size : Int32} (hsize : 0 < size.toInt)
    (hfits : AllFit (wrapNumbers coordinate.toInt size.toInt)) :
    (wrapWord coordinate size).toInt = wrap coordinate.toInt size.toInt := by
  simp only [wrapNumbers, allFit_cons] at hfits
  rw [wrapWord, Int32.toInt_mod, Int32.toInt_add, Int32.toInt_mod, bmod_of_fits hfits.2.1,
    tmod_add_tmod hsize]

/-- Machine words are reflected as whole numbers are, if the numbers on the way fit. -/
theorem toInt_reflectWord {coordinate size : Int32}
    (hfits : AllFit (reflectNumbers coordinate.toInt size.toInt)) :
    (reflectWord coordinate size).toInt = reflect coordinate.toInt size.toInt := by
  simp only [reflectWord, Int32.lt_iff_toInt_lt, Int32.le_iff_toInt_le, Int32.toInt_zero]
  unfold reflect
  unfold reflectNumbers at hfits
  split
  next hbefore =>
    simp only [hbefore, if_true, allFit_cons] at hfits
    rw [Int32.toInt_neg, bmod_of_fits hfits.1]
  next hbefore =>
    split
    next hbeyond =>
      simp only [hbefore, hbeyond, if_false, if_true, allFit_cons] at hfits
      have htwo : (2 : Int32).toInt = 2 := rfl
      rw [Int32.toInt_sub, Int32.toInt_sub, Int32.toInt_mul, htwo, bmod_of_fits hfits.1,
        bmod_of_fits hfits.2.1, bmod_of_fits hfits.2.2.1]
    next => rfl

/-- Locations in machine words are adjusted as those of whole numbers are, if the numbers on the
way fit. -/
theorem value_adjustWords {edge : Edge} {rows cols : Int32}
    (hsides : 0 < rows.toInt ∧ 0 < cols.toInt) {w : WordLocation}
    (hfits : AllFit (edge.adjustNumbers rows.toInt cols.toInt w.value)) :
    (edge.adjustWords rows cols w).value = edge.adjust rows.toInt cols.toInt w.value := by
  cases edge with
  | fixed => rfl
  | toroidal =>
    obtain ⟨hrow, hcol⟩ := allFit_append.mp hfits
    exact congrArg₂ Location.mk (toInt_wrapWord hsides.1 hrow) (toInt_wrapWord hsides.2 hcol)
  | mirror =>
    obtain ⟨hrow, hcol⟩ := allFit_append.mp hfits
    exact congrArg₂ Location.mk (toInt_reflectWord hrow) (toInt_reflectWord hcol)

end Edge

namespace Grid

variable {g : Grid} {l p : Location}

/-- A location is looked up somewhere just if it is adjusted to a position. -/
theorem isSome_resolve_iff : (g.resolve l).isSome = true ↔ g.inBounds (g.adjust l) = true := by
  rw [resolve]
  split
  next hin => exact iff_of_true rfl hin
  next hout => exact iff_of_false Bool.false_ne_true hout

/-- Positions are looked up where they are, whatever the edge. -/
theorem resolve_of_inBounds (hl : g.inBounds l = true) : g.resolve l = some l := by
  obtain ⟨hrow, hcol⟩ := inBounds_iff.mp hl
  refine resolve_eq_some_iff.mpr ⟨hl, ?_⟩
  unfold adjust
  cases g.edge with
  | fixed => rfl
  | toroidal => exact congrArg₂ Location.mk (Edge.wrap_of_inside hrow) (Edge.wrap_of_inside hcol)
  | mirror =>
    exact congrArg₂ Location.mk (Edge.reflect_of_inside hrow) (Edge.reflect_of_inside hcol)

/-- A fixed edge has positions looked up, and nothing else. -/
theorem isSome_resolve_fixed_iff (hedge : g.edge = .fixed) :
    (g.resolve l).isSome = true ↔ g.inBounds l = true := by
  have hadjust : g.adjust l = l := by
    rw [adjust, hedge]
    rfl
  rw [isSome_resolve_iff, hadjust]

/-- Around a torus a location is looked up at the remainders of its coordinates. -/
theorem resolve_eq_emod (hedge : g.edge = .toroidal) (hrows : 0 < g.rows) (hcols : 0 < g.cols)
    (l : Location) : g.resolve l = some ⟨l.row % g.rows, l.col % g.cols⟩ := by
  rw [resolve_toroidal hedge hrows hcols, shift, Int.add_zero, Int.add_zero]

/-- Going all the way around a torus, any number of times, does not change where a location is
looked up. -/
theorem resolve_offset_period (hedge : g.edge = .toroidal) (hrows : 0 < g.rows)
    (hcols : 0 < g.cols) (l : Location) (m n : Int) :
    g.resolve (l.offset (m * g.rows) (n * g.cols)) = g.resolve l := by
  rw [resolve_eq_emod hedge hrows hcols, resolve_eq_emod hedge hrows hcols]
  simp only [Location.offset, Int.add_mul_emod_self_right]

/-- Between mirrors a location is looked up if it is less than one side away from the grid. -/
theorem isSome_resolve_mirror_iff (hedge : g.edge = .mirror) :
    (g.resolve l).isSome = true ↔
      (-g.rows < l.row ∧ l.row < 2 * g.rows - 1) ∧ -g.cols < l.col ∧ l.col < 2 * g.cols - 1 := by
  rw [isSome_resolve_iff, inBounds_iff, adjust_mirror hedge, Edge.reflect_inside_iff,
    Edge.reflect_inside_iff]

/-- Between mirrors a location is looked up at the only position that can be reached from it by
reflections. -/
theorem eq_of_resolve_mirror_iff (hedge : g.edge = .mirror) (h : g.resolve l = some p) :
    (∀ row, row = p.row ↔ (0 ≤ row ∧ row < g.rows) ∧ Edge.Mirrored g.rows l.row row) ∧
      ∀ col, col = p.col ↔ (0 ≤ col ∧ col < g.cols) ∧ Edge.Mirrored g.cols l.col col := by
  obtain ⟨hin, rfl⟩ := resolve_eq_some_iff.mp h
  rw [adjust_mirror hedge] at hin ⊢
  obtain ⟨hrow, hcol⟩ := inBounds_iff.mp hin
  exact ⟨fun _ => Edge.eq_reflect_iff hrow, fun _ => Edge.eq_reflect_iff hcol⟩

/-- Between mirrors reflections of a location are looked up where the location is, if at all. -/
theorem resolve_of_mirrored (hedge : g.edge = .mirror) {l' : Location}
    (hrow : Edge.Mirrored g.rows l.row l'.row) (hcol : Edge.Mirrored g.cols l.col l'.col)
    (hl : (g.resolve l).isSome = true) (hl' : (g.resolve l').isSome = true) :
    g.resolve l' = g.resolve l := by
  have hin := isSome_resolve_iff.mp hl
  have hin' := isSome_resolve_iff.mp hl'
  rw [adjust_mirror hedge, inBounds_iff] at hin hin'
  have hsame : g.adjust l' = g.adjust l := by
    rw [adjust_mirror hedge, adjust_mirror hedge]
    exact congrArg₂ Location.mk (hrow.reflect_eq hin.1 hin'.1) (hcol.reflect_eq hin.2 hin'.2)
  rw [resolve, resolve, hsame]

/-- Machine words lead to the same positions as whole numbers, if the numbers on the way fit. -/
theorem map_value_resolveWords (hsides : 0 < g.rows ∧ 0 < g.cols) {rows cols : Int32}
    (hrows : rows.toInt = g.rows) (hcols : cols.toInt = g.cols) {w : WordLocation}
    (hfits : AllFit (g.edge.adjustNumbers g.rows g.cols w.value)) :
    (g.edge.resolveWords rows cols w).map WordLocation.value = g.resolve w.value := by
  rw [← hrows, ← hcols] at hsides hfits
  have hadjust : (g.edge.adjustWords rows cols w).value = g.adjust w.value := by
    rw [adjust, ← hrows, ← hcols]
    exact Edge.value_adjustWords hsides hfits
  have hin : ((0 ≤ (g.edge.adjustWords rows cols w).row ∧
      (g.edge.adjustWords rows cols w).row < rows) ∧
      0 ≤ (g.edge.adjustWords rows cols w).col ∧ (g.edge.adjustWords rows cols w).col < cols) ↔
      g.inBounds (g.adjust w.value) = true := by
    rw [← hadjust, inBounds_iff, ← hrows, ← hcols]
    simp only [Int32.le_iff_toInt_le, Int32.lt_iff_toInt_lt, Int32.toInt_zero, WordLocation.value]
  rw [resolve, ← hadjust]
  simp only [Edge.resolveWords, hin, ← hadjust, apply_ite (Option.map WordLocation.value),
    Option.map_some, Option.map_none]

/-- Locations are looked up at positions only, and positions where they are. A fixed edge has
nothing but positions looked up. Around a torus every location is looked up at the remainders of
its coordinates, and going all the way around does not change where. Between mirrors a location is
looked up just if it is less than one side away from the grid; each coordinate of its position is
the only one of a cell that is the coordinate of the location or the opposite one up to full
periods, which is the first one if there is no other, and a reflection about any border is looked
up at the same position, if at all. All this is what machine words lead to, as long as every number
on the way fits. -/
theorem resolution_is_exact (hrows : 1 ≤ g.rows) (hcols : 1 ≤ g.cols) (l : Location) :
    (∀ p, g.resolve l = some p → g.inBounds p = true) ∧
    (g.inBounds l = true → g.resolve l = some l) ∧
    (g.edge = .fixed → ((g.resolve l).isSome = true ↔ g.inBounds l = true)) ∧
    (g.edge = .toroidal →
      g.resolve l = some ⟨l.row % g.rows, l.col % g.cols⟩ ∧
      ∀ m n : Int, g.resolve (l.offset (m * g.rows) (n * g.cols)) = g.resolve l) ∧
    (g.edge = .mirror →
      ((g.resolve l).isSome = true ↔ (-g.rows < l.row ∧ l.row < 2 * g.rows - 1) ∧
        -g.cols < l.col ∧ l.col < 2 * g.cols - 1) ∧
      (∀ p, g.resolve l = some p →
        (∀ row, row = p.row ↔ (0 ≤ row ∧ row < g.rows) ∧ Edge.Mirrored g.rows l.row row) ∧
        (∀ col, col = p.col ↔ (0 ≤ col ∧ col < g.cols) ∧ Edge.Mirrored g.cols l.col col) ∧
        (g.rows = 1 → p.row = 0) ∧ (g.cols = 1 → p.col = 0)) ∧
      ∀ row ∈ [l.row, -l.row, 2 * g.rows - 2 - l.row],
        ∀ col ∈ [l.col, -l.col, 2 * g.cols - 2 - l.col],
          (g.resolve l).isSome = true → (g.resolve ⟨row, col⟩).isSome = true →
            g.resolve ⟨row, col⟩ = g.resolve l) ∧
    ∀ (rows cols : Int32) (w : WordLocation), rows.toInt = g.rows → cols.toInt = g.cols →
      w.value = l → AllFit (g.edge.adjustNumbers g.rows g.cols l) →
        (g.edge.resolveWords rows cols w).map WordLocation.value = g.resolve l := by
  have hsides : 0 < g.rows ∧ 0 < g.cols := by omega
  refine ⟨fun p => inBounds_of_resolve, resolve_of_inBounds, isSome_resolve_fixed_iff, ?_, ?_, ?_⟩
  · intro hedge
    exact ⟨resolve_eq_emod hedge hsides.1 hsides.2 l,
      resolve_offset_period hedge hsides.1 hsides.2 l⟩
  · intro hedge
    refine ⟨isSome_resolve_mirror_iff hedge, ?_, ?_⟩
    · intro p hp
      obtain ⟨hrow, hcol⟩ := eq_of_resolve_mirror_iff hedge hp
      have hin := inBounds_iff.mp (inBounds_of_resolve hp)
      exact ⟨hrow, hcol, by omega, by omega⟩
    · intro row hrow col hcol
      exact resolve_of_mirrored hedge (Edge.mirrored_of_mem hrow) (Edge.mirrored_of_mem hcol)
  · rintro rows cols w hheld hheld' rfl hfits
    exact map_value_resolveWords hsides hheld hheld' hfits

/-- Three rows of a single cell between mirrors. -/
def shaft : Grid := .empty 3 1 .mirror

/-- Two rows below the shaft a location is looked up at the top, and so is its reflection about the
bottom; its reflection about the top is too far away. Machine words agree. -/
theorem shaft_resolution_is_exact :
    (1 ≤ shaft.rows ∧ 1 ≤ shaft.cols) ∧
    (shaft.resolve ⟨4, 0⟩).isSome = true ∧ ¬ (shaft.resolve ⟨-4, 0⟩).isSome = true ∧
    shaft.resolve ⟨0, 0⟩ = shaft.resolve ⟨4, 0⟩ ∧ shaft.resolve ⟨4, 0⟩ = some ⟨0, 0⟩ ∧
    AllFit (shaft.edge.adjustNumbers shaft.rows shaft.cols ⟨4, 0⟩) ∧
    (shaft.edge.resolveWords 3 1 ⟨4, 0⟩).map WordLocation.value = some ⟨0, 0⟩ := by
  have hsides : 1 ≤ shaft.rows ∧ 1 ≤ shaft.cols := by decide
  have hfits : AllFit (shaft.edge.adjustNumbers shaft.rows shaft.cols ⟨4, 0⟩) :=
    all_fitsInt32.mp (by decide)
  obtain ⟨-, -, -, -, hbelow, hwords⟩ := resolution_is_exact hsides.1 hsides.2 ⟨4, 0⟩
  obtain ⟨-, -, -, -, habove, -⟩ := resolution_is_exact hsides.1 hsides.2 ⟨-4, 0⟩
  obtain ⟨-, hposition, -⟩ := resolution_is_exact hsides.1 hsides.2 ⟨0, 0⟩
  obtain ⟨hnear, -, hreflected⟩ := hbelow rfl
  have hsome : (shaft.resolve ⟨4, 0⟩).isSome = true := hnear.mpr (by decide)
  have hfar : ¬ (shaft.resolve ⟨-4, 0⟩).isSome = true := by
    rw [(habove rfl).1]
    decide
  have htop : shaft.resolve ⟨0, 0⟩ = some ⟨0, 0⟩ := hposition (by decide)
  have hsame : shaft.resolve ⟨0, 0⟩ = shaft.resolve ⟨4, 0⟩ :=
    hreflected 0 (by decide) 0 (by decide) hsome (by rw [htop]; rfl)
  have hfour : shaft.resolve ⟨4, 0⟩ = some ⟨0, 0⟩ := hsame.symm.trans htop
  exact ⟨hsides, hsome, hfar, hsame, hfour, hfits,
    (hwords 3 1 ⟨4, 0⟩ rfl rfl rfl hfits).trans hfour⟩

end Grid

end CellularAutomata
