import CellularAutomata.Proofs.Grid.Contents

/-!
# Layout of a grid

A grid with a cell at each of its positions lists them just as the positions of its
rectangle are listed, row by row, so it has as many cells as its dimensions say. Its
states may be bounded. Updates keep the layout, and they keep a bound of the states that
the new cells respect.
-/

namespace CellularAutomata

namespace Grid

/-- A grid with a cell at each of its positions. -/
def Full (g : Grid) : Prop := ∀ l, g.inBounds l = true → l ∈ g.populated

/-- A grid whose cells are in states below a number. -/
def StatesBelow (g : Grid) (n : Nat) : Prop := ∀ l c, g.cellAt l = some c → c.state < n

variable {g : Grid} {l : Location} {n : Nat}

/-- The positions of a rectangle are listed in strict row-major order. -/
theorem positions_sorted (rows cols : Int) :
    (positions rows cols).Pairwise fun a b => compare a b = .lt := by
  rw [positions, List.pairwise_flatMap]
  constructor
  · intro row _
    rw [List.pairwise_map]
    refine List.pairwise_lt_range.imp ?_
    intro col col' hcol
    rw [Location.compare_eq_lt_iff]
    exact Or.inr ⟨rfl, Int.ofNat_lt.mpr hcol⟩
  · refine List.pairwise_lt_range.imp ?_
    intro row row' hrow a ha b hb
    obtain ⟨col, -, ha⟩ := List.mem_map.mp ha
    obtain ⟨col', -, hb⟩ := List.mem_map.mp hb
    rw [← ha, ← hb, Location.compare_eq_lt_iff]
    exact Or.inl (Int.ofNat_lt.mpr hrow)

/-- A rectangle has as many positions as the product of its dimensions says. -/
theorem length_positions (rows cols : Int) :
    (positions rows cols).length = rows.toNat * cols.toNat := by
  simp [positions, List.length_flatMap]

/-- A listed location is a populated one. -/
theorem mem_locations : l ∈ g.locations ↔ l ∈ g.populated := by
  rw [locations, Std.ExtTreeMap.mem_keys, Std.ExtTreeMap.mem_iff_isSome_getElem?]
  rfl

/-- As many locations are listed as there are cells. -/
theorem length_locations (g : Grid) : g.locations.length = g.size := Std.ExtTreeMap.length_keys

/-- No location is listed twice. -/
theorem nodup_locations (g : Grid) : g.locations.Nodup :=
  nodup_of_sorted Std.ExtTreeMap.ordered_keys

/-- A well-formed grid has at most as many cells as its dimensions say. -/
theorem WellFormed.size_le (h : g.WellFormed) : g.size ≤ g.rows.toNat * g.cols.toNat := by
  have hpositions : g.locations ⊆ positions g.rows g.cols := by
    intro l hl
    obtain ⟨c, hc⟩ := Option.isSome_iff_exists.mp (mem_locations.mp hl)
    exact inBounds_iff_mem_positions.mp (h.inBounds hc)
  rw [← length_locations, ← length_positions]
  exact (g.nodup_locations.subperm hpositions).length_le

/-- A location of a full grid is populated just when it is on the grid. -/
theorem WellFormed.mem_populated_iff (h : g.WellFormed) (hfull : g.Full) :
    l ∈ g.populated ↔ g.inBounds l = true := by
  constructor
  · intro hl
    obtain ⟨c, hc⟩ := Option.isSome_iff_exists.mp hl
    exact h.inBounds hc
  · exact hfull l

/-- A full grid lists its cells at the positions of its rectangle. -/
theorem WellFormed.map_location_eq_positions (h : g.WellFormed) (hfull : g.Full) :
    g.cellList.map Cell.location = positions g.rows g.cols := by
  have hsorted : g.locations.Pairwise fun a b => compare a b = .lt :=
    Std.ExtTreeMap.ordered_keys
  have hpositions := positions_sorted g.rows g.cols
  have hperm : g.locations.Perm (positions g.rows g.cols) := by
    refine (List.perm_ext_iff_of_nodup (nodup_of_sorted hsorted)
      (nodup_of_sorted hpositions)).mpr ?_
    intro l
    rw [mem_locations, h.mem_populated_iff hfull, inBounds_iff_mem_positions]
  have hasymm : ∀ a b : Location, a ∈ g.locations → b ∈ positions g.rows g.cols →
      compare a b = .lt → compare b a = .lt → a = b := by
    intro a b _ _ hab hba
    rw [Location.compare_eq_lt_iff] at hab hba
    omega
  rw [h.map_location_cellList]
  exact hperm.eq_of_pairwise hasymm hsorted hpositions

/-- A full grid has as many cells as its dimensions say. -/
theorem WellFormed.length_cellList (h : g.WellFormed) (hfull : g.Full) :
    g.cellList.length = g.rows.toNat * g.cols.toNat := by
  rw [← length_positions, ← h.map_location_eq_positions hfull, List.length_map]

/-- A grid that is filled at once is well-formed. -/
theorem wellFormed_filled (rows cols : Int) (edge : Edge) (make : Location → Cell) :
    (filled rows cols edge make).WellFormed := by
  have hadd : ∀ (ls : List Location) (g : Grid), g.WellFormed →
      (ls.foldl (fun g l => g.add (make l)) g).WellFormed := by
    intro ls
    induction ls with
    | nil => exact fun g h => h
    | cons l ls ih => exact fun g h => ih (g.add (make l)) (h.add (make l))
  exact hadd _ _ (wellFormed_empty rows cols edge)

/-- Adding a cell populates its location, if that is on the grid. -/
theorem mem_populated_add {c : Cell} :
    l ∈ (g.add c).populated ↔
      l ∈ g.populated ∨ g.inBounds c.location = true ∧ c.location = l := by
  simp only [populated, Set.mem_ofPred_eq, cellAt_add]
  by_cases hl : c.location = l
  · rw [hl]
    cases g.inBounds l <;> cases g.cellAt l <;> simp
  · simp [hl]

/-- Updates keep a grid full. -/
theorem Full.apply (h : g.Full) (us : List CellUpdate) : (g.apply us).Full := by
  have hdimensions := g.apply_dimensions us
  intro l hl
  rw [inBounds_congr hdimensions.1 hdimensions.2.1] at hl
  rw [populated_apply]
  exact h l hl

/-- Updates to states below a bound keep the states of a grid below it. -/
theorem StatesBelow.apply {us : List CellUpdate} (h : g.StatesBelow n)
    (hus : ∀ u ∈ us, u.next.state < n) : (g.apply us).StatesBelow n := by
  induction us generalizing g with
  | nil => exact h
  | cons u us ih =>
    have hu := hus u (List.mem_cons_self ..)
    rw [apply_cons]
    refine ih ?_ fun v hv => hus v (List.mem_cons_of_mem u hv)
    intro l c hc
    rw [cellAt_update] at hc
    split at hc
    next =>
      obtain ⟨-, -, hnew⟩ := Option.map_eq_some_iff.mp hc
      exact hnew ▸ hu
    next => exact h l c hc

end Grid

end CellularAutomata
