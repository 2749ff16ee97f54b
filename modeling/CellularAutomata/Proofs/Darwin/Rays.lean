import CellularAutomata.Darwin.Sight
import Mathlib.Tactic.Ring

/-!
# Rays

The locations that a heading leads to. A search along a ray answers at the first location
where there is an answer. A ray that never changes its row nor its column stays where it
is; any other one leaves a fixed or a mirroring grid for good, and on a toroidal grid it
comes around. So nothing new is met beyond the sight limit.
-/

namespace CellularAutomata

/-- A step by at most one row and at most one column. -/
def Compass (heading : Int × Int) : Prop :=
  (-1 ≤ heading.1 ∧ heading.1 ≤ 1) ∧ -1 ≤ heading.2 ∧ heading.2 ≤ 1

namespace Heading

/-- A rounded sine is -1, 0 or 1. -/
theorem sine_bounds (angle : Int) : -1 ≤ sine angle ∧ sine angle ≤ 1 := by
  unfold sine
  dsimp only
  split
  next => split <;> decide
  next => decide

/-- Headings go to neighboring rows and columns at most. -/
theorem compass_ofDegrees (degrees : Int) : Compass (ofDegrees degrees) := by
  have hrow := sine_bounds (radians degrees)
  have hcol : -1 ≤ cosine (radians degrees) ∧ cosine (radians degrees) ≤ 1 := sine_bounds _
  refine ⟨?_, hcol⟩
  change -1 ≤ -sine (radians degrees) ∧ -sine (radians degrees) ≤ 1
  omega

end Heading

namespace Darwin

variable {α : Type} {g : Grid} {origin : Location} {heading : Int × Int}
  {test : Location → Option α}

/-- What a search finds at a distance. -/
def answerAt (g : Grid) (origin : Location) (heading : Int × Int) (test : Location → Option α)
    (distance : Nat) : Option α :=
  (g.resolve (origin.step heading distance)).bind test

/-- A search fails if there is no answer at any of its distances. -/
theorem firstAlong_eq_none_iff {start count : Nat} :
    firstAlong g origin heading test start count = none ↔
      ∀ d, start ≤ d → d < start + count → answerAt g origin heading test d = none := by
  induction count generalizing start with
  | zero =>
    simp only [firstAlong, true_iff]
    omega
  | succ count ih =>
    rw [firstAlong]
    constructor
    · intro h d hd hlt
      split at h
      next => cases h
      next hfirst =>
        rcases Nat.eq_or_lt_of_le hd with rfl | hlater
        · exact hfirst
        · exact ih.mp h d hlater (by omega)
    · intro h
      have hfirst : (g.resolve (origin.step heading start)).bind test = none :=
        h start (Nat.le_refl start) (by omega)
      rw [hfirst]
      exact ih.mpr fun d hd hlt => h d (by omega) (by omega)

/-- A search that succeeds answers at the smallest of its distances where there is an answer. -/
theorem firstAlong_eq_some_iff {start count : Nat} {found : α} :
    firstAlong g origin heading test start count = some found ↔
      ∃ d, (start ≤ d ∧ d < start + count) ∧ answerAt g origin heading test d = some found ∧
        ∀ e, start ≤ e → e < d → answerAt g origin heading test e = none := by
  induction count generalizing start with
  | zero =>
    simp only [firstAlong, reduceCtorEq, false_iff]
    rintro ⟨d, hd, -⟩
    omega
  | succ count ih =>
    rw [firstAlong]
    constructor
    · intro h
      split at h
      next hfirst =>
        refine ⟨start, ⟨Nat.le_refl start, by omega⟩, ?_, ?_⟩
        · exact h ▸ hfirst
        · omega
      next hfirst =>
        obtain ⟨d, hd, hfound, hbefore⟩ := ih.mp h
        refine ⟨d, by omega, hfound, fun e he hed => ?_⟩
        rcases Nat.eq_or_lt_of_le he with rfl | hlater
        · exact hfirst
        · exact hbefore e hlater hed
    · rintro ⟨d, hd, hfound, hbefore⟩
      rcases Nat.eq_or_lt_of_le hd.1 with rfl | hlater
      · rw [answerAt] at hfound
        rw [hfound]
      · have hfirst := hbefore start (Nat.le_refl start) hlater
        rw [answerAt] at hfirst
        rw [hfirst]
        exact ih.mpr ⟨d, by omega, hfound, fun e he hed => hbefore e (by omega) hed⟩

/-- A search that has found something finds the same if it may go on for longer. -/
theorem firstAlong_of_le {start count more : Nat} {found : α}
    (h : firstAlong g origin heading test start count = some found) (hle : count ≤ more) :
    firstAlong g origin heading test start more = some found := by
  obtain ⟨d, hd, hfound, hbefore⟩ := firstAlong_eq_some_iff.mp h
  exact firstAlong_eq_some_iff.mpr ⟨d, by omega, hfound, hbefore⟩

/-- A coordinate that goes on by at most one at a time. -/
theorem mul_cases {e : Int} (he : -1 ≤ e ∧ e ≤ 1) (d : Int) :
    e = -1 ∧ e * d = -d ∨ e = 0 ∧ e * d = 0 ∨ e = 1 ∧ e * d = d := by
  obtain rfl | rfl | rfl : e = -1 ∨ e = 0 ∨ e = 1 := by omega
  · exact Or.inl ⟨rfl, by omega⟩
  · exact Or.inr (Or.inl ⟨rfl, by omega⟩)
  · exact Or.inr (Or.inr ⟨rfl, by omega⟩)

/-- Wrapped coordinates repeat after any multiple of the size. -/
theorem wrap_add_mul {size : Int} (hsize : 0 < size) {d period : Nat} (hperiod : size ∣ period)
    (x e : Int) (k : Nat) :
    Edge.wrap (x + e * ((d + period * k : Nat) : Int)) size = Edge.wrap (x + e * d) size := by
  obtain ⟨m, hm⟩ := hperiod
  have hsum : x + e * ((d + period * k : Nat) : Int) = x + e * d + size * (m * e * k) := by
    push_cast
    rw [hm]
    ring
  rw [Edge.wrap_eq_emod hsize, Edge.wrap_eq_emod hsize, hsum, Int.add_mul_emod_self_left]

/-- On a toroidal grid a ray comes back to where it was after a number of steps that both sides
divide. -/
theorem resolve_step_add_mul (hedge : g.edge = .toroidal) (hrows : 0 < g.rows) (hcols : 0 < g.cols)
    (d k : Nat) :
    g.resolve (origin.step heading ((d + Int.lcm g.rows g.cols * k : Nat) : Int)) =
      g.resolve (origin.step heading (d : Int)) := by
  have hadjust : g.adjust (origin.step heading ((d + Int.lcm g.rows g.cols * k : Nat) : Int)) =
      g.adjust (origin.step heading (d : Int)) := by
    simp only [Grid.adjust, hedge, Edge.adjust, Location.step, Location.offset]
    rw [wrap_add_mul hrows (Int.dvd_lcm_left ..), wrap_add_mul hcols (Int.dvd_lcm_right ..)]
  rw [Grid.resolve, Grid.resolve, hadjust]

/-- A coordinate of a fixed or a mirroring grid that has changed by more than twice the size is
off the grid. -/
theorem far_coordinate {x size e : Int} {d : Nat} (hx : 0 ≤ x ∧ x < size)
    (he : -1 ≤ e ∧ e ≤ 1) (hne : e ≠ 0) (hd : 2 * size < d) :
    ¬ (0 ≤ x + e * d ∧ x + e * d < size) ∧
      ¬ (0 ≤ Edge.reflect (x + e * d) size ∧ Edge.reflect (x + e * d) size < size) := by
  rw [Edge.reflect_inside_iff]
  rcases mul_cases he d with ⟨-, hed⟩ | ⟨hzero, -⟩ | ⟨-, hed⟩
  · omega
  · exact absurd hzero hne
  · omega

/-- Both sides of a grid with a position are positive. -/
theorem sides_pos (h : g.inBounds origin = true) : 0 < g.rows ∧ 0 < g.cols := by
  rw [Grid.inBounds_iff] at h
  omega

/-- A ray that changes its row or its column leaves a fixed or a mirroring grid for good within
twice the longer side. -/
theorem resolve_step_far (hedge : g.edge ≠ .toroidal) (hin : g.inBounds origin = true)
    (hheading : Compass heading) (hne : heading.1 ≠ 0 ∨ heading.2 ≠ 0) {d : Nat}
    (hd : 2 * max g.rows g.cols < d) : g.resolve (origin.step heading d) = none := by
  rw [Grid.inBounds_iff] at hin
  have hrow := far_coordinate (d := d) hin.1 hheading.1
  have hcol := far_coordinate (d := d) hin.2 hheading.2
  rw [Grid.resolve, if_neg]
  simp only [Grid.inBounds_iff, Grid.adjust, Location.step, Location.offset]
  intro hon
  cases he : g.edge with
  | fixed =>
    simp only [he, Edge.adjust] at hon
    rcases hne with hne | hne
    · exact (hrow hne (by omega)).1 hon.1
    · exact (hcol hne (by omega)).1 hon.2
  | toroidal => exact hedge he
  | mirror =>
    simp only [he, Edge.adjust] at hon
    rcases hne with hne | hne
    · exact (hrow hne (by omega)).2 hon.1
    · exact (hcol hne (by omega)).2 hon.2

/-- Whatever is met at a distance is met within the sight limit, or it is nothing. -/
theorem exists_near (hin : g.inBounds origin = true) (hheading : Compass heading) {d : Nat}
    (hd : 1 ≤ d) : g.resolve (origin.step heading d) = none ∨
      ∃ e, 1 ≤ e ∧ e ≤ sightLimit g ∧
        g.resolve (origin.step heading e) = g.resolve (origin.step heading d) := by
  have hsides := sides_pos hin
  by_cases hedge : g.edge = .toroidal
  · have hlimit : sightLimit g = Int.lcm g.rows g.cols := by rw [sightLimit, hedge]
    have hpos : 0 < Int.lcm g.rows g.cols := Int.lcm_pos hsides.1.ne' hsides.2.ne'
    -- Distances begin with one, so the remainder is taken of the distance before.
    refine Or.inr ⟨(d - 1) % Int.lcm g.rows g.cols + 1, by omega, ?_, ?_⟩
    · have hlt := Nat.mod_lt (d - 1) hpos
      omega
    · have hsplit : d = ((d - 1) % Int.lcm g.rows g.cols + 1) +
          Int.lcm g.rows g.cols * ((d - 1) / Int.lcm g.rows g.cols) := by
        have := Nat.mod_add_div (d - 1) (Int.lcm g.rows g.cols)
        omega
      conv_rhs => rw [hsplit]
      exact (resolve_step_add_mul hedge hsides.1 hsides.2 _ _).symm
  · have hlimit : sightLimit g = (2 * max g.rows g.cols).toNat := by
      rw [sightLimit]
      split
      next h => exact absurd h hedge
      next => rfl
    by_cases hstill : heading.1 = 0 ∧ heading.2 = 0
    · refine Or.inr ⟨1, Nat.le_refl 1, by omega, ?_⟩
      simp [Location.step, Location.offset, hstill.1, hstill.2]
    · by_cases hfar : 2 * max g.rows g.cols < d
      · exact Or.inl (resolve_step_far hedge hin hheading (by tauto) hfar)
      · exact Or.inr ⟨d, hd, by omega, rfl⟩

/-- Looking further than the sight limit is looking that far. -/
theorem firstAlong_sightLimit (hin : g.inBounds origin = true) (hheading : Compass heading)
    (test : Location → Option α) (count : Nat) :
    firstAlong g origin heading test 1 (min count (sightLimit g)) =
      firstAlong g origin heading test 1 count := by
  by_cases hle : count ≤ sightLimit g
  · rw [Nat.min_eq_left hle]
  · rw [Nat.min_eq_right (by omega)]
    cases hnear : firstAlong g origin heading test 1 (sightLimit g) with
    | some found => exact (firstAlong_of_le hnear (by omega)).symm
    | none =>
      rw [firstAlong_eq_none_iff] at hnear
      refine (firstAlong_eq_none_iff.mpr ?_).symm
      intro d hd _
      rw [answerAt]
      rcases exists_near hin hheading hd with hnone | ⟨e, he, hlimit, hsame⟩
      · rw [hnone]
        rfl
      · rw [← hsame]
        exact hnear e he (by omega)

end Darwin

end CellularAutomata
