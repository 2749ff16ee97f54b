import CellularAutomata.Darwin.Range
import CellularAutomata.Proofs.Darwin.Rays
import CellularAutomata.Proofs.Grid.Contents
import CellularAutomata.Proofs.Grid.Range
import Mathlib.Tactic.Linarith

/-!
# Numbers that fit

Which numbers an instruction comes upon that are not signed 32-bit numbers. A move stops
before it has left the grid by more than a step, a turn takes its count modulo a full turn,
and a condition looks ahead by 16 positions at most. Only the search for a victim goes as far
as the count of its instruction says, which may be as far as there are numbers.
-/

namespace CellularAutomata.Darwin

open Numeral

variable {g : Grid} {origin : Location} {heading : Int × Int}

/-- A location ahead is not too far if its coordinates are not too large. -/
theorem step_le_iff {d : Nat} :
    ((origin.step heading d).row ≤ mostInt32 ∧ (origin.step heading d).col ≤ mostInt32) ↔
      origin.row + heading.1 * d ≤ 2147483647 ∧ origin.col + heading.2 * d ≤ 2147483647 := by
  rw [mostInt32_eq]
  rfl

/-- Looking up a location ahead comes upon numbers that fit, if the location itself is not too
far down nor too far right. -/
theorem allFit_probeNumbers_iff (hg : g.Moderate) (hin : g.inBounds origin = true)
    (hheading : Compass heading) {d : Nat} (hd : d ≤ mostInt32) :
    AllFit (g.probeNumbers origin heading d) ↔
      (origin.step heading d).row ≤ mostInt32 ∧ (origin.step heading d).col ≤ mostInt32 := by
  have hsides := sides_pos hin
  rw [Grid.inBounds_iff] at hin
  have hrow := mul_cases hheading.1 d
  have hcol := mul_cases hheading.2 d
  rw [mostInt32_eq] at hd
  rw [step_le_iff]
  simp only [Grid.probeNumbers, Location.stepNumbers, allFit_append, allFit_cons, allFit_nil,
    and_true]
  constructor
  · rintro ⟨⟨-, -, hrows, hcols⟩, -⟩
    exact ⟨hrows.2, hcols.2⟩
  · rintro ⟨hrows, hcols⟩
    refine ⟨by omega, allFit_adjustNumbers hg hsides ?_ ?_⟩
    · change -2147483647 ≤ origin.row + heading.1 * d ∧ origin.row + heading.1 * d ≤ 2147483647
      omega
    · change -2147483647 ≤ origin.col + heading.2 * d ∧ origin.col + heading.2 * d ≤ 2147483647
      omega

/-- Half of all numbers are distances at which any location ahead can be looked up. -/
theorem step_le_of_near (hg : g.Moderate) (hin : g.inBounds origin = true)
    (hheading : Compass heading) {d : Nat} (hd : d ≤ 2 ^ 30) :
    (origin.step heading d).row ≤ mostInt32 ∧ (origin.step heading d).col ≤ mostInt32 := by
  have hrows := hg.rows
  have hcols := hg.cols
  rw [Grid.inBounds_iff] at hin
  have hrow := mul_cases hheading.1 d
  have hcol := mul_cases hheading.2 d
  rw [step_le_iff]
  omega

/-- A location ahead that is not too far can be reached over locations that are not. -/
theorem step_le_of_le (hin : g.inBounds origin = true) (hheading : Compass heading) {d e : Nat}
    (hde : d ≤ e) (hg : g.Moderate)
    (he : (origin.step heading e).row ≤ mostInt32 ∧ (origin.step heading e).col ≤ mostInt32) :
    (origin.step heading d).row ≤ mostInt32 ∧ (origin.step heading d).col ≤ mostInt32 := by
  have hrows := hg.rows
  have hcols := hg.cols
  rw [Grid.inBounds_iff] at hin
  have hrow := mul_cases hheading.1 d
  have hcol := mul_cases hheading.2 d
  have hrow' := mul_cases hheading.1 e
  have hcol' := mul_cases hheading.2 e
  rw [step_le_iff] at he ⊢
  omega

/-- Looking up a location that is near comes upon numbers that fit. -/
theorem allFit_probeNumbers_of_near (hg : g.Moderate) (hin : g.inBounds origin = true)
    (hheading : Compass heading) {d : Nat} (hd : d ≤ 2 ^ 30) :
    AllFit (g.probeNumbers origin heading d) := by
  have hmost : (d : Int) ≤ mostInt32 := by rw [mostInt32_eq]; omega
  exact (allFit_probeNumbers_iff hg hin hheading hmost).mpr
    (step_le_of_near hg hin hheading hd)

/-- A walk comes upon numbers that fit, however long it may be. -/
theorem allFit_walkNumbers (hg : g.Moderate) (hheading : Compass heading) (d : Decisions)
    (visited : Std.ExtTreeSet Location) (count : Nat) {l : Location}
    (hin : g.inBounds l = true) : AllFit (walkNumbers g d heading visited count l) := by
  induction count generalizing visited l with
  | zero => exact allFit_nil
  | succ count ih =>
    rw [walkNumbers, allFit_append]
    refine ⟨allFit_probeNumbers_of_near hg hin hheading (by omega), ?_⟩
    split
    next => exact allFit_nil
    next next hnext =>
      split
      · exact allFit_nil
      · exact ih (visited.insert next) (Grid.inBounds_of_resolve hnext)

/-- Looking ahead for a view comes upon numbers that fit, as far as a condition looks. -/
theorem allFit_scanNumbers {a : Actor} (hg : g.Moderate) (hin : g.inBounds a.location = true)
    (d : Decisions) (accepts : View → Bool) {start count : Nat} (hend : start + count ≤ 2 ^ 30) :
    AllFit (scanNumbers g d a accepts start count) := by
  induction count generalizing start with
  | zero => exact allFit_nil
  | succ count ih =>
    have hprobe := allFit_probeNumbers_of_near hg hin
      (Heading.compass_ofDegrees a.individual.orientation) (d := start) (by omega)
    simp only [scanNumbers, allFit_append]
    refine ⟨hprobe, ?_⟩
    split
    · exact allFit_nil
    · split
      · exact allFit_nil
      · exact ih (by omega)

/-- The degrees of a turn are those of at most so many full turns, whatever its count is. -/
theorem degrees_bounds {sign step : Int} (hsign : sign = 1 ∨ sign = -1)
    (hstep : -360 ≤ step ∧ step ≤ 360) (count : Nat) :
    (-360 < sign * ((count : Int) % 360) ∧ sign * ((count : Int) % 360) < 360) ∧
      -129600 < sign * ((count : Int) % 360) * step ∧
      sign * ((count : Int) % 360) * step < 129600 := by
  have hsigned : -360 < sign * ((count : Int) % 360) ∧ sign * ((count : Int) % 360) < 360 := by
    rcases hsign with rfl | rfl <;> omega
  refine ⟨hsigned, ?_⟩
  constructor <;> nlinarith

/-- A turn comes upon numbers that fit, whatever its count is. -/
theorem allFit_turnNumbers {w : World} {a : Actor} {sign : Int} (hsign : sign = 1 ∨ sign = -1)
    (hstep : -360 ≤ w.settings.orientationStep ∧ w.settings.orientationStep ≤ 360)
    (ha : 0 ≤ a.individual.orientation ∧ a.individual.orientation < 360) (count : Nat) :
    AllFit (turnNumbers sign w a count) := by
  obtain ⟨hsigned, hdegrees⟩ := degrees_bounds hsign hstep count
  simp only [turnNumbers, allFit_cons, allFit_nil, and_true]
  omega

/-- A count is a number. -/
theorem count_le {i : Instruction} {count : Nat} (h : i.count = .ok count) :
    (count : Int) ≤ mostInt32 := by
  rw [Instruction.count] at h
  split at h
  next => cases h
  next n hn =>
    have hmost : n ≤ mostInt32 := by
      rw [Instruction.argumentOr] at hn
      split at hn
      next =>
        rw [Instruction.argument] at hn
        split at hn
        next => cases hn
        next =>
          split at hn
          next m hm =>
            obtain rfl := Except.ok.inj hn
            rw [integerWithin?, Option.filter_eq_some_iff] at hm
            simp only [Bool.and_eq_true, decide_eq_true_eq] at hm
            exact hm.2.2
          next => cases hn
      next =>
        obtain rfl := Except.ok.inj hn
        decide
    split at h
    next => cases h
    next =>
      obtain rfl := Except.ok.inj h
      omega

/-- An action comes upon numbers that fit if it does for the count it has. -/
theorem allFit_countNumbers_iff {i : Instruction} {action : Nat → List Int} :
    AllFit (countNumbers i action) ↔ ∀ count, i.count = .ok count → AllFit (action count) := by
  rw [countNumbers]
  cases hcount : i.count with
  | error fault => simp
  | ok count =>
    have hle := count_le hcount
    rw [mostInt32_eq] at hle
    simp only [allFit_cons, Except.ok.injEq, forall_eq']
    constructor
    · exact fun h => h.2
    · exact fun h => ⟨by omega, h⟩

/-- What actors rely on: a moderate grid, and settings within their bounds. -/
structure Bounded (w : World) : Prop where
  /-- The grid is moderate. -/
  grid : w.grid.Moderate
  /-- Conditions do not look far. -/
  layers : w.settings.layers ≤ 16
  /-- A unit of a turn is at most a full turn. -/
  orientationStep : -360 ≤ w.settings.orientationStep ∧ w.settings.orientationStep ≤ 360

/-- An actor on a grid, oriented below a full turn, that can go on in its program. -/
structure Actor.Placed (g : Grid) (a : Actor) : Prop where
  /-- The actor is on the grid. -/
  inBounds : g.inBounds a.location = true
  /-- Its orientation is below a full turn. -/
  orientation : 0 ≤ a.individual.orientation ∧ a.individual.orientation < 360
  /-- The line after the one where it is can be computed. -/
  line : a.individual.program.nextFits a.individual.programCounter = true

variable {w : World} {a : Actor}

/-- A conditional jump comes upon numbers that fit. -/
theorem allFit_branchNumbers (hw : Bounded w) (ha : a.Placed w.grid) (condition : Condition)
    (i : Instruction) (d : Decisions) : AllFit (branchNumbers condition w i a d) := by
  have hlayers := hw.layers
  rw [branchNumbers]
  split
  · exact allFit_nil
  · exact allFit_scanNumbers hw.grid ha.inBounds d _ (by omega)

/-- Every instruction but the conversion of others comes upon numbers that fit. -/
theorem allFit_instructionNumbers (hw : Bounded w) (ha : a.Placed w.grid) {opcode : Opcode}
    (hne : opcode ≠ .infect) (i : Instruction) (d : Decisions) :
    AllFit (instructionNumbers w opcode i a d) := by
  cases opcode with
  | move =>
    exact allFit_countNumbers_iff.mpr fun count _ => allFit_walkNumbers hw.grid
      (Heading.compass_ofDegrees _) d _ count ha.inBounds
  | left =>
    exact allFit_countNumbers_iff.mpr fun count _ =>
      allFit_turnNumbers (Or.inl rfl) hw.orientationStep ha.orientation count
  | right =>
    exact allFit_countNumbers_iff.mpr fun count _ =>
      allFit_turnNumbers (Or.inr rfl) hw.orientationStep ha.orientation count
  | infect => exact absurd rfl hne
  | ifEmpty => exact allFit_branchNumbers hw ha .empty i d
  | ifWall => exact allFit_branchNumbers hw ha .wall i d
  | ifSame => exact allFit_branchNumbers hw ha .same i d
  | ifEnemy => exact allFit_branchNumbers hw ha .enemy i d
  | go => exact allFit_nil
  | ifRandom => exact allFit_nil

section Search

variable {α : Type} {test : Location → Option α}

/-- A search looks up the locations at those of its distances before which it has found
nothing. -/
theorem allFit_searchNumbers_iff {start count : Nat} :
    AllFit (searchNumbers g origin heading test start count) ↔
      ∀ d, start ≤ d → d < start + count →
        (∀ e, start ≤ e → e < d → answerAt g origin heading test e = none) →
        AllFit (g.probeNumbers origin heading d) := by
  induction count generalizing start with
  | zero =>
    simp only [searchNumbers, allFit_nil, true_iff]
    omega
  | succ count ih =>
    rw [searchNumbers, allFit_append]
    constructor
    · rintro ⟨hfirst, hrest⟩ d hd hlt hbefore
      rcases Nat.eq_or_lt_of_le hd with rfl | hlater
      · exact hfirst
      · have hnone := hbefore start (Nat.le_refl start) hlater
        rw [answerAt] at hnone
        rw [hnone] at hrest
        exact ih.mp hrest d hlater (by omega) fun e he hed => hbefore e (by omega) hed
    · intro h
      refine ⟨h start (Nat.le_refl start) (by omega) (by omega), ?_⟩
      split
      next => exact allFit_nil
      next hnone =>
        refine ih.mpr fun d hd hlt hbefore => h d (by omega) (by omega) fun e he hed => ?_
        rcases Nat.eq_or_lt_of_le he with rfl | hlater
        · exact hnone
        · exact hbefore e hlater hed

/-- The numbers of a whole search are decided by those within the sight limit and those at its
last distance. -/
theorem searchFits_iff (hg : g.Moderate) (hin : g.inBounds origin = true)
    (hheading : Compass heading) {count : Nat} (hcount : count ≤ mostInt32) :
    searchFits g origin heading test count = true ↔
      AllFit (searchNumbers g origin heading test 1 count) := by
  have hlimit := firstAlong_sightLimit hin hheading test count
  simp only [searchFits, Bool.and_eq_true, Bool.or_eq_true, beq_iff_eq, all_fitsInt32]
  have hle : min count (sightLimit g) ≤ count := Nat.min_le_left ..
  generalize min count (sightLimit g) = near at hlimit hle
  constructor
  · rintro ⟨hnear, (rfl | hfound) | hlast⟩
    · exact hnear
    -- The search ends within the sight limit, so it comes upon no other numbers.
    · refine allFit_searchNumbers_iff.mpr fun d hd hlt hbefore => ?_
      have hdnear : d < 1 + near := by
        by_contra hfar
        have hnone : firstAlong g origin heading test 1 near = none :=
          firstAlong_eq_none_iff.mpr fun e he hen => hbefore e he (by omega)
        rw [hnone] at hfound
        cases hfound
      exact allFit_searchNumbers_iff.mp hnear d hd hdnear hbefore
    -- The search goes on to its last distance, and there the coordinates are largest.
    · have hfar := (allFit_probeNumbers_iff hg hin hheading hcount).mp hlast
      refine allFit_searchNumbers_iff.mpr fun d _ hlt _ => ?_
      exact (allFit_probeNumbers_iff hg hin hheading (by omega)).mpr
        (step_le_of_le hin hheading (by omega) hg hfar)
  · intro h
    have hall := allFit_searchNumbers_iff.mp h
    refine ⟨allFit_searchNumbers_iff.mpr fun d hd hlt => hall d hd (by omega), ?_⟩
    by_cases hwhole : near = count
    · exact Or.inl (Or.inl hwhole)
    · cases hfound : firstAlong g origin heading test 1 near with
      | some found => exact Or.inl (Or.inr rfl)
      | none =>
        rw [hlimit] at hfound
        have hnone := firstAlong_eq_none_iff.mp hfound
        exact Or.inr (hall count (by omega) (by omega) fun e he hec => hnone e he (by omega))

end Search

end CellularAutomata.Darwin
