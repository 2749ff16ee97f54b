import CellularAutomata.Proofs.Darwin.Range
import CellularAutomata.Proofs.Numeral.Whole
import CellularAutomata.Proofs.Run.Completion

/-!
# Ticks whose numbers fit

The numbers that the turns of a tick come upon. All of them are signed 32-bit numbers unless
somebody looks for others to convert further down or further right than there are numbers; so
a tick can be completed as long as nobody does.
-/

namespace CellularAutomata.Darwin

open Numeral

variable {w : World} {a : Actor}

/-- An actor that infects comes to look for a victim at a distance, because nobody nearer can be
converted. -/
def Actor.Seeks (w : World) (a : Actor) (d : Decisions) (distance : Nat) : Prop :=
  ∃ i count, a.individual.program.instructions[a.individual.programCounter]? = some i ∧
    i.opcode = .ok .infect ∧ i.count = .ok count ∧ 1 ≤ distance ∧ distance ≤ count ∧
    ∀ e, 1 ≤ e → e < distance →
      answerAt w.grid a.location a.individual.heading (victim? w.grid d a.species) e = none

/-- An actor that infects comes upon the numbers of its search. -/
theorem instructionNumbers_infect (w : World) (i : Instruction) (a : Actor) (d : Decisions) :
    instructionNumbers w .infect i a d = countNumbers i
      (searchNumbers w.grid a.location a.individual.heading (victim? w.grid d a.species) 1) := rfl

/-- Whether an actor that infects comes upon numbers that fit is decided for its search. -/
theorem instructionFits_infect (w : World) {i : Instruction} {count : Nat} (a : Actor)
    (d : Decisions) (h : i.count = .ok count) :
    instructionFits w .infect i a d = searchFits w.grid a.location a.individual.heading
      (victim? w.grid d a.species) count := by
  simp only [instructionFits, h]

/-- The numbers of an instruction fit unless it looks for a victim at a location too far down or
too far right. -/
theorem allFit_infect_iff (hw : Bounded w) (ha : a.Placed w.grid) (i : Instruction)
    (d : Decisions) :
    AllFit (instructionNumbers w .infect i a d) ↔ ∀ count, i.count = .ok count →
      ∀ distance, 1 ≤ distance → distance ≤ count →
        (∀ e, 1 ≤ e → e < distance →
          answerAt w.grid a.location a.individual.heading (victim? w.grid d a.species) e = none) →
        (a.ahead distance).row ≤ mostInt32 ∧ (a.ahead distance).col ≤ mostInt32 := by
  have hprobe : ∀ count, i.count = .ok count → ∀ distance : Nat, distance ≤ count →
      (AllFit (w.grid.probeNumbers a.location a.individual.heading distance) ↔
        (a.ahead distance).row ≤ mostInt32 ∧ (a.ahead distance).col ≤ mostInt32) := by
    intro count hcount distance hdistance
    have hle := count_le hcount
    exact allFit_probeNumbers_iff hw.grid ha.inBounds (Heading.compass_ofDegrees _) (by omega)
  rw [instructionNumbers_infect, allFit_countNumbers_iff]
  constructor
  · intro h count hcount distance hfirst hlast hbefore
    exact (hprobe count hcount distance hlast).mp
      (allFit_searchNumbers_iff.mp (h count hcount) distance hfirst (by omega) hbefore)
  · intro h count hcount
    refine allFit_searchNumbers_iff.mpr fun distance hfirst hlast hbefore => ?_
    exact (hprobe count hcount distance (by omega)).mpr
      (h count hcount distance hfirst (by omega) hbefore)

/-- It is decided for an instruction whether all numbers fit that it comes upon. -/
theorem instructionFits_iff (hw : Bounded w) (ha : a.Placed w.grid) (opcode : Opcode)
    (i : Instruction) (d : Decisions) :
    instructionFits w opcode i a d = true ↔ AllFit (instructionNumbers w opcode i a d) := by
  cases opcode with
  | infect =>
    rw [instructionNumbers_infect, allFit_countNumbers_iff]
    cases hcount : i.count with
    | error fault => simp [instructionFits, hcount]
    | ok count =>
      rw [instructionFits_infect w a d hcount]
      simp only [Except.ok.injEq, forall_eq']
      exact searchFits_iff hw.grid ha.inBounds (Heading.compass_ofDegrees _) (count_le hcount)
  | _ => exact all_fitsInt32

/-- The numbers that an actor comes upon fit unless it looks for a victim at a location too far
down or too far right. -/
theorem Actor.allFit_numbers_iff (hw : Bounded w) (ha : a.Placed w.grid) (d : Decisions) :
    AllFit (a.numbers w d) ↔ ∀ distance, a.Seeks w d distance →
      (a.ahead distance).row ≤ mostInt32 ∧ (a.ahead distance).col ≤ mostInt32 := by
  unfold numbers Seeks
  cases a.individual.program.instructions[a.individual.programCounter]? with
  | none => simp
  | some i =>
    dsimp only
    cases hopcode : i.opcode with
    | error fault => simp [hopcode]
    | ok opcode =>
      dsimp only
      by_cases hinfect : opcode = .infect
      · subst hinfect
        rw [allFit_infect_iff hw ha]
        constructor
        · rintro h distance ⟨i', count, hi', -, hcount, hfirst, hlast, hbefore⟩
          obtain rfl := Option.some.inj hi'
          exact h count hcount distance hfirst hlast hbefore
        · intro h count hcount distance hfirst hlast hbefore
          exact h distance ⟨i, count, rfl, hopcode, hcount, hfirst, hlast, hbefore⟩
      · refine iff_of_true (allFit_instructionNumbers hw ha hinfect i d) ?_
        rintro distance ⟨i', -, hi', hinfect', -⟩
        obtain rfl := Option.some.inj hi'
        rw [hopcode] at hinfect'
        exact absurd (Except.ok.inj hinfect') hinfect

/-- It is decided for an actor whether all numbers fit that it comes upon. -/
theorem Actor.fits_iff (hw : Bounded w) (ha : a.Placed w.grid) (d : Decisions) :
    a.fits w d = true ↔ AllFit (a.numbers w d) := by
  unfold fits numbers
  cases a.individual.program.instructions[a.individual.programCounter]? with
  | none => exact iff_of_true ha.line allFit_nil
  | some i =>
    dsimp only
    cases i.opcode with
    | error fault => simp
    | ok opcode => exact instructionFits_iff hw ha opcode i d

/-- The numbers of a turn. -/
def Turn.numbers {ρ : Type} (w : World) (t : Turn ρ) : List Int :=
  (t.ready w).numbers w t.stage.decisions

/-- A turn looks for a victim at a distance. -/
def Turn.Seeks {ρ : Type} (w : World) (t : Turn ρ) (distance : Nat) : Prop :=
  (t.ready w).Seeks w t.stage.decisions distance

variable {ρ : Type} [WordSource ρ]

/-- Going through the cells that are called decides the turns they take. -/
theorem turnsFit_iff (w : World) (cells : List Cell) (s : Stage ρ) :
    turnsFit w cells s = true ↔
      ∀ t ∈ turnsFrom w cells s, (t.ready w).fits w t.stage.decisions = true := by
  induction cells generalizing s with
  | nil => simp [turnsFit, turnsFrom]
  | cons c cells ih =>
    rw [turnsFit, turnFits, turnsFrom, Bool.and_eq_true, ih]
    cases hturn : hasTurn s c with
    | false => simp
    | true =>
      simp only [Bool.not_true, Bool.false_or, if_true, List.forall_mem_cons]
      rfl

variable {c : Configuration} {s : Simulation ρ} {r : Rules}

/-- A reachable Darwin world is bounded if its sides are short enough. -/
theorem bounded_of_reachable (hs : Simulation.Reachable c s) (hr : s.rules = .darwin r)
    (hrows : c.rows ≤ 2 ^ 30) (hcols : c.cols ≤ 2 ^ 30)
    (hmirror : c.edge = .mirror → c.rows < 2 ^ 30 ∧ c.cols < 2 ^ 30) :
    Bounded (r.world s.grid) := by
  have hranged := Settings.ranged_of_ofParameters (settings_of_reachable hs hr)
  exact ⟨hs.moderate hrows hcols hmirror, Int.ofNat_le.mp hranged.layers.2,
    hranged.orientationStep⟩

/-- Whoever has a turn in a reachable Darwin world is on the grid, oriented below a full turn and
at a line of a program. -/
theorem placed_of_mem_turns (hs : Simulation.Reachable c s) (hr : s.rules = .darwin r)
    {t : Turn ρ} (ht : t ∈ turns (r.world s.grid) s.source) :
    (t.ready (r.world s.grid)).Placed s.grid :=
  have hindividual := (Turn.soundActor_ready (settled_of_mem_turns hs hr ht)).individual
  ⟨inBounds_ready_of_mem_turns (w := r.world s.grid) hs.wellFormed ht, hindividual.orientation,
    Program.nextFits_iff.mpr (hindividual.line.symm.imp And.left Or.inl)⟩

/-- The numbers of a turn fit unless it looks for a victim at a location too far down or too far
right. -/
theorem Turn.allFit_numbers_iff (hs : Simulation.Reachable c s) (hr : s.rules = .darwin r)
    (hw : Bounded (r.world s.grid)) {t : Turn ρ} (ht : t ∈ turns (r.world s.grid) s.source) :
    AllFit (t.numbers (r.world s.grid)) ↔
      ∀ distance, t.Seeks (r.world s.grid) distance →
        ((t.ready (r.world s.grid)).ahead distance).row ≤ mostInt32 ∧
        ((t.ready (r.world s.grid)).ahead distance).col ≤ mostInt32 :=
  Actor.allFit_numbers_iff hw (placed_of_mem_turns hs hr ht) t.stage.decisions

/-- It takes a count beyond `2 ^ 30` to look for a victim too far away. -/
theorem Turn.ahead_le_of_count_le (hs : Simulation.Reachable c s) (hr : s.rules = .darwin r)
    (hw : Bounded (r.world s.grid)) {t : Turn ρ} (ht : t ∈ turns (r.world s.grid) s.source)
    (hcount : ∀ i count, t.instruction? (r.world s.grid) = some i → i.opcode = .ok .infect →
      i.count = .ok count → count ≤ 2 ^ 30) {distance : Nat}
    (h : t.Seeks (r.world s.grid) distance) :
    ((t.ready (r.world s.grid)).ahead distance).row ≤ mostInt32 ∧
      ((t.ready (r.world s.grid)).ahead distance).col ≤ mostInt32 := by
  obtain ⟨i, count, hi, hinfect, hcount', -, hlast, -⟩ := h
  have hsmall := hcount i count hi hinfect hcount'
  exact step_le_of_near hw.grid (placed_of_mem_turns hs hr ht).inBounds
    (Heading.compass_ofDegrees _) (by omega)

/-- It is decided for a turn whether all numbers fit that it comes upon. -/
theorem Turn.turnFits_iff (hs : Simulation.Reachable c s) (hr : s.rules = .darwin r)
    (hw : Bounded (r.world s.grid)) {t : Turn ρ} (ht : t ∈ turns (r.world s.grid) s.source) :
    turnFits (r.world s.grid) t.stage t.cell = true ↔ AllFit (t.numbers (r.world s.grid)) := by
  have hturn := (Orderly.of_mem_turns (w := r.world s.grid) hs.wellFormed ht).1
  rw [turnFits, hturn, Bool.not_true, Bool.false_or]
  exact Actor.fits_iff hw (placed_of_mem_turns hs hr ht) t.stage.decisions

/-- It is decided for a tick whether all numbers fit that its turns come upon. -/
theorem turnsFit_iff_allFit (hs : Simulation.Reachable c s) (hr : s.rules = .darwin r)
    (hw : Bounded (r.world s.grid)) :
    turnsFit (r.world s.grid) s.grid.cellList (opening s.source) = true ↔
      ∀ t ∈ turns (r.world s.grid) s.source, AllFit (t.numbers (r.world s.grid)) := by
  rw [turnsFit_iff]
  exact forall₂_congr fun t ht =>
    Actor.fits_iff hw (placed_of_mem_turns hs hr ht) t.stage.decisions

/-- In every reachable Darwin world with at most `2 ^ 30` rows and columns, fewer if they
mirror, the numbers that a turn comes upon are signed 32-bit numbers unless it looks for
somebody to convert at a location that is too far down or too far right. That takes a count
beyond `2 ^ 30`. The next tick can be completed exactly if the numbers of all turns fit. -/
theorem numbers_fit_unless_far (hs : Simulation.Reachable c s) (hr : s.rules = .darwin r)
    (hrows : c.rows ≤ 2 ^ 30) (hcols : c.cols ≤ 2 ^ 30)
    (hmirror : c.edge = .mirror → c.rows < 2 ^ 30 ∧ c.cols < 2 ^ 30) :
    (∀ t ∈ turns (r.world s.grid) s.source,
      ((∀ n ∈ t.numbers (r.world s.grid), leastInt32 ≤ n ∧ n ≤ mostInt32) ↔
        ∀ distance, t.Seeks (r.world s.grid) distance →
          ((t.ready (r.world s.grid)).ahead distance).row ≤ mostInt32 ∧
          ((t.ready (r.world s.grid)).ahead distance).col ≤ mostInt32) ∧
      ((∀ i count, t.instruction? (r.world s.grid) = some i → i.opcode = .ok .infect →
          i.count = .ok count → count ≤ 2 ^ 30) →
        ∀ n ∈ t.numbers (r.world s.grid), leastInt32 ≤ n ∧ n ≤ mostInt32)) ∧
    (s.step?.isSome = true ↔ ∀ t ∈ turns (r.world s.grid) s.source,
      ∀ n ∈ t.numbers (r.world s.grid), leastInt32 ≤ n ∧ n ≤ mostInt32) := by
  have hw := bounded_of_reachable hs hr hrows hcols hmirror
  refine ⟨fun t ht => ⟨Turn.allFit_numbers_iff hs hr hw ht, fun hcount => ?_⟩, ?_⟩
  · exact (Turn.allFit_numbers_iff hs hr hw ht).mpr fun _ hseeks =>
      Turn.ahead_le_of_count_le hs hr hw ht hcount hseeks
  · rw [isSome_step? hr]
    exact turnsFit_iff_allFit hs hr hw

/-- All numbers fit that come up in the first tick of the duel. -/
theorem duel_numbers_fit : ∃ (s : Simulation KeyStream) (r : Rules),
    Simulation.Reachable duel s ∧ s.rules = .darwin r ∧
      ∀ t ∈ turns (r.world s.grid) s.source, ∀ n ∈ t.numbers (r.world s.grid),
        leastInt32 ≤ n ∧ n ≤ mostInt32 := by
  obtain ⟨s, r, hs, hr⟩ := exists_duel
  have hreach : Simulation.Reachable duel s := Simulation.Reachable.start hs s.source
  have hcompletes : (Simulation.ofConfiguration duel).toOption.any
      (fun s => s.step?.isSome) = true := by decide +kernel
  rw [hs] at hcompletes
  refine ⟨s, r, hreach, hr, ?_⟩
  exact (numbers_fit_unless_far hreach hr (by decide) (by decide) (by decide)).2.mp hcompletes

/-- An individual that infects whoever is ahead, however far. -/
def overreaching : Configuration :=
  { Configuration.default with
    automaton := "darwin"
    rows := 1
    cols := 2
    states := [[0, 1]]
    species := (∅ : Std.ExtTreeMap Nat String).insert 1 "INFECT 2147483647" }

/-- On a grid of two cells an individual in the second one looks for somebody to convert at a
column that is not a signed 32-bit number. -/
theorem overreaching_number : overreaching.rows ≤ 2 ^ 30 ∧ overreaching.cols ≤ 2 ^ 30 ∧
    ∃ (s : Simulation KeyStream) (r : Rules) (t : Turn KeyStream),
      Simulation.Reachable overreaching s ∧ s.rules = .darwin r ∧
      t ∈ turns (r.world s.grid) s.source ∧
      ∃ n ∈ t.numbers (r.world s.grid), ¬ (leastInt32 ≤ n ∧ n ≤ mostInt32) := by
  refine ⟨by decide, by decide, ?_⟩
  have hstops : (Simulation.ofConfiguration overreaching).toOption.map
      (fun s => (s.rules.kind, s.step?.isSome)) = some (.darwin, false) := by
    decide +kernel
  cases hs : Simulation.ofConfiguration overreaching with
  | error fault => simp [hs, Except.toOption] at hstops
  | ok s =>
    rw [hs] at hstops
    obtain ⟨hkind, hfits⟩ := Prod.mk.inj (Option.some.inj hstops)
    cases hr : s.rules with
    | darwin r =>
      have hreach : Simulation.Reachable overreaching s := .start hs s.source
      have hw := bounded_of_reachable hreach hr (by decide) (by decide) (by decide)
      -- The first tick cannot be completed, so not all the numbers of its turns fit.
      by_contra hnone
      rw [isSome_step? hr, ← Bool.not_eq_true, turnsFit_iff_allFit hreach hr hw] at hfits
      refine hfits fun t ht n hn => not_not.mp fun hbad => hnone ?_
      exact ⟨s, r, t, hreach, hr, ht, n, hn, hbad⟩
    | _ => simp [hr, Ruleset.kind] at hkind

end CellularAutomata.Darwin
