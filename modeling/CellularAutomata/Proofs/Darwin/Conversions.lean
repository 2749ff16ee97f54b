import CellularAutomata.Proofs.Darwin.Rays
import CellularAutomata.Proofs.Darwin.Vision

/-!
# Conversions

Whom an individual converts, and what becomes of it. Whether somebody can be converted is a
question about the grid as decided so far and about what has happened at the position; the
first one along the heading for whom the answer is yes is converted, and nothing else changes.
-/

namespace CellularAutomata.Darwin

/-- An individual that one of the given species can convert at a position. -/
structure Eligible (g : Grid) (d : Decisions) (species : Nat) (l : Location) (v : Cell) :
    Prop where
  /-- It is there on the grid as decided so far. -/
  here : (d.shown g).cellAt l = some v
  /-- The cell is not empty. -/
  occupied : v.isEmpty = false
  /-- It is of another species. -/
  foreign : v.state ≠ species
  /-- It is not infected. -/
  healthy : ∀ i, v.individual? = some i → i.infection = none
  /-- Nobody has left the position. -/
  kept : d.isVacated l = false
  /-- Nobody has moved in or has been converted there. -/
  untouched : ∀ k, d.claim? l = some k → k.kind ≠ .arrived ∧ k.kind ≠ .infected

/-- An actor comes upon somebody whom it can convert at a distance. -/
structure Finds (g : Grid) (d : Decisions) (a : Actor) (distance : Nat) (l : Location)
    (v : Cell) : Prop where
  /-- The heading leads to the position. -/
  resolves : g.resolve (a.ahead distance) = some l
  /-- Whoever is there can be converted. -/
  eligible : Eligible g d a.species l v

/-- The first one whom an actor can convert within a number of steps. -/
structure FindsFirst (g : Grid) (d : Decisions) (a : Actor) (count distance : Nat) (l : Location)
    (v : Cell) : Prop where
  /-- The distance is one of those that are searched. -/
  within : 1 ≤ distance ∧ distance ≤ count
  /-- There is somebody at the distance. -/
  finds : Finds g d a distance l v
  /-- There is nobody before. -/
  first : ∀ e, 1 ≤ e → e < distance → ∀ l' v', ¬ Finds g d a e l' v'

/-- The decisions after those in which an actor has converted an individual at a position. -/
structure Converts (r : Rules) (a : Actor) (d d' : Decisions) (l : Location) (v : Cell) :
    Prop where
  /-- The individual keeps its orientation. It starts the program of the species of the actor,
  and is infected by it. -/
  claim : ∃ i p, v.individual? = some i ∧ r.species[a.species]? = some p ∧ d'.claim? l =
    some ⟨.ofIndividual a.species l
      ⟨i.orientation, 0, some ⟨r.settings.infectionTime, v.state⟩, p⟩, .infected⟩
  /-- No other claim changes. -/
  elsewhere : ∀ l', l' ≠ l → d'.claim? l' = d.claim? l'
  /-- Nobody leaves a position. -/
  kept : ∀ l', d'.isVacated l' = d.isVacated l'

variable {g : Grid} {d : Decisions} {a : Actor}

/-- Possible victims are those who can be converted. -/
theorem Decisions.Grounded.eligible_iff (h : d.Grounded g) {species : Nat} {l : Location}
    {v : Cell} : Eligible g d species l v ↔ victim? g d species l = some v := by
  have hstayed : ∀ k : Claim, k.kind = .stayed ↔ k.kind ≠ .arrived ∧ k.kind ≠ .infected := by
    intro k
    cases k.kind <;> simp
  rw [victim?_eq_some_iff]
  constructor
  · intro he
    have hcurrent := he.here
    rw [h.cellAt_shown, he.kept, Bool.false_and, if_neg Bool.false_ne_true] at hcurrent
    refine ⟨⟨he.kept, ?_⟩, hcurrent, he.occupied, he.foreign, ?_⟩
    · exact fun k hk => (hstayed k).mpr (he.untouched k hk)
    · intro i hi
      rw [Individual.isInfected, he.healthy i hi]
      rfl
  · rintro ⟨⟨hkept, huntouched⟩, hcurrent, hoccupied, hforeign, hhealthy⟩
    refine ⟨?_, hoccupied, hforeign, ?_, hkept, ?_⟩
    · rw [h.cellAt_shown, hkept, Bool.false_and, if_neg Bool.false_ne_true, hcurrent]
    · intro i hi
      simpa [Individual.isInfected] using hhealthy i hi
    · exact fun k hk => (hstayed k).mp (huntouched k hk)

/-- An actor comes upon somebody at a distance where a search for a victim has an answer. -/
theorem Decisions.Grounded.exists_finds_iff (h : d.Grounded g) {distance : Nat} {v : Cell} :
    (∃ l, Finds g d a distance l v) ↔ answerAt g a.location a.individual.heading
      (victim? g d a.species) distance = some v := by
  rw [answerAt, Option.bind_eq_some_iff]
  constructor
  · rintro ⟨l, hl, he⟩
    exact ⟨l, hl, h.eligible_iff.mp he⟩
  · rintro ⟨l, hl, hv⟩
    exact ⟨l, hl, h.eligible_iff.mpr hv⟩

/-- An actor comes upon nobody at a distance where a search for a victim has no answer. -/
theorem Decisions.Grounded.not_finds_iff (h : d.Grounded g) {distance : Nat} :
    (∀ l v, ¬ Finds g d a distance l v) ↔ answerAt g a.location a.individual.heading
      (victim? g d a.species) distance = .none := by
  rw [Option.eq_none_iff_forall_not_mem]
  constructor
  · intro hnone v hv
    obtain ⟨l, hl⟩ := h.exists_finds_iff.mpr hv
    exact hnone l v hl
  · intro hnone l v hl
    exact hnone v (h.exists_finds_iff.mp ⟨l, hl⟩)

variable {w : World} {i : Instruction} {count : Nat}

/-- An actor that carries out INFECT searches all the distances that it is told to, although
only those within the sight limit are looked at. -/
theorem target?_of_infect (hin : w.grid.inBounds a.location = true)
    (hi : a.individual.program.instructions[a.individual.programCounter]? = some i)
    (ho : i.opcode = .ok .infect) (hcount : i.count = .ok count) :
    target? w a d = firstAlong w.grid a.location a.individual.heading
      (victim? w.grid d a.species) 1 count := by
  have hheading : Compass a.individual.heading := Heading.compass_ofDegrees _
  rw [← firstAlong_sightLimit hin hheading, target?, hi]
  simp only [ho, hcount]
  rfl

/-- The cell that is converted by an actor that carries out INFECT is that of the first one
whom it can convert. -/
theorem Decisions.Grounded.target?_eq_some_iff (h : d.Grounded w.grid)
    (hin : w.grid.inBounds a.location = true)
    (hi : a.individual.program.instructions[a.individual.programCounter]? = some i)
    (ho : i.opcode = .ok .infect) (hcount : i.count = .ok count) {v : Cell} :
    target? w a d = some v ↔ ∃ distance l, FindsFirst w.grid d a count distance l v := by
  rw [target?_of_infect hin hi ho hcount, firstAlong_eq_some_iff]
  constructor
  · rintro ⟨distance, hwithin, hfound, hbefore⟩
    obtain ⟨l, hl⟩ := h.exists_finds_iff.mpr hfound
    exact ⟨distance, l, by omega, hl, fun e he hed => h.not_finds_iff.mpr (hbefore e he hed)⟩
  · rintro ⟨distance, l, hwithin, hl, hfirst⟩
    exact ⟨distance, by omega, h.exists_finds_iff.mp ⟨l, hl⟩,
      fun e he hed => h.not_finds_iff.mp (hfirst e he hed)⟩

/-- An actor that carries out INFECT converts nobody if there is nobody whom it can convert. -/
theorem Decisions.Grounded.target?_eq_none_iff (h : d.Grounded w.grid)
    (hin : w.grid.inBounds a.location = true)
    (hi : a.individual.program.instructions[a.individual.programCounter]? = some i)
    (ho : i.opcode = .ok .infect) (hcount : i.count = .ok count) :
    target? w a d = .none ↔ ∀ distance, 1 ≤ distance → distance ≤ count →
      ∀ l v, ¬ Finds w.grid d a distance l v := by
  rw [target?_of_infect hin hi ho hcount, firstAlong_eq_none_iff]
  constructor
  · intro hnone distance hpos hle
    exact h.not_finds_iff.mpr (hnone distance hpos (by omega))
  · intro hnone distance hpos hlt
    exact h.not_finds_iff.mp (hnone distance hpos (by omega))

/-- Claiming the position of a sound victim for what becomes of it is a conversion. -/
theorem SoundActor.converts {r : Rules} {v : Cell} (h : SoundActor r a) (hv : Settled r v) :
    Converts r a d (convert (r.world g) a (some v) d) v.location v := by
  obtain ⟨j, hattr, hj⟩ := hv
  have hcarried : v.individual? = some j := by rw [Cell.individual?, hattr]
  refine ⟨⟨j, a.individual.program, hcarried, h.individual.template, ?_⟩, ?_, fun l' => rfl⟩
  · rw [claim?_convert]
    dsimp only
    rw [if_pos rfl, h.converted_eq hattr hj]
  · intro l' hl'
    rw [claim?_convert]
    exact if_neg hl'.symm

variable {ρ : Type} [WordSource ρ] {r : Rules} {c : Configuration} {s : Simulation ρ}
  {t : Turn ρ}

omit [WordSource ρ] in
/-- Who converts somebody carries out INFECT. -/
theorem Turn.exists_infect_of_victim? {v : Cell} (hv : t.victim? w = some v) :
    ∃ i count, t.instruction? w = some i ∧ i.opcode = .ok .infect ∧ i.count = .ok count := by
  rw [Turn.victim?, target?] at hv
  split at hv
  next => cases hv
  next i hi =>
    split at hv
    next ho hcount => exact ⟨i, _, hi, ho, hcount⟩
    next => cases hv

/-- A turn in which INFECT is carried out leaves the actor as it comes to the instruction, and
concludes with its claim to the position where it is. -/
theorem Turn.takeTurn_of_infect (hturn : hasTurn t.stage t.cell = true)
    (hi : t.instruction? w = some i) (ho : i.opcode = .ok .infect) :
    t.ended w = t.ready w ∧ (takeTurn w t.stage t.cell).decisions =
      (act w t.cell t.stage).2.decisions.occupy (.ofIndividual (t.ready w).species
        t.cell.location (t.ready w).advanced) .stayed := by
  have hended : t.ended w = t.ready w := by
    rw [Turn.ended, act_eq]
    exact execute_fst_of_infect hi ho
  refine ⟨hended, ?_⟩
  have hstay : (t.ended w).location = t.cell.location := by rw [hended, t.ready_location]
  rw [takeTurn_of_hasTurn hturn]
  change (conclude t.cell.location (t.ended w) _).decisions = _
  rw [conclude, if_pos hstay, hstay, hended]

/-- In every turn of a reachable Darwin world in which INFECT is carried out, the first one is
converted whom the individual can convert as it comes to the instruction, counted from the
distance one to the one that it is told. This is somebody at another position. If there is
nobody, then nothing is decided. The individual itself stays as it is, and nothing but its claim
to its own position is added when the turn is concluded. -/
theorem infect_converts_first (hs : Simulation.Reachable c s) (hr : s.rules = .darwin r)
    (ht : t ∈ turns (r.world s.grid) s.source)
    (hi : t.instruction? (r.world s.grid) = some i) (ho : i.opcode = .ok .infect)
    (hcount : i.count = .ok count) :
    ((∃ distance l v, FindsFirst s.grid t.stage.decisions (t.ready (r.world s.grid)) count
          distance l v ∧ l ≠ t.cell.location ∧
        Converts r (t.ready (r.world s.grid)) t.stage.decisions
          (act (r.world s.grid) t.cell t.stage).2.decisions l v) ∨
      (∀ distance, 1 ≤ distance → distance ≤ count → ∀ l v,
          ¬ Finds s.grid t.stage.decisions (t.ready (r.world s.grid)) distance l v) ∧
        (act (r.world s.grid) t.cell t.stage).2.decisions = t.stage.decisions) ∧
    t.ended (r.world s.grid) = t.ready (r.world s.grid) ∧
      (takeTurn (r.world s.grid) t.stage t.cell).decisions =
        (act (r.world s.grid) t.cell t.stage).2.decisions.occupy
          (.ofIndividual (t.ready (r.world s.grid)).species t.cell.location
            (t.ready (r.world s.grid)).advanced) .stayed := by
  have hwf : (r.world s.grid).grid.WellFormed := hs.wellFormed
  obtain ⟨hturn, rest, hsound⟩ := soundStage_of_mem_turns hs hr ht
  have horder := hsound.orderly
  have hgrounded := horder.grounded
  have hin := inBounds_ready_of_mem_turns hwf ht
  refine ⟨?_, Turn.takeTurn_of_infect hturn hi ho⟩
  rw [t.decisions_act]
  cases hv : t.victim? (r.world s.grid) with
  | none => exact Or.inr ⟨(hgrounded.target?_eq_none_iff hin hi ho hcount).mp hv, rfl⟩
  | some v =>
    obtain ⟨distance, l, hfirst⟩ := (hgrounded.target?_eq_some_iff hin hi ho hcount).mp hv
    have hvictim := hgrounded.eligible_iff.mp hfirst.finds.eligible
    obtain rfl : v.location = l := (horder.victim? hwf hvictim).1
    have hactor : SoundActor r (t.ready (r.world s.grid)) :=
      Turn.soundActor_ready (settled_of_mem_turns hs hr ht)
    have hsettled := hsound.settled_victim (sound_of_reachable hs hr) hvictim
    exact Or.inl ⟨distance, v.location, v, hfirst, horder.victim?_ne hwf hturn hv,
      hactor.converts hsettled⟩

/-- In the first tick of the duel the first one ahead is converted. -/
theorem duel_infect_converts_first :
    ∃ (s : Simulation KeyStream) (r : Rules) (t : Turn KeyStream) (i : Instruction) (count : Nat),
      Simulation.Reachable duel s ∧ s.rules = .darwin r ∧
      t ∈ turns (r.world s.grid) s.source ∧ t.instruction? (r.world s.grid) = some i ∧
      i.opcode = .ok .infect ∧ i.count = .ok count ∧
      ∃ distance l v, FindsFirst s.grid t.stage.decisions (t.ready (r.world s.grid)) count
        distance l v ∧ l ≠ t.cell.location ∧
        Converts r (t.ready (r.world s.grid)) t.stage.decisions
          (act (r.world s.grid) t.cell t.stage).2.decisions l v := by
  obtain ⟨s, r, t, v, hs, hr, ht, hv⟩ := exists_converted_in_duel
  have hreach : Simulation.Reachable duel s := Simulation.Reachable.start hs s.source
  obtain ⟨i, count, hi, ho, hcount⟩ := Turn.exists_infect_of_victim? hv
  refine ⟨s, r, t, i, count, hreach, hr, ht, hi, ho, hcount, ?_⟩
  rcases (infect_converts_first hreach hr ht hi ho hcount).1 with hfirst | ⟨hnone, -⟩
  · exact hfirst
  · have hwf : (r.world s.grid).grid.WellFormed := hreach.wellFormed
    have hin := inBounds_ready_of_mem_turns hwf ht
    obtain ⟨-, rest, horder⟩ := Orderly.of_mem_turns hwf ht
    have hnobody := (horder.grounded.target?_eq_none_iff hin hi ho hcount).mpr hnone
    rw [Turn.victim?, hnobody] at hv
    cases hv

end CellularAutomata.Darwin
