import CellularAutomata.Proofs.Darwin.Individuals
import CellularAutomata.Proofs.Run.Reachability

/-!
# Sound individuals

In a Darwin world every occupied cell carries an individual of a known species that runs
the template of its species, stands at a line of it, is oriented below a full turn, and
can only revert from an infection to another known species. Turning, jumping, being
converted and reverting all keep this, so it holds in every reachable simulation.
-/

namespace CellularAutomata.Darwin

/-- An individual as it may be in a cell whose state is a species. -/
structure Sound (r : Rules) (species : Nat) (i : Individual) : Prop where
  /-- The program is the template of the species. -/
  template : r.species[species]? = some i.program
  /-- The individual stands at a line of its program, or at the start of an empty one. -/
  line : i.programCounter < i.program.length ∨ i.program.length = 0 ∧ i.programCounter = 0
  /-- The orientation is below a full turn. -/
  orientation : 0 ≤ i.orientation ∧ i.orientation < 360
  /-- An infection is no longer than it may be and hides another known species. -/
  infection : ∀ x, i.infection = some x → x.countdown ≤ r.settings.infectionTime ∧
    x.previousSpecies ∈ r.species ∧ x.previousSpecies ≠ species

/-- A cell with a sound individual of the species that is its state. -/
def Settled (r : Rules) (c : Cell) : Prop :=
  ∃ i, c.attributes = .individual i ∧ Sound r c.state i

/-- A grid whose cells are empty or settled. -/
def SoundGrid (r : Rules) (g : Grid) : Prop :=
  ∀ l c, g.cellAt l = some c → c = .empty c.location ∨ Settled r c

/-- An actor that is sound and, if it jumps, jumps to a line of its program. -/
structure SoundActor (r : Rules) (a : Actor) : Prop where
  /-- The individual is sound for the species of the actor. -/
  individual : Sound r a.species a.individual
  /-- A jump leads to a line of the program. -/
  jump : ∀ line, a.jump = some line → line < a.individual.program.length

variable {r : Rules}

/-- A species with an individual is known. -/
theorem Sound.known {species : Nat} {i : Individual} (h : Sound r species i) :
    species ∈ r.species := by
  rw [Std.ExtTreeMap.mem_iff_isSome_getElem?, h.template]
  rfl

/-- A settled cell is occupied, because no species has the state of empty cells. -/
theorem Settled.state_ne {c : Cell} (h : Settled r c) (hzero : emptyState ∉ r.species) :
    c.state ≠ emptyState := by
  obtain ⟨i, -, hi⟩ := h
  intro heq
  exact hzero (heq ▸ hi.known)

/-- The same in terms of emptiness. -/
theorem Settled.isEmpty {c : Cell} (h : Settled r c) (hzero : emptyState ∉ r.species) :
    c.isEmpty = false := by
  simpa [Cell.isEmpty] using h.state_ne hzero

/-- Occupied cells of a sound grid are settled. -/
theorem SoundGrid.settled {g : Grid} (h : SoundGrid r g) {l : Location} {c : Cell}
    (hc : g.cellAt l = some c) (hne : c.isEmpty = false) : Settled r c := by
  rcases h l c hc with hempty | hsettled
  · rw [hempty] at hne
    simp [Cell.isEmpty, Cell.empty, Cell.plain] at hne
  · exact hsettled

/-- Whoever is in a cell of a sound grid is sound. -/
theorem SoundGrid.sound {g : Grid} (h : SoundGrid r g) {l : Location} {c : Cell} {i : Individual}
    (hc : g.cellAt l = some c) (hi : c.attributes = .individual i) : Sound r c.state i := by
  rcases h l c hc with hempty | ⟨i', hi', hsound⟩
  · rw [hempty] at hi
    cases hi
  · rw [hi] at hi'
    obtain rfl := Attributes.individual.inj hi'
    exact hsound

/-- A new individual of a known species is sound. -/
theorem sound_fresh {species : Nat} (h : species ∈ r.species) (orientation : Int) :
    Sound r species (fresh r.species species orientation) := by
  obtain ⟨p, hp⟩ := Option.isSome_iff_exists.mp (Std.ExtTreeMap.mem_iff_isSome_getElem?.mp h)
  have hprogram : r.species.getD species .empty = p := by
    rw [Std.ExtTreeMap.getD_eq_getD_getElem?, hp]
    rfl
  refine ⟨?_, ?_, ?_, ?_⟩
  · rw [hp, fresh, Individual.start, hprogram]
  · change 0 < (r.species.getD species .empty).length ∨
      (r.species.getD species .empty).length = 0 ∧ 0 = 0
    omega
  · change 0 ≤ orientation % 360 ∧ orientation % 360 < 360
    omega
  · intro x hx
    cases hx

/-- The individual of a settled cell comes to its instruction soundly, whether its
infection goes on or wears off. -/
theorem Turn.soundActor_ready {ρ : Type} {g : Grid} {t : Turn ρ} (h : Settled r t.cell) :
    SoundActor r (t.ready (r.world g)) := by
  obtain ⟨i, hattr, hi⟩ := h
  have hind : (actorOf (r.world g) t.cell).individual = i := by
    rw [actorOf, Cell.individual?, hattr]
    rfl
  rw [Turn.ready, advanceInfection, hind]
  cases hx : i.infection with
  | none =>
    refine ⟨?_, by intro line hline; cases hline⟩
    rw [hind]
    exact hi
  | some x =>
    obtain ⟨hcount, hknown, hother⟩ := hi.infection x hx
    dsimp only
    split
    next => exact ⟨sound_fresh hknown _, by intro line hline; cases hline⟩
    next =>
      refine ⟨⟨hi.template, hi.line, hi.orientation, ?_⟩, by intro line hline; cases hline⟩
      intro y hy
      obtain rfl := Option.some.inj hy
      refine ⟨?_, hknown, hother⟩
      change x.countdown - 1 ≤ r.settings.infectionTime
      omega

/-- A deed of a sound actor leaves it sound. -/
theorem SoundActor.deed {w : World} {d : Decisions} {a a' : Actor} (h : SoundActor r a)
    (hdeed : Deed w d a a') : SoundActor r a' := by
  cases hdeed with
  | rest => exact h
  | walk l _ => exact ⟨h.individual, h.jump⟩
  | turn degrees =>
    refine ⟨⟨h.individual.template, h.individual.line, ?_, h.individual.infection⟩, h.jump⟩
    change 0 ≤ (a.individual.orientation + degrees) % 360 ∧
      (a.individual.orientation + degrees) % 360 < 360
    omega
  | jump line hline =>
    refine ⟨h.individual, ?_⟩
    intro line' hline'
    obtain rfl := Option.some.inj hline'
    exact hline

/-- The line after a line of a program, or after the start of an empty one, is such a line
again. -/
theorem next_line (p : Program) (index : Nat) :
    p.next index < p.length ∨ p.length = 0 ∧ p.next index = 0 := by
  rw [Program.next]
  split
  next h => exact Or.inr ⟨h, rfl⟩
  next h => exact Or.inl (Nat.mod_lt _ (Nat.pos_of_ne_zero h))

/-- A sound actor leaves a sound individual behind, whether it jumps or goes on. -/
theorem SoundActor.advanced {a : Actor} (h : SoundActor r a) : Sound r a.species a.advanced := by
  refine ⟨h.individual.template, ?_, h.individual.orientation, h.individual.infection⟩
  change a.jump.getD (a.individual.program.next a.individual.programCounter) <
      a.individual.program.length ∨
    a.individual.program.length = 0 ∧
      a.jump.getD (a.individual.program.next a.individual.programCounter) = 0
  cases hj : a.jump with
  | none => exact next_line _ _
  | some line => exact Or.inl (h.jump line hj)

/-- A sound individual keeps its orientation when a sound actor converts it, and is given the
template of the species of the actor. -/
theorem SoundActor.converted_eq {g : Grid} {a : Actor} {v : Cell} {i : Individual}
    (h : SoundActor r a) (hattr : v.attributes = .individual i) (hi : Sound r v.state i) :
    converted (r.world g) a v = .ofIndividual a.species v.location
      ⟨i.orientation, 0, some ⟨r.settings.infectionTime, v.state⟩, a.individual.program⟩ := by
  have hprogram : r.species.getD a.species a.individual.program = a.individual.program := by
    rw [Std.ExtTreeMap.getD_eq_getD_getElem?, h.individual.template]
    rfl
  have horientation : i.orientation % 360 = i.orientation :=
    Int.emod_eq_of_lt hi.orientation.1 hi.orientation.2
  simp only [converted, Rules.world, Cell.individual?, hattr, hprogram, Option.map_some,
    Option.getD_some, Individual.infected, Individual.start, horientation]

/-- A settled cell that a sound actor of another species converts stays settled. -/
theorem SoundActor.settled_converted {g : Grid} {a : Actor} {v : Cell} (h : SoundActor r a)
    (hv : Settled r v) (hspecies : v.state ≠ a.species) :
    Settled r (converted (r.world g) a v) := by
  obtain ⟨i, hattr, hi⟩ := hv
  rw [h.converted_eq hattr hi]
  refine ⟨_, rfl, h.individual.template, ?_, hi.orientation, ?_⟩
  · change 0 < a.individual.program.length ∨ a.individual.program.length = 0 ∧ 0 = 0
    omega
  · intro x hx
    obtain rfl := Option.some.inj hx
    exact ⟨Nat.le_refl _, hi.known, hspecies⟩

/-- An orderly tick all of whose final occupants are settled. -/
structure SoundStage (r : Rules) (g : Grid) (waiting : List Cell) (d : Decisions) : Prop where
  /-- The tick is in order. -/
  orderly : Orderly g waiting d
  /-- Final occupants are settled. -/
  settled : ∀ {l : Location} {k : Claim}, d.claim? l = some k → Settled r k.cell

/-- Who has a turn in a sound grid is settled. -/
theorem SoundStage.settled_called {ρ : Type} {g : Grid} {rest : List Cell} {c : Cell}
    {s : Stage ρ} (hwf : g.WellFormed) (hg : SoundGrid r g)
    (h : SoundStage r g (c :: rest) s.decisions) (hturn : hasTurn s c = true) : Settled r c :=
  hg.settled (h.orderly.cellAt hwf) (hasTurn_iff.mp hturn).1

/-- A possible victim in a sound grid is settled. -/
theorem SoundStage.settled_victim {g : Grid} {waiting : List Cell} {d : Decisions}
    {species : Nat} {l : Location} {v : Cell} (hg : SoundGrid r g)
    (h : SoundStage r g waiting d) (hv : victim? g d species l = some v) : Settled r v := by
  obtain ⟨-, hcur, hne, -, -⟩ := victim?_eq_some_iff.mp hv
  rw [Decisions.current] at hcur
  split at hcur
  next k hk =>
    obtain rfl := Option.some.inj hcur
    exact h.settled hk
  next => exact hg.settled hcur hne

variable {ρ : Type} [WordSource ρ]

/-- The individual of a settled cell ends its turn soundly. -/
theorem Turn.soundActor_ended {g : Grid} {t : Turn ρ} (h : Settled r t.cell) :
    SoundActor r (t.ended (r.world g)) :=
  (Turn.soundActor_ready h).deed (t.deed (r.world g))

/-- A turn leaves final occupants settled. -/
theorem SoundStage.takeTurn {g : Grid} {rest : List Cell} {c : Cell} {s : Stage ρ}
    (hwf : g.WellFormed) (hg : SoundGrid r g) (h : SoundStage r g (c :: rest) s.decisions) :
    SoundStage r g rest (takeTurn (r.world g) s c).decisions := by
  refine ⟨h.orderly.takeTurn (w := r.world g) hwf, ?_⟩
  intro l k hk
  by_cases hturn : hasTurn s c = true
  · have hsettled : Settled r (Turn.mk c s).cell := h.settled_called hwf hg hturn
    rcases claim?_takeTurn_cases hturn hk with ⟨-, rfl⟩ | ⟨v, hv, -, rfl⟩ | hold
    · exact ⟨_, rfl, (Turn.soundActor_ended hsettled).advanced⟩
    · have hvic := h.orderly.victim?_turn (w := r.world g) (t := Turn.mk c s) hwf hv
      have hother := (victim?_eq_some_iff.mp hvic).2.2.2.1
      exact (Turn.soundActor_ready hsettled).settled_converted (h.settled_victim hg hvic) hother
    · exact h.settled hold
  · rw [takeTurn_of_not_hasTurn hturn] at hk
    exact h.settled hk

omit [WordSource ρ] in
/-- A tick starts soundly, with no cell called and none left over. -/
theorem SoundStage.opening (r : Rules) (g : Grid) (source : ρ) :
    SoundStage r g (g.cellList ++ []) (opening source).decisions where
  orderly := Orderly.opening (List.append_nil _).symm source
  settled hk := by simp [Darwin.opening] at hk

/-- A tick is sound after the calls of some cells, and at each of their turns. -/
theorem SoundStage.stageAfter {g : Grid} {cells waiting : List Cell} {s : Stage ρ}
    (hwf : g.WellFormed) (hg : SoundGrid r g)
    (h : SoundStage r g (cells ++ waiting) s.decisions) :
    SoundStage r g waiting (stageAfter (r.world g) cells s).decisions ∧
      ∀ t ∈ turnsFrom (r.world g) cells s, hasTurn t.stage t.cell = true ∧
        ∃ rest, SoundStage r g (t.cell :: (rest ++ waiting)) t.stage.decisions :=
  stageAfter_induction (J := fun waiting s => SoundStage r g waiting s.decisions)
    (fun _ _ _ h => h.takeTurn hwf hg) cells waiting s h

/-- The end of a tick of a sound grid. -/
theorem SoundGrid.finish {g : Grid} (hwf : g.WellFormed) (hg : SoundGrid r g) (source : ρ) :
    SoundStage r g [] (takeTurns (r.world g) source).decisions :=
  ((SoundStage.opening r g source).stageAfter hwf hg).1

/-- A sound grid is sound after a tick. -/
theorem SoundGrid.tick {g : Grid} (hwf : g.WellFormed) (hg : SoundGrid r g) (source : ρ) :
    SoundGrid r (g.apply (r.tick g source).updates) := by
  have hend := hg.finish hwf source
  intro l c hc
  rw [Rules.apply_tick] at hc
  cases hk : (takeTurns (r.world g) source).decisions.claim? l with
  | some k =>
    rw [hend.orderly.cellAt_shown_of_claim hk] at hc
    obtain rfl := Option.some.inj hc
    exact Or.inr (hend.settled hk)
  | none =>
    rw [Decisions.cellAt_shown, hk] at hc
    obtain ⟨old, hold, hc⟩ := Option.map_eq_some_iff.mp hc
    dsimp only at hc
    split at hc
    next => exact Or.inl (hc ▸ rfl)
    next => exact hc ▸ hg l old hold

/-- Rules are read for species only if none of them has the state of empty cells. -/
theorem species_of_ofParameters {p : Parameters} {species : Std.ExtTreeMap Nat Program}
    (h : Rules.ofParameters p species = .ok r) : r.species = species ∧ emptyState ∉ species := by
  unfold Rules.ofParameters at h
  by_cases hzero : species.contains emptyState = true
  · rw [if_pos hzero] at h
    cases h
  · rw [if_neg hzero] at h
    obtain ⟨settings, -, h⟩ := bind_eq_ok.mp h
    obtain ⟨seed, -, h⟩ := bind_eq_ok.mp h
    obtain rfl := Except.ok.inj h
    exact ⟨rfl, hzero⟩

/-- A Darwin world is read from the species that are given for it. -/
theorem ofParameters_of_build {kind : Kind} {p : Parameters}
    {species : Std.ExtTreeMap Nat Program} (h : Ruleset.build kind p species = .ok (.darwin r)) :
    Rules.ofParameters p species = .ok r := by
  obtain rfl : kind = .darwin := (Simulation.kind_of_build h).symm
  obtain ⟨rules, hrules, heq⟩ := map_eq_ok.mp h
  rw [hrules, Ruleset.darwin.inj heq]

/-- The species of a reachable Darwin world are those of its configuration, and none has
the state of empty cells. -/
theorem species_of_reachable {c : Configuration} {s : Simulation ρ}
    (h : Simulation.Reachable c s) (hr : s.rules = .darwin r) :
    r.species = Simulation.programs c ∧ emptyState ∉ r.species := by
  induction h with
  | @start first h source =>
    obtain ⟨kind, -, -, hbuild, -⟩ := Simulation.ofConfiguration_eq_ok h
    have hfirst : first.rules = .darwin r := hr
    rw [hfirst] at hbuild
    obtain ⟨heq, hzero⟩ := species_of_ofParameters (ofParameters_of_build hbuild)
    exact ⟨heq, heq ▸ hzero⟩
  | step _ ih => exact ih hr

/-- The settings of a reachable Darwin world are read from the parameters of its
configuration. -/
theorem settings_of_reachable {c : Configuration} {s : Simulation ρ}
    (h : Simulation.Reachable c s) (hr : s.rules = .darwin r) :
    Settings.ofParameters (Simulation.seededParameters c) = .ok r.settings := by
  induction h with
  | @start first h source =>
    obtain ⟨kind, -, -, hbuild, -⟩ := Simulation.ofConfiguration_eq_ok h
    have hfirst : first.rules = .darwin r := hr
    rw [hfirst] at hbuild
    have hread := ofParameters_of_build hbuild
    unfold Rules.ofParameters at hread
    split at hread
    next => cases hread
    next =>
      obtain ⟨settings, hsettings, hread⟩ := bind_eq_ok.mp hread
      obtain ⟨seed, -, hread⟩ := bind_eq_ok.mp hread
      obtain rfl := Except.ok.inj hread
      exact hsettings
  | step _ ih => exact ih hr

/-- A configuration of a Darwin world describes one. -/
theorem exists_darwin {c : Configuration} {s : Simulation KeyStream}
    (hc : Kind.ofText c.automaton = .ok .darwin) (hs : Simulation.ofConfiguration c = .ok s) :
    ∃ r, s.rules = .darwin r := by
  obtain ⟨kind, -, hkind, hbuild, -⟩ := Simulation.ofConfiguration_eq_ok hs
  obtain rfl := Except.ok.inj (hc.symm.trans hkind)
  obtain ⟨r, -, hr⟩ := map_eq_ok.mp hbuild
  exact ⟨r, hr.symm⟩

/-- The cell with which a state starts is empty or settled. -/
theorem sound_start {state : Nat} {l : Location} {c : Cell} (h : r.start state l = .ok c) :
    c = .empty c.location ∨ Settled r c := by
  rw [Rules.start] at h
  split at h
  next =>
    obtain rfl := Except.ok.inj h
    exact Or.inl rfl
  next =>
    split at h
    next hknown =>
      obtain rfl := Except.ok.inj h
      exact Or.inr ⟨_, rfl, sound_fresh (Std.ExtTreeMap.contains_iff_mem.mp hknown) _⟩
    next => cases h

/-- A step of a Darwin world is a tick of its rules. -/
theorem grid_step {s : Simulation ρ} (hr : s.rules = .darwin r) :
    s.step.simulation.grid = s.grid.apply (r.tick s.grid s.source).updates := by
  change s.grid.apply (s.rules.tick s.grid s.source).updates = _
  rw [hr]
  rfl

/-- What a step of a Darwin world comes to. -/
theorem simulation_step {s : Simulation ρ} (hr : s.rules = .darwin r) :
    s.step.simulation =
      { s with
        grid := (takeTurns (r.world s.grid) s.source).decisions.shown s.grid
        source := (takeTurns (r.world s.grid) s.source).source
        tick := s.tick + 1
        updatesApplied := s.updatesApplied +
          (takeTurns (r.world s.grid) s.source).decisions.updates.length } := by
  obtain ⟨grid, rules, source, tick, interval, applied⟩ := s
  dsimp only at hr
  subst hr
  rfl

/-- A step of a Darwin world can be completed if all numbers fit that come up in its tick. -/
theorem isSome_step? {s : Simulation ρ} (hr : s.rules = .darwin r) :
    s.step?.isSome = turnsFit (r.world s.grid) s.grid.cellList (opening s.source) := by
  rw [Simulation.isSome_step?, hr]
  rfl

/-- The grid of a reachable Darwin world is sound. -/
theorem sound_of_reachable {c : Configuration} {s : Simulation ρ}
    (h : Simulation.Reachable c s) (hr : s.rules = .darwin r) : SoundGrid r s.grid := by
  induction h with
  | @start first h source =>
    obtain ⟨kind, -, -, -, hgrid⟩ := Simulation.ofConfiguration_eq_ok h
    have hfirst : first.rules = .darwin r := hr
    intro l cell hcell
    have hstart := (Simulation.populate_cells hgrid).2 l cell hcell
    rw [hfirst] at hstart
    exact sound_start hstart
  | @step s h ih =>
    have hrules : s.rules = .darwin r := hr
    have hsound : SoundGrid r s.grid := ih hrules
    rw [grid_step hrules]
    exact hsound.tick h.wellFormed s.source

/-- Each turn of a reachable Darwin world is taken soundly. -/
theorem soundStage_of_mem_turns {c : Configuration} {s : Simulation ρ} {t : Turn ρ}
    (hs : Simulation.Reachable c s) (hr : s.rules = .darwin r)
    (ht : t ∈ turns (r.world s.grid) s.source) : hasTurn t.stage t.cell = true ∧
      ∃ rest, SoundStage r s.grid (t.cell :: rest) t.stage.decisions := by
  have hturns := ((SoundStage.opening r s.grid s.source).stageAfter hs.wellFormed
    (sound_of_reachable hs hr)).2
  obtain ⟨hturn, rest, hsound⟩ := hturns t ht
  exact ⟨hturn, _, hsound⟩

/-- Whoever has a turn in a reachable Darwin world is settled. -/
theorem settled_of_mem_turns {c : Configuration} {s : Simulation ρ} {t : Turn ρ}
    (hs : Simulation.Reachable c s) (hr : s.rules = .darwin r)
    (ht : t ∈ turns (r.world s.grid) s.source) : Settled r t.cell := by
  obtain ⟨hturn, rest, hsound⟩ := soundStage_of_mem_turns hs hr ht
  exact hsound.settled_called hs.wellFormed (sound_of_reachable hs hr) hturn

/-- In every reachable Darwin world empty cells carry nothing, and every other cell carries
an individual of a species of the configuration that runs the program of the species, is
at a line of it, is oriented below a full turn, and hides another species of the
configuration if it is infected. -/
theorem individuals_sound {c : Configuration} {s : Simulation ρ}
    (hs : Simulation.Reachable c s) (hr : s.rules = .darwin r) :
    r.species = Simulation.programs c ∧
      ∀ l cell, s.grid.cellAt l = some cell →
        (cell.state = emptyState → cell.attributes = .plain) ∧
        (cell.state ≠ emptyState → ∃ i, cell.attributes = .individual i ∧
          cell.state ∈ r.species ∧ r.species[cell.state]? = some i.program ∧
          (i.programCounter < i.program.length ∨
            i.program.length = 0 ∧ i.programCounter = 0) ∧
          (0 ≤ i.orientation ∧ i.orientation < 360) ∧
          ∀ x, i.infection = some x → x.countdown ≤ r.settings.infectionTime ∧
            x.previousSpecies ∈ r.species ∧ x.previousSpecies ≠ cell.state) := by
  obtain ⟨hspecies, hzero⟩ := species_of_reachable hs hr
  refine ⟨hspecies, ?_⟩
  intro l cell hcell
  have hsound := sound_of_reachable hs hr l cell hcell
  constructor
  · intro hstate
    rcases hsound with hempty | hsettled
    · rw [hempty]
      rfl
    · exact absurd hstate (hsettled.state_ne hzero)
  · intro hstate
    rcases hsound with hempty | ⟨i, hattr, hi⟩
    · rw [hempty] at hstate
      exact absurd rfl hstate
    · exact ⟨i, hattr, hi.known, hi.template, hi.line, hi.orientation, hi.infection⟩

/-- What is found of the turns in the next tick of a Darwin world. -/
def surveyed {α : Type} (survey : World → Turn ρ → α) (s : Simulation ρ) : List α :=
  match s.rules with
  | .darwin r => (turns (r.world s.grid) s.source).map (survey (r.world s.grid))
  | _ => []

/-- Whatever is found of the first turns of a description has been found in a Darwin world. -/
theorem exists_of_surveyed {c : Configuration} {α : Type} {survey : World → Turn KeyStream → α}
    {found : List α}
    (h : (Simulation.ofConfiguration c).toOption.map (surveyed survey) = some found)
    (hne : found ≠ []) :
    ∃ s r, Simulation.ofConfiguration c = .ok s ∧ s.rules = .darwin r ∧
      (turns (r.world s.grid) s.source).map (survey (r.world s.grid)) = found := by
  obtain ⟨s, hs, hsurveyed⟩ := exists_of_map_toOption h
  unfold surveyed at hsurveyed
  split at hsurveyed
  next r hr => exact ⟨s, r, hs, hr, hsurveyed⟩
  next => exact absurd hsurveyed.symm hne

/-- Two individuals in a row: the first converts whoever is ahead, the second moves. -/
def duel : Configuration :=
  { Configuration.default with
    automaton := "darwin"
    rows := 1
    cols := 3
    states := [[1, 2]]
    species := ((∅ : Std.ExtTreeMap Nat String).insert 1 "INFECT").insert 2 "MOVE" }

/-- The description of the duel is that of a Darwin world. -/
theorem exists_duel : ∃ s r, Simulation.ofConfiguration duel = .ok s ∧ s.rules = .darwin r := by
  have hkind : (Simulation.ofConfiguration duel).toOption.map (fun s => s.rules.kind) =
      some .darwin := by decide +kernel
  obtain ⟨s, hs, hdarwin⟩ := exists_of_map_toOption hkind
  cases hr : s.rules with
  | darwin r => exact ⟨s, r, hs, hr⟩
  | _ => simp [hr, Ruleset.kind] at hdarwin

/-- The individuals of the duel are sound after its first tick, in which one is converted. -/
theorem duel_individuals_sound :
    ∃ (s : Simulation KeyStream) (r : Rules),
      Simulation.Reachable duel (s.after 1) ∧ (s.after 1).rules = .darwin r ∧
      ∀ l cell, (s.after 1).grid.cellAt l = some cell → cell.state ≠ emptyState →
        ∃ i, cell.attributes = .individual i ∧ r.species[cell.state]? = some i.program := by
  obtain ⟨s, r, hs, hr⟩ := exists_duel
  have hreach : Simulation.Reachable duel (s.after 1) :=
    (Simulation.Reachable.start hs s.source).after 1
  refine ⟨s, r, hreach, hr, ?_⟩
  intro l cell hcell hstate
  obtain ⟨i, hattr, -, htemplate, -⟩ := ((individuals_sound hreach hr).2 l cell hcell).2 hstate
  exact ⟨i, hattr, htemplate⟩

end CellularAutomata.Darwin
