import CellularAutomata.Proofs.Darwin.Individuals
import CellularAutomata.Proofs.Darwin.Soundness

/-!
# The course of an infection

An infected individual is guarded: nobody can convert it, wherever it is, until a turn in
which its infection wears off. In each tick before that it has one turn with the program
it was given and its infection gets shorter by one; then it starts anew as what it was.
-/

namespace CellularAutomata.Darwin

/-- Whether an individual of some species could convert the one at a position. -/
def Convertible (g : Grid) (d : Decisions) (l : Location) : Prop :=
  ∃ species v, victim? g d species l = some v

/-- Why nobody can be converted at a position: it has been left, somebody has come to it or
has been converted there, or the individual there is infected. -/
def Guarded (g : Grid) (d : Decisions) (l : Location) : Prop :=
  d.isVacated l = true ∨ (∃ k, d.claim? l = some k ∧ k.kind ≠ .stayed) ∨
    ∃ c i, d.current g l = some c ∧ c.isEmpty = false ∧ c.individual? = some i ∧
      i.isInfected = true

/-- Nobody is converted at a guarded position. -/
theorem Guarded.not_convertible {g : Grid} {d : Decisions} {l : Location} (h : Guarded g d l) :
    ¬ Convertible g d l := by
  rintro ⟨species, v, hv⟩
  obtain ⟨⟨hvac, hstayed⟩, hcur, -, -, hhealthy⟩ := victim?_eq_some_iff.mp hv
  rcases h with hleft | ⟨k, hk, hkind⟩ | ⟨c, i, hc, -, hi, hinfected⟩
  · rw [hvac] at hleft
    cases hleft
  · exact hkind (hstayed k hk)
  · obtain rfl := Option.some.inj (hcur.symm.trans hc)
    rw [hhealthy i hi] at hinfected
    cases hinfected

/-- Nobody is converted where nobody was before the tick. -/
theorem Orderly.not_convertible {g : Grid} {waiting : List Cell} {d : Decisions} {l : Location}
    (hwf : g.WellFormed) (h : Orderly g waiting d) (hl : l ∉ g.occupied) :
    ¬ Convertible g d l := by
  rintro ⟨species, v, hv⟩
  exact hl (h.victim? hwf hv).2.1

variable {ρ : Type} [WordSource ρ] {w : World} {rest : List Cell}

/-- Nobody else's turn takes the guard from an infected individual that has no claim yet, and
neither does a turn of its own after which it is infected. -/
theorem Guarded.turn_of_unclaimed {s : Stage ρ} {c c' : Cell} {i : Individual} {l : Location}
    (hwf : w.grid.WellFormed) (h : Orderly w.grid (c :: rest) s.decisions)
    (hturn : hasTurn s c = true) (hguard : Guarded w.grid s.decisions l)
    (hk : s.decisions.claim? l = none) (hc' : w.grid.cellAt l = some c')
    (hne : c'.isEmpty = false) (hi : c'.individual? = some i) (hinfected : i.isInfected = true)
    (hself : c.location = l → ((Turn.mk c s).result w).isEmpty = false ∧
      ((Turn.mk c s).ended w).individual.isInfected = true) :
    Guarded w.grid (takeTurn w s c).decisions l := by
  by_cases hend : ((Turn.mk c s).ended w).location = l
  · -- the turn can only have ended here if it began here
    have hclaim : (takeTurn w s c).decisions.claim? l = some ((Turn.mk c s).claim w) := by
      rw [claim?_takeTurn hturn, if_pos hend]
    have hown : c.location = l := by
      rcases (Turn.mk c s).ended_location_cases (w := w) with hstay | ⟨_, _, hfree, _⟩
      · exact hstay.symm.trans hend
      · rw [hend] at hfree
        exact absurd ⟨c', hc', hne⟩ hfree
    refine Or.inr (Or.inr ⟨(Turn.mk c s).result w, _, ?_, (hself hown).1, rfl, (hself hown).2⟩)
    rw [Decisions.current, hclaim]
    rfl
  · have hvictim : ∀ v, (Turn.mk c s).victim? w = some v → v.location ≠ l := by
      rintro v hv rfl
      exact hguard.not_convertible ⟨_, v, h.victim?_turn (t := Turn.mk c s) hwf hv⟩
    have hclaim := claim?_takeTurn_eq_none hturn hend hvictim hk
    refine Or.inr (Or.inr ⟨c', i, ?_, hne, hi, hinfected⟩)
    rw [Decisions.current, hclaim]
    exact hc'

/-- Nobody else's turn takes the guard from a position, and neither does a turn of the
individual there after which it is infected. -/
theorem Guarded.turn {s : Stage ρ} {c : Cell} {l : Location} (hwf : w.grid.WellFormed)
    (h : Orderly w.grid (c :: rest) s.decisions) (hturn : hasTurn s c = true)
    (hguard : Guarded w.grid s.decisions l)
    (hself : c.location = l → ((Turn.mk c s).result w).isEmpty = false ∧
      ((Turn.mk c s).ended w).individual.isInfected = true) :
    Guarded w.grid (takeTurn w s c).decisions l := by
  have hguarded := hguard
  rcases hguard with hleft | hguard
  · left
    rw [isVacated_takeTurn hturn, hleft, Bool.or_true]
  cases hk : s.decisions.claim? l with
  | some k =>
    -- a claim lasts, unless its cell is converted, which guards the position as well
    rcases h.claim?_turn hwf hturn hk with hkept | ⟨-, -, hconv⟩
    · right
      rw [Decisions.current, hkept]
      rw [Decisions.current, hk] at hguard
      exact hguard
    · exact Or.inr (Or.inl ⟨_, hconv, by simp⟩)
  | none =>
    rw [Decisions.current, hk] at hguard
    rcases hguard with ⟨k, hk', -⟩ | ⟨c', i, hcur, hne, hi, hinfected⟩
    · cases hk'
    · exact hguarded.turn_of_unclaimed hwf h hturn hk hcur hne hi hinfected hself

/-- The guard of a position lasts while some cells are called, if it lasts through the turns
of the individual there. -/
theorem Guarded.stageAfter {cells waiting : List Cell} {s : Stage ρ} {l : Location}
    (hwf : w.grid.WellFormed) (h : Orderly w.grid (cells ++ waiting) s.decisions)
    (hguard : Guarded w.grid s.decisions l)
    (hself : ∀ t ∈ turnsFrom w cells s, t.cell.location = l →
      (t.result w).isEmpty = false ∧ (t.ended w).individual.isInfected = true) :
    Guarded w.grid (stageAfter w cells s).decisions l ∧
      ∀ t ∈ turnsFrom w cells s, Guarded w.grid t.stage.decisions l := by
  induction cells generalizing s with
  | nil => exact ⟨hguard, by simp [turnsFrom]⟩
  | cons c cells ih =>
    rw [turnsFrom] at hself ⊢
    by_cases hturn : hasTurn s c = true
    · rw [if_pos hturn] at hself ⊢
      have hown := hself ⟨c, s⟩ (List.mem_cons_self ..)
      obtain ⟨hend, hturns⟩ := ih (h.turn hwf hturn) (hguard.turn hwf h hturn hown)
        (fun t ht => hself t (List.mem_cons_of_mem _ ht))
      refine ⟨hend, ?_⟩
      intro t ht
      rcases List.mem_cons.mp ht with rfl | hlater
      · exact hguard
      · exact hturns t hlater
    · rw [if_neg hturn] at hself ⊢
      rw [takeTurn_of_not_hasTurn hturn] at hself ⊢
      rw [Darwin.stageAfter, List.foldl_cons, takeTurn_of_not_hasTurn hturn]
      exact ih h.skip hguard hself

omit [WordSource ρ] in
/-- An infection that has not run out goes on in the turn of its individual. -/
theorem Turn.ready_of_infected (w : World) {t : Turn ρ} {i : Individual} {x : Infection}
    (hi : t.cell.individual? = some i) (hx : i.infection = some x) (hcount : x.countdown ≠ 0) :
    t.ready w = ⟨t.cell.state, t.cell.location,
      { i with infection := some ⟨x.countdown - 1, x.previousSpecies⟩ }, none⟩ := by
  have hind : (actorOf w t.cell).individual = i := by
    rw [actorOf, hi]
    rfl
  rw [Turn.ready, advanceInfection, hind, hx]
  dsimp only
  rw [if_neg hcount]
  rfl

omit [WordSource ρ] in
/-- When its infection has run out an individual starts anew as what it was. -/
theorem Turn.ready_of_expired (w : World) {t : Turn ρ} {i : Individual} {x : Infection}
    (hi : t.cell.individual? = some i) (hx : i.infection = some x) (hcount : x.countdown = 0) :
    t.ready w = ⟨x.previousSpecies, t.cell.location,
      fresh w.species x.previousSpecies i.orientation, none⟩ := by
  have hind : (actorOf w t.cell).individual = i := by
    rw [actorOf, hi]
    rfl
  rw [Turn.ready, advanceInfection, hind, hx]
  dsimp only
  rw [if_pos hcount]
  rfl

omit [WordSource ρ] in
/-- Nobody converts an infected individual. -/
theorem Turn.not_infected_of_victim? {t : Turn ρ} {v : Cell} {i : Individual}
    (hv : t.victim? w = some v) (hi : v.individual? = some i) : i.infection = none := by
  obtain ⟨l, hl⟩ := exists_victim?_of_target? hv
  simpa [Individual.isInfected] using (victim?_eq_some_iff.mp hl).2.2.2.2 i hi

/-- The cell of an infected individual on a grid. -/
structure Infected (g : Grid) (c : Cell) (i : Individual) (x : Infection) : Prop where
  /-- The cell is on the grid. -/
  cellAt : g.cellAt c.location = some c
  /-- Somebody is there. -/
  occupied : c.isEmpty = false
  /-- It carries the individual. -/
  individual : c.individual? = some i
  /-- The individual is infected. -/
  infection : i.infection = some x

variable {c : Cell} {i : Individual} {x : Infection}

omit [WordSource ρ] in
/-- Infected individuals are guarded when a tick begins. -/
theorem Infected.guarded_opening {g : Grid} (h : Infected g c i x) (source : ρ) :
    Guarded g (opening source).decisions c.location := by
  refine Or.inr (Or.inr ⟨c, i, ?_, h.occupied, h.individual, ?_⟩)
  · simp [opening, Decisions.current, h.cellAt]
  · simp [Individual.isInfected, h.infection]

/-- An infected individual has one turn in a tick. -/
theorem Infected.exists_turn (hwf : w.grid.WellFormed) (h : Infected w.grid c i x) (source : ρ) :
    ∃ t ∈ turns w source, t.cell = c ∧ turnsOf w source c.location = [t] := by
  rcases turnsOf_cases hwf h.cellAt h.occupied source with hone | ⟨-, t, -, -, hv⟩
  · exact hone
  · have hhealthy := Turn.not_infected_of_victim? hv h.individual
    rw [h.infection] at hhealthy
    cases hhealthy

/-- A turn at a time at which the infection has not run out leaves the individual infected. -/
theorem Infected.ended {t : Turn ρ} (h : Infected w.grid t.cell i x) (hcount : x.countdown ≠ 0) :
    (t.ended w).species = t.cell.state ∧ (t.ended w).individual.infection =
      some ⟨x.countdown - 1, x.previousSpecies⟩ := by
  obtain ⟨hspecies, hinfection, -, -⟩ := t.ended_frame w
  rw [hspecies, hinfection, t.ready_of_infected w h.individual h.infection hcount]
  exact ⟨rfl, rfl⟩

/-- An individual whose infection has not run out is guarded in all turns of a tick. -/
theorem Infected.guarded (hwf : w.grid.WellFormed) (h : Infected w.grid c i x)
    (hcount : x.countdown ≠ 0) {source : ρ} {u : Turn ρ} (hu : u ∈ turns w source) :
    Guarded w.grid u.stage.decisions c.location := by
  have hstart := Orderly.opening (List.append_nil w.grid.cellList).symm source
  refine ((h.guarded_opening source).stageAfter hwf hstart ?_).2 u hu
  intro t ht hl
  have hcell := cellAt_of_mem_turns hwf ht
  rw [hl, h.cellAt] at hcell
  obtain rfl := Option.some.inj hcell
  obtain ⟨hspecies, hinfection⟩ := h.ended hcount
  refine ⟨?_, by rw [Individual.isInfected, hinfection]; rfl⟩
  change ((t.ended w).species == emptyState) = false
  rw [hspecies]
  exact h.occupied

/-- An infected individual is guarded before it is called. -/
theorem Infected.guarded_before (hwf : w.grid.WellFormed) (h : Infected w.grid c i x)
    {before later : List Cell} (hcells : w.grid.cellList = before ++ c :: later) (source : ρ) :
    Guarded w.grid (stageAfter w before (opening source)).decisions c.location ∧
      ∀ u ∈ turnsFrom w before (opening source), Guarded w.grid u.stage.decisions c.location := by
  have hstart := Orderly.opening hcells source
  refine (h.guarded_opening source).stageAfter hwf hstart ?_
  intro t ht hl
  have hnodup := hwf.nodup_locations
  rw [hcells, List.map_append, List.map_cons, List.nodup_middle, List.nodup_cons,
    List.mem_append, not_or] at hnodup
  exact absurd (hl ▸ List.mem_map_of_mem (cell_mem_of_mem_turnsFrom ht)) hnodup.1.1

/-- What is known of a turn in which an infection goes on: nobody converts the individual,
neither where it was nor where it has gone, and so it is found there after the tick. -/
theorem Infected.turn {r : Rules} {g : Grid} {t : Turn ρ} {source : ρ} (hwf : g.WellFormed)
    (h : Infected g t.cell i x) (hcount : x.countdown ≠ 0)
    (ht : t ∈ turns (r.world g) source) :
    (∀ u ∈ turns (r.world g) source, ¬ Convertible g u.stage.decisions t.cell.location ∧
        ¬ Convertible g u.stage.decisions (t.ended (r.world g)).location) ∧
      (g.apply (r.tick g source).updates).cellAt (t.ended (r.world g)).location =
        some (t.result (r.world g)) := by
  obtain ⟨hspecies, hinfection⟩ := h.ended (w := r.world g) hcount
  constructor
  · intro u hu
    have hguard := (h.guarded (w := r.world g) hwf hcount hu).not_convertible
    refine ⟨hguard, ?_⟩
    rcases t.ended_location_cases (w := r.world g) with hstay | ⟨_, _, hfree, _⟩
    · rw [hstay]
      exact hguard
    · obtain ⟨-, rest, horder⟩ := Orderly.of_mem_turns (w := r.world g) hwf hu
      exact horder.not_convertible hwf hfree
  · rcases cellAt_tick_of_turn hwf ht with hkept | ⟨u, -, hv, -⟩
    · exact hkept
    · have hhealthy := Turn.not_infected_of_victim? hv rfl
      change (t.ended (r.world g)).individual.infection = none at hhealthy
      rw [hinfection] at hhealthy
      cases hhealthy

/-- Whoever has not moved in its turn, and is not infected after it, can be converted by
another species at once. -/
theorem Orderly.victim?_of_stayed {t : Turn ρ} (h : Orderly w.grid (t.cell :: rest)
      t.stage.decisions) (hturn : hasTurn t.stage t.cell = true)
    (hstay : (t.ended w).location = t.cell.location) (hne : (t.result w).isEmpty = false)
    {species : Nat} (hspecies : (t.result w).state ≠ species)
    (hhealthy : (t.ended w).individual.infection = none) :
    Darwin.victim? w.grid (Darwin.takeTurn w t.stage t.cell).decisions species t.cell.location =
      some (t.result w) := by
  have hclaim : (Darwin.takeTurn w t.stage t.cell).decisions.claim? t.cell.location =
      some (t.claim w) := by
    rw [claim?_takeTurn hturn, if_pos hstay]
  rw [victim?_eq_some_iff, Decisions.current, hclaim, isVacated_takeTurn hturn]
  refine ⟨⟨?_, ?_⟩, rfl, hne, hspecies, ?_⟩
  · rw [(h.waits (List.mem_cons_self ..)).1]
    simp [hstay]
  · intro k hk
    obtain rfl := Option.some.inj hk
    simp [Turn.claim, hstay]
  · intro i hi
    obtain rfl : (t.ended w).advanced = i := Option.some.inj hi
    change (t.ended w).individual.infection.isSome = false
    rw [hhealthy]
    rfl

/-- What a tick is to an infected individual that goes from one location to another in it. -/
structure InfectedTurn (r : Rules) (s : Simulation ρ) (l l' : Location) (species : Nat)
    (x : Infection) (t : Turn ρ) : Prop where
  /-- It has this turn and no other. -/
  only : turnsOf (r.world s.grid) s.source l = [t]
  /-- It acts as an individual of the species that it has been given. -/
  acts : (t.ready (r.world s.grid)).species = species
  /-- An instruction of the template of that species is carried out. -/
  instruction : ∃ p i, r.species[species]? = some p ∧
    p.instructions[(t.ready (r.world s.grid)).individual.programCounter]? = some i ∧
    t.instruction? (r.world s.grid) = some i
  /-- It ends its turn at the second location. -/
  ends : (t.ended (r.world s.grid)).location = l'
  /-- Nobody can convert it in any turn of the tick, be it before or after its own. -/
  guarded : ∀ u ∈ turns (r.world s.grid) s.source,
    ¬ Convertible s.grid u.stage.decisions l ∧ ¬ Convertible s.grid u.stage.decisions l'
  /-- After the tick it has the same species and is infected as given. -/
  infected : ∃ i, s.step.simulation.grid.cellAt l' = some (.ofIndividual species l' i) ∧
    i.infection = some x

/-- What a tick is to an individual at a location whose infection wears off in it. -/
structure RevertedTurn (r : Rules) (s : Simulation ρ) (l : Location) (species : Nat)
    (t : Turn ρ) : Prop where
  /-- It has this turn and no other. -/
  only : turnsOf (r.world s.grid) s.source l = [t]
  /-- It acts as an individual of its earlier species. -/
  acts : (t.ready (r.world s.grid)).species = species
  /-- It is not infected. -/
  healthy : (t.ready (r.world s.grid)).individual.infection = none
  /-- It has the orientation that it had before the tick. -/
  orientation : ∃ i, t.cell.individual? = some i ∧
    (t.ready (r.world s.grid)).individual.orientation = i.orientation
  /-- The first instruction of the template of its species is carried out, if there is one. -/
  instruction : ∃ p, r.species[species]? = some p ∧
    t.instruction? (r.world s.grid) = p.instructions[0]?
  /-- Nobody can convert it before its turn has ended. -/
  guarded : ∃ before later, turns (r.world s.grid) s.source = before ++ t :: later ∧
    ∀ u ∈ before ++ [t], ¬ Convertible s.grid u.stage.decisions l
  /-- Any other species can convert it right after its turn, if it has not moved. -/
  convertible : (t.ended (r.world s.grid)).location = l → ∀ other, other ≠ species →
    victim? s.grid (takeTurn (r.world s.grid) t.stage t.cell).decisions other l =
      some (t.result (r.world s.grid))

variable {r : Rules} {configuration : Configuration} {s : Simulation ρ}

/-- The cell of an infected individual in a reachable world. -/
theorem infected_of_reachable (hs : Simulation.Reachable configuration s)
    (hr : s.rules = .darwin r) {species : Nat} {l : Location}
    (hcell : s.grid.cellAt l = some (.ofIndividual species l i)) (hx : i.infection = some x) :
    Infected s.grid (.ofIndividual species l i) i x ∧ Sound r species i := by
  have hsound := (sound_of_reachable hs hr).sound hcell rfl
  refine ⟨⟨hcell, ?_, rfl, hx⟩, hsound⟩
  exact Settled.isEmpty ⟨i, rfl, hsound⟩ (species_of_reachable hs hr).2

/-- An infection that has not run out goes on in a tick. -/
theorem exists_infectedTurn (hs : Simulation.Reachable configuration s)
    (hr : s.rules = .darwin r) {species : Nat} {l : Location} {p : Program}
    (hcell : s.grid.cellAt l = some (.ofIndividual species l i)) (hx : i.infection = some x)
    (hcount : x.countdown ≠ 0) (hp : r.species[species]? = some p) (hlength : p.length ≠ 0) :
    ∃ t, InfectedTurn r s l (endPlace (r.world s.grid) (turns (r.world s.grid) s.source) l)
        species ⟨x.countdown - 1, x.previousSpecies⟩ t ∧
      (t.ready (r.world s.grid)).individual.programCounter = i.programCounter := by
  have hwf := hs.wellFormed
  obtain ⟨hinf, hsound⟩ := infected_of_reachable hs hr hcell hx
  obtain ⟨t, ht, hown, honly⟩ := hinf.exists_turn (w := r.world s.grid) hwf s.source
  rw [← hown] at hinf
  have hready := t.ready_of_infected (r.world s.grid) hinf.individual hx hcount
  obtain ⟨hspecies, hinfection⟩ := hinf.ended (w := r.world s.grid) hcount
  obtain ⟨hguarded, hkept⟩ := hinf.turn (r := r) hwf hcount ht
  rw [hown] at hready hspecies hguarded
  obtain rfl : i.program = p := Option.some.inj (hsound.template.symm.trans hp)
  have hline : i.programCounter < i.program.instructions.length := by
    rcases hsound.line with hbelow | ⟨hempty, -⟩
    · exact hbelow
    · exact absurd hempty hlength
  have hcounter : (t.ready (r.world s.grid)).individual.programCounter = i.programCounter := by
    rw [hready]
  have hends := endPlace_of_turnsOf honly
  change endPlace (r.world s.grid) (turns (r.world s.grid) s.source) l = _ at hends
  rw [hends]
  refine ⟨t, ⟨honly, ?_, ?_, rfl, hguarded, ?_⟩, hcounter⟩
  · rw [hready]
    rfl
  · refine ⟨i.program, i.program.instructions[i.programCounter], hp, ?_, ?_⟩
    · rw [hcounter]
      exact List.getElem?_eq_getElem hline
    · rw [Turn.instruction?, hready]
      exact List.getElem?_eq_getElem hline
  · rw [grid_step hr, hkept, Turn.result, hspecies]
    exact ⟨_, rfl, hinfection⟩

/-- An infection that has run out wears off in a tick. -/
theorem exists_revertedTurn (hs : Simulation.Reachable configuration s)
    (hr : s.rules = .darwin r) {species : Nat} {l : Location}
    (hcell : s.grid.cellAt l = some (.ofIndividual species l i)) (hx : i.infection = some x)
    (hcount : x.countdown = 0) : ∃ t, RevertedTurn r s l x.previousSpecies t := by
  have hwf := hs.wellFormed
  obtain ⟨hinf, hsound⟩ := infected_of_reachable hs hr hcell hx
  obtain ⟨t, ht, hown, honly⟩ := hinf.exists_turn (w := r.world s.grid) hwf s.source
  obtain ⟨before, later, hcells, hstage, hturn, hturns, -⟩ := exists_split_of_mem_turnsFrom ht
  have hready := t.ready_of_expired (r.world s.grid) (x := x) (by rw [hown]; rfl) hx hcount
  have hfresh := sound_fresh (hsound.infection x hx).2.1 i.orientation
  have hguards := hinf.guarded_before (w := r.world s.grid) hwf (hown ▸ hcells) s.source
  refine ⟨t, honly, ?_, ?_, ?_, ?_, ?_, ?_⟩
  · rw [hready]
  · rw [hready]
    rfl
  · refine ⟨i, by rw [hown]; rfl, ?_⟩
    rw [hready]
    exact Int.emod_eq_of_lt hsound.orientation.1 hsound.orientation.2
  · refine ⟨_, hfresh.template, ?_⟩
    rw [Turn.instruction?, hready]
    rfl
  · refine ⟨_, _, hturns, ?_⟩
    intro u hu
    rcases List.mem_append.mp hu with hbefore | hself
    · exact (hguards.2 u hbefore).not_convertible
    · rw [List.mem_singleton.mp hself, hstage]
      exact hguards.1.not_convertible
  · intro hstay other hother
    have horder := Orderly.opened hwf hcells s.source
    rw [← hstage] at horder
    obtain ⟨hspecies, hinfection, -, -⟩ := t.ended_frame (r.world s.grid)
    rw [hready] at hspecies hinfection
    have hl : t.cell.location = l := by rw [hown]; rfl
    rw [← hl] at hstay ⊢
    refine horder.victim?_of_stayed hturn hstay ?_ ?_ hinfection
    · change ((t.ended (r.world s.grid)).species == emptyState) = false
      rw [hspecies, beq_eq_false_iff_ne]
      rintro heq
      exact (species_of_reachable hs hr).2 (heq ▸ hfresh.known)
    · change (t.ended (r.world s.grid)).species ≠ other
      rw [hspecies]
      exact hother.symm

/-- Where the individual at a location is after some ticks. -/
def trail (r : Rules) (s : Simulation ρ) (l : Location) : Nat → Location
  | 0 => l
  | k + 1 => endPlace (r.world (s.after k).grid)
      (turns (r.world (s.after k).grid) (s.after k).source) (trail r s l k)

/-- A conversion leaves the victim where it was, infected and at the first line of the
template of the species that has converted it. -/
theorem exists_infected_of_victim? (hs : Simulation.Reachable configuration s)
    (hr : s.rules = .darwin r) {t : Turn ρ} {v : Cell}
    (ht : t ∈ turns (r.world s.grid) s.source) (hv : t.victim? (r.world s.grid) = some v) :
    trail r s v.location 1 = v.location ∧
      ∃ i, s.step.simulation.grid.cellAt v.location =
          some (.ofIndividual (t.ready (r.world s.grid)).species v.location i) ∧
        i.infection = some ⟨r.settings.infectionTime, v.state⟩ ∧ i.programCounter = 0 := by
  have hwf := hs.wellFormed
  constructor
  · obtain ⟨-, rest, horder⟩ := Orderly.of_mem_turns (w := r.world s.grid) hwf ht
    have hocc := (horder.victim? hwf (horder.victim?_turn (t := t) hwf hv)).2.1
    change endPlace (r.world s.grid) (turns (r.world s.grid) s.source) v.location = v.location
    refine endPlace_of_claimed (w := r.world s.grid) hwf hocc ?_
    rw [claim?_takeTurns_of_victim hwf ht hv]
    exact Option.some_ne_none _
  · rw [grid_step hr, cellAt_tick_of_victim hwf ht hv]
    exact ⟨_, rfl, rfl, rfl⟩

/-- Who converts somebody runs a template with instructions. -/
theorem exists_template_of_victim? (hs : Simulation.Reachable configuration s)
    (hr : s.rules = .darwin r) {t : Turn ρ} {v : Cell}
    (ht : t ∈ turns (r.world s.grid) s.source) (hv : t.victim? (r.world s.grid) = some v) :
    ∃ p, r.species[(t.ready (r.world s.grid)).species]? = some p ∧ p.length ≠ 0 := by
  have hsettled : Settled r t.cell := settled_of_mem_turns hs hr ht
  refine ⟨_, (Turn.soundActor_ready (g := s.grid) hsettled).individual.template, ?_⟩
  intro hempty
  rw [Turn.victim?, target?, List.getElem?_eq_none] at hv
  · cases hv
  · have hnil : (t.ready (r.world s.grid)).individual.program.instructions.length = 0 := hempty
    omega

/-- The infection of somebody who has been converted gets shorter by one in each tick, and
goes with the individual wherever it moves. -/
theorem infected_along (hs : Simulation.Reachable configuration s) (hr : s.rules = .darwin r)
    {t : Turn ρ} {v : Cell} (ht : t ∈ turns (r.world s.grid) s.source)
    (hv : t.victim? (r.world s.grid) = some v) {k : Nat} (hk : k ≤ r.settings.infectionTime) :
    ∃ i, (s.after (k + 1)).grid.cellAt (trail r s v.location (k + 1)) =
        some (.ofIndividual (t.ready (r.world s.grid)).species (trail r s v.location (k + 1)) i) ∧
      i.infection = some ⟨r.settings.infectionTime - k, v.state⟩ ∧
      (k = 0 → i.programCounter = 0) := by
  induction k with
  | zero =>
    obtain ⟨htrail, i, hcell, hx, hline⟩ := exists_infected_of_victim? hs hr ht hv
    rw [Nat.zero_add, htrail]
    exact ⟨i, hcell, hx, fun _ => hline⟩
  | succ k ih =>
    obtain ⟨i, hcell, hx, -⟩ := ih (by omega)
    obtain ⟨p, hp, hlength⟩ := exists_template_of_victim? hs hr ht hv
    have hrules := (s.rules_after (k + 1)).trans hr
    have hcount : r.settings.infectionTime - k ≠ 0 := by omega
    obtain ⟨u, hu, -⟩ := exists_infectedTurn (hs.after (k + 1)) hrules hcell hx hcount hp hlength
    obtain ⟨i', hcell', hx'⟩ := hu.infected
    exact ⟨i', hcell', hx', by omega⟩

/-- An individual of species `v.state` that is converted has no more turns in that tick.
In each of the next ticks, as many as an infection lasts, it has one turn as an individual of
the other species, starting with the first instruction, and nobody can convert it wherever
it goes; in the tick after these it has one turn as what it was, and starts anew. -/
theorem infection_lifetime (hs : Simulation.Reachable configuration s) (hr : s.rules = .darwin r)
    {t : Turn ρ} {v : Cell} (ht : t ∈ turns (r.world s.grid) s.source)
    (hv : t.victim? (r.world s.grid) = some v) :
    (∃ before later, turns (r.world s.grid) s.source = before ++ t :: later ∧
      ∀ u ∈ later, u.cell.location ≠ v.location) ∧
    (trail r s v.location 1 = v.location ∧
      ∃ i, s.step.simulation.grid.cellAt v.location =
          some (.ofIndividual (t.ready (r.world s.grid)).species v.location i) ∧
        i.infection = some ⟨r.settings.infectionTime, v.state⟩) ∧
    (∀ k, 1 ≤ k → k ≤ r.settings.infectionTime →
      ∃ u, InfectedTurn r (s.after k) (trail r s v.location k) (trail r s v.location (k + 1))
          (t.ready (r.world s.grid)).species ⟨r.settings.infectionTime - k, v.state⟩ u ∧
        (k = 1 → (u.ready (r.world (s.after k).grid)).individual.programCounter = 0)) ∧
    ∃ u, RevertedTurn r (s.after (r.settings.infectionTime + 1))
      (trail r s v.location (r.settings.infectionTime + 1)) v.state u := by
  refine ⟨?_, ?_, ?_, ?_⟩
  · obtain ⟨before, later, hturns, hturn, horder, -⟩ :=
      exists_later_of_mem_turns (w := r.world s.grid) hs.wellFormed ht
    have hclaim := horder.claim?_of_victim? hs.wellFormed hturn hv
    refine ⟨_, _, hturns, ?_⟩
    intro u hu
    exact location_ne_of_claimed (Option.isSome_iff_exists.mpr ⟨_, hclaim⟩) hu
  · obtain ⟨htrail, i, hcell, hx, -⟩ := exists_infected_of_victim? hs hr ht hv
    exact ⟨htrail, i, hcell, hx⟩
  · intro k hpos hk
    obtain ⟨j, rfl⟩ : ∃ j, k = j + 1 := ⟨k - 1, by omega⟩
    obtain ⟨i, hcell, hx, hfirst⟩ := infected_along hs hr ht hv (k := j) (by omega)
    obtain ⟨p, hp, hlength⟩ := exists_template_of_victim? hs hr ht hv
    have hcount : r.settings.infectionTime - j ≠ 0 := by omega
    obtain ⟨u, hu, hline⟩ := exists_infectedTurn (hs.after (j + 1))
      ((s.rules_after (j + 1)).trans hr) hcell hx hcount hp hlength
    refine ⟨u, hu, ?_⟩
    intro hj
    rw [hline]
    exact hfirst (by omega)
  · obtain ⟨i, hcell, hx, -⟩ := infected_along hs hr ht hv (Nat.le_refl _)
    exact exists_revertedTurn (hs.after _) ((s.rules_after _).trans hr) hcell hx (Nat.sub_self _)

/-- Whether somebody is converted in the next tick of a Darwin world. -/
def converts (s : Simulation ρ) : Bool :=
  match s.rules with
  | .darwin r =>
    (turns (r.world s.grid) s.source).any fun t => (t.victim? (r.world s.grid)).isSome
  | _ => false

/-- Somebody is converted in the first tick of the duel. -/
theorem exists_converted_in_duel :
    ∃ (s : Simulation KeyStream) (r : Rules) (t : Turn KeyStream) (v : Cell),
      Simulation.ofConfiguration duel = .ok s ∧ s.rules = .darwin r ∧
      t ∈ turns (r.world s.grid) s.source ∧ t.victim? (r.world s.grid) = some v := by
  obtain ⟨s, r, hs, hr⟩ := exists_duel
  have hany : (Simulation.ofConfiguration duel).toOption.map converts = some true := by
    decide +kernel
  rw [hs] at hany
  have hconverts : converts s = true := Option.some.inj hany
  rw [converts, hr] at hconverts
  obtain ⟨t, ht, hsome⟩ := List.any_eq_true.mp hconverts
  obtain ⟨v, hv⟩ := Option.isSome_iff_exists.mp hsome
  exact ⟨s, r, t, v, hs, hr, ht, hv⟩

/-- The individual that is converted in the first tick of the duel has its last turn for its
infector at the end of the infection, and is itself again in the tick after that. -/
theorem duel_infection_lifetime :
    ∃ (s : Simulation KeyStream) (r : Rules) (t : Turn KeyStream) (v : Cell),
      Simulation.Reachable duel s ∧ s.rules = .darwin r ∧
      t ∈ turns (r.world s.grid) s.source ∧ t.victim? (r.world s.grid) = some v ∧
      ∃ u, RevertedTurn r (s.after (r.settings.infectionTime + 1))
        (trail r s v.location (r.settings.infectionTime + 1)) v.state u := by
  obtain ⟨s, r, t, v, hs, hr, ht, hv⟩ := exists_converted_in_duel
  have hreach : Simulation.Reachable duel s := Simulation.Reachable.start hs s.source
  exact ⟨s, r, t, v, hreach, hr, ht, hv, (infection_lifetime hreach hr ht hv).2.2.2⟩

end CellularAutomata.Darwin
