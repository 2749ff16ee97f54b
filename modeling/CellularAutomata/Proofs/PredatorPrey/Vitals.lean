import CellularAutomata.Proofs.Parameters.Effective
import CellularAutomata.Proofs.PredatorPrey.Accounting
import CellularAutomata.Proofs.Run.Completion

/-!
# Energy and age of predators and prey

What the counters of creatures can be after some ticks. Water carries none, fish have no
energy, a shark has some but no more than one meal in each tick has given it, and nobody's
breeding counter is ahead of the ticks. So the counters stay within 32 bits for far longer
than any run.
-/

namespace CellularAutomata.PredatorPrey

variable {ρ : Type} {r : Rules} {g : Grid} {c : Cell} {a : Act} {ticks : Nat} {state : Nat}
  {k : Creature}

/-- Counters that a creature can have after some ticks. -/
structure Rules.Vital (r : Rules) (ticks : Nat) (state : Nat) (k : Creature) : Prop where
  /-- The breeding counter is not ahead of the ticks. -/
  timer : k.breedTimer ≤ ticks
  /-- Fish have no energy. -/
  fish : state = fish → k.energy = 0
  /-- Sharks have energy, but not more than they start with and one meal in each tick gives. -/
  shark : state = shark →
    1 ≤ k.energy ∧ k.energy ≤ r.sharkStartEnergy + ticks * r.energyFromFish

/-- Cells that there can be after some ticks. -/
inductive Rules.Inhabits (r : Rules) (ticks : Nat) : Cell → Prop
  /-- Water, which carries nothing. -/
  | water (l : Location) : r.Inhabits ticks (.empty l)
  /-- A shark or a fish with its counters. -/
  | creature {state : Nat} (hkind : state = PredatorPrey.shark ∨ state = PredatorPrey.fish)
      (l : Location) {k : Creature} (hk : r.Vital ticks state k) :
      r.Inhabits ticks (.ofCreature state l k)

/-- A newborn has the counters of one. -/
theorem Rules.Ranged.newborn (h : r.Ranged) (ticks state : Nat) :
    r.Vital ticks state (r.newborn state) where
  timer := Nat.zero_le ticks
  fish hfish := by
    rw [Rules.newborn, hfish]
    rfl
  shark hshark := by
    have hgain : 0 ≤ ticks * r.energyFromFish := Int.mul_nonneg (by omega) h.energyFromFish.1
    have hstart := h.sharkStartEnergy.1
    rw [Rules.newborn, if_pos hshark]
    exact ⟨hstart, Int.le_add_of_nonneg_right hgain⟩

/-- The energy that meals can have given a shark grows with every tick by one meal. -/
theorem Rules.meals_succ (r : Rules) (ticks : Nat) :
    ((ticks + 1 : Nat) : Int) * r.energyFromFish =
      ticks * r.energyFromFish + r.energyFromFish := by
  rw [Nat.cast_succ, Int.add_mul, Int.one_mul]

/-- In a turn a shark gains at most the energy of one meal. -/
theorem Rules.Ranged.energy_grown_le (h : r.Ranged) (hshark : state = shark)
    (prey : Option Location) (k : Creature) :
    (r.grown state prey k).energy ≤ k.energy + r.energyFromFish := by
  have hgain := h.energyFromFish.1
  rw [Rules.grown, if_pos hshark]
  dsimp only
  split <;> omega

/-- A turn that a creature survives makes counters of one tick later. -/
theorem Rules.Ranged.grown (h : r.Ranged) (hk : r.Vital ticks state k) (prey : Option Location)
    (halive : ¬ (state = shark ∧ (r.grown state prey k).energy ≤ 0)) :
    r.Vital (ticks + 1) state (r.grown state prey k) where
  timer := by
    rw [grown_breedTimer]
    exact Nat.succ_le_succ hk.timer
  fish hfish := by
    have hshark : ¬ state = shark := by
      rw [hfish]
      decide
    rw [Rules.grown, if_neg hshark]
    exact hk.fish hfish
  shark hshark := by
    have hmost := (hk.shark hshark).2
    have hgrown := h.energy_grown_le hshark prey k
    have hleast : ¬ (r.grown state prey k).energy ≤ 0 := fun hle => halive ⟨hshark, hle⟩
    rw [r.meals_succ]
    omega

/-- A creature that has bred starts counting anew. -/
theorem Rules.Vital.reset (hk : r.Vital ticks state k) :
    r.Vital ticks state { k with breedTimer := 0 } where
  timer := Nat.zero_le ticks
  fish := hk.fish
  shark := hk.shark

/-- The counters of a cell with a creature. -/
theorem Rules.Inhabits.creatureOf (h : r.Inhabits ticks c)
    (hkind : c.state = shark ∨ c.state = fish) : r.Vital ticks c.state (r.creatureOf c) := by
  cases h with
  | water l => rcases hkind with hkind | hkind <;> cases hkind
  | creature _ l hk => exact hk

/-- Cells that there can be after some ticks there can be one tick later. -/
theorem Rules.Ranged.inhabits_succ (h : r.Ranged) (hc : r.Inhabits ticks c) :
    r.Inhabits (ticks + 1) c := by
  cases hc with
  | water l => exact .water l
  | creature hkind l hk =>
    have hgain := h.energyFromFish.1
    refine .creature hkind l ⟨hk.timer.trans (Nat.le_succ ticks), hk.fish, fun hshark => ?_⟩
    have henergy := hk.shark hshark
    rw [r.meals_succ]
    omega

/-- What a creature comes to at its destination. -/
theorem Lawful.inhabits_endCell (h : r.Ranged) (ha : Lawful r g a) (hc : g.cellAt a.origin = some c)
    (hk : r.Vital ticks a.state (r.creatureOf c)) :
    r.Inhabits (ticks + 1) (a.endCell (r.grown a.state a.prey (r.creatureOf c))) := by
  have houtcome := ha.outcome c hc
  rw [Act.endCell]
  cases hend : a.outcome with
  | starved => exact .water a.destination
  | settled =>
    have halive := mt verdict_eq_starved.mpr (by rw [← houtcome, hend]; decide)
    exact .creature ha.kind a.destination (h.grown hk a.prey halive)
  | bred =>
    have halive := mt verdict_eq_starved.mpr (by rw [← houtcome, hend]; decide)
    exact .creature ha.kind a.destination (h.grown hk a.prey halive).reset

/-- What a creature leaves where it was. -/
theorem Lawful.inhabits_leftCell (h : r.Ranged) (ha : Lawful r g a) (ticks : Nat) :
    r.Inhabits ticks (r.leftCell a) := by
  rw [Rules.leftCell]
  split
  next => exact .creature ha.kind a.origin (h.newborn ticks a.state)
  next => exact .water a.origin

/-- A grid with cells as there can be after some ticks. -/
def Rules.Populates (r : Rules) (ticks : Nat) (g : Grid) : Prop :=
  ∀ l c, g.cellAt l = some c → r.Inhabits ticks c

/-- The counters of a creature that has a turn. -/
theorem Lawful.vital (ha : Lawful r g a) (hg : r.Populates ticks g)
    (hc : g.cellAt a.origin = some c) : r.Vital ticks a.state (r.creatureOf c) := by
  have hstate : a.state = c.state := by
    have horigin := ha.origin
    rw [Grid.stateAt, hc] at horigin
    exact (Option.some.inj horigin).symm
  rw [hstate]
  exact (hg a.origin c hc).creatureOf (hstate ▸ ha.kind)

variable [WordSource ρ]

/-- A tick leads from a grid as there can be to one as there can be a tick later: a cell is where
a turn has ended, where a turn has begun that ended elsewhere, or as it was. -/
theorem Rules.Ranged.populates_tick (h : r.Ranged) (hwf : g.WellFormed) (hg : r.Populates ticks g)
    (source : ρ) : r.Populates (ticks + 1) (g.apply (r.tick g source).updates) := by
  have hcoherent := (coherent_pass r hwf source).1
  intro l c hc
  rw [cellAt_tick r hwf source] at hc
  by_cases htouch : ∃ a ∈ (r.pass g source).acts, a.Touches l
  · obtain ⟨a, ha, hl⟩ := htouch
    have hlawful := hcoherent.lawful a ha
    by_cases hend : a.destination = l
    · obtain ⟨old, hold, -⟩ := Option.map_eq_some_iff.mp hlawful.origin
      have hended := hcoherent.ended a ha old hold
      rw [hend, hc] at hended
      rw [Option.some.inj hended]
      exact hlawful.inhabits_endCell h hold (hlawful.vital hg hold)
    · have horigin := hl.resolve_right hend
      have hleft := hcoherent.left a ha (horigin ▸ hend)
      rw [horigin, hc] at hleft
      rw [Option.some.inj hleft]
      exact hlawful.inhabits_leftCell h (ticks + 1)
  · have hkept := hcoherent.kept l fun a ha hl => htouch ⟨a, ha, hl⟩
    rw [hc] at hkept
    exact h.inhabits_succ (hg l c hkept.symm)

omit [WordSource ρ] in
/-- The cell with which a state starts can be there at the beginning. -/
theorem Rules.Ranged.inhabits_start (h : r.Ranged) {l : Location} (hc : r.start state l = .ok c) :
    r.Inhabits 0 c := by
  rw [Rules.start] at hc
  split at hc
  next =>
    obtain rfl := Except.ok.inj hc
    exact .water l
  next =>
    split at hc
    next hkind =>
      obtain rfl := Except.ok.inj hc
      exact .creature hkind.symm l (h.newborn 0 state)
    next => cases hc

omit [WordSource ρ] in
/-- Rules of predators and prey are read from parameters. -/
theorem ofParameters_of_build {kind : Kind} {p : Parameters}
    {species : Std.ExtTreeMap Nat Program}
    (h : Ruleset.build kind p species = .ok (.predatorPrey r)) : Rules.ofParameters p = .ok r := by
  obtain rfl : kind = .predatorPrey := (Simulation.kind_of_build h).symm
  obtain ⟨rules, hrules, heq⟩ := map_eq_ok.mp h
  rw [hrules, Ruleset.predatorPrey.inj heq]

variable {config : Configuration} {first : Simulation KeyStream}

omit [WordSource ρ] in
/-- A configuration of predators and prey describes them. -/
theorem exists_predatorPrey (hc : Kind.ofText config.automaton = .ok .predatorPrey)
    (h : Simulation.ofConfiguration config = .ok first) : ∃ r, first.rules = .predatorPrey r := by
  obtain ⟨kind, -, hkind, hbuild, -⟩ := Simulation.ofConfiguration_eq_ok h
  obtain rfl := Except.ok.inj (hc.symm.trans hkind)
  obtain ⟨r, -, hr⟩ := map_eq_ok.mp hbuild
  exact ⟨r, hr.symm⟩

omit [WordSource ρ] in
/-- A configuration of predators and prey gives rules in their ranges. -/
theorem ranged_of_configuration (h : Simulation.ofConfiguration config = .ok first)
    (hr : first.rules = .predatorPrey r) : r.Ranged := by
  obtain ⟨kind, -, -, hbuild, -⟩ := Simulation.ofConfiguration_eq_ok h
  rw [hr] at hbuild
  exact (Rules.ranged_of_ofParameters (ofParameters_of_build hbuild)).1

/-- A step of predators and prey is a tick of their rules. -/
theorem grid_step {s : Simulation ρ} (hr : s.rules = .predatorPrey r) :
    s.step.simulation.grid = s.grid.apply (r.tick s.grid s.source).updates := by
  change s.grid.apply (s.rules.tick s.grid s.source).updates = _
  rw [hr]
  rfl

/-- After any number of ticks the grid is as there can be after so many ticks. -/
theorem populates_after (h : Simulation.ofConfiguration config = .ok first)
    (hr : first.rules = .predatorPrey r) (source : ρ) (ticks : Nat) :
    r.Populates ticks ((first.withSource source).after ticks).grid := by
  have hranged := ranged_of_configuration h hr
  induction ticks with
  | zero =>
    obtain ⟨kind, -, -, -, hgrid⟩ := Simulation.ofConfiguration_eq_ok h
    intro l c hc
    have hstart := (Simulation.populate_cells hgrid).2 l c hc
    rw [hr] at hstart
    exact hranged.inhabits_start hstart
  | succ n ih =>
    have hwf := ((Simulation.Reachable.start h source).after n).wellFormed
    have hrules := ((first.withSource source).rules_after n).trans hr
    rw [Simulation.after, grid_step hrules]
    exact hranged.populates_tick hwf ih _

/-- A creature that survives and goes elsewhere has a counter below its breeding time afterwards:
if the counter had reached it, the creature has bred and starts anew. -/
theorem Rules.Ranged.breedTimer_destination (h : r.Ranged) (hwf : g.WellFormed) {source : ρ}
    (ha : a ∈ (r.pass g source).acts) (halive : a.outcome ≠ .starved)
    (hmoved : a.destination ≠ a.origin) :
    ∃ k, (g.apply (r.tick g source).updates).cellAt a.destination =
        some (.ofCreature a.state a.destination k) ∧ k.breedTimer < r.breedTime a.state := by
  have hlawful := (coherent_pass r hwf source).1.lawful a ha
  obtain ⟨c, hc, -⟩ := Option.map_eq_some_iff.mp hlawful.origin
  have houtcome := hlawful.outcome c hc
  have hcell := cellAt_destination r hwf source ha hc
  have hbreedTime : 0 < r.breedTime a.state := by
    have hshark := h.sharkBreedTime.1
    have hfish := h.fishBreedTime.1
    rw [Rules.breedTime]
    split <;> omega
  cases hend : a.outcome with
  | starved => exact absurd hend halive
  | settled =>
    refine ⟨r.grown a.state a.prey (r.creatureOf c), ?_, ?_⟩
    · rw [hcell, Act.endCell, hend]
    · have hnotBred := mt verdict_eq_bred.mpr (by rw [← houtcome, hend]; decide)
      exact Nat.lt_of_not_le fun hfull => hnotBred ⟨houtcome ▸ halive, hmoved, hfull⟩
  | bred =>
    refine ⟨{ r.grown a.state a.prey (r.creatureOf c) with breedTimer := 0 }, ?_, hbreedTime⟩
    rw [hcell, Act.endCell, hend]

/-- A creature where none of its kind was before has gone there. -/
theorem exists_moved_of_stateAt (r : Rules) (hwf : g.WellFormed) (source : ρ) {l : Location}
    (hkind : state = shark ∨ state = fish)
    (hafter : (g.apply (r.tick g source).updates).stateAt l = some state)
    (hbefore : g.stateAt l ≠ some state) :
    ∃ a ∈ (r.pass g source).acts, a.state = state ∧ a.destination = l ∧ a.outcome ≠ .starved ∧
      a.destination ≠ a.origin := by
  obtain ⟨a, ha, rfl, hplaced⟩ := (stateAt_tick_iff r hwf source hkind l).mp hafter
  have horigin := ((coherent_pass r hwf source).1.lawful a ha).origin
  rcases Act.mem_placements.mp hplaced with ⟨rfl, halive⟩ | ⟨rfl, -⟩
  · exact ⟨a, ha, rfl, rfl, halive, fun hstay => hbefore (hstay ▸ horigin)⟩
  · exact absurd horigin hbefore

omit [WordSource ρ] in
/-- In the first 200000 ticks the numbers of every turn fit. -/
theorem Rules.Ranged.turnFits (h : r.Ranged) (hk : r.Vital ticks a.state k)
    (hticks : ticks < 200000) : r.TurnFits a k where
  timer := by
    have htimer := hk.timer
    omega
  energy hshark := by
    obtain ⟨hleast, hmost⟩ := hk.shark hshark
    obtain ⟨hgain, hmeal⟩ := h.energyFromFish
    have hstart := h.sharkStartEnergy.2
    have hmeals : ticks * r.energyFromFish ≤ 200000 * 10000 :=
      Int.mul_le_mul (by omega) hmeal hgain (by decide)
    simp only [allFit_cons, allFit_nil, and_true]
    split <;> omega

/-- After any number of ticks, whatever is drawn, each cell of predators and prey is water that
carries nothing, a fish without energy, or a shark with at least one unit of energy and at most
what it starts with and one meal in each tick gives; and no breeding counter is ahead of the
ticks. Whoever goes elsewhere in the next tick has a counter below the breeding time of its kind
afterwards, and a creature where none of its kind was before is somebody who has gone there. In the
first 200000 ticks no turn comes upon a counter or an energy beyond 32 bits. -/
theorem vitals_of_reachable (h : Simulation.ofConfiguration config = .ok first)
    (hr : first.rules = .predatorPrey r) (source : ρ) (ticks : Nat) {s : Simulation ρ}
    (hs : s = (first.withSource source).after ticks) :
    (∀ l c, s.grid.cellAt l = some c → r.Inhabits ticks c) ∧
    (∀ a ∈ (r.pass s.grid s.source).acts, a.outcome ≠ .starved → a.destination ≠ a.origin →
      ∃ k, s.step.simulation.grid.cellAt a.destination =
          some (.ofCreature a.state a.destination k) ∧ k.breedTimer < r.breedTime a.state) ∧
    (∀ l state, state = shark ∨ state = fish →
      s.step.simulation.grid.stateAt l = some state → s.grid.stateAt l ≠ some state →
      ∃ a ∈ (r.pass s.grid s.source).acts, a.state = state ∧ a.destination = l ∧
        a.outcome ≠ .starved ∧ a.destination ≠ a.origin) ∧
    (ticks < 200000 → ∀ a ∈ (r.pass s.grid s.source).acts, ∀ c,
      s.grid.cellAt a.origin = some c → r.TurnFits a (r.creatureOf c)) := by
  have hranged := ranged_of_configuration h hr
  have hpopulates : r.Populates ticks s.grid := hs ▸ populates_after h hr source ticks
  have hwf : s.grid.WellFormed :=
    hs ▸ ((Simulation.Reachable.start h source).after ticks).wellFormed
  have hrules : s.rules = .predatorPrey r :=
    hs ▸ ((first.withSource source).rules_after ticks).trans hr
  rw [grid_step hrules]
  refine ⟨hpopulates, ?_, ?_, ?_⟩
  · intro a ha halive hmoved
    exact hranged.breedTimer_destination hwf ha halive hmoved
  · intro l state hkind hafter hbefore
    exact exists_moved_of_stateAt r hwf s.source hkind hafter hbefore
  · intro hticks a ha c hc
    have hlawful := (coherent_pass r hwf s.source).1.lawful a ha
    exact hranged.turnFits (hlawful.vital hpopulates hc) hticks

/-- Runs of predators and prey of up to 200000 ticks are completed, whatever is drawn, if the sides
of the grid are short enough: no turn comes upon a counter or an energy beyond 32 bits, and all
neighbors are found. -/
theorem exists_run?_of_le (h : Simulation.ofConfiguration config = .ok first)
    (hr : first.rules = .predatorPrey r) (hrows : config.rows ≤ 2 ^ 30)
    (hcols : config.cols ≤ 2 ^ 30)
    (hmirror : config.edge = .mirror → config.rows < 2 ^ 30 ∧ config.cols < 2 ^ 30) (source : ρ)
    {ticks : Nat} (hticks : ticks ≤ 200000) :
    ∃ out, (first.withSource source).run? ticks = some out := by
  have hranged := ranged_of_configuration h hr
  refine ⟨_, Simulation.run?_eq_some_iff.mpr ⟨fun k hk => ?_, rfl⟩⟩
  have hreach := (Simulation.Reachable.start h source).after k
  rw [Simulation.isSome_step?, Simulation.rules_after]
  refine Eq.trans (congrArg (Ruleset.completes · _ _) hr)
    (Rules.tickFits_of_turnFits hreach.wellFormed (hreach.moderate hrows hcols hmirror)
      (hranged.policy.2.trans (by decide)) fun a ha c hc => ?_)
  have hlawful := (coherent_pass r hreach.wellFormed _).1.lawful a ha
  exact hranged.turnFits (hlawful.vital (populates_after h hr source k) hc) (by omega)

/-- A shark beside a fish on a ring of five cells, where sharks breed after every tick. -/
def bay : Configuration :=
  { Configuration.default with
    automaton := "wator"
    rows := 1
    cols := 5
    edge := .toroidal
    states := [[2, 1]]
    parameters := Parameters.empty.insert "sharkBreedTime" (.ofInt 1) }

/-- In the bay everything is as it can be after three ticks, and the numbers of the next turns
fit. -/
theorem bay_vitals_of_reachable :
    ∃ first r, Simulation.ofConfiguration bay = .ok first ∧ first.rules = .predatorPrey r ∧
      (∀ l c, ((first.withSource first.source).after 3).grid.cellAt l = some c →
        r.Inhabits 3 c) ∧
      ∀ a ∈ (r.pass ((first.withSource first.source).after 3).grid
          ((first.withSource first.source).after 3).source).acts,
        ∀ c, ((first.withSource first.source).after 3).grid.cellAt a.origin = some c →
          r.TurnFits a (r.creatureOf c) := by
  obtain ⟨first, hfirst⟩ : ∃ first, Simulation.ofConfiguration bay = .ok first :=
    faultOf?_eq_none_iff.mp (by decide +kernel)
  have hkind : Kind.ofText bay.automaton = .ok .predatorPrey := by decide +kernel
  obtain ⟨r, hr⟩ := exists_predatorPrey hkind hfirst
  have hvitals := vitals_of_reachable hfirst hr first.source 3 rfl
  exact ⟨first, r, hfirst, hr, hvitals.1, hvitals.2.2.2 (by decide)⟩

end CellularAutomata.PredatorPrey
