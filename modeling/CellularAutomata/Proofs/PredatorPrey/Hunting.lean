import CellularAutomata.Proofs.PredatorPrey.Accounting
import CellularAutomata.Proofs.Random.Draws

/-!
# Hunting

The sharks choose their prey one after the other, and each takes some fish beside it if there is
one left. Nothing that has been eaten or claimed becomes free again, so these choices amount to a
maximal matching of sharks and fish in the end. For the same reason whoever has not changed its
position has no free water beside it when the tick is over.
-/

namespace CellularAutomata.PredatorPrey

/-- Who has eaten whom: the positions of the sharks with those of their prey. -/
def kills (acts : List Act) : List (Location × Location) :=
  acts.filterMap fun a => a.prey.map fun l => (a.origin, l)

/-- What a turn has to choose from and leaves to the others. -/
structure Choice (r : Rules) (g : Grid) (origin : Location) (a : Act) {ρ : Type} (p p' : Pass ρ) :
    Prop where
  /-- The turn is recorded. -/
  acts : p'.acts = a :: p.acts
  /-- The prey is beside the shark. -/
  near : ∀ l, a.prey = some l → l ∈ r.policy.neighborLocations g origin
  /-- A shark without prey has found none. -/
  hungry : a.state = shark → a.prey = none → r.preyNeighbors g p origin = []
  /-- Who stays without eating has found no free water. -/
  cornered : a.prey = none → a.destination = origin → r.freeNeighbors g p origin = []
  /-- Nothing is claimed but the positions that the turn touches. -/
  claimed : ∀ l ∈ p'.claimed, a.destination = l ∨ origin = l ∨ l ∈ p.claimed

variable {ρ : Type} {r : Rules} {g : Grid} {a : Act} {c : Cell} {p p' : Pass ρ}

/-- Settling claims nothing but the origin. -/
theorem claimed_settle {state : Nat} {origin : Location} {prey : Option Location}
    {destination : Location} {k : Creature} {l : Location}
    (h : l ∈ (r.settle p state origin prey destination k).claimed) :
    origin = l ∨ l ∈ p.claimed := by
  rw [Rules.settle] at h
  split at h
  next => exact (mem_insert_iff.mp h).imp_left Eq.symm
  next => exact Or.inr h

/-- How a shark with some energy ends its turn does not matter to its claims. -/
theorem claimed_ending {energy : Int} {origin : Location} {prey : Option Location}
    {destination : Location} {k : Creature} {l : Location}
    (h : l ∈ (if energy ≤ 0 then starve p origin prey destination
      else r.settle p shark origin prey destination k).claimed) :
    origin = l ∨ l ∈ p.claimed := by
  split at h
  next => exact Or.inr h
  next => exact claimed_settle h

/-- What a turn claims that ends at a position it has claimed first. -/
theorem claimed_cases {p₁ : Pass ρ} {origin destination l : Location}
    (hp₁ : p₁.claimed = p.claimed.insert destination) (h : origin = l ∨ l ∈ p₁.claimed) :
    destination = l ∨ origin = l ∨ l ∈ p.claimed := by
  rcases h with horigin | hclaimed
  · exact Or.inr (Or.inl horigin)
  · rw [hp₁] at hclaimed
    exact (mem_insert_iff.mp hclaimed).imp Eq.symm Or.inr

/-- Who is not on water and stays where it is has no free water beside it. -/
theorem freeNeighbors_eq_nil [WordSource ρ] {origin : Location} (source : ρ)
    (horigin : g.stateAt origin ≠ some water)
    (hstay : (WordSource.pick (r.freeNeighbors g p origin) source).1.getD origin = origin) :
    r.freeNeighbors g p origin = [] := by
  cases hpick : (WordSource.pick (r.freeNeighbors g p origin) source).1 with
  | none => exact WordSource.pick_eq_none_iff.mp hpick
  | some n =>
    rw [hpick, Option.getD_some] at hstay
    exact absurd (hstay ▸ (mem_freeNeighbors.mp (mem_of_pick hpick)).2.1) horigin

variable [WordSource ρ]

/-- The turn of a fish is a choice. -/
theorem exists_choice_actFish (r : Rules) (p : Pass ρ)
    (hwater : g.stateAt c.location ≠ some water) :
    ∃ a, Choice r g c.location a p (r.actFish g p c) := by
  rcases hpick : WordSource.pick (r.freeNeighbors g p c.location) p.source with ⟨free, source⟩
  have hplaced := placed_fish r
    { p with claimed := p.claimed.insert (free.getD c.location), source := source } c.location none
    (free.getD c.location) ⟨(r.creatureOf c).energy, (r.creatureOf c).breedTimer + 1⟩
  rw [Rules.actFish, hpick]
  refine ⟨_, hplaced.acts, ?_, ?_, ?_, ?_⟩
  · intro l hl
    cases hl
  · intro hshark
    cases hshark
  · intro _ hstay
    exact freeNeighbors_eq_nil p.source hwater (hpick ▸ hstay)
  · exact fun l hl => claimed_cases rfl (claimed_settle hl)

/-- The turn of a shark is a choice. -/
theorem exists_choice_actShark (r : Rules) (p : Pass ρ)
    (hwater : g.stateAt c.location ≠ some water) :
    ∃ a, Choice r g c.location a p (r.actShark g p c) := by
  rcases hpick : WordSource.pick (r.preyNeighbors g p c.location) p.source with ⟨prey, source⟩
  rw [Rules.actShark, hpick]
  cases prey with
  | some target =>
    have hprey := mem_of_pick (congrArg Prod.fst hpick)
    have hplaced := placed_shark r
      { p with
        eaten := p.eaten.insert target, claimed := p.claimed.insert target, source := source }
      c.location (some target) target
      ⟨(r.creatureOf c).energy + r.energyFromFish - 1, (r.creatureOf c).breedTimer + 1⟩
    refine ⟨_, hplaced.acts, ?_, ?_, ?_, ?_⟩
    · intro l hl
      exact Option.some.inj hl ▸ (mem_preyNeighbors.mp hprey).1
    · intro _ hnone
      cases hnone
    · intro hnone
      cases hnone
    · exact fun l hl => claimed_cases rfl (claimed_ending hl)
  | none =>
    rcases hfree : WordSource.pick (r.freeNeighbors g p c.location) source with ⟨free, source'⟩
    have hplaced := placed_shark r
      { p with claimed := p.claimed.insert (free.getD c.location), source := source' }
      c.location none (free.getD c.location)
      ⟨(r.creatureOf c).energy - 1, (r.creatureOf c).breedTimer + 1⟩
    dsimp only
    rw [hfree]
    refine ⟨_, hplaced.acts, ?_, ?_, ?_, ?_⟩
    · intro l hl
      cases hl
    · intro _ _
      exact WordSource.pick_eq_none_iff.mp (congrArg Prod.fst hpick)
    · intro _ hstay
      exact freeNeighbors_eq_nil source hwater (hfree ▸ hstay)
    · exact fun l hl => claimed_cases rfl (claimed_ending hl)

omit [WordSource ρ] in
/-- There is no water where a creature is. -/
theorem stateAt_ne_water {l : Location} {state : Nat} (hstate : g.stateAt l = some state)
    (hkind : state = shark ∨ state = fish) : g.stateAt l ≠ some water := by
  rw [hstate]
  rcases hkind with rfl | rfl <;> decide

/-- The work of a tick after some turns in none of which a chance has been missed. -/
structure Thorough (r : Rules) (g : Grid) (p : Pass ρ) : Prop where
  /-- The prey of a shark was beside it. -/
  near : ∀ a ∈ p.acts, ∀ l, a.prey = some l → l ∈ r.policy.neighborLocations g a.origin
  /-- Nothing is claimed but the positions that turns touch. -/
  claimed : ∀ l ∈ p.claimed, ∃ a ∈ p.acts, a.Touches l
  /-- All fish beside a shark without prey have been eaten. -/
  hungry : ∀ a ∈ p.acts, a.state = shark → a.prey = none →
    ∀ n ∈ r.policy.neighborLocations g a.origin, g.stateAt n = some fish → n ∈ p.eaten
  /-- All water beside a creature that has stayed is claimed. -/
  cornered : ∀ a ∈ p.acts, a.destination = a.origin →
    ∀ n ∈ r.policy.neighborLocations g a.origin, g.stateAt n = some water → n ∈ p.claimed

omit [WordSource ρ] in
/-- A tick begins thoroughly. -/
theorem Thorough.start (r : Rules) (g : Grid) (source : ρ) :
    Thorough r g (Pass.start g source) where
  near _ ha := absurd ha (List.not_mem_nil)
  claimed l hl := by simp [Pass.start] at hl
  hungry _ ha := absurd ha (List.not_mem_nil)
  cornered _ ha := absurd ha (List.not_mem_nil)

omit [WordSource ρ] in
/-- As long as only sharks have had turns, a fish at a claimed position has been eaten. -/
theorem Thorough.eaten_of_claimed (h : Thorough r g p) (hcoherent : Coherent r g p)
    (hsharks : ∀ b ∈ p.acts, b.state = shark) {n : Location} (hfish : g.stateAt n = some fish)
    (hn : n ∈ p.claimed) : n ∈ p.eaten := by
  obtain ⟨b, hb, htouch⟩ := h.claimed n hn
  have hlawful := hcoherent.lawful b hb
  have horigin : b.origin ≠ n := by
    intro heq
    have hstate := hlawful.origin
    rw [heq, hfish, hsharks b hb] at hstate
    cases hstate
  have hend : b.destination = n := htouch.resolve_left horigin
  rcases hlawful.reach with ⟨-, hstay | hwater⟩ | ⟨-, hprey, -⟩
  · exact absurd (hstay.symm.trans hend) horigin
  · rw [hend, hfish] at hwater
    cases hwater
  · exact (hcoherent.eaten n).mpr ⟨b, hb, hend ▸ hprey⟩

omit [WordSource ρ] in
/-- Somebody has gone to each position of water that is claimed. -/
theorem Thorough.exists_destination (h : Thorough r g p) (hcoherent : Coherent r g p)
    {n : Location} (hwater : g.stateAt n = some water) (hn : n ∈ p.claimed) :
    ∃ b ∈ p.acts, b.destination = n := by
  obtain ⟨b, hb, htouch⟩ := h.claimed n hn
  have hlawful := hcoherent.lawful b hb
  refine ⟨b, hb, htouch.resolve_left ?_⟩
  rintro rfl
  exact stateAt_ne_water hlawful.origin hlawful.kind hwater

omit [WordSource ρ] in
/-- A turn in which no chance is missed keeps the work of a tick thorough. -/
theorem Thorough.step (h : Thorough r g p) (hcoherent : Coherent r g p)
    (hs : Step r g c a p p') (hchoice : Choice r g c.location a p p')
    (hc : g.cellAt c.location = some c)
    (hsharks : c.state = shark → ∀ b ∈ p.acts, b.state = shark) : Thorough r g p' := by
  constructor
  case near =>
    intro b hb l hl
    rcases hs.mem_acts.mp hb with rfl | hold
    · exact hs.origin ▸ hchoice.near l hl
    · exact h.near b hold l hl
  case claimed =>
    intro l hl
    rcases hchoice.claimed l hl with hend | horigin | hold
    · exact ⟨a, hs.mem_acts.mpr (Or.inl rfl), Or.inr hend⟩
    · exact ⟨a, hs.mem_acts.mpr (Or.inl rfl), Or.inl (hs.origin.trans horigin)⟩
    · obtain ⟨b, hb, htouch⟩ := h.claimed l hold
      exact ⟨b, hs.mem_acts.mpr (Or.inr hb), htouch⟩
  case hungry =>
    intro b hb hshark hprey n hn hfish
    refine (hs.eaten n).mpr (Or.inr ?_)
    rcases hs.mem_acts.mp hb with rfl | hold
    · rw [hs.origin] at hn
      by_contra huneaten
      have hunclaimed : n ∉ p.claimed := fun hclaimed =>
        huneaten (h.eaten_of_claimed hcoherent (hsharks (hs.state ▸ hshark)) hfish hclaimed)
      have hchance := mem_preyNeighbors.mpr ⟨hn, hfish, huneaten, hunclaimed⟩
      exact List.not_mem_nil (hchoice.hungry hshark hprey ▸ hchance)
    · exact h.hungry b hold hshark hprey n hn hfish
  case cornered =>
    intro b hb hstay n hn hwater
    refine hs.claimed n (Or.inr ?_)
    rcases hs.mem_acts.mp hb with rfl | hold
    · rw [hs.origin] at hn hstay
      have hprey : b.prey = none := by
        rcases hs.reach with ⟨hnone, -⟩ | ⟨hshark, -, hfish, -⟩
        · exact hnone
        · rw [hstay, Grid.stateAt_of_cellAt hc, hshark] at hfish
          cases hfish
      by_contra hunclaimed
      have hchance := mem_freeNeighbors.mpr ⟨hn, hwater, hunclaimed⟩
      exact List.not_mem_nil (hchoice.cornered hprey hstay ▸ hchance)
    · exact h.cornered b hold hstay n hn hwater

/-- The turn of a shark keeps the work of a tick thorough. -/
theorem Thorough.actShark {rest : List Cell} (h : Thorough r g p)
    (hp : Pending r g shark (c :: rest) p) : Thorough r g (r.actShark g p c) := by
  obtain ⟨hc, hshark⟩ := hp.cells c (List.mem_cons_self ..)
  obtain ⟨a, hs⟩ := exists_step_actShark r g p hshark
  obtain ⟨b, hchoice⟩ := exists_choice_actShark r p
    (stateAt_ne_water (Grid.stateAt_of_cellAt hc) (Or.inl hshark))
  obtain rfl : b = a := (List.cons.inj (hchoice.acts.symm.trans hs.acts)).1
  exact h.step hp.coherent hs hchoice hc fun _ => hp.sharks rfl

/-- Calling a fish keeps the work of a tick thorough. -/
theorem Thorough.actFishAlive {rest : List Cell} (h : Thorough r g p)
    (hp : Pending r g fish (c :: rest) p) : Thorough r g (r.actFishAlive g p c) := by
  obtain ⟨hc, hfish⟩ := hp.cells c (List.mem_cons_self ..)
  rw [Rules.actFishAlive]
  split
  next => exact h
  next =>
    obtain ⟨a, hs⟩ := exists_step_actFish r g p hfish
    obtain ⟨b, hchoice⟩ := exists_choice_actFish r p
      (stateAt_ne_water (Grid.stateAt_of_cellAt hc) (Or.inr hfish))
    obtain rfl : b = a := (List.cons.inj (hchoice.acts.symm.trans hs.acts)).1
    refine h.step hp.coherent hs hchoice hc fun hshark => ?_
    rw [hfish] at hshark
    cases hshark

/-- No chance is missed in a whole tick. -/
theorem thorough_pass (r : Rules) (hwf : g.WellFormed) (source : ρ) :
    Thorough r g (r.pass g source) := by
  have hsharks := Pending.sharks_start r hwf source
  have hfish := Pending.fish_start r hwf source
  have hfirst : Thorough r g (r.actSharks g (Pass.start g source)) :=
    hsharks.induction (Or.inl rfl)
      (fun c hc => calls_actShark (hsharks.cells c hc).1 (hsharks.cells c hc).2)
      (fun _ _ _ hp h => h.actShark hp) (Thorough.start r g source)
  exact hfish.induction (Or.inr rfl) (fun c hc => calls_actFishAlive (hfish.cells c hc).2)
    (fun _ _ _ hp h => h.actFishAlive hp) hfirst

omit [WordSource ρ] in
/-- A pair is that of a shark and its prey in one of the turns. -/
theorem mem_kills {acts : List Act} {hunter prey : Location} :
    (hunter, prey) ∈ kills acts ↔ ∃ a ∈ acts, a.origin = hunter ∧ a.prey = some prey := by
  simp [kills, and_comm]

omit [WordSource ρ] in
/-- The prey of all sharks are the meals. -/
theorem map_snd_kills (acts : List Act) : (kills acts).map Prod.snd = meals acts := by
  simp [kills, meals, List.map_filterMap, Function.comp_def]

omit [WordSource ρ] in
/-- Each meal is that of some shark. -/
theorem mem_meals {acts : List Act} {l : Location} :
    l ∈ meals acts ↔ ∃ hunter, (hunter, l) ∈ kills acts := by
  rw [← map_snd_kills]
  simp

omit [WordSource ρ] in
/-- No shark eats twice. -/
theorem Coherent.nodup_hunters (h : Coherent r g p) : ((kills p.acts).map Prod.fst).Nodup := by
  rw [List.Nodup, List.pairwise_map, kills, List.pairwise_filterMap]
  refine h.apart.imp ?_
  intro a b hab x hx y hy heq
  obtain ⟨l, -, rfl⟩ := Option.map_eq_some_iff.mp hx
  obtain ⟨l', -, rfl⟩ := Option.map_eq_some_iff.mp hy
  exact hab a.origin (Or.inl rfl) (Or.inl heq.symm)

/-- What the hunt of a tick comes to. -/
structure MaximalHunt (r : Rules) (g : Grid) (p : Pass ρ) : Prop where
  /-- Sharks eat fish that were beside them before the tick. -/
  beside : ∀ hunter prey, (hunter, prey) ∈ kills p.acts → g.stateAt hunter = some shark ∧
    g.stateAt prey = some fish ∧ prey ∈ r.policy.neighborLocations g hunter
  /-- The fish that have been eaten are those of the pairs. -/
  eaten : ∀ l, l ∈ p.eaten ↔ ∃ hunter, (hunter, l) ∈ kills p.acts
  /-- No shark eats twice. -/
  hunters_nodup : ((kills p.acts).map Prod.fst).Nodup
  /-- No fish is eaten twice. -/
  prey_nodup : ((kills p.acts).map Prod.snd).Nodup
  /-- Beside a shark that has eaten nothing each fish has been eaten by another shark. -/
  maximal : ∀ l, g.stateAt l = some shark → (∀ prey, (l, prey) ∉ kills p.acts) →
    ∀ n ∈ r.policy.neighborLocations g l, g.stateAt n = some fish →
      ∃ hunter, hunter ≠ l ∧ (hunter, n) ∈ kills p.acts
  /-- Beside a creature that has not been eaten and has not changed its position all water is
  claimed, and it is others that have gone there. -/
  cornered : ∀ l, g.stateAt l = some shark ∨
      g.stateAt l = some fish ∧ (∀ hunter, (hunter, l) ∉ kills p.acts) →
    (∀ a ∈ p.acts, a.origin = l → a.destination = l) →
    ∀ n ∈ r.policy.neighborLocations g l, g.stateAt n = some water →
      n ∈ p.claimed ∧ ∃ b ∈ p.acts, b.origin ≠ l ∧ b.destination = n

/-- The hunt of every tick is a maximal matching of sharks and fish beside them. -/
theorem maximal_hunt (r : Rules) (hwf : g.WellFormed) (source : ρ) :
    MaximalHunt r g (r.pass g source) := by
  have hcoherent := (coherent_pass r hwf source).1
  have hthorough := thorough_pass r hwf source
  constructor
  case beside =>
    intro hunter prey hkill
    obtain ⟨a, ha, rfl, hprey⟩ := mem_kills.mp hkill
    have hlawful := hcoherent.lawful a ha
    obtain ⟨hshark, -, hfish⟩ := hlawful.prey hprey
    exact ⟨hshark ▸ hlawful.origin, hfish, hthorough.near a ha prey hprey⟩
  case eaten =>
    intro l
    rw [hcoherent.eaten]
    constructor
    · rintro ⟨a, ha, hprey⟩
      exact ⟨a.origin, mem_kills.mpr ⟨a, ha, rfl, hprey⟩⟩
    · rintro ⟨hunter, hkill⟩
      obtain ⟨a, ha, -, hprey⟩ := mem_kills.mp hkill
      exact ⟨a, ha, hprey⟩
  case hunters_nodup => exact hcoherent.nodup_hunters
  case prey_nodup => exact map_snd_kills _ ▸ hcoherent.nodup_meals
  case maximal =>
    intro l hshark hnothing n hn hfish
    obtain ⟨a, ha, rfl, hstate⟩ :=
      (exists_origin_iff r hwf source l shark).mpr ⟨hshark, Or.inl rfl⟩
    have hprey : a.prey = none := by
      rw [Option.eq_none_iff_forall_ne_some]
      exact fun prey hprey => hnothing prey (mem_kills.mpr ⟨a, ha, rfl, hprey⟩)
    have heaten := hthorough.hungry a ha hstate hprey n hn hfish
    obtain ⟨b, hb, hkill⟩ := (hcoherent.eaten n).mp heaten
    have hpair : (b.origin, n) ∈ kills (r.pass g source).acts := mem_kills.mpr ⟨b, hb, rfl, hkill⟩
    exact ⟨b.origin, fun heq => hnothing n (heq ▸ hpair), hpair⟩
  case cornered =>
    intro l hcreature hstays n hn hwater
    have hturn : ∃ state, g.stateAt l = some state ∧
        (state = shark ∨ state = fish ∧ l ∉ meals (r.pass g source).acts) := by
      rcases hcreature with hshark | ⟨hfish, hspared⟩
      · exact ⟨shark, hshark, Or.inl rfl⟩
      · exact ⟨fish, hfish, Or.inr ⟨rfl, fun hmeal => (mem_meals.mp hmeal).elim hspared⟩⟩
    obtain ⟨state, hstate⟩ := hturn
    obtain ⟨a, ha, rfl, -⟩ := (exists_origin_iff r hwf source l state).mpr hstate
    have hclaimed := hthorough.cornered a ha (hstays a ha rfl) n hn hwater
    obtain ⟨b, hb, hend⟩ := hthorough.exists_destination hcoherent hwater hclaimed
    refine ⟨hclaimed, b, hb, ?_, hend⟩
    -- whoever has begun here has stayed here, where there is no water
    intro horigin
    rw [← hend, hstays b hb horigin] at hwater
    exact stateAt_ne_water hstate.1 (hstate.2.imp_right And.left) hwater

/-- A shark, a fish beside it, and another shark beside the fish. -/
def contested : Grid :=
  (((Grid.empty 1 3 .fixed).add (.plain shark ⟨0, 0⟩)).add (.plain fish ⟨0, 1⟩)).add
    (.plain shark ⟨0, 2⟩)

/-- The first shark eats the contested fish, so the second one finds nothing. -/
theorem contested_maximal_hunt :
    contested.WellFormed ∧ kills (pondRules.pass contested (Seed.source 0)).acts =
      [(⟨0, 0⟩, ⟨0, 1⟩)] ∧
    ∃ hunter, hunter ≠ ⟨0, 2⟩ ∧
      (hunter, ⟨0, 1⟩) ∈ kills (pondRules.pass contested (Seed.source 0)).acts := by
  have hwf : contested.WellFormed := (((Grid.wellFormed_empty 1 3 .fixed).add _).add _).add _
  have hkills : kills (pondRules.pass contested (Seed.source 0)).acts = [(⟨0, 0⟩, ⟨0, 1⟩)] := by
    decide +kernel
  have hnothing : ∀ prey,
      (⟨0, 2⟩, prey) ∉ kills (pondRules.pass contested (Seed.source 0)).acts := by
    intro prey
    rw [hkills]
    simp
  exact ⟨hwf, hkills, (maximal_hunt pondRules hwf (Seed.source 0)).maximal ⟨0, 2⟩
    (by decide +kernel) hnothing ⟨0, 1⟩ (by decide +kernel) (by decide +kernel)⟩

end CellularAutomata.PredatorPrey
