import CellularAutomata.Proofs.PredatorPrey.Pass

/-!
# Coherent passes

The turns of a tick concern different cells: wherever a creature was or has gone, nobody
else was or has gone. So what each turn has written is still there at the end of the tick,
and everything else is as it was. One step keeps this, for sharks and for fish alike.
-/

namespace CellularAutomata.PredatorPrey

/-- The two locations that a turn concerns. -/
def Act.Touches (a : Act) (l : Location) : Prop := a.origin = l ∨ a.destination = l

/-- Two turns that concern different locations. -/
def Apart (a b : Act) : Prop := ∀ l, a.Touches l → ¬ b.Touches l

instance : Std.Symm Apart where
  symm _ _ h l hb ha := h l ha hb

/-- A turn that the rules allow a creature on a grid. -/
structure Lawful (r : Rules) (g : Grid) (a : Act) : Prop where
  /-- It is a turn of a shark or a fish. -/
  kind : a.state = shark ∨ a.state = fish
  /-- The creature was there before the tick. -/
  origin : g.stateAt a.origin = some a.state
  /-- It stays or goes to water, or it is a shark and goes to a fish that it eats. -/
  reach : (a.prey = none ∧ (a.destination = a.origin ∨ g.stateAt a.destination = some water)) ∨
    (a.state = shark ∧ a.prey = some a.destination ∧ g.stateAt a.destination = some fish)
  /-- The counters of the creature decide how the turn ends. -/
  outcome : ∀ c, g.cellAt a.origin = some c → a.outcome =
    r.verdict a.state a.origin a.destination (r.grown a.state a.prey (r.creatureOf c))

/-- The work of a tick after some turns. -/
structure Coherent {ρ : Type} (r : Rules) (g : Grid) (p : Pass ρ) : Prop where
  /-- All turns are allowed. -/
  lawful : ∀ a ∈ p.acts, Lawful r g a
  /-- All destinations are claimed. -/
  claimed : ∀ a ∈ p.acts, a.destination ∈ p.claimed
  /-- The positions noted as eaten are those of the prey. -/
  eaten : ∀ l, l ∈ p.eaten ↔ ∃ a ∈ p.acts, a.prey = some l
  /-- Different turns concern different locations. -/
  apart : p.acts.Pairwise Apart
  /-- What each turn has written at its destination is there. -/
  ended : ∀ a ∈ p.acts, ∀ c, g.cellAt a.origin = some c →
    p.next[a.destination]? = some (a.endCell (r.grown a.state a.prey (r.creatureOf c)))
  /-- What each turn has written where the creature has left is there. -/
  left : ∀ a ∈ p.acts, a.destination ≠ a.origin → p.next[a.origin]? = some (r.leftCell a)
  /-- Everything else is as it was. -/
  kept : ∀ l, (∀ a ∈ p.acts, ¬ a.Touches l) → p.next[l]? = g.cellAt l

variable {ρ : Type} {r : Rules} {g : Grid} {c : Cell} {a : Act} {p p' : Pass ρ}

/-- A tick begins coherently. -/
theorem Coherent.start (r : Rules) (g : Grid) (source : ρ) :
    Coherent r g (Pass.start g source) where
  lawful a ha := absurd ha (List.not_mem_nil)
  claimed a ha := absurd ha (List.not_mem_nil)
  eaten l := by simp [Pass.start]
  apart := List.Pairwise.nil
  ended a ha := absurd ha (List.not_mem_nil)
  left a ha := absurd ha (List.not_mem_nil)
  kept l _ := rfl

/-- Whatever is eaten is a fish, and a shark has gone there to eat it. -/
theorem Lawful.prey (h : Lawful r g a) {l : Location} (hprey : a.prey = some l) :
    a.state = shark ∧ a.destination = l ∧ g.stateAt l = some fish := by
  rcases h.reach with ⟨hnone, -⟩ | ⟨hshark, hsome, hfish⟩
  · rw [hnone] at hprey
    cases hprey
  · rw [hsome] at hprey
    obtain rfl := Option.some.inj hprey
    exact ⟨hshark, rfl, hfish⟩

/-- Only fish are eaten. -/
theorem Coherent.fish_of_eaten (h : Coherent r g p) {l : Location} (hl : l ∈ p.eaten) :
    g.stateAt l = some fish := by
  obtain ⟨b, hb, hprey⟩ := (h.eaten l).mp hl
  exact ((h.lawful b hb).prey hprey).2.2

/-- No shark is eaten. -/
theorem Coherent.shark_uneaten (h : Coherent r g p) (hc : g.cellAt c.location = some c)
    (hshark : c.state = shark) : c.location ∉ p.eaten := by
  intro heaten
  have hfish := h.fish_of_eaten heaten
  rw [Grid.stateAt_of_cellAt hc, hshark] at hfish
  cases hfish

/-- A creature that has not acted and has not been eaten is where no turn has touched. -/
theorem Coherent.not_touches (h : Coherent r g p) (hc : g.cellAt c.location = some c)
    (hkind : c.state = shark ∨ c.state = fish) (hnew : ∀ b ∈ p.acts, b.origin ≠ c.location)
    (huneaten : c.location ∉ p.eaten) {b : Act} (hb : b ∈ p.acts) : ¬ b.Touches c.location := by
  rintro (horigin | hdestination)
  · exact hnew b hb horigin
  · rcases (h.lawful b hb).reach with ⟨-, hstay | hwater⟩ | ⟨-, hprey, -⟩
    · exact hnew b hb (hstay.symm.trans hdestination)
    · rw [hdestination, Grid.stateAt_of_cellAt hc, Option.some.injEq] at hwater
      rcases hkind with hshark | hfish
      · rw [hshark] at hwater
        cases hwater
      · rw [hfish] at hwater
        cases hwater
    · exact huneaten ((h.eaten _).mpr ⟨b, hb, hdestination ▸ hprey⟩)

/-- A step concerns other locations than the turns before it. -/
theorem Coherent.apart_step (h : Coherent r g p) (hs : Step r g c a p p')
    (hc : g.cellAt c.location = some c) (hkind : c.state = shark ∨ c.state = fish)
    (hnew : ∀ b ∈ p.acts, b.origin ≠ c.location) (huneaten : c.location ∉ p.eaten)
    (hsharks : c.state = shark → ∀ b ∈ p.acts, b.state = shark) {b : Act} (hb : b ∈ p.acts) :
    Apart a b := by
  have horigin := h.not_touches hc hkind hnew huneaten hb
  have hlawful := h.lawful b hb
  rintro l (rfl | rfl) htouch
  · rw [hs.origin] at htouch
    exact horigin htouch
  · rcases hs.reach with ⟨-, hstay | ⟨hwater, hfree⟩⟩ | ⟨hshark, -, hfish, -, hfree⟩
    · rw [hstay] at htouch
      exact horigin htouch
    · rcases htouch with hb' | hb'
      · have hstate := hlawful.origin
        rw [hb', hwater] at hstate
        rcases hlawful.kind with hkind | hkind <;> rw [hkind] at hstate <;> cases hstate
      · exact hfree (hb' ▸ h.claimed b hb)
    · rcases htouch with hb' | hb'
      · have hstate := hlawful.origin
        rw [hb', hfish, hsharks hshark b hb] at hstate
        cases hstate
      · exact hfree (hb' ▸ h.claimed b hb)

/-- A step is a turn that the rules allow. -/
theorem Step.lawful (hs : Step r g c a p p') (hc : g.cellAt c.location = some c)
    (hkind : c.state = shark ∨ c.state = fish) : Lawful r g a where
  kind := hs.state ▸ hkind
  origin := by rw [hs.origin, Grid.stateAt_of_cellAt hc, hs.state]
  reach := by
    rw [hs.origin, hs.state]
    rcases hs.reach with ⟨hprey, hstay | ⟨hwater, -⟩⟩ | ⟨hshark, hprey, hfish, -⟩
    · exact Or.inl ⟨hprey, Or.inl hstay⟩
    · exact Or.inl ⟨hprey, Or.inr hwater⟩
    · exact Or.inr ⟨hshark, hprey, hfish⟩
  outcome c' hc' := by
    rw [hs.origin] at hc'
    obtain rfl := Option.some.inj (hc.symm.trans hc')
    rw [hs.outcome, hs.state, hs.origin]

/-- A step keeps the work of a tick coherent. -/
theorem Coherent.step (h : Coherent r g p) (hs : Step r g c a p p')
    (hc : g.cellAt c.location = some c) (hkind : c.state = shark ∨ c.state = fish)
    (hnew : ∀ b ∈ p.acts, b.origin ≠ c.location) (huneaten : c.location ∉ p.eaten)
    (hsharks : c.state = shark → ∀ b ∈ p.acts, b.state = shark) : Coherent r g p' := by
  have hapart : ∀ b ∈ p.acts, Apart a b :=
    fun b hb => h.apart_step hs hc hkind hnew huneaten hsharks hb
  have hcell : g.cellAt a.origin = some c := by rw [hs.origin]; exact hc
  have hothers : ∀ b ∈ p.acts, ∀ l, b.Touches l → p'.next[l]? = p.next[l]? := by
    intro b hb l hl
    have hnot : ¬ a.Touches l := fun ha => hapart b hb l ha hl
    rw [hs.next, if_neg (fun heq => hnot (Or.inr heq)), if_neg (fun heq => hnot (Or.inl heq))]
  constructor
  case lawful =>
    intro b hb
    rcases hs.mem_acts.mp hb with rfl | hold
    · exact hs.lawful hc hkind
    · exact h.lawful b hold
  case claimed =>
    intro b hb
    rcases hs.mem_acts.mp hb with rfl | hold
    · exact hs.claimed _ (Or.inl rfl)
    · exact hs.claimed _ (Or.inr (h.claimed b hold))
  case eaten =>
    intro l
    rw [hs.eaten, h.eaten, hs.acts, List.exists_mem_cons_iff]
  case apart =>
    rw [hs.acts]
    exact List.pairwise_cons.mpr ⟨hapart, h.apart⟩
  case ended =>
    intro b hb c' hc'
    rcases hs.mem_acts.mp hb with rfl | hold
    · obtain rfl := Option.some.inj (hcell.symm.trans hc')
      rw [hs.next, if_pos rfl, hs.state]
    · rw [hothers b hold _ (Or.inr rfl)]
      exact h.ended b hold c' hc'
  case left =>
    intro b hb hmoved
    rcases hs.mem_acts.mp hb with rfl | hold
    · rw [hs.next, if_neg hmoved, if_pos rfl]
    · rw [hothers b hold _ (Or.inl rfl)]
      exact h.left b hold hmoved
  case kept =>
    intro l hl
    have hnot := hl a (hs.mem_acts.mpr (Or.inl rfl))
    rw [hs.next, if_neg (fun heq => hnot (Or.inr heq)), if_neg (fun heq => hnot (Or.inl heq))]
    exact h.kept l fun b hb => hl b (hs.mem_acts.mpr (Or.inr hb))

/-- The work of a tick while creatures of one state are still to be called. -/
structure Pending (r : Rules) (g : Grid) (state : Nat) (waiting : List Cell) (p : Pass ρ) :
    Prop where
  /-- The work so far is coherent. -/
  coherent : Coherent r g p
  /-- Those who wait are creatures of the state on the grid. -/
  cells : ∀ c ∈ waiting, g.cellAt c.location = some c ∧ c.state = state
  /-- They are at different locations. -/
  nodup : (waiting.map Cell.location).Nodup
  /-- They have not had their turns. -/
  fresh : ∀ b ∈ p.acts, ∀ c ∈ waiting, b.origin ≠ c.location
  /-- As long as sharks are called only sharks have had turns. -/
  sharks : state = shark → ∀ b ∈ p.acts, b.state = shark

/-- Somebody who waits may be passed over. -/
theorem Pending.skip {state : Nat} {cs : List Cell} (h : Pending r g state (c :: cs) p) :
    Pending r g state cs p where
  coherent := h.coherent
  cells x hx := h.cells x (List.mem_cons_of_mem c hx)
  nodup := (List.nodup_cons.mp (List.map_cons ▸ h.nodup)).2
  fresh b hb x hx := h.fresh b hb x (List.mem_cons_of_mem c hx)
  sharks := h.sharks

/-- A step of somebody who waits. -/
theorem Pending.step {state : Nat} {cs : List Cell} (hkind : state = shark ∨ state = fish)
    (h : Pending r g state (c :: cs) p) (hs : Step r g c a p p') (huneaten : c.location ∉ p.eaten) :
    Pending r g state cs p' := by
  obtain ⟨hc, hstate⟩ := h.cells c (List.mem_cons_self ..)
  have hnew : ∀ b ∈ p.acts, b.origin ≠ c.location :=
    fun b hb => h.fresh b hb c (List.mem_cons_self ..)
  refine ⟨h.coherent.step hs hc (hstate ▸ hkind) hnew huneaten (hstate ▸ h.sharks),
    h.skip.cells, h.skip.nodup, ?_, ?_⟩
  · intro b hb x hx
    rcases hs.mem_acts.mp hb with rfl | hold
    · have hnodup := h.nodup
      rw [List.map_cons, List.nodup_cons] at hnodup
      rw [hs.origin]
      intro heq
      exact hnodup.1 (heq ▸ List.mem_map_of_mem hx)
    · exact h.skip.fresh b hold x hx
  · intro hshark b hb
    rcases hs.mem_acts.mp hb with rfl | hold
    · rw [hs.state, hstate, hshark]
    · exact h.sharks hshark b hold

/-- What it means that calling a creature in a coherent pass is a step of a creature that has
not been eaten, or nothing if it has been. -/
def Calls (r : Rules) (g : Grid) (visit : Pass ρ → Cell → Pass ρ) (c : Cell) : Prop :=
  ∀ p, Coherent r g p → (∃ a, Step r g c a p (visit p c) ∧ c.location ∉ p.eaten) ∨
    c.location ∈ p.eaten ∧ visit p c = p

/-- Calling creatures of one state keeps the work of a tick coherent and all turns before, and
each of these creatures has a turn unless it has been eaten. -/
theorem Pending.foldl {state : Nat} {cs : List Cell} {visit : Pass ρ → Cell → Pass ρ}
    (hkind : state = shark ∨ state = fish) (hvisit : ∀ c ∈ cs, Calls r g visit c)
    (h : Pending r g state cs p) :
    Pending r g state [] (cs.foldl visit p) ∧
      (∀ b ∈ p.acts, b ∈ (cs.foldl visit p).acts) ∧
      ∀ c ∈ cs, c.location ∈ (cs.foldl visit p).eaten ∨
        ∃ a ∈ (cs.foldl visit p).acts, a.origin = c.location := by
  induction cs generalizing p with
  | nil => exact ⟨h, fun b hb => hb, by simp⟩
  | cons c cs ih =>
    have hrest := fun x hx => hvisit x (List.mem_cons_of_mem c hx)
    rw [List.foldl_cons]
    rcases hvisit c (List.mem_cons_self ..) p h.coherent with ⟨a, hs, huneaten⟩ | ⟨heaten, hsame⟩
    · obtain ⟨hend, hkeep, hdone⟩ := ih hrest (h.step hkind hs huneaten)
      have ha : a ∈ (visit p c).acts := hs.acts ▸ List.mem_cons_self ..
      refine ⟨hend, fun b hb => hkeep b (hs.acts ▸ List.mem_cons_of_mem a hb), ?_⟩
      intro x hx
      rcases List.mem_cons.mp hx with rfl | hlater
      · exact Or.inr ⟨a, hkeep a ha, hs.origin⟩
      · exact hdone x hlater
    · rw [hsame]
      obtain ⟨hend, hkeep, hdone⟩ := ih hrest h.skip
      refine ⟨hend, hkeep, ?_⟩
      intro x hx
      rcases List.mem_cons.mp hx with rfl | hlater
      · obtain ⟨b, hb, hprey⟩ := (h.coherent.eaten _).mp heaten
        exact Or.inl ((hend.coherent.eaten _).mpr ⟨b, hkeep b hb, hprey⟩)
      · exact hdone x hlater

/-- Whatever calling each creature keeps holds after all of one state have been called. -/
theorem Pending.induction {state : Nat} {cs : List Cell} {visit : Pass ρ → Cell → Pass ρ}
    {J : Pass ρ → Prop} (hkind : state = shark ∨ state = fish)
    (hvisit : ∀ c ∈ cs, Calls r g visit c)
    (hstep : ∀ c rest p, Pending r g state (c :: rest) p → J p → J (visit p c))
    (h : Pending r g state cs p) (hJ : J p) : J (cs.foldl visit p) := by
  induction cs generalizing p with
  | nil => exact hJ
  | cons c cs ih =>
    have hnext := hstep c cs p h hJ
    refine ih (fun x hx => hvisit x (List.mem_cons_of_mem c hx)) ?_ hnext
    rcases hvisit c (List.mem_cons_self ..) p h.coherent with ⟨a, hs, huneaten⟩ | ⟨-, hsame⟩
    · exact h.step hkind hs huneaten
    · rw [hsame]
      exact h.skip

variable [WordSource ρ]

/-- The cells of a state are at different locations of a well-formed grid. -/
theorem cellsOf_spec (hwf : g.WellFormed) (state : Nat) :
    (∀ c ∈ g.cellList.filter fun c => c.state == state,
      g.cellAt c.location = some c ∧ c.state = state) ∧
    ((g.cellList.filter fun c => c.state == state).map Cell.location).Nodup := by
  constructor
  · intro c hc
    obtain ⟨hmem, hstate⟩ := List.mem_filter.mp hc
    exact ⟨hwf.mem_cellList_iff.mp hmem, by simpa using hstate⟩
  · exact hwf.nodup_locations.sublist (List.filter_sublist.map Cell.location)

/-- Calling a shark is a step. -/
theorem calls_actShark (hc : g.cellAt c.location = some c) (hshark : c.state = shark) :
    Calls r g (r.actShark g : Pass ρ → Cell → Pass ρ) c := by
  intro p hp
  obtain ⟨a, hs⟩ := exists_step_actShark r g p hshark
  exact Or.inl ⟨a, hs, hp.shark_uneaten hc hshark⟩

/-- Calling a fish is a step unless it has been eaten. -/
theorem calls_actFishAlive (hfish : c.state = fish) :
    Calls r g (r.actFishAlive g : Pass ρ → Cell → Pass ρ) c := by
  intro p hp
  rw [Rules.actFishAlive]
  by_cases heaten : c.location ∈ p.eaten
  · exact Or.inr ⟨heaten, if_pos (Std.ExtTreeSet.contains_iff_mem.mpr heaten)⟩
  · rw [if_neg (fun h => heaten (Std.ExtTreeSet.contains_iff_mem.mp h))]
    obtain ⟨a, hs⟩ := exists_step_actFish r g p hfish
    exact Or.inl ⟨a, hs, heaten⟩

omit [WordSource ρ] in
/-- Before anybody has acted all sharks are to be called. -/
theorem Pending.sharks_start (r : Rules) (hwf : g.WellFormed) (source : ρ) :
    Pending r g shark (g.cellList.filter fun c => c.state == shark) (Pass.start g source) where
  coherent := Coherent.start r g source
  cells := (cellsOf_spec hwf shark).1
  nodup := (cellsOf_spec hwf shark).2
  fresh _ hb := absurd hb (List.not_mem_nil)
  sharks _ _ hb := absurd hb (List.not_mem_nil)

/-- The turns of all sharks are coherent, and all sharks act. -/
theorem coherent_actSharks (r : Rules) (hwf : g.WellFormed) (source : ρ) :
    Coherent r g (r.actSharks g (Pass.start g source)) ∧
      (∀ a ∈ (r.actSharks g (Pass.start g source)).acts, a.state = shark) ∧
      ∀ c, g.cellAt c.location = some c → c.state = shark →
        ∃ a ∈ (r.actSharks g (Pass.start g source)).acts, a.origin = c.location := by
  have hstart := Pending.sharks_start r hwf source
  obtain ⟨hend, -, hdone⟩ := hstart.foldl (Or.inl rfl)
    fun c hc => calls_actShark (hstart.cells c hc).1 (hstart.cells c hc).2
  refine ⟨hend.coherent, hend.sharks rfl, ?_⟩
  intro c hc hshark
  have hmem : c ∈ g.cellList.filter fun c => c.state == shark :=
    List.mem_filter.mpr ⟨hwf.mem_cellList_iff.mpr hc, by simp [hshark]⟩
  exact (hdone c hmem).resolve_left (hend.coherent.shark_uneaten hc hshark)

/-- After the sharks all fish are to be called. -/
theorem Pending.fish_start (r : Rules) (hwf : g.WellFormed) (source : ρ) :
    Pending r g fish (g.cellList.filter fun c => c.state == fish)
      (r.actSharks g (Pass.start g source)) where
  coherent := (coherent_actSharks r hwf source).1
  cells := (cellsOf_spec hwf fish).1
  nodup := (cellsOf_spec hwf fish).2
  fresh b hb c hc heq := by
    -- a shark is not where a fish is
    obtain ⟨hsharks, honly, -⟩ := coherent_actSharks r hwf source
    obtain ⟨hcell, hfish⟩ := (cellsOf_spec hwf fish).1 c hc
    have hstate := (hsharks.lawful b hb).origin
    rw [heq, Grid.stateAt_of_cellAt hcell, hfish, honly b hb] at hstate
    cases hstate
  sharks h := by cases h

/-- The whole work of a tick is coherent, and all creatures act except the fish that are
eaten. -/
theorem coherent_pass (r : Rules) (hwf : g.WellFormed) (source : ρ) :
    Coherent r g (r.pass g source) ∧
      ∀ c, g.cellAt c.location = some c → c.state = shark ∨ c.state = fish →
        c.location ∈ (r.pass g source).eaten ∨
          ∃ a ∈ (r.pass g source).acts, a.origin = c.location := by
  have hstart := Pending.fish_start r hwf source
  obtain ⟨hend, hkeep, hdone⟩ := hstart.foldl (Or.inr rfl)
    fun c hc => calls_actFishAlive (hstart.cells c hc).2
  refine ⟨hend.coherent, ?_⟩
  intro c hc hkind
  rcases hkind with hshark | hfish
  · obtain ⟨a, ha, horigin⟩ := (coherent_actSharks r hwf source).2.2 c hc hshark
    exact Or.inr ⟨a, hkeep a ha, horigin⟩
  · exact hdone c (List.mem_filter.mpr ⟨hwf.mem_cellList_iff.mpr hc, by simp [hfish]⟩)

end CellularAutomata.PredatorPrey
