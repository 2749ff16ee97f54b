import CellularAutomata.Proofs.Grid.Batches
import CellularAutomata.Proofs.PredatorPrey.Range

/-!
# Accounts of predators and prey

What a tick comes to, turn by turn: who acts, who is eaten, who starves, where survivors
and newborns are. The creatures on the grid after the tick are those that the turns have
placed, each at a position of its own, and so the counts of fish and sharks follow from
the numbers of meals, deaths and births. A tick that comes upon a counter beyond its range
comes to nothing; before it can be told that this does not happen.
-/

namespace CellularAutomata.PredatorPrey

variable {ρ : Type} {r : Rules} {g : Grid} {p : Pass ρ} {a : Act}

/-- Where a turn leaves a survivor, and a newborn if there is one. -/
def Act.placements (a : Act) : List Location :=
  match a.outcome with
  | .starved => []
  | .settled => [a.destination]
  | .bred => [a.destination, a.origin]

/-- How many newborns of a state the turns leave. -/
def births (acts : List Act) (state : Nat) : Nat :=
  acts.countP fun a => a.state == state && a.outcome == .bred

/-- How many sharks starve. -/
def deaths (acts : List Act) : Nat := acts.countP fun a => a.outcome == .starved

/-- The positions of the fish that are eaten. -/
def meals (acts : List Act) : List Location := acts.filterMap Act.prey

/-- A turn ends with a newborn just when the creature survives, has gone elsewhere and its
counter has reached its breeding time. -/
theorem verdict_eq_bred {state : Nat} {origin destination : Location} {k : Creature} :
    r.verdict state origin destination k = .bred ↔
      r.verdict state origin destination k ≠ .starved ∧ destination ≠ origin ∧
        r.breedTime state ≤ k.breedTimer := by
  unfold Rules.verdict
  by_cases hstarved : state = shark ∧ k.energy ≤ 0
  · simp [hstarved]
  · by_cases hbred : destination ≠ origin ∧ r.breedTime state ≤ k.breedTimer
    · simp [hstarved, hbred]
    · simp only [if_neg hstarved, if_neg hbred]
      simpa using hbred

/-- A turn ends with a death just when a shark has used up its energy. -/
theorem verdict_eq_starved {state : Nat} {origin destination : Location} {k : Creature} :
    r.verdict state origin destination k = .starved ↔ state = shark ∧ k.energy ≤ 0 := by
  unfold Rules.verdict
  by_cases hstarved : state = shark ∧ k.energy ≤ 0
  · simp [hstarved]
  · rw [if_neg hstarved]
    constructor
    · intro h
      split at h <;> cases h
    · exact fun h => absurd h hstarved

/-- The breeding counter goes up by one in a turn. -/
theorem grown_breedTimer (r : Rules) (state : Nat) (prey : Option Location) (k : Creature) :
    (r.grown state prey k).breedTimer = k.breedTimer + 1 := by
  rw [Rules.grown]
  split <;> rfl

/-- A turn that ends with a newborn does not end where it began. -/
theorem Lawful.moved_of_bred (h : Lawful r g a) (hbred : a.outcome = .bred) :
    a.destination ≠ a.origin := by
  obtain ⟨c, hc, -⟩ := Option.map_eq_some_iff.mp h.origin
  rw [h.outcome c hc] at hbred
  exact (verdict_eq_bred.mp hbred).2.1

/-- Only sharks starve. -/
theorem Lawful.shark_of_starved (h : Lawful r g a) (hstarved : a.outcome = .starved) :
    a.state = shark := by
  obtain ⟨c, hc, -⟩ := Option.map_eq_some_iff.mp h.origin
  rw [h.outcome c hc] at hstarved
  exact (verdict_eq_starved.mp hstarved).1

/-- A survivor is placed at its destination and a newborn at the origin of its parent. -/
theorem Act.mem_placements {l : Location} :
    l ∈ a.placements ↔
      a.destination = l ∧ a.outcome ≠ .starved ∨ a.origin = l ∧ a.outcome = .bred := by
  rw [placements]
  cases a.outcome <;> simp [eq_comm]

/-- What a creature comes to at its destination has its state, unless it has starved. -/
theorem Act.state_endCell (a : Act) (k : Creature) :
    (a.endCell k).state = if a.outcome = .starved then water else a.state := by
  rw [endCell]
  cases a.outcome <;> rfl

/-- What a creature leaves where it was has its state if there is a newborn. -/
theorem Rules.state_leftCell (r : Rules) (a : Act) :
    (r.leftCell a).state = if a.outcome = .bred then a.state else water := by
  rw [leftCell]
  split <;> rfl

/-- Survivors and newborns are where their turn began or ended. -/
theorem Act.touches_of_mem_placements {l : Location} (h : l ∈ a.placements) : a.Touches l := by
  rcases mem_placements.mp h with ⟨hend, -⟩ | ⟨horigin, -⟩
  · exact Or.inr hend
  · exact Or.inl horigin

/-- Nobody is placed where somebody else of the same tick is placed. -/
theorem Coherent.nodup_placements (h : Coherent r g p) :
    (p.acts.flatMap Act.placements).Nodup := by
  rw [List.nodup_flatMap]
  constructor
  · intro a ha
    rw [Act.placements]
    split
    next => exact List.nodup_nil
    next => exact List.nodup_singleton _
    next hbred =>
      rw [List.nodup_cons, List.mem_singleton]
      exact ⟨(h.lawful a ha).moved_of_bred hbred, List.nodup_singleton _⟩
  · refine h.apart.imp ?_
    intro a b hab l ha hb
    exact hab l (Act.touches_of_mem_placements ha) (Act.touches_of_mem_placements hb)

/-- No creature has two turns. -/
theorem Coherent.nodup_origins (h : Coherent r g p) : (p.acts.map Act.origin).Nodup := by
  rw [List.Nodup, List.pairwise_map]
  refine h.apart.imp ?_
  intro a b hab heq
  exact hab a.origin (Or.inl rfl) (Or.inl heq.symm)

/-- No fish is eaten twice. -/
theorem Coherent.nodup_meals (h : Coherent r g p) : (meals p.acts).Nodup := by
  rw [meals, List.Nodup, List.pairwise_filterMap]
  refine h.apart.imp_of_mem ?_
  intro a b ha hb hab l hl l' hl' heq
  have hla := ((h.lawful a ha).prey hl).2.1
  have hlb := ((h.lawful b hb).prey hl').2.1
  exact hab l (Or.inr hla) (Or.inr (hlb.trans heq.symm))

/-- What is eaten has no turn. -/
theorem Coherent.origin_not_mem_meals (h : Coherent r g p) (ha : a ∈ p.acts) :
    a.origin ∉ meals p.acts := by
  intro hmem
  obtain ⟨b, hb, hprey⟩ := List.mem_filterMap.mp hmem
  obtain ⟨hshark, hdestination, hfish⟩ := (h.lawful b hb).prey hprey
  by_cases hab : a = b
  · subst hab
    rw [(h.lawful a ha).origin, hshark] at hfish
    cases hfish
  · exact h.apart.forall ha hb hab a.origin (Or.inl rfl) (Or.inr hdestination)

/-- Wherever a turn begins or ends there is a cell. -/
theorem Lawful.populated (h : Lawful r g a) {l : Location} (hl : a.Touches l) :
    (g.cellAt l).isSome = true := by
  have hstate : ∀ {l : Location} {state : Nat}, g.stateAt l = some state →
      (g.cellAt l).isSome = true := by
    intro l state hl
    obtain ⟨c, hc, -⟩ := Option.map_eq_some_iff.mp hl
    exact Option.isSome_iff_exists.mpr ⟨c, hc⟩
  rcases hl with rfl | rfl
  · exact hstate h.origin
  · rcases h.reach with ⟨-, hstay | hwater⟩ | ⟨-, -, hfish⟩
    · rw [hstay]
      exact hstate h.origin
    · exact hstate hwater
    · exact hstate hfish

/-- The cells as they will be are where they ought to be, and just where there were cells
before. -/
theorem Coherent.next_spec (hwf : g.WellFormed) (h : Coherent r g p) (l : Location) :
    (p.next[l]?).isSome = (g.cellAt l).isSome ∧ ∀ c, p.next[l]? = some c → c.location = l := by
  by_cases htouch : ∃ a ∈ p.acts, a.Touches l
  · obtain ⟨a, ha, hl⟩ := htouch
    have hlawful := h.lawful a ha
    obtain ⟨old, hold, -⟩ := Option.map_eq_some_iff.mp hlawful.origin
    have hnext : ∃ c, p.next[l]? = some c ∧ c.location = l := by
      by_cases hend : a.destination = l
      · subst hend
        refine ⟨_, h.ended a ha old hold, ?_⟩
        rw [Act.endCell]
        split <;> rfl
      · obtain rfl := hl.resolve_right hend
        refine ⟨_, h.left a ha hend, ?_⟩
        rw [Rules.leftCell]
        split <;> rfl
    obtain ⟨c, hc, hloc⟩ := hnext
    rw [hc, hlawful.populated hl]
    exact ⟨rfl, fun c' hc' => Option.some.inj hc' ▸ hloc⟩
  · rw [h.kept l (fun a ha hl => htouch ⟨a, ha, hl⟩)]
    exact ⟨rfl, fun c hc => hwf.location hc⟩

variable [WordSource ρ]

/-- A tick updates the cells that will be different. -/
theorem mem_updates (r : Rules) (hwf : g.WellFormed) {source : ρ} {u : CellUpdate} :
    u ∈ (r.tick g source).updates ↔
      ∃ c : Cell, (r.pass g source).next[c.location]? = some c ∧ g.cellAt c.location ≠ some c ∧
        u = .place c.location c := by
  have hcoherent := (coherent_pass r hwf source).1
  simp only [Rules.tick, List.mem_map, List.mem_filter, Grid.mem_values, bne_iff_ne, ne_eq]
  constructor
  · rintro ⟨c, ⟨⟨l, hl⟩, hchanged⟩, rfl⟩
    obtain rfl := (hcoherent.next_spec hwf l).2 c hl
    exact ⟨c, hl, hchanged, rfl⟩
  · rintro ⟨c, hc, hchanged, rfl⟩
    exact ⟨c, ⟨⟨_, hc⟩, hchanged⟩, rfl⟩

/-- The updates of a tick can be carried out in any order. -/
theorem admits_tick (r : Rules) (hwf : g.WellFormed) (source : ρ) :
    g.Admits (r.tick g source).updates where
  once := by
    have hcoherent := (coherent_pass r hwf source).1
    have hlocations := Grid.map_location_values fun l c => (hcoherent.next_spec hwf l).2 c
    have hnodup : ((r.pass g source).next.values.map Cell.location).Nodup := by
      rw [hlocations]
      exact Grid.nodup_of_sorted Std.ExtTreeMap.ordered_keys
    rw [Rules.tick, List.map_map]
    exact hnodup.sublist (List.filter_sublist.map Cell.location)
  populated u hu := by
    have hcoherent := (coherent_pass r hwf source).1
    obtain ⟨c, hc, -, hplace⟩ := (mem_updates r hwf).mp hu
    have hsome := (hcoherent.next_spec hwf c.location).1
    rw [hc] at hsome
    rw [hplace]
    exact hsome.symm
  placed u hu := by
    obtain ⟨c, -, -, hplace⟩ := (mem_updates r hwf).mp hu
    exact hplace ▸ rfl

/-- The grid after a tick has the cells that the turns have written. -/
theorem cellAt_tick (r : Rules) (hwf : g.WellFormed) (source : ρ) (l : Location) :
    (g.apply (r.tick g source).updates).cellAt l = (r.pass g source).next[l]? := by
  obtain ⟨hsome, hloc⟩ := (coherent_pass r hwf source).1.next_spec hwf l
  cases hnext : (r.pass g source).next[l]? with
  | none =>
    rw [hnext] at hsome
    rw [← Option.not_isSome_iff_eq_none, Grid.isSome_cellAt_apply, ← hsome]
    exact Bool.false_ne_true
  | some c =>
    obtain rfl := hloc c hnext
    have hadmits := admits_tick r hwf source
    by_cases hchanged : g.cellAt c.location = some c
    · rw [hadmits.cellAt_apply_of_forall_ne, hchanged]
      intro u hu hl
      obtain ⟨c', hc', hchanged', rfl⟩ := (mem_updates r hwf).mp hu
      have hl' : c'.location = c.location := hl
      rw [hl', hnext] at hc'
      obtain rfl := Option.some.inj hc'
      exact hchanged' hchanged
    · have hu : CellUpdate.place c.location c ∈ (r.tick g source).updates :=
        (mem_updates r hwf).mpr ⟨c, hnext, hchanged, rfl⟩
      exact hadmits.cellAt_apply hu

/-- What a creature comes to at its destination. -/
theorem cellAt_destination (r : Rules) (hwf : g.WellFormed) (source : ρ) {c : Cell}
    (ha : a ∈ (r.pass g source).acts) (hc : g.cellAt a.origin = some c) :
    (g.apply (r.tick g source).updates).cellAt a.destination =
      some (a.endCell (r.grown a.state a.prey (r.creatureOf c))) := by
  rw [cellAt_tick r hwf source]
  exact (coherent_pass r hwf source).1.ended a ha c hc

/-- What a creature leaves where it was. -/
theorem cellAt_origin (r : Rules) (hwf : g.WellFormed) (source : ρ)
    (ha : a ∈ (r.pass g source).acts) (hmoved : a.destination ≠ a.origin) :
    (g.apply (r.tick g source).updates).cellAt a.origin = some (r.leftCell a) := by
  rw [cellAt_tick r hwf source]
  exact (coherent_pass r hwf source).1.left a ha hmoved

/-- A shark or a fish after a tick is where some turn began or ended. -/
theorem exists_touches_of_stateAt_tick (r : Rules) (hwf : g.WellFormed) (source : ρ) {state : Nat}
    (hkind : state = shark ∨ state = fish) {l : Location}
    (hstate : (g.apply (r.tick g source).updates).stateAt l = some state) :
    ∃ a ∈ (r.pass g source).acts, a.Touches l := by
  obtain ⟨hcoherent, hall⟩ := coherent_pass r hwf source
  obtain ⟨c, hc, rfl⟩ := Option.map_eq_some_iff.mp hstate
  by_contra hnone
  have hkept := hcoherent.kept l fun a ha hl => hnone ⟨a, ha, hl⟩
  rw [cellAt_tick r hwf source, hkept] at hc
  obtain rfl := hwf.location hc
  -- a creature that was there has acted or has been eaten, and both touch its position
  rcases hall c hc hkind with heaten | ⟨a, ha, horigin⟩
  · obtain ⟨b, hb, hprey⟩ := (hcoherent.eaten _).mp heaten
    exact hnone ⟨b, hb, Or.inr ((hcoherent.lawful b hb).prey hprey).2.1⟩
  · exact hnone ⟨a, ha, Or.inl horigin⟩

/-- After a tick there are sharks and fish just where turns have placed them. -/
theorem stateAt_tick_iff (r : Rules) (hwf : g.WellFormed) (source : ρ) {state : Nat}
    (hkind : state = shark ∨ state = fish) (l : Location) :
    (g.apply (r.tick g source).updates).stateAt l = some state ↔
      ∃ a ∈ (r.pass g source).acts, a.state = state ∧ l ∈ a.placements := by
  have hcoherent := (coherent_pass r hwf source).1
  have hwater : water ≠ state := by rcases hkind with rfl | rfl <;> decide
  constructor
  · intro hstate
    obtain ⟨a, ha, hl⟩ := exists_touches_of_stateAt_tick r hwf source hkind hstate
    obtain ⟨old, hold, -⟩ := Option.map_eq_some_iff.mp (hcoherent.lawful a ha).origin
    refine ⟨a, ha, ?_⟩
    by_cases hend : a.destination = l
    · subst hend
      have hcell := cellAt_destination r hwf source ha hold
      rw [Grid.stateAt_of_cellAt hcell, Act.state_endCell, Option.some.injEq] at hstate
      split at hstate
      next => exact absurd hstate hwater
      next hlives => exact ⟨hstate, Act.mem_placements.mpr (Or.inl ⟨rfl, hlives⟩)⟩
    · obtain rfl := hl.resolve_right hend
      have hcell := cellAt_origin r hwf source ha hend
      rw [Grid.stateAt_of_cellAt hcell, Rules.state_leftCell, Option.some.injEq] at hstate
      split at hstate
      next hbred => exact ⟨hstate, Act.mem_placements.mpr (Or.inr ⟨rfl, hbred⟩)⟩
      next => exact absurd hstate hwater
  · rintro ⟨a, ha, rfl, hl⟩
    have hlawful := hcoherent.lawful a ha
    obtain ⟨old, hold, -⟩ := Option.map_eq_some_iff.mp hlawful.origin
    rcases Act.mem_placements.mp hl with ⟨rfl, hlives⟩ | ⟨rfl, hbred⟩
    · have hcell := cellAt_destination r hwf source ha hold
      rw [Grid.stateAt_of_cellAt hcell, Act.state_endCell, if_neg hlives]
    · have hcell := cellAt_origin r hwf source ha (hlawful.moved_of_bred hbred)
      rw [Grid.stateAt_of_cellAt hcell, Rules.state_leftCell, if_pos hbred]

omit [WordSource ρ] in
/-- A turn places one creature, and another one if there is a newborn, unless the creature
starves. -/
theorem Act.length_placements (a : Act) :
    a.placements.length + (if a.outcome == .starved then 1 else 0) =
      1 + if a.outcome == .bred then 1 else 0 := by
  rw [placements]
  cases a.outcome <;> rfl

omit [WordSource ρ] in
/-- The placements of the creatures of a state, with those who starve, are as many as the
turns with the newborns. -/
theorem length_placements (acts : List Act) (state : Nat) :
    ((acts.filter fun a => a.state == state).flatMap Act.placements).length +
        acts.countP (fun a => a.state == state && a.outcome == .starved) =
      (acts.filter fun a => a.state == state).length + births acts state := by
  induction acts with
  | nil => rfl
  | cons a acts ih =>
    rw [births] at ih ⊢
    by_cases hstate : a.state = state
    · have hplaced := a.length_placements
      rw [List.filter_cons_of_pos (by simpa using hstate), List.flatMap_cons, List.length_append,
        List.length_cons, List.countP_cons, List.countP_cons]
      simp only [hstate, beq_self_eq_true, Bool.true_and]
      omega
    · rw [List.filter_cons_of_neg (by simpa using hstate),
        List.countP_cons_of_neg (by simp [hstate]), List.countP_cons_of_neg (by simp [hstate])]
      exact ih

/-- After a tick there are as many creatures of a state as turns have placed. -/
theorem countState_tick (r : Rules) (hwf : g.WellFormed) (source : ρ) {state : Nat}
    (hkind : state = shark ∨ state = fish) :
    (g.apply (r.tick g source).updates).countState state =
      (((r.pass g source).acts.filter fun a => a.state == state).flatMap
        Act.placements).length := by
  have hnodup := (coherent_pass r hwf source).1.nodup_placements
  refine (hwf.apply _).countState_eq_length ?_ ?_
  · exact hnodup.sublist (List.filter_sublist.flatMap Act.placements)
  · intro l
    rw [stateAt_tick_iff r hwf source hkind, List.mem_flatMap]
    constructor
    · rintro ⟨a, ha, hl⟩
      obtain ⟨hmem, hstate⟩ := List.mem_filter.mp ha
      exact ⟨a, hmem, by simpa using hstate, hl⟩
    · rintro ⟨a, ha, hstate, hl⟩
      exact ⟨a, List.mem_filter.mpr ⟨ha, by simpa using hstate⟩, hl⟩

/-- A location is the origin of a turn just when a shark is there, or a fish that is not
eaten. -/
theorem exists_origin_iff (r : Rules) (hwf : g.WellFormed) (source : ρ) (l : Location)
    (state : Nat) :
    (∃ a ∈ (r.pass g source).acts, a.origin = l ∧ a.state = state) ↔
      g.stateAt l = some state ∧
        (state = shark ∨ state = fish ∧ l ∉ meals (r.pass g source).acts) := by
  obtain ⟨hcoherent, hall⟩ := coherent_pass r hwf source
  constructor
  · rintro ⟨a, ha, rfl, rfl⟩
    have hlawful := hcoherent.lawful a ha
    refine ⟨hlawful.origin, ?_⟩
    rcases hlawful.kind with hshark | hfish
    · exact Or.inl hshark
    · exact Or.inr ⟨hfish, hcoherent.origin_not_mem_meals ha⟩
  · rintro ⟨hstate, hkind⟩
    obtain ⟨c, hc, rfl⟩ := Option.map_eq_some_iff.mp hstate
    obtain rfl := hwf.location hc
    have huneaten : c.location ∉ (r.pass g source).eaten := by
      intro heaten
      rcases hkind with hshark | ⟨-, hnot⟩
      · have hfish := hcoherent.fish_of_eaten heaten
        rw [Grid.stateAt_of_cellAt hc, hshark] at hfish
        cases hfish
      · obtain ⟨b, hb, hprey⟩ := (hcoherent.eaten _).mp heaten
        exact hnot (List.mem_filterMap.mpr ⟨b, hb, hprey⟩)
    obtain ⟨a, ha, horigin⟩ := (hall c hc (hkind.imp_right And.left)).resolve_left huneaten
    have hthere := (hcoherent.lawful a ha).origin
    rw [horigin, Grid.stateAt_of_cellAt hc] at hthere
    exact ⟨a, ha, horigin, (Option.some.inj hthere).symm⟩

omit [WordSource ρ] in
/-- The origins of the turns of a state are where creatures of that state have turns. -/
theorem mem_origins {acts : List Act} {state : Nat} {l : Location} :
    l ∈ (acts.filter fun a => a.state == state).map Act.origin ↔
      ∃ a ∈ acts, a.origin = l ∧ a.state = state := by
  simp only [List.mem_map, List.mem_filter, beq_iff_eq]
  constructor
  · rintro ⟨a, ⟨ha, hstate⟩, hl⟩
    exact ⟨a, ha, hl, hstate⟩
  · rintro ⟨a, ha, hl, hstate⟩
    exact ⟨a, ⟨ha, hstate⟩, hl⟩

/-- Before a tick there are as many sharks as have turns. -/
theorem countState_shark (r : Rules) (hwf : g.WellFormed) (source : ρ) :
    g.countState shark = ((r.pass g source).acts.filter fun a => a.state == shark).length := by
  have hnodup := (coherent_pass r hwf source).1.nodup_origins.sublist
    ((List.filter_sublist (p := fun a => a.state == shark)).map Act.origin)
  rw [hwf.countState_eq_length hnodup, List.length_map]
  intro l
  rw [mem_origins, exists_origin_iff r hwf source]
  simp

/-- Before a tick there are as many fish as have turns and are eaten. -/
theorem countState_fish (r : Rules) (hwf : g.WellFormed) (source : ρ) :
    g.countState fish = ((r.pass g source).acts.filter fun a => a.state == fish).length +
      (meals (r.pass g source).acts).length := by
  obtain ⟨hcoherent, hall⟩ := coherent_pass r hwf source
  have hnodup : (((r.pass g source).acts.filter fun a => a.state == fish).map Act.origin ++
      meals (r.pass g source).acts).Nodup := by
    refine List.Nodup.append ?_ hcoherent.nodup_meals ?_
    · exact hcoherent.nodup_origins.sublist (List.filter_sublist.map Act.origin)
    · intro l horigin hmeal
      obtain ⟨a, ha, rfl, -⟩ := mem_origins.mp horigin
      exact hcoherent.origin_not_mem_meals ha hmeal
  rw [hwf.countState_eq_length hnodup, List.length_append, List.length_map]
  intro l
  rw [List.mem_append, mem_origins, exists_origin_iff r hwf source]
  constructor
  · rintro (⟨hstate, -⟩ | hmeal)
    · exact hstate
    · obtain ⟨b, hb, hprey⟩ := List.mem_filterMap.mp hmeal
      exact ((hcoherent.lawful b hb).prey hprey).2.2
  · intro hstate
    by_cases hmeal : l ∈ meals (r.pass g source).acts
    · exact Or.inr hmeal
    · exact Or.inl ⟨hstate, Or.inr ⟨rfl, hmeal⟩⟩

/-- Nobody but sharks starves. -/
theorem countP_starved (r : Rules) (hwf : g.WellFormed) (source : ρ) (state : Nat) :
    (r.pass g source).acts.countP (fun a => a.state == state && a.outcome == .starved) =
      if state = shark then deaths (r.pass g source).acts else 0 := by
  have hcoherent := (coherent_pass r hwf source).1
  split
  next hshark =>
    refine List.countP_congr ?_
    intro a ha
    simp only [Bool.and_eq_true, beq_iff_eq, and_iff_right_iff_imp]
    intro hstarved
    rw [hshark]
    exact (hcoherent.lawful a ha).shark_of_starved hstarved
  next hother =>
    rw [List.countP_eq_zero]
    intro a ha hboth
    simp only [Bool.and_eq_true, beq_iff_eq] at hboth
    exact hother (hboth.1.symm.trans ((hcoherent.lawful a ha).shark_of_starved hboth.2))

/-- The accounts of a tick: the grids before and after it and the turns of the creatures. -/
structure Balanced (r : Rules) (before after : Grid) (acts : List Act) : Prop where
  /-- Those who have turns are the sharks and the fish that are not eaten. -/
  actors : ∀ l state, (∃ a ∈ acts, a.origin = l ∧ a.state = state) ↔
    before.stateAt l = some state ∧ (state = shark ∨ state = fish ∧ l ∉ meals acts)
  /-- None of them has two turns. -/
  once : (acts.map Act.origin).Nodup
  /-- No fish is eaten by two sharks. -/
  meals_nodup : (meals acts).Nodup
  /-- It is sharks that eat, one fish at a time, and fish that are eaten. -/
  hunters : ∀ a ∈ acts, ∀ l, a.prey = some l →
    a.state = shark ∧ a.destination = l ∧ before.stateAt l = some fish
  /-- No two survivors or newborns are at one position. -/
  placements_nodup : (acts.flatMap Act.placements).Nodup
  /-- Survivors and newborns are the creatures on the grid after the tick. -/
  residents : ∀ l state, state = shark ∨ state = fish →
    (after.stateAt l = some state ↔ ∃ a ∈ acts, a.state = state ∧ l ∈ a.placements)
  /-- The number of fish changes by meals and births. -/
  fish_count : (after.countState fish : Int) =
    before.countState fish - (meals acts).length + births acts fish
  /-- The number of sharks changes by deaths and births. -/
  shark_count : (after.countState shark : Int) =
    before.countState shark - deaths acts + births acts shark
  /-- A shark starves just when it has used up its energy. -/
  starved_iff : ∀ a ∈ acts, ∀ c, before.cellAt a.origin = some c →
    (a.outcome = .starved ↔ a.state = shark ∧
      (r.grown a.state a.prey (r.creatureOf c)).energy ≤ 0)
  /-- There is a birth just when a survivor has gone elsewhere with a full counter. -/
  bred_iff : ∀ a ∈ acts, ∀ c, before.cellAt a.origin = some c →
    (a.outcome = .bred ↔ a.outcome ≠ .starved ∧ a.destination ≠ a.origin ∧
      r.breedTime a.state ≤ (r.creatureOf c).breedTimer + 1)
  /-- The newborn is where its parent was, and the counter of the parent is reset. -/
  bred : ∀ a ∈ acts, ∀ c, before.cellAt a.origin = some c → a.outcome = .bred →
    after.cellAt a.origin = some (.ofCreature a.state a.origin (r.newborn a.state)) ∧
    after.cellAt a.destination = some (.ofCreature a.state a.destination
      ⟨(r.grown a.state a.prey (r.creatureOf c)).energy, 0⟩)
  /-- The counter of a survivor that does not breed goes on. -/
  settled : ∀ a ∈ acts, ∀ c, before.cellAt a.origin = some c → a.outcome = .settled →
    after.cellAt a.destination = some (.ofCreature a.state a.destination
      ⟨(r.grown a.state a.prey (r.creatureOf c)).energy, (r.creatureOf c).breedTimer + 1⟩)

/-- The accounts of a tick are balanced. -/
theorem balanced_advance (r : Rules) (hwf : g.WellFormed) (source : ρ) :
    Balanced r g ((Ruleset.predatorPrey r).advance g source).grid (r.pass g source).acts := by
  have hcoherent := (coherent_pass r hwf source).1
  have hoff : ((Ruleset.predatorPrey r).advance g source).grid =
      g.apply (r.tick g source).updates := rfl
  rw [hoff]
  constructor
  case actors => exact exists_origin_iff r hwf source
  case once => exact hcoherent.nodup_origins
  case meals_nodup => exact hcoherent.nodup_meals
  case hunters => exact fun a ha l hprey => (hcoherent.lawful a ha).prey hprey
  case placements_nodup => exact hcoherent.nodup_placements
  case residents => exact fun l state hkind => stateAt_tick_iff r hwf source hkind l
  case fish_count =>
    have hplaced := length_placements (r.pass g source).acts fish
    rw [← countState_tick r hwf source (Or.inr rfl), countP_starved r hwf source,
      if_neg (by decide)] at hplaced
    have hbefore := countState_fish r hwf source
    omega
  case shark_count =>
    have hplaced := length_placements (r.pass g source).acts shark
    rw [← countState_tick r hwf source (Or.inl rfl), countP_starved r hwf source, if_pos rfl,
      ← countState_shark r hwf source] at hplaced
    omega
  case starved_iff =>
    intro a ha c hc
    rw [(hcoherent.lawful a ha).outcome c hc]
    exact verdict_eq_starved
  case bred_iff =>
    intro a ha c hc
    rw [(hcoherent.lawful a ha).outcome c hc, ← grown_breedTimer r a.state a.prey]
    exact verdict_eq_bred
  case bred =>
    intro a ha c hc hbred
    have hmoved := (hcoherent.lawful a ha).moved_of_bred hbred
    have hleft := cellAt_origin r hwf source ha hmoved
    have hend := cellAt_destination r hwf source ha hc
    rw [Rules.leftCell, if_pos hbred] at hleft
    rw [Act.endCell, hbred] at hend
    exact ⟨hleft, hend⟩
  case settled =>
    intro a ha c hc hsettled
    have hend := cellAt_destination r hwf source ha hc
    rw [Act.endCell, hsettled] at hend
    rw [hend, ← grown_breedTimer r a.state a.prey]

/-- A tick is completed on every moderate grid of whose creatures the counters have room for it, and
the accounts of every tick that is completed are balanced. -/
theorem balanced_tick (r : Rules) (hwf : g.WellFormed) (source : ρ) :
    (g.Moderate → r.policy.layers ≤ 2 ^ 29 →
      (∀ l c, g.cellAt l = some c → c.state = fish ∨ c.state = shark →
        r.HasRoom c.state (r.creatureOf c)) →
      ∃ after, (Ruleset.predatorPrey r).advance? g source = some after) ∧
    ∀ after, (Ruleset.predatorPrey r).advance? g source = some after →
      Balanced r g after.grid (r.pass g source).acts := by
  constructor
  · intro hg hlayers hroom
    refine ⟨_, Ruleset.advance?_eq_some_iff.mpr ⟨?_, rfl⟩⟩
    refine Rules.tickFits_of_turnFits hwf hg hlayers fun a ha c hc => Rules.HasRoom.turnFits ?_
    have hlawful := (coherent_pass r hwf source).1.lawful a ha
    have hstate : c.state = a.state :=
      Option.some.inj ((Grid.stateAt_of_cellAt hc).symm.trans hlawful.origin)
    rw [← hstate]
    exact hroom a.origin c hc (hstate ▸ hlawful.kind.symm)
  · intro after hafter
    obtain ⟨-, rfl⟩ := Ruleset.advance?_eq_some_iff.mp hafter
    exact balanced_advance r hwf source

/-- A row of three cells: a shark, a fish beside it, and water. -/
def pond : Grid :=
  (((Grid.empty 1 3 .fixed).add (.plain shark ⟨0, 0⟩)).add (.plain fish ⟨0, 1⟩)).add (.empty ⟨0, 2⟩)

/-- Rules under which sharks and fish breed after one tick. -/
def pondRules : Rules := ⟨1, 1, 5, 2, ⟨.square4, 1, false⟩, 0⟩

/-- Under these rules a creature that carries no counters has room for a tick. -/
theorem pondRules_hasRoom (state : Nat) : pondRules.HasRoom state (pondRules.newborn state) := by
  refine ⟨(by decide : 0 + 1 < 2 ^ 32), ?_⟩
  rintro rfl
  decide

/-- In the pond the tick is completed, the shark eats the fish and leaves a newborn, and the
accounts are balanced. -/
theorem pond_balanced_tick :
    pond.WellFormed ∧ meals (pondRules.pass pond (Seed.source 0)).acts = [⟨0, 1⟩] ∧
      births (pondRules.pass pond (Seed.source 0)).acts shark = 1 ∧
      ∃ after, (Ruleset.predatorPrey pondRules).advance? pond (Seed.source 0) = some after ∧
        Balanced pondRules pond after.grid (pondRules.pass pond (Seed.source 0)).acts := by
  have hwf : pond.WellFormed := (((Grid.wellFormed_empty 1 3 .fixed).add _).add _).add _
  have hacts : meals (pondRules.pass pond (Seed.source 0)).acts = [⟨0, 1⟩] ∧
      births (pondRules.pass pond (Seed.source 0)).acts shark = 1 := by
    decide +kernel
  have hplain : pond.cellList.all (fun c => c.creature? == none) = true := by decide +kernel
  have hmoderate : pond.Moderate :=
    ⟨by decide +kernel, by decide +kernel, by decide +kernel⟩
  obtain ⟨hcompletes, hbalanced⟩ := balanced_tick pondRules hwf (Seed.source 0)
  obtain ⟨after, hafter⟩ := hcompletes hmoderate (by decide) fun l c hc _ => by
    have hnone : c.creature? = none := by
      simpa using List.all_eq_true.mp hplain c (Grid.mem_cellList.mpr ⟨l, hc⟩)
    rw [Rules.creatureOf, hnone]
    exact pondRules_hasRoom c.state
  exact ⟨hwf, hacts.1, hacts.2, after, hafter, hbalanced after hafter⟩

/-- A fish with the greatest breeding counter that there is, and water beside it. -/
def brim : Grid :=
  ((Grid.empty 1 2 .fixed).add (.ofCreature fish ⟨0, 0⟩ ⟨0, 4294967295⟩)).add (.empty ⟨0, 1⟩)

/-- The breeding counter of the fish at the brim cannot go up, so nothing comes of the tick. -/
theorem brim_not_advanced : brim.WellFormed ∧
    (∀ l c, brim.cellAt l = some c → c.state = water ∨ c.state = fish ∨ c.state = shark) ∧
    (Ruleset.predatorPrey pondRules).advance? brim (Seed.source 0) = none := by
  have hstates : brim.cellList.all (fun c =>
      c.state == water || c.state == fish || c.state == shark) = true := by
    decide +kernel
  have hstops : ((Ruleset.predatorPrey pondRules).completes brim (Seed.source 0)) = false := by
    decide +kernel
  refine ⟨((Grid.wellFormed_empty 1 2 .fixed).add _).add _, fun l c hc => ?_, ?_⟩
  · simpa [or_assoc] using List.all_eq_true.mp hstates c (Grid.mem_cellList.mpr ⟨l, hc⟩)
  · rw [Ruleset.advance?, hstops, if_neg Bool.false_ne_true]

end CellularAutomata.PredatorPrey
