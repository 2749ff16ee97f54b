import CellularAutomata.Motion.PredatorPrey
import CellularAutomata.Proofs.Grid.Contents

/-!
# Turns of predators and prey

What a single turn does to the work of a tick. The creature goes nowhere, to water that
nobody has claimed, or to a fish that nobody has eaten; its counters decide how the turn
ends; and only the cells where it was and where it has gone are written.
-/

namespace CellularAutomata.PredatorPrey

variable {ρ : Type}

/-- The counters of a creature after a turn, before it breeds. A shark gains the energy of
what it has eaten and uses up one unit. -/
def Rules.grown (r : Rules) (state : Nat) (prey : Option Location) (k : Creature) : Creature :=
  if state = shark then
    ⟨k.energy + (if prey.isSome then r.energyFromFish else 0) - 1, k.breedTimer + 1⟩
  else ⟨k.energy, k.breedTimer + 1⟩

/-- How a turn ends for a creature with the given counters. -/
def Rules.verdict (r : Rules) (state : Nat) (origin destination : Location) (k : Creature) :
    Outcome :=
  if state = shark ∧ k.energy ≤ 0 then .starved
  else if destination ≠ origin ∧ r.breedTime state ≤ k.breedTimer then .bred
  else .settled

/-- What a creature leaves where it was, when it goes elsewhere. -/
def Rules.leftCell (r : Rules) (a : Act) : Cell :=
  if a.outcome = .bred then .ofCreature a.state a.origin (r.newborn a.state) else .empty a.origin

/-- What a creature with the given counters comes to at its destination. -/
def Act.endCell (a : Act) (k : Creature) : Cell :=
  match a.outcome with
  | .starved => .empty a.destination
  | .settled => .ofCreature a.state a.destination k
  | .bred => .ofCreature a.state a.destination { k with breedTimer := 0 }

/-- How the work of a tick goes on when a turn is recorded and its cells are written. -/
structure Placed (r : Rules) (k : Creature) (a : Act) (p p' : Pass ρ) : Prop where
  /-- The turn is recorded. -/
  acts : p'.acts = a :: p.acts
  /-- Nobody is eaten. -/
  eaten : p'.eaten = p.eaten
  /-- No claim is given up. -/
  claimed : ∀ l ∈ p.claimed, l ∈ p'.claimed
  /-- The cells at the destination and at the origin are written and no others. -/
  next : ∀ l, p'.next[l]? =
    if a.destination = l then some (a.endCell k)
    else if a.origin = l then some (r.leftCell a)
    else p.next[l]?

/-- A turn of the creature of a cell, and how the work of a tick goes on with it. -/
structure Step (r : Rules) (g : Grid) (c : Cell) (a : Act) (p p' : Pass ρ) : Prop where
  /-- The turn is that of the creature of the cell. -/
  state : a.state = c.state
  /-- It begins where the cell is. -/
  origin : a.origin = c.location
  /-- It ends there or at water that nobody has claimed, or where a shark has eaten a fish
  that nobody else has eaten. -/
  reach : (a.prey = none ∧ (a.destination = c.location ∨
      g.stateAt a.destination = some water ∧ a.destination ∉ p.claimed)) ∨
    (c.state = shark ∧ a.prey = some a.destination ∧ g.stateAt a.destination = some fish ∧
      a.destination ∉ p.eaten ∧ a.destination ∉ p.claimed)
  /-- The counters of the creature decide how it ends. -/
  outcome : a.outcome = r.verdict c.state c.location a.destination
    (r.grown c.state a.prey (r.creatureOf c))
  /-- The turn is recorded. -/
  acts : p'.acts = a :: p.acts
  /-- Its prey has been eaten. -/
  eaten : ∀ l, l ∈ p'.eaten ↔ a.prey = some l ∨ l ∈ p.eaten
  /-- Its destination is claimed and no claim is given up. -/
  claimed : ∀ l, l = a.destination ∨ l ∈ p.claimed → l ∈ p'.claimed
  /-- The cells at the destination and at the origin are written and no others. -/
  next : ∀ l, p'.next[l]? =
    if a.destination = l then some (a.endCell (r.grown c.state a.prey (r.creatureOf c)))
    else if a.origin = l then some (r.leftCell a)
    else p.next[l]?

/-- After a step there is one more turn. -/
theorem Step.mem_acts {r : Rules} {g : Grid} {c : Cell} {a b : Act} {p p' : Pass ρ}
    (hs : Step r g c a p p') : b ∈ p'.acts ↔ b = a ∨ b ∈ p.acts := by
  rw [hs.acts, List.mem_cons]

/-- Inserting a location adds it to a set and nothing else. -/
theorem mem_insert_iff {s : Std.ExtTreeSet Location} {l l' : Location} :
    l' ∈ s.insert l ↔ l' = l ∨ l' ∈ s := by
  rw [Std.ExtTreeSet.mem_insert, Std.LawfulEqCmp.compare_eq_iff_eq, eq_comm]

/-- What is picked is one of the candidates. -/
theorem mem_of_pick [WordSource ρ] {α : Type} {xs : List α} {source : ρ} {x : α}
    (h : (WordSource.pick xs source).1 = some x) : x ∈ xs := by
  rw [WordSource.pick] at h
  split at h
  next => cases h
  next => exact List.mem_of_getElem? h

/-- Settling records a turn that ends with or without a newborn. -/
theorem placed_settle (r : Rules) (p : Pass ρ) (state : Nat) (origin : Location)
    (prey : Option Location) (destination : Location) (k : Creature) :
    Placed r k ⟨state, origin, prey, destination,
        if destination ≠ origin ∧ r.breedTime state ≤ k.breedTimer then .bred else .settled⟩
      p (r.settle p state origin prey destination k) := by
  rw [Rules.settle]
  split
  next h =>
    refine ⟨rfl, rfl, ?_, ?_⟩
    · intro l hl
      exact mem_insert_iff.mpr (Or.inr hl)
    · intro l
      simp [Std.ExtTreeMap.getElem?_insert, Act.endCell, Rules.leftCell]
  next h =>
    refine ⟨rfl, rfl, fun l hl => hl, ?_⟩
    intro l
    by_cases hmoved : destination = origin
    · by_cases hl : origin = l <;>
        simp [Std.ExtTreeMap.getElem?_insert, Act.endCell, hmoved, hl]
    · simp [Std.ExtTreeMap.getElem?_insert, Act.endCell, Rules.leftCell, hmoved]

/-- Starving records a turn that ends so. -/
theorem placed_starve (r : Rules) (p : Pass ρ) (origin : Location) (prey : Option Location)
    (destination : Location) (k : Creature) :
    Placed r k ⟨shark, origin, prey, destination, .starved⟩ p
      (starve p origin prey destination) := by
  refine ⟨rfl, rfl, fun l hl => hl, ?_⟩
  intro l
  simp [starve, Std.ExtTreeMap.getElem?_insert, Act.endCell, Rules.leftCell]

/-- A turn that is recorded after its destination has been claimed and its prey, if any, has
been noted. -/
theorem Placed.step {r : Rules} {g : Grid} {c : Cell} {k : Creature} {a : Act}
    {p p₁ p' : Pass ρ} (h : Placed r k a p₁ p')
    (hk : k = r.grown c.state a.prey (r.creatureOf c))
    (hstate : a.state = c.state) (horigin : a.origin = c.location)
    (hreach : (a.prey = none ∧ (a.destination = c.location ∨
        g.stateAt a.destination = some water ∧ a.destination ∉ p.claimed)) ∨
      (c.state = shark ∧ a.prey = some a.destination ∧ g.stateAt a.destination = some fish ∧
        a.destination ∉ p.eaten ∧ a.destination ∉ p.claimed))
    (houtcome : a.outcome = r.verdict c.state c.location a.destination k)
    (hacts : p₁.acts = p.acts) (hnext : p₁.next = p.next)
    (heaten : ∀ l, l ∈ p₁.eaten ↔ a.prey = some l ∨ l ∈ p.eaten)
    (hclaimed : ∀ l, l ∈ p₁.claimed ↔ l = a.destination ∨ l ∈ p.claimed) :
    Step r g c a p p' where
  state := hstate
  origin := horigin
  reach := hreach
  outcome := hk ▸ houtcome
  acts := by rw [h.acts, hacts]
  eaten l := by rw [h.eaten, heaten]
  claimed l hl := h.claimed l ((hclaimed l).mpr hl)
  next l := by rw [h.next, hnext, hk]

variable [WordSource ρ]

omit [WordSource ρ] in
/-- A creature can go to the neighbors that are water and that nobody has claimed. -/
theorem mem_freeNeighbors {r : Rules} {g : Grid} {p : Pass ρ} {l n : Location} :
    n ∈ r.freeNeighbors g p l ↔
      n ∈ r.policy.neighborLocations g l ∧ g.stateAt n = some water ∧ n ∉ p.claimed := by
  simp [Rules.freeNeighbors, ← Std.ExtTreeSet.contains_iff_mem]

omit [WordSource ρ] in
/-- A shark can eat the neighbors that are fish, that nobody has eaten, and where nobody has
gone. -/
theorem mem_preyNeighbors {r : Rules} {g : Grid} {p : Pass ρ} {l n : Location} :
    n ∈ r.preyNeighbors g p l ↔
      n ∈ r.policy.neighborLocations g l ∧ g.stateAt n = some fish ∧ n ∉ p.eaten ∧
        n ∉ p.claimed := by
  simp [Rules.preyNeighbors, ← Std.ExtTreeSet.contains_iff_mem, and_assoc]

/-- Where a creature goes that does not eat. -/
theorem reach_of_pick {r : Rules} {g : Grid} {p : Pass ρ} {origin : Location} {source : ρ}
    {target : Option Location}
    (h : (WordSource.pick (r.freeNeighbors g p origin) source).1 = target) :
    target.getD origin = origin ∨
      g.stateAt (target.getD origin) = some water ∧ target.getD origin ∉ p.claimed := by
  cases target with
  | none => exact Or.inl rfl
  | some n => exact Or.inr (mem_freeNeighbors.mp (mem_of_pick h)).2

omit [WordSource ρ] in
/-- A shark with the given counters ends its turn as its energy demands. -/
theorem placed_shark (r : Rules) (p : Pass ρ) (origin : Location) (prey : Option Location)
    (destination : Location) (k : Creature) :
    Placed r k ⟨shark, origin, prey, destination, r.verdict shark origin destination k⟩ p
      (if k.energy ≤ 0 then starve p origin prey destination
        else r.settle p shark origin prey destination k) := by
  rw [Rules.verdict]
  by_cases hstarved : k.energy ≤ 0
  · rw [if_pos hstarved, if_pos ⟨rfl, hstarved⟩]
    exact placed_starve r p origin prey destination k
  · rw [if_neg hstarved, if_neg (by simp [hstarved])]
    exact placed_settle r p shark origin prey destination k

omit [WordSource ρ] in
/-- A fish never starves. -/
theorem placed_fish (r : Rules) (p : Pass ρ) (origin : Location) (prey : Option Location)
    (destination : Location) (k : Creature) :
    Placed r k ⟨fish, origin, prey, destination, r.verdict fish origin destination k⟩ p
      (r.settle p fish origin prey destination k) := by
  rw [Rules.verdict, if_neg (by simp [fish, shark])]
  exact placed_settle r p fish origin prey destination k

/-- The turn of a fish is a step. -/
theorem exists_step_actFish (r : Rules) (g : Grid) (p : Pass ρ) {c : Cell} (hc : c.state = fish) :
    ∃ a, Step r g c a p (r.actFish g p c) := by
  have hgrown : (⟨(r.creatureOf c).energy, (r.creatureOf c).breedTimer + 1⟩ : Creature) =
      r.grown c.state none (r.creatureOf c) := by
    rw [Rules.grown, if_neg (by rw [hc]; decide)]
  rcases hpick : WordSource.pick (r.freeNeighbors g p c.location) p.source with ⟨free, source⟩
  have hreach := reach_of_pick (congrArg Prod.fst hpick)
  have hplaced := placed_fish r
    { p with claimed := p.claimed.insert (free.getD c.location), source := source } c.location none
    (free.getD c.location) ⟨(r.creatureOf c).energy, (r.creatureOf c).breedTimer + 1⟩
  rw [Rules.actFish, hpick]
  refine ⟨_, hplaced.step hgrown hc.symm rfl (Or.inl ⟨rfl, hreach⟩) (by rw [hc]) rfl rfl ?_ ?_⟩
  · intro l
    simp
  · exact fun l => mem_insert_iff

/-- The turn of a shark is a step. -/
theorem exists_step_actShark (r : Rules) (g : Grid) (p : Pass ρ) {c : Cell}
    (hc : c.state = shark) : ∃ a, Step r g c a p (r.actShark g p c) := by
  rcases hpick : WordSource.pick (r.preyNeighbors g p c.location) p.source with ⟨prey, source⟩
  rw [Rules.actShark, hpick]
  cases prey with
  | some target =>
    obtain ⟨-, hfish, heaten, hclaimed⟩ :=
      mem_preyNeighbors.mp (mem_of_pick (congrArg Prod.fst hpick))
    have hplaced := placed_shark r
      { p with
        eaten := p.eaten.insert target, claimed := p.claimed.insert target, source := source }
      c.location (some target) target
      ⟨(r.creatureOf c).energy + r.energyFromFish - 1, (r.creatureOf c).breedTimer + 1⟩
    refine ⟨_, hplaced.step ?_ hc.symm rfl (Or.inr ⟨hc, rfl, hfish, heaten, hclaimed⟩)
      (by rw [hc]) rfl rfl ?_ ?_⟩
    · rw [Rules.grown, if_pos hc]
      rfl
    · intro l
      rw [mem_insert_iff, Option.some.injEq, eq_comm]
    · exact fun l => mem_insert_iff
  | none =>
    rcases hfree : WordSource.pick (r.freeNeighbors g p c.location) source with ⟨free, source'⟩
    have hreach := reach_of_pick (congrArg Prod.fst hfree)
    have hplaced := placed_shark r
      { p with claimed := p.claimed.insert (free.getD c.location), source := source' }
      c.location none (free.getD c.location)
      ⟨(r.creatureOf c).energy - 1, (r.creatureOf c).breedTimer + 1⟩
    dsimp only
    rw [hfree]
    refine ⟨_, hplaced.step ?_ hc.symm rfl (Or.inl ⟨rfl, hreach⟩) (by rw [hc]) rfl rfl ?_ ?_⟩
    · rw [Rules.grown, if_pos hc, Option.isSome_none, if_neg Bool.false_ne_true, Int.add_zero]
    · intro l
      simp
    · exact fun l => mem_insert_iff

end CellularAutomata.PredatorPrey
