import CellularAutomata.Proofs.Grid.Shifts
import CellularAutomata.Proofs.Run.Rest
import CellularAutomata.Proofs.Run.States

/-!
# Rotated states

In cyclic dominance no state is special, not even the one that elsewhere stands for an empty
cell. If all states are rotated by the same number of places around the circle, then every state
is still beaten by the one that comes after it, so as many neighbors beat a cell as before. It
makes no difference whether the states are rotated before a run or after it.
-/

namespace CellularAutomata

/-- The cell in the state that takes the place of its own. -/
def Cell.recolored (f : Nat → Nat) (c : Cell) : Cell := c.withState (f c.state)

/-- The update with its cell recolored. -/
def CellUpdate.recolored (f : Nat → Nat) (u : CellUpdate) : CellUpdate :=
  { u with next := u.next.recolored f }

/-- The grid with all its cells recolored. -/
def Grid.recolored (f : Nat → Nat) (g : Grid) : Grid :=
  { g with cells := g.cells.map fun _ c => c.recolored f }

/-- The simulation with its grid recolored. -/
def Simulation.recolored {ρ : Type} (f : Nat → Nat) (s : Simulation ρ) : Simulation ρ :=
  { s with grid := s.grid.recolored f }

variable {f : Nat → Nat} {g : Grid}

namespace Grid

@[simp] theorem cellAt_recolored (g : Grid) (l : Location) :
    (g.recolored f).cellAt l = (g.cellAt l).map (Cell.recolored f) :=
  Std.ExtTreeMap.getElem?_map

@[simp] theorem stateAt_recolored (g : Grid) (l : Location) :
    (g.recolored f).stateAt l = (g.stateAt l).map f := by
  rw [stateAt, stateAt, cellAt_recolored, Option.map_map, Option.map_map]
  rfl

/-- The cells of a recolored grid are the recolored cells in the same order. -/
theorem cellList_recolored (g : Grid) :
    (g.recolored f).cellList = g.cellList.map (Cell.recolored f) := by
  rw [cellList, cellList, values_eq_map_toList, values_eq_map_toList, recolored,
    Std.ExtTreeMap.toList_map, List.map_map, List.map_map]
  rfl

/-- A cell may be recolored before or after it replaces another one. -/
theorem update_recolored (g : Grid) (c : Cell) :
    (g.recolored f).update (c.recolored f) = (g.update c).recolored f := by
  refine ext_cellAt rfl rfl rfl fun l => ?_
  rw [cellAt_update, cellAt_recolored, cellAt_recolored, cellAt_update]
  change (if c.location = l then _ else _) = _
  split
  next => rw [Option.map_map, Option.map_map]; rfl
  next => rfl

/-- Updates may be recolored before or after they are carried out. -/
theorem apply_recolored (g : Grid) (us : List CellUpdate) :
    (g.recolored f).apply (us.map (CellUpdate.recolored f)) = (g.apply us).recolored f := by
  induction us generalizing g with
  | nil => rfl
  | cons u us ih =>
    rw [List.map_cons, apply_cons, apply_cons, ← ih (g.update u.next)]
    exact congrArg (apply · (us.map (CellUpdate.recolored f))) (g.update_recolored u.next)

end Grid

/-- If every recolored cell decides on the recolored next state, then the updates of a tick are
recolored. -/
theorem Tick.updates_cellwise_recolored {ρ : Type} {next next' : Cell → Nat}
    (h : ∀ c ∈ g.cellList, next' (c.recolored f) = f (next c)) (source source' : ρ) :
    (cellwise (fun c s => (next' c, s)) (g.recolored f) source').updates =
      (cellwise (fun c s => (next c, s)) g source).updates.map (CellUpdate.recolored f) := by
  rw [updates_cellwise, updates_cellwise, Grid.cellList_recolored, List.map_map, List.map_map]
  refine List.map_congr_left fun c hc => ?_
  exact congrArg (fun state => CellUpdate.place c.location (c.withState state)) (h c hc)

namespace Dominance

variable {r : Rules}

/-- The state that comes some places after another one in the circle. -/
def Rules.rotate (r : Rules) (k state : Nat) : Nat := (state + k) % r.states

/-- Different states of an automaton are rotated to different ones. -/
theorem Rules.rotate_inj {k state state' : Nat} (h : state < r.states) (h' : state' < r.states) :
    r.rotate k state = r.rotate k state' ↔ state = state' := by
  constructor
  · intro hsame
    have hmod : state ≡ state' [MOD r.states] := Nat.ModEq.add_right_cancel' k hsame
    exact hmod.eq_of_lt_of_lt h h'
  · intro hsame
    rw [hsame]

/-- The state that beats a rotated state is the rotated state that beats it, also where the circle
is closed. -/
theorem Rules.predator_rotate (r : Rules) (k state : Nat) :
    r.predator (r.rotate k state) = r.rotate k (r.predator state) := by
  rw [predator, predator, rotate, rotate, Nat.mod_add_mod, Nat.mod_add_mod, Nat.add_right_comm]

/-- As many neighbors are in a rotated state on the rotated grid as are in the state. -/
theorem countInState_rotate (h : g.StatesBelow r.states) {state : Nat} (hstate : state < r.states)
    (k : Nat) (l : Location) :
    r.policy.countInState (g.recolored (r.rotate k)) l (r.rotate k state) =
      r.policy.countInState g l state := by
  have hlocations : r.policy.neighborLocations (g.recolored (r.rotate k)) l =
      r.policy.neighborLocations g l := rfl
  have hstates : (r.policy.neighborLocations g l).filterMap (g.recolored (r.rotate k)).stateAt =
      ((r.policy.neighborLocations g l).filterMap g.stateAt).map (r.rotate k) := by
    rw [List.map_filterMap]
    exact List.filterMap_congr fun b _ => g.stateAt_recolored b
  rw [NeighborPolicy.countInState_eq, NeighborPolicy.countInState_eq, hlocations, hstates,
    List.countP_map]
  refine List.countP_congr fun seen hseen => ?_
  obtain ⟨b, -, hb⟩ := List.mem_filterMap.mp hseen
  obtain ⟨c, hc, rfl⟩ := Option.map_eq_some_iff.mp hb
  rw [Function.comp_apply, beq_iff_eq, beq_iff_eq]
  exact Rules.rotate_inj (h b c hc) hstate

/-- A rotated cell is converted when the cell is, and to the rotated state. -/
theorem nextState_rotate (h : g.StatesBelow r.states) {c : Cell} (hc : c.state < r.states)
    (k : Nat) :
    r.nextState (g.recolored (r.rotate k)) (c.recolored (r.rotate k)) =
      r.rotate k (r.nextState g c) := by
  have hpredator : r.predator c.state < r.states := Nat.mod_lt _ (by omega)
  have hcount := countInState_rotate h hpredator k c.location
  rw [← r.predator_rotate] at hcount
  rw [Rules.nextState, Rules.nextState]
  change (if r.threshold ≤ r.policy.countInState _ c.location (r.predator (r.rotate k c.state)) then
    r.predator (r.rotate k c.state) else r.rotate k c.state) = _
  rw [hcount, r.predator_rotate]
  exact (apply_ite (r.rotate k) ..).symm

variable {ρ : Type} [WordSource ρ] {s : Simulation ρ}

open Simulation

/-- A run keeps the cells in the states of the circle. -/
theorem statesBelow_after (hr : s.rules = .dominance r) (h : s.grid.StatesBelow r.states)
    (n : Nat) : (s.after n).grid.StatesBelow r.states := by
  induction n with
  | zero => exact h
  | succ n ih =>
    have hstep : (s.after (n + 1)).grid =
        (s.after n).grid.apply ((s.after n).rules.tick _ (s.after n).source).updates := rfl
    rw [hstep, s.rules_after, hr]
    exact (Ruleset.dominance r).statesBelow_cellwise ih _

/-- The states may be rotated before or after a tick. -/
theorem step_recolored (hr : s.rules = .dominance r) (h : s.grid.StatesBelow r.states) (k : Nat) :
    (s.recolored (r.rotate k)).step.simulation = s.step.simulation.recolored (r.rotate k) := by
  have hupdates : (s.recolored (r.rotate k)).upcoming.updates =
      s.upcoming.updates.map (CellUpdate.recolored (r.rotate k)) := by
    change (s.rules.tick (s.grid.recolored (r.rotate k)) s.source).updates =
      (s.rules.tick s.grid s.source).updates.map _
    rw [hr]
    refine Tick.updates_cellwise_recolored (fun c hc => ?_) s.source s.source
    obtain ⟨l, hcell⟩ := Grid.mem_cellList.mp hc
    exact nextState_rotate h (h l c hcell) k
  have hsource : ∀ g : Grid, (s.rules.tick g s.source).source = s.source := by
    intro g
    rw [hr]
    exact Tick.snd_replacing (r.nextState g) g.cellList s.source
  have hadvanced : ∀ s : Simulation ρ, s.step.simulation =
      ⟨s.grid.apply s.upcoming.updates, s.rules, s.upcoming.source, s.tick + 1, s.metricsInterval,
        s.updatesApplied + s.upcoming.updates.length⟩ := fun _ => rfl
  have hdrawn : (s.recolored (r.rotate k)).upcoming.source = s.upcoming.source :=
    (hsource _).trans (hsource _).symm
  rw [hadvanced, hadvanced, hupdates, hdrawn, List.length_map]
  change (⟨(s.grid.recolored (r.rotate k)).apply _, _, _, _, _, _⟩ : Simulation ρ) = _
  rw [Grid.apply_recolored]
  rfl

/-- The states of cyclic dominance are all alike. For any number of states, threshold, neighbors
and edge, if the states on a grid are rotated by some places around the circle before a run, then
the whole run comes to what it comes to otherwise, with the states rotated afterwards. -/
theorem rotation_commutes (r : Rules) {g : Grid} (h : g.StatesBelow r.states) (k : Nat)
    (source : ρ) (n : Nat) :
    (new (g.recolored (r.rotate k)) (.dominance r) source).after n =
      ((new g (.dominance r) source).after n).recolored (r.rotate k) := by
  induction n with
  | zero => rfl
  | succ n ih =>
    have hkept : ((new g (.dominance r) source).after n).rules = .dominance r := rules_after _ n
    have hbelow := statesBelow_after (s := new g (.dominance r) source) rfl h n
    rw [after, ih]
    exact step_recolored hkept hbelow k

/-- Rock, paper and scissors: one neighbor that beats a cell is enough to convert it. -/
def threesome : Rules := ⟨3, 1, ⟨.square8, 1, false⟩⟩

/-- A row with each of the three states. -/
def trio : Grid := .filled 1 3 .fixed fun l => .plain l.col.toNat l

/-- The row of all three states changes in its first tick, and it may be rotated before or after
that. -/
theorem trio_rotation_commutes :
    trio.StatesBelow threesome.states ∧
    (new trio (.dominance threesome) (Seed.source 0)).step.simulation.grid.stateAt ⟨0, 0⟩ =
      some 1 ∧
    (new (trio.recolored (threesome.rotate 2)) (.dominance threesome) (Seed.source 0)).after 4 =
      ((new trio (.dominance threesome) (Seed.source 0)).after 4).recolored
        (threesome.rotate 2) := by
  have hlisted : ∀ c ∈ trio.cellList, c.state < threesome.states := by decide +kernel
  have hbelow : trio.StatesBelow threesome.states :=
    fun l c hc => hlisted c (Grid.mem_cellList.mpr ⟨l, hc⟩)
  exact ⟨hbelow, by decide +kernel, rotation_commutes threesome hbelow 2 (Seed.source 0) 4⟩

end Dominance

end CellularAutomata
