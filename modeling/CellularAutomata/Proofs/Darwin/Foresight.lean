import CellularAutomata.Proofs.Darwin.Conservation
import CellularAutomata.Proofs.Darwin.Failures
import CellularAutomata.Proofs.Darwin.Recognition
import CellularAutomata.Proofs.Darwin.Walks

/-!
# Looking before moving

An individual sees one step ahead whether it can move. It moves if that position looks empty,
unless somebody has left the position in the same tick: such a position looks empty too, but is
not entered before the next tick. So the conditional jumps of a world in which individuals look
one step ahead tell them whether to move.
-/

namespace CellularAutomata.Darwin

variable {ρ : Type} [WordSource ρ] {w : World} {t : Turn ρ}

/-- Somebody was at a position before the tick and has left it in a turn before this one. -/
def LeftBefore (w : World) (source : ρ) (t : Turn ρ) (l : Location) : Prop :=
  ∃ u ∈ turns w source, compare u.cell.location t.cell.location = .lt ∧
    u.cell.location = l ∧ (u.ended w).location ≠ l

/-- What has been decided at a turn says which positions have been left before it. -/
theorem isVacated_iff_leftBefore (hwf : w.grid.WellFormed) {source : ρ}
    (ht : t ∈ turns w source) {l : Location} :
    t.stage.decisions.isVacated l = true ↔ LeftBefore w source t l := by
  obtain ⟨before, later, hcells, hstage, -, hturns, -⟩ := exists_split_of_mem_turnsFrom ht
  have hsorted := hwf.cellList_sorted
  rw [hcells, List.pairwise_append, List.pairwise_cons] at hsorted
  obtain ⟨-, ⟨hlater, -⟩, hbefore⟩ := hsorted
  have hearlier : ∀ u, u ∈ turnsFrom w before (opening source) ↔
      u ∈ turns w source ∧ compare u.cell.location t.cell.location = .lt := by
    intro u
    rw [turns, hturns, List.mem_append, List.mem_cons]
    constructor
    · intro hu
      exact ⟨Or.inl hu, hbefore u.cell (cell_mem_of_mem_turnsFrom hu) t.cell
        (List.mem_cons_self ..)⟩
    · rintro ⟨hu | rfl | hu, hlt⟩
      · exact hu
      · rw [Location.compare_eq_lt_iff] at hlt
        omega
      · have hgt := hlater u.cell (cell_mem_of_mem_turnsFrom hu)
        rw [Location.compare_eq_lt_iff] at hlt hgt
        omega
  have hnothing : (opening source).decisions.isVacated l = false := Decisions.isVacated_none l
  rw [hstage, isVacated_stageAfter_iff, hnothing, LeftBefore]
  simp only [hearlier, Bool.false_eq_true, false_or, and_assoc]

variable {g : Grid} {d : Decisions}

/-- If the final occupants are individuals, then a position that nobody has left looks empty just
if it can be entered. -/
theorem view_eq_empty_iff (hcells : ∀ l k, d.claim? l = some k → k.cell.isEmpty = false)
    {l position : Location} (hl : g.resolve l = some position)
    (hkept : d.isVacated position = false) :
    d.view g l = .empty ↔ Enterable g d position := by
  have hfinal := d.isFinal_eq_isSome_claim? position
  rw [Decisions.view, hl]
  simp only [hkept, Bool.false_and, Bool.false_eq_true, if_false]
  rw [Decisions.current]
  cases hk : d.claim? position with
  | some k =>
    rw [hk] at hfinal
    constructor
    · intro hlooks
      simp [hcells position k hk] at hlooks
    · intro hopen
      have havailable := hopen.available
      simp [Decisions.isUnavailable, hfinal] at havailable
  | none =>
    rw [hk] at hfinal
    have havailable : d.isUnavailable position = false := by
      rw [Decisions.isUnavailable, hfinal, hkept]
      rfl
    have hstate : Enterable g d position ↔ g.stateAt position = some emptyState :=
      ⟨Enterable.empty, fun hempty => ⟨havailable, hempty⟩⟩
    rw [hstate, Grid.stateAt]
    cases g.cellAt position with
    | none => simp
    | some cell => by_cases hempty : cell.state = emptyState <;> simp [Cell.isEmpty, hempty]

/-- A walk of at least one step goes elsewhere just if its first step leads to another position
that can be entered. -/
theorem walk_ne_iff {heading : Int × Int} {origin : Location} {count : Nat} (hcount : 1 ≤ count) :
    walk g d heading ((∅ : Std.ExtTreeSet Location).insert origin) count origin ≠ origin ↔
      ∃ l, g.resolve (origin.step heading 1) = some l ∧ Enterable g d l ∧ l ≠ origin := by
  have hfirst : FreePath g d heading origin 1 ↔
      ∃ l, g.resolve (origin.step heading 1) = some l ∧ Enterable g d l ∧ l ≠ origin := by
    rw [(FreePath.zero g d heading origin).succ_iff (l := origin) rfl]
    have hnew : ∀ next : Location,
        (∀ j, j ≤ 0 → positionAfter g heading origin j ≠ some next) ↔ next ≠ origin := by
      intro next
      simp [positionAfter, eq_comm]
    simp only [hnew]
  obtain ⟨steps, hsteps, hpath, hmost, hend⟩ := walk_longest g d heading origin count
  rw [← hfirst]
  constructor
  · intro hmoved
    refine hpath.of_le (Nat.one_le_iff_ne_zero.mpr ?_)
    rintro rfl
    exact hmoved (Option.some.inj hend).symm
  · intro hone hstay
    have hpos : 0 < steps := hmost 1 hcount hone
    rw [hstay] at hend
    exact hpath.distinct 0 steps hpos (Nat.le_refl steps) hend.symm

/-- Somebody in the situation of a turn: at the position of its individual and with what has been
decided by then, of any species, with any heading and any program. -/
structure Turn.Situates (t : Turn ρ) (a : Actor) (s : Stage ρ) : Prop where
  /-- It is where the turn begins. -/
  location : a.location = t.cell.location
  /-- It acts upon the same decisions. -/
  decisions : s.decisions = t.stage.decisions
  /-- It has not jumped. -/
  jump : a.jump = none

/-- The position one step ahead looks empty, and not because somebody has left it in the same
tick. -/
structure SeesOpening (w : World) (source : ρ) (t : Turn ρ) (a : Actor) : Prop where
  /-- It looks empty. -/
  empty : t.stage.decisions.view w.grid (a.ahead 1) = .empty
  /-- Nobody has left it in the same tick. -/
  kept : ∀ l, w.grid.resolve (a.ahead 1) = some l → ¬ LeftBefore w source t l

/-- A conditional jump with the number of a line speaks against moving: the one that is made if
there is nobody ahead would not be made, or one of those would that are made if there is a wall
or somebody ahead. -/
def Deterred (w : World) (a : Actor) (s : Stage ρ) : Prop :=
  ∃ i line, i.target a.individual.program.length = .ok line ∧
    ((perform w .ifEmpty i a s).actor.jump = none ∨
      (perform w .ifWall i a s).actor.jump = some line ∨
      (perform w .ifSame i a s).actor.jump = some line ∨
      (perform w .ifEnemy i a s).actor.jump = some line)

omit [WordSource ρ] in
/-- An individual comes to its instruction in the situation of its turn. -/
theorem Turn.situates_ready (w : World) (t : Turn ρ) :
    t.Situates (t.ready w) (t.readyStage w) where
  location := t.ready_location w
  decisions := (advanceInfection_frame w (actorOf w t.cell) t.stage).2
  jump := t.jump_ready w

/-- What becomes of an individual in its turn is what its instruction makes of it. -/
theorem Turn.ended_eq_perform {i : Instruction} {opcode : Opcode}
    (hi : t.instruction? w = some i) (ho : i.opcode = .ok opcode) :
    t.ended w = (perform w opcode i (t.ready w) (t.readyStage w)).actor := by
  rw [Turn.ended, act_eq]
  exact execute_fst_eq_perform hi ho _

/-- Whoever looks one step ahead only makes a conditional jump if what it sees there meets the
condition. -/
theorem jump_performBranch {condition : Condition} (h : condition ≠ .random) {a : Actor}
    {s : Stage ρ} (hlayers : w.settings.layers = 1) (hjump : a.jump = none) {i : Instruction}
    {line : Nat} (hline : i.target a.individual.program.length = .ok line) :
    (performBranch condition w i a s).actor.jump =
      if condition.accepts a.species (s.decisions.view w.grid (a.ahead 1)) then some line
      else none := by
  rw [performBranch_actor h w hline, hlayers]
  by_cases hseen : condition.accepts a.species (s.decisions.view w.grid (a.ahead 1)) = true
  · simp [meets, hseen]
  · simp [meets, hseen, hjump]

/-- A conditional jump that is made leads to the line whose number it has. -/
theorem target_of_jump {condition : Condition} {a : Actor} {s : Stage ρ} (hjump : a.jump = none)
    {i : Instruction} {line : Nat}
    (h : (performBranch condition w i a s).actor.jump = some line) :
    i.target a.individual.program.length = .ok line := by
  unfold performBranch at h
  split at h
  next => cases hjump.symm.trans h
  next target htarget =>
    have hmade : ∀ holds : Bool,
        (if holds then { a with jump := some target } else a).jump = some line → target = line := by
      intro holds hline
      cases holds with
      | false => cases hjump.symm.trans hline
      | true => exact Option.some.inj hline
    rw [htarget, hmade _ h]

/-- Nobody who is deterred from moving sees an empty position one step ahead. -/
theorem Deterred.view_ne_empty {a : Actor} {s : Stage ρ} (h : Deterred w a s)
    (hlayers : w.settings.layers = 1) (hjump : a.jump = none) :
    s.decisions.view w.grid (a.ahead 1) ≠ .empty := by
  obtain ⟨i, line, hline, hdeters⟩ := h
  intro hlooks
  have hjumps : ∀ condition : Condition, condition ≠ .random →
      (performBranch condition w i a s).actor.jump =
        if condition.accepts a.species .empty then some line else none := by
    intro condition hcoin
    rw [← hlooks]
    exact jump_performBranch hcoin hlayers hjump hline
  simp only [perform, hjumps .empty (by decide), hjumps .wall (by decide),
    hjumps .same (by decide), hjumps .enemy (by decide)] at hdeters
  simp [Condition.accepts] at hdeters

variable {c : Configuration} {s : Simulation ρ} {r : Rules} {a : Actor} {stage : Stage ρ}

/-- In the situation of a turn of a reachable Darwin world, a walk of at least one step goes
elsewhere just if there is an opening one step ahead. -/
theorem walk_ne_iff_seesOpening (hs : Simulation.Reachable c s) (hr : s.rules = .darwin r)
    (ht : t ∈ turns (r.world s.grid) s.source) (ha : t.Situates a stage) {count : Nat}
    (hcount : 1 ≤ count) :
    walk s.grid stage.decisions a.individual.heading
        ((∅ : Std.ExtTreeSet Location).insert a.location) count a.location ≠ a.location ↔
      SeesOpening (r.world s.grid) s.source t a := by
  have hwf : (r.world s.grid).grid.WellFormed := hs.wellFormed
  obtain ⟨hturn, rest, hsound⟩ := soundStage_of_mem_turns hs hr ht
  obtain ⟨hne, hunclaimed⟩ := hasTurn_iff.mp hturn
  have hcells := hsound.isEmpty_claim (species_of_reachable hs hr).2
  have hkept := fun l => isVacated_iff_leftBefore hwf ht (l := l)
  rw [walk_ne_iff hcount, ha.decisions]
  constructor
  · rintro ⟨l, hl, hopen, -⟩
    have hunavailable := hopen.available
    rw [Decisions.isUnavailable, Bool.or_eq_false_iff] at hunavailable
    refine ⟨(view_eq_empty_iff hcells hl hunavailable.2).mpr hopen, ?_⟩
    intro l' hl'
    obtain rfl := Option.some.inj (hl.symm.trans hl')
    rw [← hkept, hunavailable.2]
    exact Bool.false_ne_true
  · rintro ⟨hlooks, hnobody⟩
    cases hl : s.grid.resolve (a.ahead 1) with
    | none =>
      have hwall : t.stage.decisions.view s.grid (a.ahead 1) = .wall := by
        rw [Decisions.view, hl]
      cases hwall.symm.trans hlooks
    | some l =>
      have hstill : t.stage.decisions.isVacated l = false := by
        rw [← Bool.not_eq_true, hkept]
        exact hnobody l hl
      refine ⟨l, hl, (view_eq_empty_iff hcells hl hstill).mp hlooks, ?_⟩
      -- at its own position an individual sees its cell from before the tick
      rintro rfl
      rw [ha.location] at hl
      have hself := hsound.orderly.view_of_called hwf hne hunclaimed hl
      cases hself.symm.trans hlooks

/-- In the situation of every turn of a reachable Darwin world, MOVE with a count of at least one
takes an individual to another position just if the position one step ahead looks empty and
nobody has left it in an earlier turn of the tick. So in a world in which individuals look one
step ahead, nobody can move who is deterred by a conditional jump. The individual of the turn is
one in this situation, and if its instruction is such a MOVE, then this is what becomes of it. -/
theorem move_iff_sees_opening (hs : Simulation.Reachable c s) (hr : s.rules = .darwin r)
    (ht : t ∈ turns (r.world s.grid) s.source) :
    (∀ (a : Actor) (stage : Stage ρ), t.Situates a stage →
      (∀ i count, i.count = .ok count → 1 ≤ count →
        ((perform (r.world s.grid) .move i a stage).actor.location ≠ a.location ↔
          SeesOpening (r.world s.grid) s.source t a)) ∧
      (r.settings.layers = 1 → Deterred (r.world s.grid) a stage → ∀ i,
        (perform (r.world s.grid) .move i a stage).actor.location = a.location)) ∧
    t.Situates (t.ready (r.world s.grid)) (t.readyStage (r.world s.grid)) ∧
    ∀ i count, t.instruction? (r.world s.grid) = some i → i.opcode = .ok .move →
      i.count = .ok count → 1 ≤ count →
      ((t.ended (r.world s.grid)).location ≠ t.cell.location ↔
        SeesOpening (r.world s.grid) s.source t (t.ready (r.world s.grid))) := by
  have hmoves : ∀ (a : Actor) (stage : Stage ρ), t.Situates a stage → ∀ i count,
      i.count = .ok count → 1 ≤ count →
      ((perform (r.world s.grid) .move i a stage).actor.location ≠ a.location ↔
        SeesOpening (r.world s.grid) s.source t a) := by
    intro a stage ha i count hi hcount
    rw [perform_move hi]
    exact walk_ne_iff_seesOpening hs hr ht ha hcount
  have hready := t.situates_ready (r.world s.grid)
  refine ⟨fun a stage ha => ⟨hmoves a stage ha, ?_⟩, hready, ?_⟩
  · intro hlayers hdeterred i
    by_contra hmoved
    have hsees : SeesOpening (r.world s.grid) s.source t a := by
      cases hi : i.count with
      | error fault =>
        rw [perform, performMove, hi] at hmoved
        exact absurd rfl hmoved
      | ok count =>
        cases count with
        | zero =>
          rw [perform_move hi] at hmoved
          exact absurd rfl hmoved
        | succ count => exact (hmoves a stage ha i (count + 1) hi (by omega)).mp hmoved
    have hlooks := hsees.empty
    rw [← ha.decisions] at hlooks
    exact hdeterred.view_ne_empty hlayers ha.jump hlooks
  · intro i count hi ho hcount hpos
    rw [← hmoves _ _ hready i count hcount hpos, hready.location, t.ended_eq_perform hi ho]

/-- Three individuals in a row that head for its left end. -/
def convoy : Configuration :=
  { Configuration.default with
    automaton := "darwin"
    rows := 1
    cols := 4
    parameters := Parameters.empty.insert "initialOrientation" (.ofInt 180)
    states := [[1, 0, 1, 1]]
    species := (∅ : Std.ExtTreeMap Nat String).insert 1 "MOVE" }

/-- How far individuals of a Darwin world look, and for each of their next turns what they see one
step ahead, whether MOVE takes them elsewhere, and where they jump to if there is a wall. -/
def outlook (s : Simulation ρ) : Nat × List (View × Bool × Option Nat) :=
  match s.rules with
  | .darwin r =>
    (r.settings.layers, (turns (r.world s.grid) s.source).map fun t =>
      (t.stage.decisions.view s.grid ((t.ready (r.world s.grid)).ahead 1),
        decide ((perform (r.world s.grid) .move ⟨"MOVE", ["2"]⟩ (t.ready (r.world s.grid))
          (t.readyStage (r.world s.grid))).actor.location ≠ (t.ready (r.world s.grid)).location),
        (perform (r.world s.grid) .ifWall ⟨"IFWALL", ["1"]⟩ (t.ready (r.world s.grid))
          (t.readyStage (r.world s.grid))).actor.jump))
  | _ => (0, [])

/-- In the convoy the first individual is at the wall and would jump because of it, the second one
moves to the empty position ahead, and the third one sees the position empty that the second one
has left, and cannot move there. -/
theorem convoy_move_iff_sees_opening :
    ∃ (s : Simulation KeyStream) (r : Rules) (first second third : Turn KeyStream),
      Simulation.Reachable convoy s ∧ s.rules = .darwin r ∧
      turns (r.world s.grid) s.source = [first, second, third] ∧
      (r.settings.layers = 1 ∧
        Deterred (r.world s.grid) (first.ready (r.world s.grid))
          (first.readyStage (r.world s.grid)) ∧
        (perform (r.world s.grid) .move ⟨"MOVE", ["2"]⟩ (first.ready (r.world s.grid))
          (first.readyStage (r.world s.grid))).actor.location =
            (first.ready (r.world s.grid)).location) ∧
      SeesOpening (r.world s.grid) s.source second (second.ready (r.world s.grid)) ∧
      third.stage.decisions.view s.grid ((third.ready (r.world s.grid)).ahead 1) = .empty ∧
      ∃ l, LeftBefore (r.world s.grid) s.source third l := by
  have hevaluated : (Simulation.ofConfiguration convoy).toOption.map outlook =
      some (1, [(.wall, false, some 0), (.empty, true, none), (.empty, false, none)]) := by
    decide +kernel
  have hcount : (⟨"MOVE", ["2"]⟩ : Instruction).count = .ok 2 := by decide
  obtain ⟨s, hs, houtlook⟩ := exists_of_map_toOption hevaluated
  have hreach : Simulation.Reachable convoy s := Simulation.Reachable.start hs s.source
  unfold outlook at houtlook
  split at houtlook
  next r hr =>
    obtain ⟨hlayers, hlist⟩ := Prod.mk.inj houtlook
    obtain ⟨first, rest, hturns, hfirst, hrest⟩ := List.map_eq_cons_iff.mp hlist
    obtain ⟨second, rest, rfl, hsecond, hrest⟩ := List.map_eq_cons_iff.mp hrest
    obtain ⟨third, rest, rfl, hthird, hrest⟩ := List.map_eq_cons_iff.mp hrest
    obtain rfl := List.map_eq_nil_iff.mp hrest
    have hmoves := fun t ht => move_iff_sees_opening (t := t) hreach hr ht
    simp only [Prod.mk.injEq, decide_eq_true_eq, decide_eq_false_iff_not, ne_eq,
      Decidable.not_not] at hfirst hsecond hthird
    have hone : first ∈ turns (r.world s.grid) s.source := by simp [hturns]
    have htwo : second ∈ turns (r.world s.grid) s.source := by simp [hturns]
    have hthree : third ∈ turns (r.world s.grid) s.source := by simp [hturns]
    have hready := fun t : Turn KeyStream => t.situates_ready (r.world s.grid)
    have hdeterred : Deterred (r.world s.grid) (first.ready (r.world s.grid))
        (first.readyStage (r.world s.grid)) := by
      have hjump := hfirst.2.2
      exact ⟨_, 0, target_of_jump (first.jump_ready _) hjump, Or.inr (Or.inl hjump)⟩
    have hopening := ((hmoves second htwo).1 _ _ (hready second)).1 _ 2 hcount (by decide)
    have hclosed := ((hmoves third hthree).1 _ _ (hready third)).1 _ 2 hcount (by decide)
    refine ⟨s, r, first, second, third, hreach, hr, hturns, ⟨hlayers, hdeterred, ?_⟩,
      hopening.mp hsecond.2.1, hthird.1, ?_⟩
    · exact ((hmoves first hone).1 _ _ (hready first)).2 hlayers hdeterred _
    · by_contra hnobody
      refine hclosed.mpr ⟨hthird.1, ?_⟩ hthird.2.1
      intro l _ hleft
      exact hnobody ⟨l, hleft⟩
  next => cases houtlook

end CellularAutomata.Darwin
