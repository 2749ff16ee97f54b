import CellularAutomata.Proofs.Grid.Shifts
import CellularAutomata.Proofs.Grid.Updates
import CellularAutomata.Proofs.Run.Rest
import CellularAutomata.Proofs.Run.Worlds

/-!
# The torus has no seam

On a toroidal grid of squares no position is special to an automaton whose cells only count
their neighbors. So it makes no difference whether a grid is first shifted around the torus and
then advanced, or the other way around. The fluid of a percolation comes in at the top row, so
there this holds of shifts along the rows.
-/

namespace CellularAutomata

/-- A toroidal grid of at least one cell. -/
structure Grid.Torus (g : Grid) : Prop where
  /-- Cells are where they are stored. -/
  wellFormed : g.WellFormed
  /-- Beyond the edge the grid begins anew. -/
  edge : g.edge = .toroidal
  /-- There is a row. -/
  rows : 0 < g.rows
  /-- There is a column. -/
  cols : 0 < g.cols

/-- A cell of a shifted torus decides the same as the cell that has been moved there. -/
def MovesAlong (next : Grid → Cell → Nat) (rows cols : Int) : Prop :=
  ∀ g : Grid, g.Torus → ∀ c, g.inBounds c.location = true →
    next (g.shifted rows cols) (c.movedTo (g.shift rows cols c.location)) = next g c

variable {rows cols : Int} {next : Grid → Cell → Nat}

/-- The numbers of neighbors in each state are moved along with a cell. -/
theorem NeighborPolicy.Square.countInState {n : NeighborPolicy} (hn : n.Square) {g : Grid}
    (hg : g.Torus) (c : Cell) (state : Nat) :
    n.countInState (g.shifted rows cols) (g.shift rows cols c.location) state =
      n.countInState g c.location state :=
  countInState_shift hn hg.wellFormed hg.edge hg.rows hg.cols c.location state

/-- Cells are born, survive and die wherever they are. -/
theorem Life.Rules.movesAlong (r : Life.Rules) (hr : r.policy.Square) (rows cols : Int) :
    MovesAlong r.nextState rows cols := by
  intro g hg c _
  have hcount : r.policy.countInState (g.shifted rows cols)
      (c.movedTo (g.shift rows cols c.location)).location alive = _ :=
    hr.countInState hg c alive
  rw [nextState, nextState, hcount]
  rfl

/-- Cells are beaten wherever they are. -/
theorem Dominance.Rules.movesAlong (r : Dominance.Rules) (hr : r.policy.Square)
    (rows cols : Int) : MovesAlong r.nextState rows cols := by
  intro g hg c _
  have hcount : r.policy.countInState (g.shifted rows cols)
      (c.movedTo (g.shift rows cols c.location)).location (r.predator c.state) = _ :=
    hr.countInState hg c (r.predator c.state)
  rw [nextState, nextState]
  exact congrArg (fun count => if r.threshold ≤ count then r.predator c.state else c.state) hcount

/-- The fluid spreads wherever it is in its row. -/
theorem Percolation.Rules.movesAlong (r : Percolation.Rules) (hr : r.policy.Square) (cols : Int) :
    MovesAlong r.nextState 0 cols := by
  intro g hg c hc
  have hrow : (g.shift 0 cols c.location).row = c.location.row := by
    have hin := (Grid.inBounds_iff.mp hc).1
    change (c.location.row + 0) % g.rows = c.location.row
    rw [Int.add_zero, Int.emod_eq_of_lt hin.1 hin.2]
  have hcount : r.policy.countInState (g.shifted 0 cols) (g.shift 0 cols c.location) filled = _ :=
    hr.countInState hg c filled
  rw [nextState, nextState]
  change (if c.state = opened ∧ ((g.shift 0 cols c.location).row = 0 ∨
    0 < r.policy.countInState (g.shifted 0 cols) (g.shift 0 cols c.location) filled) then
      filled else c.state) = _
  rw [hrow, hcount]

/-- Grids of the same dimensions are shifted in the same way. -/
theorem Grid.shift_congr {g g' : Grid} (hrows : g'.rows = g.rows) (hcols : g'.cols = g.cols)
    (rows cols : Int) : g'.shift rows cols = g.shift rows cols := by
  funext l
  rw [shift, shift, hrows, hcols]

/-- A torus is a torus after it is shifted. -/
theorem Grid.Torus.shifted {g : Grid} (hg : g.Torus) (rows cols : Int) :
    (g.shifted rows cols).Torus :=
  ⟨hg.wellFormed.shifted rows cols, hg.edge, hg.rows, hg.cols⟩

variable {ρ : Type}

/-- A tick in which every cell decides by itself may come before or after a shift. -/
theorem apply_cellwise_shifted (hnext : MovesAlong next rows cols) {g : Grid} (hg : g.Torus)
    (source source' : ρ) :
    (g.shifted rows cols).apply (Tick.cellwise (fun c s => (next (g.shifted rows cols) c, s))
        (g.shifted rows cols) source').updates =
      (g.apply (Tick.cellwise (fun c s => (next g c, s)) g source).updates).shifted rows cols := by
  have hg' := hg.shifted rows cols
  have hd := g.apply_dimensions (Tick.cellwise (fun c s => (next g c, s)) g source).updates
  have hd' := (g.shifted rows cols).apply_dimensions (Tick.cellwise
    (fun c s => (next (g.shifted rows cols) c, s)) (g.shifted rows cols) source').updates
  have hshift := Grid.shift_congr hd.1 hd.2.1 rows cols
  have hin := Grid.inBounds_congr hd.1 hd.2.1
  have hwf := hg.wellFormed.apply (Tick.cellwise (fun c s => (next g c, s)) g source).updates
  have hafter := Tick.cellAt_apply_cellwise hg.wellFormed (next g) source
  have hafter' := Tick.cellAt_apply_cellwise hg'.wellFormed (next (g.shifted rows cols)) source'
  -- Every position is a shifted one, and there the cell decides as before the shift.
  refine Grid.ext_shift (g := g) rows cols hd' hd (fun l hl => ?_) fun l hl => ?_
  · refine ⟨?_, hwf.cellAt_shifted_of_not_inBounds (by rwa [hin])⟩
    rw [hafter', hg.wellFormed.cellAt_shifted_of_not_inBounds hl]
    rfl
  · have hmoved := hwf.cellAt_shifted (l := l) rows cols (by rwa [hin])
    rw [hshift] at hmoved
    rw [hafter', hmoved, hafter, hg.wellFormed.cellAt_shifted rows cols hl, Option.map_map,
      Option.map_map]
    refine Option.map_congr fun c hc => ?_
    obtain rfl := hg.wellFormed.location hc
    change (c.movedTo _).withState (next _ (c.movedTo _)) = (c.withState (next g c)).movedTo _
    rw [hnext g hg c hl]
    rfl

variable [WordSource ρ]

open Simulation

/-- A run keeps a grid a torus. -/
theorem Grid.Torus.after {s : Simulation ρ} (h : s.grid.Torus) (n : Nat) :
    (s.after n).grid.Torus := by
  obtain ⟨hrows, hcols, hedge⟩ := after_dimensions s n
  exact ⟨wellFormed_after h.wellFormed n, hedge.trans h.edge, hrows ▸ h.rows, hcols ▸ h.cols⟩

/-- A run in which every cell decides by itself goes through the shifted grids after a shift. -/
theorem after_shifted {rules : Ruleset}
    (hrules : ∀ (g : Grid) (source : ρ),
      rules.tick g source = Tick.cellwise (fun c s => (next g c, s)) g source)
    (hnext : MovesAlong next rows cols) {g : Grid} (hg : g.Torus) (source : ρ) (n : Nat) :
    ((new (g.shifted rows cols) rules source).after n).grid =
      ((new g rules source).after n).grid.shifted rows cols := by
  have hstep : ∀ (start : Grid) (n : Nat), ((new start rules source).after (n + 1)).grid =
      ((new start rules source).after n).grid.apply
        (Tick.cellwise (fun c s => (next ((new start rules source).after n).grid c, s))
          ((new start rules source).after n).grid
          ((new start rules source).after n).source).updates := by
    intro start n
    have hkept : ((new start rules source).after n).rules = rules := rules_after _ n
    rw [← hrules]
    change (((new start rules source).after n).grid.apply
      (((new start rules source).after n).rules.tick _ _).updates) = _
    rw [hkept]
  induction n with
  | zero => rfl
  | succ n ih =>
    have htorus : ((new g rules source).after n).grid.Torus := Grid.Torus.after hg n
    rw [hstep, hstep, ih]
    exact apply_cellwise_shifted hnext htorus _ _

/-- A toroidal grid of squares has no seam. Whatever the dimensions, the layers of neighbors and
the truncation are, shifting the grid around the torus and then running any rules of life or of
cyclic dominance for any number of ticks comes to the same as running them and then shifting. For
percolation this holds of shifts along the rows. -/
theorem torus_has_no_seam {g : Grid} (hwf : g.WellFormed) (hedge : g.edge = .toroidal)
    (hrows : 1 ≤ g.rows) (hcols : 1 ≤ g.cols) (source : ρ) (n : Nat) :
    (∀ r : Life.Rules, r.policy.Square → ∀ rows cols,
      ((new (g.shifted rows cols) (.life r) source).after n).grid =
        ((new g (.life r) source).after n).grid.shifted rows cols) ∧
    (∀ r : Dominance.Rules, r.policy.Square → ∀ rows cols,
      ((new (g.shifted rows cols) (.dominance r) source).after n).grid =
        ((new g (.dominance r) source).after n).grid.shifted rows cols) ∧
    ∀ r : Percolation.Rules, r.policy.Square → ∀ cols,
      ((new (g.shifted 0 cols) (.percolation r) source).after n).grid =
        ((new g (.percolation r) source).after n).grid.shifted 0 cols := by
  have hg : g.Torus := ⟨hwf, hedge, by omega, by omega⟩
  refine ⟨?_, ?_, ?_⟩
  · intro r hr rows cols
    exact after_shifted (fun _ _ => rfl) (r.movesAlong hr rows cols) hg source n
  · intro r hr rows cols
    exact after_shifted (fun _ _ => rfl) (r.movesAlong hr rows cols) hg source n
  · intro r hr cols
    exact after_shifted (fun _ _ => rfl) (r.movesAlong hr cols) hg source n

/-- A glider on a small torus. -/
def glider : Configuration :=
  { Configuration.default with
    rows := 5
    cols := 5
    edge := .toroidal
    states := [[0, 1, 0], [0, 0, 1], [1, 1, 1]] }

/-- The glider flies in the same way from two rows further down and four columns further right,
where it begins across the edge. -/
theorem glider_torus_has_no_seam : ∃ s r, ofConfiguration glider = .ok s ∧ s.rules = .life r ∧
    ∀ n, ((new (s.grid.shifted 2 4) (.life r) s.source).after n).grid =
      ((new s.grid (.life r) s.source).after n).grid.shifted 2 4 := by
  have hsquare : (ofConfiguration glider).toOption.bind (fun s =>
      match s.rules with
      | .life r => some r.policy.topology
      | _ => none) = some .square8 := by decide +kernel
  cases hs : ofConfiguration glider with
  | error fault => simp [hs, Except.toOption] at hsquare
  | ok s =>
    rw [hs] at hsquare
    have hreach : Reachable glider s := Reachable.start hs s.source
    obtain ⟨hrows, hcols, hedge⟩ := hreach.dimensions
    cases hr : s.rules with
    | life r =>
      have htopology : r.policy.topology = .square8 := by simpa [Except.toOption, hr] using hsquare
      refine ⟨s, r, rfl, hr, fun n => ?_⟩
      have hseam := torus_has_no_seam hreach.wellFormed hedge
        (hrows ▸ by decide) (hcols ▸ by decide) s.source n
      exact hseam.1 r (Or.inr htopology) 2 4
    | _ => simp [Except.toOption, hr] at hsquare

end CellularAutomata
