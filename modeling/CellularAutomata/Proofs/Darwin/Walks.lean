import CellularAutomata.Proofs.Darwin.Effects
import CellularAutomata.Proofs.Grid.Layout

/-!
# Walks

Where a walk ends. It follows its heading step by step through the edges of the grid, for as
long as the positions that it comes to are free and none of them has been passed before. Such
a path has fewer steps than the grid has cells, so a walk that may take more of them ends
where it would end anyway.
-/

namespace CellularAutomata.Darwin

/-- The position that a number of single steps along a heading leads to. Every step is looked
up through the edges of the grid. -/
def positionAfter (g : Grid) (heading : Int × Int) (origin : Location) : Nat → Option Location
  | 0 => some origin
  | k + 1 => (positionAfter g heading origin k).bind fun l => g.resolve (l.step heading 1)

/-- A path of some steps that a walk can follow. -/
structure FreePath (g : Grid) (d : Decisions) (heading : Int × Int) (origin : Location)
    (steps : Nat) : Prop where
  /-- Each step leads to a position that may be entered. -/
  free : ∀ k, 1 ≤ k → k ≤ steps →
    ∃ l, positionAfter g heading origin k = some l ∧ Enterable g d l
  /-- No position is passed twice, not even the one where the path begins. -/
  distinct : ∀ j k, j < k → k ≤ steps →
    positionAfter g heading origin j ≠ positionAfter g heading origin k

variable {g : Grid} {d : Decisions} {heading : Int × Int} {origin : Location}

/-- Not to move is to follow a free path. -/
theorem FreePath.zero (g : Grid) (d : Decisions) (heading : Int × Int) (origin : Location) :
    FreePath g d heading origin 0 where
  free k hpos hk := by omega
  distinct j k hjk hk := by omega

/-- A free path begins with free paths. -/
theorem FreePath.of_le {steps fewer : Nat} (h : FreePath g d heading origin steps)
    (hle : fewer ≤ steps) : FreePath g d heading origin fewer where
  free k hpos hk := h.free k hpos (Nat.le_trans hk hle)
  distinct j k hjk hk := h.distinct j k hjk (Nat.le_trans hk hle)

/-- A free path goes on if its next step leads to a position that can be entered and has not been
passed. -/
theorem FreePath.succ_iff {steps : Nat} {l : Location} (h : FreePath g d heading origin steps)
    (hl : positionAfter g heading origin steps = some l) :
    FreePath g d heading origin (steps + 1) ↔
      ∃ next, g.resolve (l.step heading 1) = some next ∧ Enterable g d next ∧
        ∀ j, j ≤ steps → positionAfter g heading origin j ≠ some next := by
  have hstep : positionAfter g heading origin (steps + 1) = g.resolve (l.step heading 1) := by
    rw [positionAfter, hl]
    rfl
  constructor
  · intro hlonger
    obtain ⟨next, hnext, hfree⟩ := hlonger.free (steps + 1) (by omega) (Nat.le_refl _)
    refine ⟨next, hstep.symm.trans hnext, hfree, fun j hj => ?_⟩
    rw [← hnext]
    exact hlonger.distinct j (steps + 1) (by omega) (Nat.le_refl _)
  · rintro ⟨next, hnext, hfree, hnew⟩
    constructor
    case free =>
      intro k hpos hk
      rcases Nat.lt_or_eq_of_le hk with hbefore | rfl
      · exact h.free k hpos (by omega)
      · exact ⟨next, hstep.trans hnext, hfree⟩
    case distinct =>
      intro j k hjk hk
      rcases Nat.lt_or_eq_of_le hk with hbefore | rfl
      · exact h.distinct j k hjk (by omega)
      · rw [hstep, hnext]
        exact hnew j (by omega)

/-- A free path from a cell of a grid passes cells only. -/
theorem FreePath.populated {steps k : Nat} (h : FreePath g d heading origin steps)
    (horigin : origin ∈ g.populated) (hk : k ≤ steps) :
    ∃ l, positionAfter g heading origin k = some l ∧ l ∈ g.populated := by
  cases k with
  | zero => exact ⟨origin, rfl, horigin⟩
  | succ k =>
    obtain ⟨l, hl, hfree⟩ := h.free (k + 1) (by omega) hk
    obtain ⟨c, hc, -⟩ := Option.map_eq_some_iff.mp hfree.empty
    exact ⟨l, hl, Grid.mem_populated hc⟩

/-- A free path from a cell of a grid has fewer steps than there are cells. -/
theorem FreePath.lt_size {steps : Nat} (h : FreePath g d heading origin steps)
    (horigin : origin ∈ g.populated) : steps < g.size := by
  have hnodup : ((List.range (steps + 1)).map (positionAfter g heading origin)).Nodup := by
    rw [List.Nodup, List.pairwise_map]
    refine List.pairwise_lt_range.imp_of_mem ?_
    intro j k _ hk hjk
    exact h.distinct j k hjk (Nat.le_of_lt_succ (List.mem_range.mp hk))
  have hcells : (List.range (steps + 1)).map (positionAfter g heading origin) ⊆
      g.locations.map some := by
    intro position hposition
    obtain ⟨k, hk, rfl⟩ := List.mem_map.mp hposition
    obtain ⟨l, hl, hpopulated⟩ :=
      h.populated horigin (Nat.le_of_lt_succ (List.mem_range.mp hk))
    rw [hl]
    exact List.mem_map_of_mem (Grid.mem_locations.mpr hpopulated)
  have hlength := (hnodup.subperm hcells).length_le
  rw [List.length_map, List.length_map, List.length_range, Grid.length_locations] at hlength
  omega

/-- A walk goes on to a position that can be entered and that it has not visited. -/
theorem walk_succ_of_open {visited : Std.ExtTreeSet Location} {l next : Location}
    (hnext : g.resolve (l.step heading 1) = some next) (hfree : Enterable g d next)
    (hnew : next ∉ visited) (count : Nat) :
    walk g d heading visited (count + 1) l = walk g d heading (visited.insert next) count next := by
  have hcontains : visited.contains next = false := by
    rw [← Bool.not_eq_true, Std.ExtTreeSet.contains_iff_mem]
    exact hnew
  rw [walk, hnext]
  simp only [hcontains, hfree.available, hfree.empty, bne_self_eq_false, Bool.or_false,
    Bool.false_eq_true, if_false]

/-- A walk stops if there is no such position ahead. -/
theorem walk_succ_of_blocked {visited : Std.ExtTreeSet Location} {l : Location}
    (h : ∀ next, g.resolve (l.step heading 1) = some next → Enterable g d next → next ∈ visited)
    (count : Nat) : walk g d heading visited (count + 1) l = l := by
  rw [walk]
  split
  next => rfl
  next next hnext =>
    refine if_pos ?_
    simp only [Bool.or_eq_true, Std.ExtTreeSet.contains_iff_mem, bne_iff_ne, ne_eq]
    by_contra hopen
    simp only [not_or, Decidable.not_not, Bool.not_eq_true] at hopen
    exact hopen.1.1 (h next hnext ⟨hopen.1.2, hopen.2⟩)

/-- A walk that has come some steps along a free path, and remembers just the positions of
that path, ends where the longest free path ends that it has the steps for. -/
theorem walk_along {visited : Std.ExtTreeSet Location} {k : Nat} {l : Location}
    (h : FreePath g d heading origin k) (hl : positionAfter g heading origin k = some l)
    (hvisited : ∀ q, q ∈ visited ↔ ∃ j, j ≤ k ∧ positionAfter g heading origin j = some q)
    (count : Nat) :
    ∃ steps, k ≤ steps ∧ steps ≤ k + count ∧ FreePath g d heading origin steps ∧
      (steps < k + count → ¬ FreePath g d heading origin (steps + 1)) ∧
      positionAfter g heading origin steps = some (walk g d heading visited count l) := by
  induction count generalizing visited k l with
  | zero => exact ⟨k, Nat.le_refl k, Nat.le_refl k, h, fun hlt => absurd hlt (by omega), hl⟩
  | succ count ih =>
    by_cases hlonger : FreePath g d heading origin (k + 1)
    · obtain ⟨next, hnext, hfree, hnew⟩ := (h.succ_iff hl).mp hlonger
      have hstep : positionAfter g heading origin (k + 1) = some next := by
        rw [positionAfter, hl, ← hnext]
        rfl
      have hunvisited : next ∉ visited := by
        rw [hvisited]
        rintro ⟨j, hj, hsame⟩
        exact hnew j hj hsame
      have hremembered : ∀ q, q ∈ visited.insert next ↔
          ∃ j, j ≤ k + 1 ∧ positionAfter g heading origin j = some q := by
        intro q
        rw [Std.ExtTreeSet.mem_insert, Std.LawfulEqCmp.compare_eq_iff_eq, hvisited q]
        constructor
        · rintro (rfl | ⟨j, hj, hq⟩)
          · exact ⟨k + 1, Nat.le_refl _, hstep⟩
          · exact ⟨j, by omega, hq⟩
        · rintro ⟨j, hj, hq⟩
          rcases Nat.lt_or_eq_of_le hj with hbefore | rfl
          · exact Or.inr ⟨j, by omega, hq⟩
          · exact Or.inl (Option.some.inj (hstep.symm.trans hq))
      rw [walk_succ_of_open hnext hfree hunvisited]
      obtain ⟨steps, hfrom, hto, hpath, hend, hplace⟩ := ih hlonger hstep hremembered
      exact ⟨steps, by omega, by omega, hpath, fun hlt => hend (by omega), hplace⟩
    · have hblocked : ∀ next, g.resolve (l.step heading 1) = some next → Enterable g d next →
          next ∈ visited := by
        intro next hnext hfree
        rw [hvisited]
        by_contra hnew
        exact hlonger ((h.succ_iff hl).mpr
          ⟨next, hnext, hfree, fun j hj hsame => hnew ⟨j, hj, hsame⟩⟩)
      rw [walk_succ_of_blocked hblocked]
      exact ⟨k, Nat.le_refl k, by omega, h, fun _ => hlonger, hl⟩

/-- A walk ends where the longest free path ends that it has the steps for. -/
theorem walk_longest (g : Grid) (d : Decisions) (heading : Int × Int) (origin : Location)
    (count : Nat) :
    ∃ steps, steps ≤ count ∧ FreePath g d heading origin steps ∧
      (∀ k, k ≤ count → FreePath g d heading origin k → k ≤ steps) ∧
      positionAfter g heading origin steps =
        some (walk g d heading ((∅ : Std.ExtTreeSet Location).insert origin) count origin) := by
  have hvisited : ∀ q, q ∈ (∅ : Std.ExtTreeSet Location).insert origin ↔
      ∃ j, j ≤ 0 ∧ positionAfter g heading origin j = some q := by
    intro q
    simp [positionAfter]
  obtain ⟨steps, -, hto, hfree, hend, hl⟩ :=
    walk_along (FreePath.zero g d heading origin) rfl hvisited count
  refine ⟨steps, by omega, hfree, ?_, hl⟩
  intro k hk hlonger
  by_contra hlt
  exact hend (by omega) (hlonger.of_le (by omega))

/-- Two walks from a cell of a grid that both have the steps to pass every position of the grid
end at the same position. -/
theorem walk_congr_of_area_le (hwf : g.WellFormed) (horigin : origin ∈ g.populated)
    {count more : Nat} (hcount : g.rows * g.cols ≤ count) (hmore : g.rows * g.cols ≤ more) :
    walk g d heading ((∅ : Std.ExtTreeSet Location).insert origin) count origin =
      walk g d heading ((∅ : Std.ExtTreeSet Location).insert origin) more origin := by
  have harea : (g.size : Int) ≤ g.rows * g.cols := by
    obtain ⟨c, hc⟩ := Option.isSome_iff_exists.mp horigin
    have hsides := Grid.inBounds_iff.mp (hwf.inBounds hc)
    have hsize := Int.ofNat_le.mpr hwf.size_le
    rw [Int.natCast_mul, Int.toNat_of_nonneg (by omega), Int.toNat_of_nonneg (by omega)] at hsize
    exact hsize
  obtain ⟨steps, -, hfree, hmost, hl⟩ := walk_longest g d heading origin count
  obtain ⟨steps', -, hfree', hmost', hl'⟩ := walk_longest g d heading origin more
  have hlt := hfree.lt_size horigin
  have hlt' := hfree'.lt_size horigin
  obtain rfl : steps = steps' := by
    refine Nat.le_antisymm (hmost' steps ?_ hfree) (hmost steps' ?_ hfree')
    · omega
    · omega
  exact Option.some.inj (hl.symm.trans hl')

variable {ρ : Type} [WordSource ρ] {w : World} {i : Instruction} {count : Nat}

/-- Moving changes where the actor is, and that is where its walk ends. -/
theorem perform_move (hcount : i.count = .ok count) (a : Actor) (s : Stage ρ) :
    perform w .move i a s =
      ⟨{ a with
          location := walk w.grid s.decisions a.individual.heading
            ((∅ : Std.ExtTreeSet Location).insert a.location) count a.location }, s, none⟩ := by
  simp only [perform, performMove, hcount]

/-- MOVE takes an actor that is on a cell of a grid to the end of the longest free path along
its heading that has at most as many steps as are asked for, and changes nothing else. The path
has fewer steps than the grid has cells, whatever the edge, and it ends at a position that it
has not passed before. All counts from the number of positions on have the same effect. -/
theorem move_follows_free_path (hwf : w.grid.WellFormed) {a : Actor}
    (ha : a.location ∈ w.grid.populated) (hcount : i.count = .ok count) (s : Stage ρ) :
    (∃ steps l, steps ≤ count ∧
      FreePath w.grid s.decisions a.individual.heading a.location steps ∧
      (∀ k, k ≤ count → FreePath w.grid s.decisions a.individual.heading a.location k →
        k ≤ steps) ∧
      positionAfter w.grid a.individual.heading a.location steps = some l ∧
      perform w .move i a s = ⟨{ a with location := l }, s, none⟩ ∧
      steps < w.grid.size ∧
      ∀ k, k < steps → positionAfter w.grid a.individual.heading a.location k ≠ some l) ∧
    (w.grid.rows * w.grid.cols ≤ count → ∀ i' (more : Nat), i'.count = .ok more →
      w.grid.rows * w.grid.cols ≤ more → perform w .move i' a s = perform w .move i a s) := by
  constructor
  · obtain ⟨steps, hsteps, hfree, hmost, hl⟩ :=
      walk_longest w.grid s.decisions a.individual.heading a.location count
    refine ⟨steps, _, hsteps, hfree, hmost, hl, perform_move hcount a s, hfree.lt_size ha, ?_⟩
    intro k hk
    rw [← hl]
    exact hfree.distinct k steps hk (Nat.le_refl steps)
  · intro harea i' more hmore harea'
    rw [perform_move hcount, perform_move hmore, walk_congr_of_area_le hwf ha harea harea']

/-- A toroidal grid of six empty cells. -/
def ring : World := ⟨⟨5, 1, 1, 0⟩, ∅, .filled 2 3 .toroidal .empty⟩

/-- Somebody who is about to walk diagonally. -/
def rambler : Actor := ⟨1, ⟨0, 0⟩, ⟨45, 0, none, ⟨[⟨"MOVE", ["10"]⟩]⟩⟩, none⟩

/-- A diagonal walk around the ring passes all six cells and ends before the one where it has
begun, five steps along its path. -/
theorem rambler_move_follows_free_path :
    ring.grid.WellFormed ∧ rambler.location ∈ ring.grid.populated ∧
      (⟨"MOVE", ["10"]⟩ : Instruction).count = .ok 10 ∧
      ∃ steps, FreePath ring.grid .none rambler.individual.heading rambler.location steps ∧
        steps < ring.grid.size ∧ positionAfter ring.grid rambler.individual.heading
          rambler.location steps = some ⟨1, 2⟩ := by
  have hwf : ring.grid.WellFormed := Grid.wellFormed_filled 2 3 .toroidal .empty
  have ha : rambler.location ∈ ring.grid.populated := by
    change (ring.grid.cellAt rambler.location).isSome = true
    decide +kernel
  have hcount : (⟨"MOVE", ["10"]⟩ : Instruction).count = .ok 10 := by decide +kernel
  have hend : (perform ring .move ⟨"MOVE", ["10"]⟩ rambler
      (⟨.none, Seed.source 0, #[]⟩ : Stage KeyStream)).actor.location = ⟨1, 2⟩ := by
    decide +kernel
  obtain ⟨⟨steps, l, -, hfree, -, hl, hperform, hlt, -⟩, -⟩ :=
    move_follows_free_path hwf ha hcount (⟨.none, Seed.source 0, #[]⟩ : Stage KeyStream)
  rw [hperform] at hend
  exact ⟨hwf, ha, hcount, steps, hfree, hlt, hend ▸ hl⟩

end CellularAutomata.Darwin
