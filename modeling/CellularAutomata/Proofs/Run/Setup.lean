import CellularAutomata.Proofs.Grid.Operations
import CellularAutomata.Proofs.Run.Seeds
import CellularAutomata.Proofs.Run.Worlds

/-!
# Described worlds

A world is set up in steps that can fail: its description is checked, the automaton is looked up,
the rules are read, and at one position after the other the cell is placed with which the state
given there starts. What is set up is just what is described, and what is reported otherwise is
the first thing that is wrong.
-/

namespace CellularAutomata

namespace Grid

variable {rows cols : Int}

/-- The positions of a rectangle have natural coordinates. -/
theorem mem_positions_iff_exists {l : Location} : l ∈ positions rows cols ↔
    ∃ row col : Nat, ((row : Int) < rows ∧ (col : Int) < cols) ∧ l = ⟨row, col⟩ := by
  rw [mem_positions]
  constructor
  · rintro ⟨⟨hrow, hrow'⟩, hcol, hcol'⟩
    refine ⟨l.row.toNat, l.col.toNat, by omega, ?_⟩
    rw [Int.toNat_of_nonneg hrow, Int.toNat_of_nonneg hcol]
  · rintro ⟨row, col, hin, rfl⟩
    dsimp only
    omega

/-- What is listed before a position are the positions before it in row-major order. -/
theorem mem_earlier_iff {earlier later : List Location} {l m : Location}
    (h : positions rows cols = earlier ++ l :: later) :
    m ∈ earlier ↔ m ∈ positions rows cols ∧ compare m l = .lt := by
  have hsorted := positions_sorted rows cols
  rw [h, List.pairwise_append, List.pairwise_cons] at hsorted
  obtain ⟨-, ⟨hlater, -⟩, hearlier⟩ := hsorted
  rw [h, List.mem_append, List.mem_cons]
  constructor
  · intro hm
    exact ⟨Or.inl hm, hearlier m hm l (List.mem_cons_self ..)⟩
  · rintro ⟨hm | rfl | hm, hlt⟩
    · exact hm
    · rw [Location.compare_eq_lt_iff] at hlt
      omega
    · have hgt := hlater m hm
      rw [Location.compare_eq_lt_iff] at hlt hgt
      omega

/-- What is found first is found at a position, and nothing is found in the rows above it or
before it in its row. -/
theorem findSome?_positions_eq_some_iff {β : Type} {find : Location → Option β} {b : β} :
    (positions rows cols).findSome? find = some b ↔
      ∃ row col : Nat, ((row : Int) < rows ∧ (col : Int) < cols) ∧ find ⟨row, col⟩ = some b ∧
        ∀ row' col' : Nat, (col' : Int) < cols → row' < row ∨ row' = row ∧ col' < col →
          find ⟨row', col'⟩ = none := by
  constructor
  · intro hfound
    obtain ⟨earlier, l, later, hsplit, hb, hnone⟩ := List.findSome?_eq_some_iff.mp hfound
    have hl : l ∈ positions rows cols := by
      rw [hsplit]
      exact List.mem_append_right earlier (List.mem_cons_self ..)
    obtain ⟨row, col, hin, rfl⟩ := mem_positions_iff_exists.mp hl
    refine ⟨row, col, hin, hb, ?_⟩
    intro row' col' hcol' hbefore
    refine hnone _ ((mem_earlier_iff hsplit).mpr ⟨?_, ?_⟩)
    · exact mem_positions_iff_exists.mpr ⟨row', col', by omega, rfl⟩
    · rw [Location.compare_eq_lt_iff]
      dsimp only
      omega
  · rintro ⟨row, col, hin, hb, hnone⟩
    obtain ⟨earlier, later, hsplit⟩ :=
      List.append_of_mem (mem_positions_iff_exists.mpr ⟨row, col, hin, rfl⟩)
    refine List.findSome?_eq_some_iff.mpr ⟨earlier, _, later, hsplit, hb, ?_⟩
    intro m hm
    obtain ⟨hm, hlt⟩ := (mem_earlier_iff hsplit).mp hm
    obtain ⟨row', col', hin', rfl⟩ := mem_positions_iff_exists.mp hm
    rw [Location.compare_eq_lt_iff] at hlt
    dsimp only at hlt
    exact hnone row' col' hin'.2 (by omega)

end Grid

namespace Configuration

variable {c : Configuration} {i j state : Nat}

/-- The dimensions are positive, and the initial states fit into them. -/
structure Valid (c : Configuration) : Prop where
  /-- There is a row. -/
  rows_pos : 0 < c.rows
  /-- There is a column. -/
  cols_pos : 0 < c.cols
  /-- There are states for no more rows than there are. -/
  length_le : (c.states.length : Int) ≤ c.rows
  /-- There are states for no more columns than there are, in any row. -/
  row_length_le : ∀ row ∈ c.states, (row.length : Int) ≤ c.cols

/-- No row is too long if each of them fits. -/
theorem firstTooLong_eq_none_iff {cols : Int} {index : Nat} {rows : List (List Nat)} :
    firstTooLong cols index rows = none ↔ ∀ row ∈ rows, (row.length : Int) ≤ cols := by
  induction rows generalizing index with
  | nil => simp [firstTooLong]
  | cons row rest ih =>
    rw [firstTooLong, List.forall_mem_cons]
    split
    next hlong => simp [Int.not_le.mpr hlong]
    next hfits => rw [ih, and_iff_right (Int.not_lt.mp hfits)]

/-- The valid configurations are those that pass the check. -/
theorem validate_eq_ok_iff : c.validate = .ok () ↔ c.Valid := by
  unfold validate
  constructor
  · intro h
    split at h
    next => cases h
    next hpositive =>
      split at h
      next => cases h
      next hlength =>
        split at h
        next => cases h
        next hrows =>
          exact ⟨by omega, by omega, by omega, firstTooLong_eq_none_iff.mp hrows⟩
  · intro h
    have hpositive : ¬ (c.rows ≤ 0 ∨ c.cols ≤ 0) := by
      have hrows := h.rows_pos
      have hcols := h.cols_pos
      omega
    rw [if_neg hpositive, if_neg (Int.not_lt.mpr h.length_le),
      firstTooLong_eq_none_iff.mpr h.row_length_le]

/-- A state is given for a row and a column. -/
def Gives (c : Configuration) (i j state : Nat) : Prop :=
  ∃ row, c.states[i]? = some row ∧ row[j]? = some state

/-- The initial state is the one that is given. -/
theorem Gives.initialState (h : c.Gives i j state) : c.initialState i j = state := by
  obtain ⟨row, hrow, hstate⟩ := h
  rw [Configuration.initialState, hrow, Option.bind_some, hstate, Option.getD_some]

/-- The initial state is zero where none is given. -/
theorem initialState_of_not_gives (h : ∀ state, ¬ c.Gives i j state) :
    c.initialState i j = 0 := by
  have hnone : ((c.states[i]?).bind fun row => row[j]?) = none := by
    refine Option.eq_none_iff_forall_ne_some.mpr ?_
    intro state hstate
    obtain ⟨row, hrow, hstate⟩ := Option.bind_eq_some_iff.mp hstate
    exact h state ⟨row, hrow, hstate⟩
  rw [initialState, hnone, Option.getD_none]

/-- In a valid configuration states are given for positions of the grid only. -/
theorem Valid.inside (h : c.Valid) (hgives : c.Gives i j state) :
    (i : Int) < c.rows ∧ (j : Int) < c.cols := by
  obtain ⟨row, hrow, hstate⟩ := hgives
  have hlength := h.length_le
  have hwidth := h.row_length_le row (List.mem_of_getElem? hrow)
  have hi := (List.getElem?_eq_some_iff.mp hrow).1
  have hj := (List.getElem?_eq_some_iff.mp hstate).1
  omega

end Configuration

namespace Simulation

variable {c : Configuration} {kind : Kind} {rules : Ruleset} {fault : Fault}

/-- The rules have a cell with which the initial state of a position starts. -/
def Starts (c : Configuration) (rules : Ruleset) (row col : Nat) : Prop :=
  ∃ cell, rules.start (c.initialState row col) ⟨row, col⟩ = .ok cell

/-- A configuration describes a world of a kind with rules: it passes every check. -/
structure Describes (c : Configuration) (kind : Kind) (rules : Ruleset) : Prop where
  /-- The dimensions and the initial states fit each other. -/
  valid : c.validate = .ok ()
  /-- The automaton is known by its name. -/
  named : Kind.ofText c.automaton = .ok kind
  /-- The parameters and the species are those of rules. -/
  read : Ruleset.build kind (seededParameters c) (programs c) = .ok rules
  /-- The rules start every initial state, also where it is left out. -/
  starts : ∀ row col : Nat, (row : Int) < c.rows → (col : Int) < c.cols → Starts c rules row col

/-- The first check that a configuration does not pass, with what is reported of it. -/
inductive Flaw (c : Configuration) : Fault → Prop where
  /-- The dimensions and the initial states do not fit each other. -/
  | invalid {fault : Fault} (h : c.validate = .error fault) : Flaw c fault
  /-- The automaton is not known. -/
  | unnamed {fault : Fault} (hvalid : c.validate = .ok ())
      (h : Kind.ofText c.automaton = .error fault) : Flaw c fault
  /-- The parameters or the species are wrong. -/
  | unread {kind : Kind} {fault : Fault} (hvalid : c.validate = .ok ())
      (hnamed : Kind.ofText c.automaton = .ok kind)
      (h : Ruleset.build kind (seededParameters c) (programs c) = .error fault) : Flaw c fault
  /-- The initial state of a position is wrong, and those in the rows above and before it in its
  row are not. -/
  | misplaced {kind : Kind} {rules : Ruleset} {fault : Fault} {row col : Nat}
      (hvalid : c.validate = .ok ()) (hnamed : Kind.ofText c.automaton = .ok kind)
      (hread : Ruleset.build kind (seededParameters c) (programs c) = .ok rules)
      (hinside : (row : Int) < c.rows ∧ (col : Int) < c.cols)
      (hbefore : ∀ row' col' : Nat, (col' : Int) < c.cols →
        row' < row ∨ row' = row ∧ col' < col → Starts c rules row' col')
      (h : rules.start (c.initialState row col) ⟨row, col⟩ = .error fault) : Flaw c fault

/-- What goes wrong with the initial cells goes wrong with the first one that is not got. -/
theorem faultOf?_populate (hkind : rules.kind = kind) :
    faultOf? (populate c kind rules) = (Grid.positions c.rows c.cols).findSome? fun l =>
      faultOf? (rules.start (c.initialState l.row.toNat l.col.toNat) l) := by
  rw [populate, Grid.visitPositions_eq_foldlM]
  refine faultOf?_foldlM ?_ _ _
  intro g l
  rw [placeInitial, startAs_of_kind hkind]
  cases rules.start (c.initialState l.row.toNat l.col.toNat) l <;> rfl

/-- The initial cells are got if every initial state is started. -/
theorem populate_succeeds_iff (hkind : rules.kind = kind) :
    (∃ g, populate c kind rules = .ok g) ↔
      ∀ row col : Nat, (row : Int) < c.rows → (col : Int) < c.cols → Starts c rules row col := by
  rw [← faultOf?_eq_none_iff, faultOf?_populate hkind, List.findSome?_eq_none_iff]
  constructor
  · intro h row col hrow hcol
    exact faultOf?_eq_none_iff.mp
      (h _ (Grid.mem_positions_iff_exists.mpr ⟨row, col, ⟨hrow, hcol⟩, rfl⟩))
  · intro h l hl
    obtain ⟨row, col, hinside, rfl⟩ := Grid.mem_positions_iff_exists.mp hl
    exact faultOf?_eq_none_iff.mpr (h row col hinside.1 hinside.2)

/-- The fault of the initial cells is that of the first position, in row-major order, whose
initial state is not started. -/
theorem populate_eq_error_iff (hkind : rules.kind = kind) :
    populate c kind rules = .error fault ↔
      ∃ row col : Nat, ((row : Int) < c.rows ∧ (col : Int) < c.cols) ∧
        rules.start (c.initialState row col) ⟨row, col⟩ = .error fault ∧
        ∀ row' col' : Nat, (col' : Int) < c.cols → row' < row ∨ row' = row ∧ col' < col →
          Starts c rules row' col' := by
  rw [← faultOf?_eq_some_iff, faultOf?_populate hkind, Grid.findSome?_positions_eq_some_iff]
  simp only [faultOf?_eq_some_iff, faultOf?_eq_none_iff, Int.toNat_natCast, Starts]

/-- What is reported when no simulation is set up is the first check that fails. -/
theorem ofConfiguration_eq_error_iff : ofConfiguration c = .error fault ↔ Flaw c fault := by
  unfold ofConfiguration
  simp only [bind_eq_error]
  constructor
  · rintro (h | ⟨⟨⟩, hvalid, h | ⟨kind, hnamed, h | ⟨rules, hread, h | ⟨g, -, h⟩⟩⟩⟩)
    · exact .invalid h
    · exact .unnamed hvalid h
    · exact .unread hvalid hnamed h
    · obtain ⟨row, col, hinside, h, hbefore⟩ :=
        (populate_eq_error_iff (kind_of_build hread)).mp h
      exact .misplaced hvalid hnamed hread hinside hbefore h
    · cases h
  · intro h
    cases h with
    | invalid h => exact Or.inl h
    | unnamed hvalid h => exact Or.inr ⟨(), hvalid, Or.inl h⟩
    | unread hvalid hnamed h => exact Or.inr ⟨(), hvalid, Or.inr ⟨_, hnamed, Or.inl h⟩⟩
    | misplaced hvalid hnamed hread hinside hbefore h =>
      have hgrid := (populate_eq_error_iff (kind_of_build hread)).mpr
        ⟨_, _, hinside, h, hbefore⟩
      exact Or.inr ⟨(), hvalid, Or.inr ⟨_, hnamed, Or.inr ⟨_, hread, Or.inl hgrid⟩⟩⟩

/-- The configuration of a simulation passes every check. -/
theorem describes_of_ofConfiguration {s : Simulation KeyStream} (h : ofConfiguration c = .ok s) :
    ∃ kind, Describes c kind s.rules := by
  obtain ⟨kind, hvalid, hnamed, hread, hgrid⟩ := ofConfiguration_eq_ok h
  have hstarts := (populate_succeeds_iff (kind_of_build hread)).mp ⟨_, hgrid⟩
  exact ⟨kind, hvalid, hnamed, hread, hstarts⟩

/-- A configuration that passes every check has a simulation. -/
theorem Describes.exists_ofConfiguration (h : Describes c kind rules) :
    ∃ s, ofConfiguration c = .ok s := by
  obtain ⟨g, hgrid⟩ := (populate_succeeds_iff (kind_of_build h.read)).mpr h.starts
  refine ⟨{ new g rules rules.source with metricsInterval := c.metricsInterval }, ?_⟩
  exact ofConfiguration_eq_ok_iff.mpr ⟨kind, h.valid, h.named, h.read, hgrid, rfl⟩

/-- A simulation before its first tick shows just what a configuration describes. -/
structure Shows (s : Simulation KeyStream) (c : Configuration) : Prop where
  /-- The grid has the dimensions and the edge that are described. -/
  dimensions : s.grid.rows = c.rows ∧ s.grid.cols = c.cols ∧ s.grid.edge = c.edge
  /-- There are as many cells as positions. -/
  size : (s.grid.size : Int) = c.rows * c.cols
  /-- There are no cells elsewhere. -/
  inside : ∀ l, (s.grid.cellAt l).isSome = true →
    (0 ≤ l.row ∧ l.row < c.rows) ∧ 0 ≤ l.col ∧ l.col < c.cols
  /-- The cell of a position is the one with which its initial state starts. -/
  cells : ∀ row col : Nat, (row : Int) < c.rows → (col : Int) < c.cols →
    ∃ cell, s.rules.start (c.initialState row col) ⟨row, col⟩ = .ok cell ∧
      s.grid.cellAt ⟨row, col⟩ = some cell ∧ cell.location = ⟨row, col⟩
  /-- Each state that is given is found at its place. -/
  given : ∀ i j state, c.Gives i j state → s.grid.stateAt ⟨i, j⟩ = some state
  /-- The state of the other positions is zero. -/
  others : ∀ row col : Nat, (row : Int) < c.rows → (col : Int) < c.cols →
    (∀ state, ¬ c.Gives row col state) → s.grid.stateAt ⟨row, col⟩ = some 0
  /-- Nothing has happened yet. -/
  unstarted : s.tick = 0 ∧ s.updatesApplied = 0
  /-- The cells are counted as often as is described. -/
  metricsInterval : s.metricsInterval = c.metricsInterval
  /-- Chance takes the course that the rules give it. -/
  source : s.source = s.rules.source

/-- At every position of a grid that is set up is the cell with which its initial state starts. -/
theorem exists_cellAt_populate {g : Grid} (h : populate c kind rules = .ok g) {row col : Nat}
    (hrow : (row : Int) < c.rows) (hcol : (col : Int) < c.cols) :
    ∃ cell, rules.start (c.initialState row col) ⟨row, col⟩ = .ok cell ∧
      g.cellAt ⟨row, col⟩ = some cell := by
  have hdimensions := populate_dimensions h
  have hin : g.inBounds ⟨row, col⟩ = true := by
    rw [Grid.inBounds_iff, hdimensions.1, hdimensions.2.1]
    dsimp only
    omega
  obtain ⟨cell, hcell⟩ := Option.isSome_iff_exists.mp (populate_full h _ hin)
  exact ⟨cell, (populate_cells h).2 _ cell hcell, hcell⟩

/-- The simulation that is set up shows what its configuration describes. -/
theorem shows_of_ofConfiguration {s : Simulation KeyStream} (h : ofConfiguration c = .ok s) :
    s.Shows c := by
  obtain ⟨kind, hvalid, -, -, hgrid, hs⟩ := ofConfiguration_eq_ok_iff.mp h
  have hvalid := Configuration.validate_eq_ok_iff.mp hvalid
  have hwf := (populate_cells hgrid).1
  have hfull := populate_full hgrid
  have hdimensions := populate_dimensions hgrid
  have hstate : ∀ row col : Nat, (row : Int) < c.rows → (col : Int) < c.cols →
      s.grid.stateAt ⟨row, col⟩ = some (c.initialState row col) := by
    intro row col hrow hcol
    obtain ⟨cell, hstart, hcell⟩ := exists_cellAt_populate hgrid hrow hcol
    rw [Grid.stateAt, hcell, Option.map_some, (start_eq_ok hstart).1]
  refine
    { dimensions := hdimensions
      size := ?size
      inside := ?inside
      cells := ?cells
      given := ?given
      others := ?others
      unstarted := by rw [hs]; exact ⟨rfl, rfl⟩
      metricsInterval := by rw [hs]
      source := by rw [hs]; rfl }
  case size =>
    rw [← hwf.length_cellList_eq_size, hwf.length_cellList hfull, hdimensions.1, hdimensions.2.1,
      Nat.cast_mul, Int.toNat_of_nonneg hvalid.rows_pos.le, Int.toNat_of_nonneg hvalid.cols_pos.le]
  case inside =>
    intro l hl
    have hin := (hwf.mem_populated_iff hfull).mp hl
    rwa [Grid.inBounds_iff, hdimensions.1, hdimensions.2.1] at hin
  case cells =>
    intro row col hrow hcol
    obtain ⟨cell, hstart, hcell⟩ := exists_cellAt_populate hgrid hrow hcol
    exact ⟨cell, hstart, hcell, hwf.location hcell⟩
  case given =>
    intro i j state hgives
    obtain ⟨hi, hj⟩ := hvalid.inside hgives
    rw [hstate i j hi hj, hgives.initialState]
  case others =>
    intro row col hrow hcol hnone
    rw [hstate row col hrow hcol, Configuration.initialState_of_not_gives hnone]

/-- A simulation is set up from a configuration just if the configuration is valid, names an
automaton, has parameters, completed by the seed, and programs of species from which the rules
can be read, and gives every position a state that the rules start. Then it has one cell at each
position of the rectangle and none elsewhere, which is the one with which the initial state
starts, and each given state is found at its place. Otherwise the fault that is reported is that
of the first of these checks that fails, the states being checked in row-major order. Valid are
the configurations with positive dimensions into which the given states fit. -/
theorem described_world_is_built (c : Configuration) :
    ((∃ s, ofConfiguration c = .ok s) ↔ ∃ kind rules, Describes c kind rules) ∧
    (∀ s, ofConfiguration c = .ok s → (∃ kind, Describes c kind s.rules) ∧ s.Shows c) ∧
    (∀ fault, ofConfiguration c = .error fault ↔ Flaw c fault) ∧
    (c.validate = .ok () ↔ c.Valid) ∧
    (∀ name, (seededParameters c).get? name = (c.parameters.get? name).or
      (if name = "seed" then some (.ofInt (Int.bmod c.seed (2 ^ 64))) else none)) ∧
    ∀ id : Nat, (programs c)[id]? = (c.species[id]?).map Program.parse := by
  refine ⟨⟨?_, ?_⟩, ?_, fun _ => ofConfiguration_eq_error_iff, Configuration.validate_eq_ok_iff,
    get?_seededParameters_eq c, ?_⟩
  · rintro ⟨s, hs⟩
    obtain ⟨kind, hdescribes⟩ := describes_of_ofConfiguration hs
    exact ⟨kind, s.rules, hdescribes⟩
  · rintro ⟨kind, rules, hdescribes⟩
    exact hdescribes.exists_ofConfiguration
  · intro s hs
    exact ⟨describes_of_ofConfiguration hs, shows_of_ofConfiguration hs⟩
  · intro id
    rw [programs, Std.ExtTreeMap.getElem?_map]

/-- A world of two rows and three columns with states for some of the positions. -/
def ragged (states : List (List Nat)) : Configuration :=
  { Configuration.default with rows := 2, cols := 3, states := states }

/-- A ragged description is filled up with zeros, and of two wrong states the first in row-major
order is reported. -/
theorem ragged_world_is_built :
    (∃ s, ofConfiguration (ragged [[0, 1], []]) = .ok s ∧ s.grid.size = 6 ∧
      s.grid.stateAt ⟨0, 1⟩ = some 1 ∧ s.grid.stateAt ⟨1, 2⟩ = some 0) ∧
    Flaw (ragged [[1], [0, 7, 9]]) (.parameter "state" (.unknownState 7 "life" 2)) := by
  constructor
  · obtain ⟨s, hs⟩ : ∃ s, ofConfiguration (ragged [[0, 1], []]) = .ok s :=
      faultOf?_eq_none_iff.mp (by decide +kernel)
    obtain ⟨-, hshows⟩ := (described_world_is_built (ragged [[0, 1], []])).2.1 s hs
    have hsize : (s.grid.size : Int) = 2 * 3 := hshows.size
    refine ⟨s, hs, by exact_mod_cast hsize, hshows.given 0 1 1 ⟨[0, 1], rfl, rfl⟩, ?_⟩
    refine hshows.others 1 2 (by decide) (by decide) ?_
    rintro state ⟨row, hrow, hstate⟩
    obtain rfl := Option.some.inj hrow
    cases hstate
  · refine ((described_world_is_built (ragged [[1], [0, 7, 9]])).2.2.1 _).mp ?_
    exact faultOf?_eq_some_iff.mp (by decide +kernel)

end Simulation

end CellularAutomata
