import CellularAutomata.Motion.Sand
import CellularAutomata.Proofs.Grid.Updates
import Mathlib.Data.List.SplitBy
import Mathlib.Data.Set.Function

/-!
# Settling of grains

What one grain can do when it settles, said once, and what follows for all grains of a
tick. The bottom row settles first and grains fall, so a grain comes to a row that has
been passed already: every grain settles once, and from where it was before the tick.
-/

namespace CellularAutomata.Sand

/-- The positions that a grain can fall to: straight down, or down to one of the sides. -/
def lower (l : Location) : List Location := [l.offset 1 0, l.offset 1 (-1), l.offset 1 1]

/-- A grain falls by one row. -/
theorem row_of_mem_lower {l b : Location} (h : b ∈ lower l) : b.row = l.row + 1 := by
  simp only [lower, List.mem_cons, List.not_mem_nil, or_false] at h
  rcases h with rfl | rfl | rfl <;> rfl

/-- A grain that falls does not stay where it is. -/
theorem ne_of_mem_lower {l b : Location} (h : b ∈ lower l) : b ≠ l := by
  rintro rfl
  have hrow := row_of_mem_lower h
  omega

/-- A position is free if it is empty. -/
theorem isFree_iff {states : Std.ExtTreeMap Location Nat} {l : Location} :
    isFree states l = true ↔ states[l]? = some air := by
  rw [isFree, beq_iff_eq]

/-- Where a grain can come to rest, and with which source of random words. -/
inductive Fate {ρ : Type} (states : Std.ExtTreeMap Location Nat) (l : Location) (source : ρ) :
    Location × ρ → Prop where
  /-- No position below is free, and nothing is drawn. -/
  | rests (h : ∀ b ∈ lower l, isFree states b = false) : Fate states l source (l, source)
  /-- The grain falls to a free position below. -/
  | falls {b : Location} (source' : ρ) (hb : b ∈ lower l) (hfree : isFree states b = true) :
      Fate states l source (b, source')

/-- The positions with a grain while the grains settle. -/
def Pass.grains {ρ : Type} (p : Pass ρ) : Set Location := {l | p.states[l]? = some grain}

/-- What becomes of the position `l` and of the pass when `l` has its turn; the position is
where the grain is then, or `l` itself if there is no grain. -/
inductive Settled {ρ : Type} (p : Pass ρ) (l : Location) : Location → Pass ρ → Prop where
  /-- There is no grain, or it can fall nowhere. -/
  | still (h : p.states[l]? = some grain → ∀ b ∈ lower l, isFree p.states b = false) :
      Settled p l l p
  /-- There is a grain, and it falls. -/
  | fell {b : Location} (source' : ρ) (hgrain : p.states[l]? = some grain) (hb : b ∈ lower l)
      (hfree : p.states[b]? = some air) :
      Settled p l b ⟨(p.states.insert l air).insert b grain, source'⟩

variable {ρ : Type} [WordSource ρ] {p p' : Pass ρ} {l b : Location}

/-- Where the grain at a position goes when its turn comes; where there is no grain, nothing
goes anywhere. -/
def Pass.target (p : Pass ρ) (l : Location) : Location :=
  if p.states[l]? = some grain then (destination p.states l p.source).1 else l

/-- The pass after the positions of a list have had their turns. -/
def settleFrom (ls : List Location) (p : Pass ρ) : Pass ρ := ls.foldl settle p

/-- Where the grain at a position is after the positions of a list have had their turns: where
its own turn takes it, or where it is if it has none. -/
def landing : List Location → Pass ρ → Location → Location
  | [], _, l => l
  | first :: rest, p, l => if first = l then p.target l else landing rest (settle p first) l

/-- A grain rests or falls. -/
theorem fate_destination (states : Std.ExtTreeMap Location Nat) (l : Location) (source : ρ) :
    Fate states l source (destination states l source) := by
  unfold destination
  split
  next hbelow => exact .falls _ (by simp [lower]) hbelow
  next hbelow =>
    split
    next hleft hright =>
      dsimp only
      split
      next => exact .falls _ (by simp [lower]) hleft
      next => exact .falls _ (by simp [lower]) hright
    next hleft _ => exact .falls _ (by simp [lower]) hleft
    next _ hright => exact .falls _ (by simp [lower]) hright
    next hleft hright =>
      refine .rests ?_
      intro b hb
      simp only [lower, List.mem_cons, List.not_mem_nil, or_false] at hb
      rcases hb with rfl | rfl | rfl
      · exact Bool.eq_false_of_not_eq_true hbelow
      · exact hleft
      · exact hright

/-- In its turn a position keeps what is there, or loses a grain to a free position below. -/
theorem settled_settle (p : Pass ρ) (l : Location) : Settled p l (p.target l) (settle p l) := by
  rw [settle, Pass.target]
  by_cases hgrain : p.states[l]? = some grain
  · rw [if_pos hgrain, if_pos hgrain]
    have hfate := fate_destination p.states l p.source
    generalize destination p.states l p.source = d at hfate
    cases hfate with
    | rests h =>
      dsimp only
      rw [if_pos rfl]
      exact .still fun _ => h
    | falls source' hb hfree =>
      dsimp only
      rw [if_neg (ne_of_mem_lower hb)]
      exact .fell source' hgrain hb (isFree_iff.mp hfree)
  · rw [if_neg hgrain, if_neg hgrain]
    exact .still fun h => absurd h hgrain

omit [WordSource ρ] in
/-- The states after a grain has fallen. -/
theorem getElem?_fell (states : Std.ExtTreeMap Location Nat) (l b x : Location) :
    ((states.insert l air).insert b grain)[x]? =
      if b = x then some grain else if l = x then some air else states[x]? := by
  simp [Std.ExtTreeMap.getElem?_insert]

omit [WordSource ρ] in
/-- Only the two positions of a fall change, and they are populated before and after it. -/
theorem Settled.states (h : Settled p l b p') (x : Location) :
    (p'.states[x]?).isSome = (p.states[x]?).isSome ∧
      (p.states[x]? ≠ some air → p.states[x]? ≠ some grain → p'.states[x]? = p.states[x]?) := by
  cases h with
  | still => exact ⟨rfl, fun _ _ => rfl⟩
  | fell source' hgrain hb hfree =>
    rw [getElem?_fell]
    by_cases hbx : b = x
    · subst hbx
      simp [hfree]
    · by_cases hlx : l = x
      · subst hlx
        simp [hbx, hgrain]
      · simp [hbx, hlx]

omit [WordSource ρ] in
/-- The turn of a position takes the grains one to one to the grains after it. -/
theorem Settled.bijOn (h : Settled p l b p') :
    Set.BijOn (fun x => if l = x then b else x) p.grains p'.grains := by
  cases h with
  | still =>
    have hid : (fun x => if l = x then l else x) = id := by
      funext x
      split
      next h => exact h
      next => rfl
    rw [hid]
    exact Set.bijOn_id _
  | fell source' hgrain hb hfree =>
    have hne := ne_of_mem_lower hb
    -- nobody else has been where the grain falls to
    have hother : ∀ x ∈ p.grains, x ≠ b := by
      rintro x hx rfl
      have hx : p.states[x]? = some grain := hx
      rw [hfree] at hx
      cases hx
    refine ⟨?_, ?_, ?_⟩
    · intro x hx
      change ((p.states.insert l air).insert b grain)[_]? = some grain
      rw [getElem?_fell]
      by_cases hlx : l = x
      · simp [hlx]
      · have hbx := (hother x hx).symm
        simp only [hlx, hbx, if_false]
        exact hx
    · intro x hx y hy hxy
      dsimp only at hxy
      split at hxy <;> split at hxy
      next hlx hly => exact hlx.symm.trans hly
      next hlx hly => exact absurd hxy.symm (hother y hy)
      next hlx hly => exact absurd hxy (hother x hx)
      next => exact hxy
    · intro y hy
      have hy : ((p.states.insert l air).insert b grain)[y]? = some grain := hy
      rw [getElem?_fell] at hy
      split at hy
      next hby => exact ⟨l, hgrain, by simpa using hby⟩
      next hby =>
        split at hy
        next => cases hy
        next hly => exact ⟨y, hy, by simp [hly]⟩

omit [WordSource ρ] in
/-- If a grain stays, then the pass is as before and the grain could not fall. -/
theorem Settled.of_eq (h : Settled p l b p') (heq : b = l) :
    p' = p ∧ (p.states[l]? = some grain → ∀ b ∈ lower l, isFree p.states b = false) := by
  cases h with
  | still h => exact ⟨rfl, h⟩
  | fell source' hgrain hb hfree => exact absurd heq (ne_of_mem_lower hb)

omit [WordSource ρ] in
/-- A grain stays where it is or falls by one row. -/
theorem Settled.eq_or_mem_lower (h : Settled p l b p') : b = l ∨ b ∈ lower l := by
  cases h with
  | still => exact Or.inl rfl
  | fell source' hgrain hb hfree => exact Or.inr hb

/-- The order in which grains settle: no position comes twice, and none comes before one that is
further down. -/
def Upward (ls : List Location) : Prop := ls.Pairwise fun a b => a ≠ b ∧ b.row ≤ a.row

/-- What has no turn stays where it is. -/
theorem landing_of_not_mem {ls : List Location} (h : l ∉ ls) (p : Pass ρ) :
    landing ls p l = l := by
  induction ls generalizing p with
  | nil => rfl
  | cons first rest ih =>
    rw [List.mem_cons, not_or] at h
    rw [landing, if_neg (Ne.symm h.1)]
    exact ih h.2 _

/-- A grain ends where it was or in the row below. -/
theorem landing_eq_or_mem_lower (ls : List Location) (p : Pass ρ) (l : Location) :
    landing ls p l = l ∨ landing ls p l ∈ lower l := by
  induction ls generalizing p with
  | nil => exact Or.inl rfl
  | cons first rest ih =>
    rw [landing]
    split
    next => exact (settled_settle p l).eq_or_mem_lower
    next => exact ih _

/-- Where a grain goes in its turn, no grain has its turn later. -/
theorem Upward.target_not_mem {first : Location} {rest : List Location}
    (h : Upward (first :: rest)) (p : Pass ρ) : p.target first ∉ rest := by
  have hlater := (List.pairwise_cons.mp h).1
  intro hmem
  rcases (settled_settle p first).eq_or_mem_lower with hstay | hfall
  · exact (hlater _ hmem).1 hstay.symm
  · have hrow := row_of_mem_lower hfall
    have hbelow := (hlater _ hmem).2
    omega

/-- The first position has its turn, and then the others have theirs. -/
theorem landing_cons {first : Location} {rest : List Location} (h : Upward (first :: rest))
    (p : Pass ρ) : landing (first :: rest) p =
      landing rest (settle p first) ∘ fun x => if first = x then p.target first else x := by
  funext x
  rw [landing, Function.comp_apply]
  by_cases hx : first = x
  · subst hx
    rw [if_pos rfl, if_pos rfl, landing_of_not_mem (h.target_not_mem p)]
  · rw [if_neg hx, if_neg hx]

/-- All turns together take the grains one to one to the grains after them. -/
theorem Upward.bijOn_landing {ls : List Location} (h : Upward ls) (p : Pass ρ) :
    Set.BijOn (landing ls p) p.grains (settleFrom ls p).grains := by
  induction ls generalizing p with
  | nil => exact Set.bijOn_id _
  | cons first rest ih =>
    rw [landing_cons h]
    exact (ih (List.pairwise_cons.mp h).2 (settle p first)).comp (settled_settle p first).bijOn

/-- All turns together change nothing but empty positions and grains. -/
theorem states_settleFrom (ls : List Location) (p : Pass ρ) (x : Location) :
    ((settleFrom ls p).states[x]?).isSome = (p.states[x]?).isSome ∧
      (p.states[x]? ≠ some air → p.states[x]? ≠ some grain →
        (settleFrom ls p).states[x]? = p.states[x]?) := by
  induction ls generalizing p with
  | nil => exact ⟨rfl, fun _ _ => rfl⟩
  | cons first rest ih =>
    obtain ⟨hsome, hkept⟩ := (settled_settle p first).states x
    obtain ⟨hsome', hkept'⟩ := ih (settle p first)
    refine ⟨hsome'.trans hsome, ?_⟩
    intro hair hgrain
    have hfirst := hkept hair hgrain
    rw [← hfirst] at hair hgrain
    exact (hkept' hair hgrain).trans hfirst

omit [WordSource ρ] in
/-- The turn of a position brings no other states than those of empty cells and grains. -/
theorem Settled.forall_states {P : Nat → Prop} (hair : P air) (hgrain : P grain)
    (h : Settled p l b p')
    (hp : ∀ (x : Location) (state : Nat), p.states[x]? = some state → P state) :
    ∀ (x : Location) (state : Nat), p'.states[x]? = some state → P state := by
  cases h with
  | still => exact hp
  | fell source' _ _ _ =>
    intro x state hx
    rw [getElem?_fell] at hx
    split at hx
    next => exact Option.some.inj hx ▸ hgrain
    next =>
      split at hx
      next => exact Option.some.inj hx ▸ hair
      next => exact hp x state hx

/-- The turns of positions bring no other states than those of empty cells and grains. -/
theorem forall_states_settleFrom {P : Nat → Prop} (hair : P air) (hgrain : P grain)
    (ls : List Location)
    (hp : ∀ (x : Location) (state : Nat), p.states[x]? = some state → P state) :
    ∀ (x : Location) (state : Nat), (settleFrom ls p).states[x]? = some state → P state := by
  induction ls generalizing p with
  | nil => exact hp
  | cons first rest ih =>
    have hfirst := (settled_settle p first).forall_states hair hgrain hp
    exact ih hfirst

/-- If every grain ends where it was, then the pass is as before and no grain that has its turn
could fall. -/
theorem Upward.settleFrom_eq_self {ls : List Location} (h : Upward ls) {p : Pass ρ}
    (hstay : ∀ l ∈ p.grains, landing ls p l = l) :
    settleFrom ls p = p ∧
      ∀ l ∈ ls, p.states[l]? = some grain → ∀ b ∈ lower l, isFree p.states b = false := by
  induction ls with
  | nil => exact ⟨rfl, fun l hl => absurd hl List.not_mem_nil⟩
  | cons first rest ih =>
    have htarget : p.target first = first := by
      by_cases hgrain : p.states[first]? = some grain
      · have hend := hstay first hgrain
        rwa [landing, if_pos rfl] at hend
      · rw [Pass.target, if_neg hgrain]
    obtain ⟨hsame, hblocked⟩ := (settled_settle p first).of_eq htarget
    have hrest : ∀ l ∈ p.grains, landing rest p l = l := by
      intro l hgrain
      have hl := hstay l hgrain
      rw [landing_cons h, Function.comp_apply, htarget, hsame] at hl
      split at hl
      next heq => exact heq ▸ hl
      next => exact hl
    obtain ⟨heq, hothers⟩ := ih (List.pairwise_cons.mp h).2 hrest
    refine ⟨?_, ?_⟩
    · change settleFrom rest (settle p first) = p
      rw [hsame]
      exact heq
    · intro l hl
      rcases List.mem_cons.mp hl with rfl | hl
      · exact hblocked
      · exact hothers l hl

omit [WordSource ρ] in
/-- The populated positions are swept, each of them. -/
theorem mem_sweep {g : Grid} : l ∈ sweep g ↔ (g.cellAt l).isSome = true := by
  rw [sweep, ((List.reverse_perm _).flatten).mem_iff, List.flatten_splitBy, Grid.locations,
    Std.ExtTreeMap.mem_keys, ← Std.ExtTreeMap.contains_iff_mem, Grid.contains_eq_isSome_cellAt]

omit [WordSource ρ] in
/-- The positions of a grid are listed row by row from the top. -/
theorem locations_sorted (g : Grid) : g.locations.Pairwise fun a b => a ≠ b ∧ a.row ≤ b.row := by
  refine Std.ExtTreeMap.ordered_keys.imp ?_
  intro a b hab
  rw [Location.compare_eq_lt_iff] at hab
  constructor
  · intro heq
    rw [heq] at hab
    omega
  · omega

omit [WordSource ρ] in
/-- Positions are swept upwards. -/
theorem upward_sweep (g : Grid) : Upward (sweep g) := by
  have hsorted := locations_sorted g
  rw [← List.flatten_splitBy (fun a b => a.row == b.row) g.locations, List.pairwise_flatten]
    at hsorted
  rw [Upward, sweep, List.pairwise_flatten, List.pairwise_reverse]
  refine ⟨?_, ?_⟩
  · intro row hrow
    rw [List.mem_reverse] at hrow
    -- the positions of one group are in one row
    have hchain := List.isChain_of_mem_splitBy hrow
    have hlevel : row.Pairwise fun a b => a.row = b.row := by
      refine List.IsChain.pairwise (hchain.imp ?_)
      intro a b hab
      exact beq_iff_eq.mp hab
    exact (hsorted.1 row hrow).imp₂ (fun a b hab heq => ⟨hab.1, heq.ge⟩) hlevel
  · refine hsorted.2.imp ?_
    intro upper lower h a ha b hb
    exact ⟨(h b hb a ha).1.symm, (h b hb a ha).2⟩

end CellularAutomata.Sand
