import CellularAutomata.Neighborhood.Policy
import CellularAutomata.Proofs.Keys
import CellularAutomata.Proofs.Numeral.Rounded
import CellularAutomata.Proofs.Success
import CellularAutomata.Tick

/-!
# Reading parameters

What the readers make of parameters that have been written down for them: a number that is
finite and within the bounds is read as it is, and an integer is read as it is if the nearest
double-precision number is cut to it again. What is read at all is of that kind.
-/

namespace CellularAutomata

-- Written out, these have hundreds of digits.
attribute [local irreducible] Binary64.unitsPerOne Binary64.unitsLimit

namespace Parameters

variable {p : Parameters} {name : String}

/-- The numbers among the values can be represented. -/
def Proper (p : Parameters) : Prop :=
  ∀ name value, p.get? name = some (.number value) → value.Proper

/-- A name that has been given a value has it, and the others keep theirs. -/
@[simp] theorem get?_insert (p : Parameters) (name other : String) (value : ParameterValue) :
    (p.insert name value).get? other = if name = other then some value else p.get? other := by
  simp [get?, insert, Std.ExtTreeMap.getElem?_insert]

/-- The parameters of the entries of parameters are the parameters. -/
theorem ofList_toList (p : Parameters) : ofList p.toList = p := by
  have hvalues : ∀ (entries : List (String × ParameterValue)) (q : Parameters),
      (entries.foldl (fun p entry => p.insert entry.1 entry.2) q).values =
        entries.foldl (fun m entry => m.insert entry.1 entry.2) q.values := by
    intro entries
    induction entries with
    | nil => exact fun _ => rfl
    | cons entry entries ih => exact fun q => ih (q.insert entry.1 entry.2)
  have hsame : (ofList p.toList).values = p.values := by
    rw [ofList, hvalues, toList]
    exact Std.ExtTreeMap.ofList_eq_foldl.symm.trans (CellularAutomata.ofList_toList p.values)
  exact congrArg Parameters.mk hsame

/-- Without values there is nothing that could not be represented. -/
theorem proper_empty : Parameters.empty.Proper := by
  intro name value h
  simp [get?, empty] at h

/-- A value that can be represented may be added. -/
theorem Proper.insert (h : p.Proper) (name : String) {value : ParameterValue}
    (hvalue : ∀ n, value = .number n → n.Proper) : (p.insert name value).Proper := by
  intro other n hn
  rw [get?_insert] at hn
  split at hn
  next => exact hvalue n (Option.some.inj hn)
  next => exact h other n hn

/-- A text may be added. -/
theorem Proper.insert_text (h : p.Proper) (name text : String) :
    (p.insert name (.text text)).Proper :=
  h.insert name nofun

/-- The number nearest to an integer may be added. -/
theorem Proper.insert_ofInt (h : p.Proper) (name : String) (n : Int) :
    (p.insert name (.ofInt n)).Proper :=
  h.insert name fun _ hn => ParameterValue.number.inj hn ▸ Binary64.proper_ofInt n

/-- A number that is read is finite and can be represented. -/
theorem finite_of_number {value : Binary64} (h : p.number name = .ok value) :
    value.isFinite = true ∧ (p.Proper → value.Proper) := by
  unfold number at h
  split at h
  next => cases h
  next given hgiven =>
    split at h
    next n hn =>
      obtain rfl := Except.ok.inj h
      obtain ⟨hnumber, hfinite⟩ := Option.filter_eq_some_iff.mp hn
      refine ⟨hfinite, ?_⟩
      intro hp
      cases given with
      | number value => exact Option.some.inj hnumber ▸ hp name value hgiven
      | text value => exact Binary64.proper_of_binary64? hnumber
    next => cases h

/-- A number that is read within bounds is not outside, it is finite, and it can be represented
if the values and the default can. -/
theorem finite_of_numberWithin {least most value : Binary64} {default : Option Binary64}
    (hfinite : ∀ n, default = some n → n.isFinite = true)
    (h : p.numberWithin name least most default = .ok value) :
    value.isFinite = true ∧
      (p.Proper → (∀ n, default = some n → n.Proper) → value.Proper) := by
  unfold numberWithin at h
  split at h
  next => cases h
  next read hread =>
    split at h
    next => cases h
    next =>
      obtain rfl := Except.ok.inj h
      unfold numberOr at hread
      split at hread
      next =>
        obtain ⟨hread, hproper⟩ := finite_of_number hread
        exact ⟨hread, fun hp _ => hproper hp⟩
      next n =>
        split at hread
        next =>
          obtain ⟨hread, hproper⟩ := finite_of_number hread
          exact ⟨hread, fun hp _ => hproper hp⟩
        next =>
          obtain rfl := Except.ok.inj hread
          exact ⟨hfinite n rfl, fun _ hdefault => hdefault n rfl⟩

/-- A whole number that is read between two bounds of less than 53 bits, the lower of which is
not negative, is between them as a natural number too. -/
theorem toNat_of_integerWithin {least most n : Int} {default : Option Int}
    (h : p.integerWithin name least most default = .ok n) (hpos : 0 ≤ least)
    (hleast : least.natAbs < 2 ^ 53) (hmost : most.natAbs < 2 ^ 53) :
    least ≤ n.toNat ∧ (n.toNat : Int) ≤ most := by
  have hbounds := integerWithin_bounds hleast hmost h
  omega

/-- A number is read from its own parameter only. -/
theorem numberWithin_congr {q : Parameters} (h : q.get? name = p.get? name)
    (least most : Binary64) (default : Option Binary64) :
    q.numberWithin name least most default = p.numberWithin name least most default := by
  have hnumber : q.number name = p.number name := by rw [number, number, h]
  have hnumberOr : q.numberOr name default = p.numberOr name default := by
    unfold numberOr contains
    rw [hnumber, h]
  rw [numberWithin, numberWithin, hnumberOr]

/-- A whole number is read from its own parameter only. -/
theorem integerWithin_congr {q : Parameters} (h : q.get? name = p.get? name)
    (least most : Int) (default : Option Int) :
    q.integerWithin name least most default = p.integerWithin name least most default := by
  rw [integerWithin, integerWithin, numberWithin_congr h]

/-- A probability is read from its own parameter only. -/
theorem probability_congr {q : Parameters} (h : q.get? name = p.get? name)
    (default : Option Binary64) : q.probability name default = p.probability name default :=
  numberWithin_congr h _ _ _

/-- A finite number is read as it is. -/
theorem numberOr_of_get? {value : Binary64} {default : Option Binary64}
    (hget : p.get? name = some (.number value)) (hfinite : value.isFinite = true) :
    p.numberOr name default = .ok value := by
  have hnumber : p.number name = .ok value := by
    simp [number, hget, ParameterValue.number?, Option.filter, hfinite]
  cases default <;> simp [numberOr, contains, hget, hnumber]

/-- A finite number within the bounds is read as it is. -/
theorem numberWithin_of_get? {least most value : Binary64} {default : Option Binary64}
    (hget : p.get? name = some (.number value)) (hfinite : value.isFinite = true)
    (hleast : ¬ value.less least = true) (hmost : ¬ most.less value = true) :
    p.numberWithin name least most default = .ok value := by
  rw [numberWithin, numberOr_of_get? hget hfinite]
  simp [hleast, hmost]

/-- A finite number below the lower bound is refused. -/
theorem numberWithin_of_less {least most value : Binary64} {default : Option Binary64}
    (hget : p.get? name = some (.number value)) (hfinite : value.isFinite = true)
    (hless : value.less least = true) :
    p.numberWithin name least most default =
      .error (.parameter name (.outside value least most)) := by
  rw [numberWithin, numberOr_of_get? hget hfinite]
  simp [hless]

/-- An integer that survives its conversion is read as it is. -/
theorem integerWithin_of_get? {least most n : Int} {default : Option Int}
    (hget : p.get? name = some (.ofInt n)) (hn : Binary64.Survives least most n) :
    p.integerWithin name least most default = .ok n := by
  have hfinite : (Binary64.ofInt n).isFinite = true := by
    have hwhole := hn.whole
    cases h : Binary64.ofInt n with
    | finite negative units => rfl
    | _ => rw [h] at hwhole; cases hwhole
  rw [integerWithin, numberWithin_of_get? hget hfinite hn.least hn.most]
  dsimp only
  rw [if_pos hn.whole, hn.same]

/-- An integer between bounds of less than 53 bits is read as it is. -/
theorem integerWithin_of_bounds {least most n : Int} {default : Option Int}
    (hget : p.get? name = some (.ofInt n)) (hleast : least.natAbs < 2 ^ 53)
    (hmost : most.natAbs < 2 ^ 53) (hn : least ≤ n ∧ n ≤ most) :
    p.integerWithin name least most default = .ok n :=
  integerWithin_of_get? hget (Binary64.survives_of_bounds hleast hmost hn)

/-- A number is a probability if it is read as one. -/
structure IsProbability (value : Binary64) : Prop where
  /-- It is finite. -/
  finite : value.isFinite = true
  /-- It is not below zero. -/
  least : ¬ value.less Binary64.zero = true
  /-- It is not above one. -/
  most : ¬ (Binary64.ofInt 1).less value = true

/-- What is read as a probability is one. -/
theorem isProbability_of_probability {value : Binary64} (h : p.probability name none = .ok value) :
    IsProbability value := by
  rw [probability] at h
  obtain ⟨hleast, hmost⟩ := numberWithin_bounds h
  exact ⟨(finite_of_numberWithin (by simp) h).1, hleast, hmost⟩

/-- A probability is read as it is. -/
theorem probability_of_get? {value : Binary64} (hget : p.get? name = some (.number value))
    (h : IsProbability value) : p.probability name none = .ok value :=
  numberWithin_of_get? hget h.finite h.least h.most

end Parameters

namespace Seed

/-- A seed that stays the same when it is converted to a double-precision number and read
again. -/
def Stable (seed : Int) : Prop := Binary64.Survives 0 Numeral.mostInt64 seed

/-- A seed that is read is stable, because it has been converted before. -/
theorem stable_of_ofParameters {p : Parameters} {seed : Int} (hp : p.Proper)
    (h : ofParameters p = .ok seed) : Stable seed := by
  unfold ofParameters Parameters.integerWithin at h
  split at h
  next => cases h
  next value hvalue =>
    split at h
    next hwhole =>
      obtain rfl := Except.ok.inj h
      have hdefault : ∀ n, (some 0 : Option Int).map Binary64.ofInt = some n →
          n.isFinite = true ∧ n.Proper := by
        intro n hn
        rw [Option.map_some, Option.some.injEq] at hn
        rw [← hn]
        refine ⟨?_, Binary64.proper_ofInt 0⟩
        rw [Binary64.ofInt_whole (by decide)]
        rfl
      have hproper := (Parameters.finite_of_numberWithin (fun n hn => (hdefault n hn).1) hvalue).2
        hp fun n hn => (hdefault n hn).2
      obtain ⟨hleast, hmost⟩ := Parameters.numberWithin_bounds hvalue
      exact Binary64.survives_truncated hproper hwhole hleast hmost
    next => cases h

/-- A stable seed is read as it has been written down. -/
theorem ofParameters_describe {seed : Int} (h : Stable seed) (p : Parameters) :
    ofParameters (describe seed p) = .ok seed :=
  Parameters.integerWithin_of_get? (by simp [describe]) h

/-- Other parameters are not changed when a seed is written down. -/
theorem get?_describe {seed : Int} {p : Parameters} {name : String} (h : name ≠ "seed") :
    (describe seed p).get? name = p.get? name := by
  rw [describe, Parameters.get?_insert, if_neg h.symm]

end Seed

namespace NeighborPolicy

/-- A policy with as many layers as are allowed. -/
def Ranged (n : NeighborPolicy) : Prop := 1 ≤ n.layers ∧ n.layers ≤ 16

/-- A policy that is read is in its range. -/
theorem ranged_of_ofParameters {p : Parameters} {default : Topology} {n : NeighborPolicy}
    (h : ofParameters p default = .ok n) : n.Ranged := by
  have hrest : ∃ topology layers, p.integerWithin "layers" 1 16 (some 1) = .ok layers ∧
      ∃ truncates, n = ⟨topology, layers.toNat, truncates⟩ := by
    unfold ofParameters at h
    dsimp only at h
    split at h
    all_goals
      obtain ⟨topology, -, h⟩ := bind_eq_ok.mp h
      obtain ⟨layers, hlayers, h⟩ := bind_eq_ok.mp h
      obtain ⟨truncates, -, h⟩ := bind_eq_ok.mp h
      exact ⟨topology, layers, hlayers, _, (Except.ok.inj h).symm⟩
  obtain ⟨topology, layers, hlayers, truncates, rfl⟩ := hrest
  have hbounds := Parameters.integerWithin_bounds (by decide) (by decide) hlayers
  change 1 ≤ layers.toNat ∧ layers.toNat ≤ 16
  omega

/-- A policy does not depend on the seed. -/
theorem ofParameters_congr {p q : Parameters}
    (h : ∀ name, name ≠ "seed" → q.get? name = p.get? name) (default : Topology) :
    ofParameters q default = ofParameters p default := by
  rw [ofParameters, ofParameters, h "neighborhood" (by decide),
    Parameters.integerWithin_congr (h "layers" (by decide)),
    Parameters.integerWithin_congr (h "truncateLayerAtEdge" (by decide))]

/-- The name of a topology is one of its names. -/
theorem ofText_name (t : Topology) : Topology.ofText t.name = .ok t := by
  cases t <;> decide

/-- A policy is read as it has been written down, whatever else is written down afterwards. -/
theorem ofParameters_describe {n : NeighborPolicy} (h : n.Ranged) {p q : Parameters}
    (hq : ∀ name, name ≠ "seed" → q.get? name = (n.describe p).get? name) (default : Topology) :
    ofParameters q default = .ok n := by
  have htopology : q.get? "neighborhood" = some (.text n.topology.name) := by
    rw [hq _ (by decide)]
    simp [describe]
  have hlayers : q.integerWithin "layers" 1 16 (some 1) = .ok n.layers := by
    refine Parameters.integerWithin_of_bounds ?_ (by decide) (by decide) ?_
    · rw [hq _ (by decide)]
      simp [describe]
    · unfold Ranged at h
      omega
  have htruncates : q.integerWithin "truncateLayerAtEdge" 0 1 (some 0) =
      .ok (if n.truncates then 1 else 0) := by
    refine Parameters.integerWithin_of_bounds ?_ (by decide) (by decide) ?_
    · rw [hq _ (by decide)]
      simp [describe]
    · split <;> decide
  have hnames := ofText_name n.topology
  rw [ofParameters, htopology, hlayers, htruncates]
  obtain ⟨topology, layers, truncates⟩ := n
  cases truncates <;> simp [ParameterValue.shown, hnames, bind, Except.bind, pure, Except.pure]

end NeighborPolicy

end CellularAutomata
