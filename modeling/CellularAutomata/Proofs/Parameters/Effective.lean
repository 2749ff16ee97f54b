import CellularAutomata.Proofs.Life.Notation
import CellularAutomata.Proofs.Parameters.Reading
import CellularAutomata.Ruleset

/-!
# Effective parameters

Rules of every kind are described completely by the parameters that they report: defaults are
filled in, texts that spell numbers have become numbers, and a seed is the one that is left after
conversion. Whatever rules are read are in their ranges, and rules in their ranges are read again
from their own description.
-/

namespace CellularAutomata

variable {p : Parameters}

namespace Life

/-- Rules as they are read: the text is in upper case and spells the rule. -/
structure Rules.Ranged (r : Rules) : Prop where
  /-- The text is in upper case. -/
  upper : Text.upper r.text = r.text
  /-- The text spells the rule. -/
  rule : Rule.parse r.text = .ok r.rule
  /-- There are not too many layers. -/
  policy : r.policy.Ranged

/-- Rules that are read are in their ranges. -/
theorem Rules.ranged_of_ofParameters {r : Rules} (h : ofParameters p = .ok r) : r.Ranged := by
  unfold ofParameters at h
  obtain ⟨rule, hrule, h⟩ := bind_eq_ok.mp h
  obtain ⟨policy, hpolicy, h⟩ := bind_eq_ok.mp h
  obtain rfl := Except.ok.inj h
  exact ⟨Text.upper_upper _, parse_upper hrule, NeighborPolicy.ranged_of_ofParameters hpolicy⟩

/-- Rules in their ranges are read from their description. -/
theorem Rules.ofParameters_parameters {r : Rules} (h : r.Ranged) :
    ofParameters r.parameters = .ok r := by
  have htext : r.parameters.textOr "rule" defaultRule = r.text := by
    simp [parameters, NeighborPolicy.describe, Parameters.textOr, ParameterValue.shown]
  have hpolicy := NeighborPolicy.ofParameters_describe h.policy (q := r.parameters)
    (fun _ _ => rfl) .square8
  rw [ofParameters, htext, h.upper, h.rule, hpolicy]
  rfl

end Life

namespace Percolation

/-- Rules that are read are read from their description. -/
theorem Rules.ofParameters_parameters {r : Rules} (h : ofParameters p = .ok r) :
    ofParameters r.parameters = .ok r := by
  unfold ofParameters at h
  obtain ⟨policy, hpolicy, h⟩ := bind_eq_ok.mp h
  obtain rfl := Except.ok.inj h
  have hranged := NeighborPolicy.ranged_of_ofParameters hpolicy
  have hagain := NeighborPolicy.ofParameters_describe hranged (q := parameters ⟨policy⟩)
    (fun _ _ => rfl) .square4
  rw [ofParameters, hagain]
  rfl

end Percolation

namespace Dominance

/-- Rules with settings within the bounds. -/
structure Rules.Ranged (r : Rules) : Prop where
  /-- The number of states. -/
  states : (2 : Int) ≤ r.states ∧ (r.states : Int) ≤ 10
  /-- The number of neighbors that convert a cell. -/
  threshold : (1 : Int) ≤ r.threshold ∧ (r.threshold : Int) ≤ 96
  /-- The number of layers. -/
  policy : r.policy.Ranged

/-- Rules that are read are in their ranges. -/
theorem Rules.ranged_of_ofParameters {r : Rules} (h : ofParameters p = .ok r) : r.Ranged := by
  unfold ofParameters at h
  obtain ⟨states, hstates, h⟩ := bind_eq_ok.mp h
  obtain ⟨threshold, hthreshold, h⟩ := bind_eq_ok.mp h
  obtain ⟨policy, hpolicy, h⟩ := bind_eq_ok.mp h
  obtain rfl := Except.ok.inj h
  exact ⟨Parameters.toNat_of_integerWithin hstates (by decide) (by decide) (by decide),
    Parameters.toNat_of_integerWithin hthreshold (by decide) (by decide) (by decide),
    NeighborPolicy.ranged_of_ofParameters hpolicy⟩

/-- Rules in their ranges are read from their description. -/
theorem Rules.ofParameters_parameters {r : Rules} (h : r.Ranged) :
    ofParameters r.parameters = .ok r := by
  have hstates : r.parameters.integerWithin "numStates" 2 10 (some 3) = .ok r.states :=
    Parameters.integerWithin_of_bounds (by simp [parameters, NeighborPolicy.describe])
      (by decide) (by decide) h.states
  have hthreshold : r.parameters.integerWithin "threshold" 1 96 (some 3) = .ok r.threshold :=
    Parameters.integerWithin_of_bounds (by simp [parameters, NeighborPolicy.describe])
      (by decide) (by decide) h.threshold
  have hpolicy := NeighborPolicy.ofParameters_describe h.policy (q := r.parameters)
    (fun _ _ => rfl) .square8
  rw [ofParameters, hstates, hthreshold, hpolicy]
  rfl

end Dominance

namespace Sand

/-- The seed of rules that are read. -/
theorem Rules.seed_of_ofParameters {r : Rules} (h : ofParameters p = .ok r) :
    Seed.ofParameters p = .ok r.seed := by
  unfold ofParameters at h
  obtain ⟨seed, hseed, h⟩ := bind_eq_ok.mp h
  exact Except.ok.inj h ▸ hseed

/-- Rules with a stable seed are read from their description. -/
theorem Rules.ofParameters_parameters {r : Rules} (hseed : Seed.Stable r.seed) :
    ofParameters r.parameters = .ok r := by
  have hseed := Seed.ofParameters_describe hseed Parameters.empty
  rw [ofParameters, parameters, hseed]
  rfl

end Sand

namespace Fire

/-- Rules with settings within the bounds. -/
structure Rules.Ranged (r : Rules) : Prop where
  /-- How likely a tree grows. -/
  growth : Parameters.IsProbability r.growth
  /-- How likely a tree catches fire. -/
  ignition : Parameters.IsProbability r.ignition
  /-- The number of layers. -/
  policy : r.policy.Ranged

/-- Rules that are read are in their ranges, and their seed is the one that is read. -/
theorem Rules.ranged_of_ofParameters {r : Rules} (h : ofParameters p = .ok r) :
    r.Ranged ∧ Seed.ofParameters p = .ok r.seed := by
  unfold ofParameters at h
  obtain ⟨growth, hgrowth, h⟩ := bind_eq_ok.mp h
  obtain ⟨ignition, hignition, h⟩ := bind_eq_ok.mp h
  obtain ⟨policy, hpolicy, h⟩ := bind_eq_ok.mp h
  obtain ⟨seed, hseed, h⟩ := bind_eq_ok.mp h
  obtain rfl := Except.ok.inj h
  exact ⟨⟨Parameters.isProbability_of_probability hgrowth,
    Parameters.isProbability_of_probability hignition,
    NeighborPolicy.ranged_of_ofParameters hpolicy⟩, hseed⟩

/-- Rules in their ranges are read from their description. -/
theorem Rules.ofParameters_parameters {r : Rules} (h : r.Ranged) (hseed : Seed.Stable r.seed) :
    ofParameters r.parameters = .ok r := by
  have hgrowth : r.parameters.probability "growInEmptyCell" none = .ok r.growth :=
    Parameters.probability_of_get? (by simp [parameters, NeighborPolicy.describe, Seed.describe])
      h.growth
  have hignition : r.parameters.probability "ignitionWithoutNeighbors" none = .ok r.ignition :=
    Parameters.probability_of_get? (by simp [parameters, NeighborPolicy.describe, Seed.describe])
      h.ignition
  have hpolicy := NeighborPolicy.ofParameters_describe h.policy (q := r.parameters)
    (fun _ hname => Seed.get?_describe hname) .square4
  have hseed : Seed.ofParameters r.parameters = .ok r.seed := Seed.ofParameters_describe hseed _
  rw [ofParameters, hgrowth, hignition, hpolicy, hseed]
  rfl

end Fire

namespace Segregation

/-- Rules with settings within the bounds. -/
structure Rules.Ranged (r : Rules) : Prop where
  /-- The part of its neighbors that an agent wants to be like it. -/
  tolerance : Parameters.IsProbability r.tolerance
  /-- The number of types. -/
  agentTypes : (1 : Int) ≤ r.agentTypes ∧ (r.agentTypes : Int) ≤ 9
  /-- The number of layers. -/
  policy : r.policy.Ranged

/-- Rules that are read are in their ranges, and their seed is the one that is read. -/
theorem Rules.ranged_of_ofParameters {r : Rules} (h : ofParameters p = .ok r) :
    r.Ranged ∧ Seed.ofParameters p = .ok r.seed := by
  unfold ofParameters at h
  obtain ⟨tolerance, htolerance, h⟩ := bind_eq_ok.mp h
  obtain ⟨agentTypes, hagentTypes, h⟩ := bind_eq_ok.mp h
  obtain ⟨policy, hpolicy, h⟩ := bind_eq_ok.mp h
  obtain ⟨seed, hseed, h⟩ := bind_eq_ok.mp h
  obtain rfl := Except.ok.inj h
  exact ⟨⟨Parameters.isProbability_of_probability htolerance,
    Parameters.toNat_of_integerWithin hagentTypes (by decide) (by decide) (by decide),
    NeighborPolicy.ranged_of_ofParameters hpolicy⟩, hseed⟩

/-- Rules in their ranges are read from their description. -/
theorem Rules.ofParameters_parameters {r : Rules} (h : r.Ranged) (hseed : Seed.Stable r.seed) :
    ofParameters r.parameters = .ok r := by
  have htolerance : r.parameters.probability "toleranceThreshold" none = .ok r.tolerance :=
    Parameters.probability_of_get? (by simp [parameters, NeighborPolicy.describe, Seed.describe])
      h.tolerance
  have hagentTypes : r.parameters.integerWithin "agentTypes" 1 9 (some 2) = .ok r.agentTypes :=
    Parameters.integerWithin_of_bounds
      (by simp [parameters, NeighborPolicy.describe, Seed.describe]) (by decide) (by decide)
      h.agentTypes
  have hpolicy := NeighborPolicy.ofParameters_describe h.policy (q := r.parameters)
    (fun _ hname => Seed.get?_describe hname) .square8
  have hseed : Seed.ofParameters r.parameters = .ok r.seed := Seed.ofParameters_describe hseed _
  rw [ofParameters, htolerance, hagentTypes, hpolicy, hseed]
  rfl

end Segregation

namespace PredatorPrey

/-- Rules with settings within the bounds. -/
structure Rules.Ranged (r : Rules) : Prop where
  /-- The ticks after which a fish can breed. -/
  fishBreedTime : (1 : Int) ≤ r.fishBreedTime ∧ (r.fishBreedTime : Int) ≤ 10000
  /-- The ticks after which a shark can breed. -/
  sharkBreedTime : (1 : Int) ≤ r.sharkBreedTime ∧ (r.sharkBreedTime : Int) ≤ 10000
  /-- The energy of a new shark. -/
  sharkStartEnergy : 1 ≤ r.sharkStartEnergy ∧ r.sharkStartEnergy ≤ 10000
  /-- The energy that a meal gives. -/
  energyFromFish : 0 ≤ r.energyFromFish ∧ r.energyFromFish ≤ 10000
  /-- The number of layers. -/
  policy : r.policy.Ranged

/-- Rules that are read are in their ranges, and their seed is the one that is read. -/
theorem Rules.ranged_of_ofParameters {r : Rules} (h : ofParameters p = .ok r) :
    r.Ranged ∧ Seed.ofParameters p = .ok r.seed := by
  unfold ofParameters at h
  obtain ⟨fishBreedTime, hfish, h⟩ := bind_eq_ok.mp h
  obtain ⟨sharkBreedTime, hshark, h⟩ := bind_eq_ok.mp h
  obtain ⟨sharkStartEnergy, hstart, h⟩ := bind_eq_ok.mp h
  obtain ⟨energyFromFish, hgain, h⟩ := bind_eq_ok.mp h
  obtain ⟨policy, hpolicy, h⟩ := bind_eq_ok.mp h
  obtain ⟨seed, hseed, h⟩ := bind_eq_ok.mp h
  obtain rfl := Except.ok.inj h
  exact ⟨⟨Parameters.toNat_of_integerWithin hfish (by decide) (by decide) (by decide),
    Parameters.toNat_of_integerWithin hshark (by decide) (by decide) (by decide),
    Parameters.integerWithin_bounds (by decide) (by decide) hstart,
    Parameters.integerWithin_bounds (by decide) (by decide) hgain,
    NeighborPolicy.ranged_of_ofParameters hpolicy⟩, hseed⟩

/-- Rules in their ranges are read from their description. -/
theorem Rules.ofParameters_parameters {r : Rules} (h : r.Ranged) (hseed : Seed.Stable r.seed) :
    ofParameters r.parameters = .ok r := by
  have hfish : r.parameters.integerWithin "fishBreedTime" 1 10000 (some 3) =
      .ok r.fishBreedTime :=
    Parameters.integerWithin_of_bounds
      (by simp [parameters, NeighborPolicy.describe, Seed.describe]) (by decide) (by decide)
      h.fishBreedTime
  have hshark : r.parameters.integerWithin "sharkBreedTime" 1 10000 (some 10) =
      .ok r.sharkBreedTime :=
    Parameters.integerWithin_of_bounds
      (by simp [parameters, NeighborPolicy.describe, Seed.describe]) (by decide) (by decide)
      h.sharkBreedTime
  have hstart : r.parameters.integerWithin "sharkStartEnergy" 1 10000 (some 5) =
      .ok r.sharkStartEnergy :=
    Parameters.integerWithin_of_bounds
      (by simp [parameters, NeighborPolicy.describe, Seed.describe]) (by decide) (by decide)
      h.sharkStartEnergy
  have hgain : r.parameters.integerWithin "energyFromFish" 0 10000 (some 2) =
      .ok r.energyFromFish :=
    Parameters.integerWithin_of_bounds
      (by simp [parameters, NeighborPolicy.describe, Seed.describe]) (by decide) (by decide)
      h.energyFromFish
  have hpolicy := NeighborPolicy.ofParameters_describe h.policy (q := r.parameters)
    (fun _ hname => Seed.get?_describe hname) .square4
  have hseed : Seed.ofParameters r.parameters = .ok r.seed := Seed.ofParameters_describe hseed _
  rw [ofParameters, hfish, hshark, hstart, hgain, hpolicy, hseed]
  rfl

end PredatorPrey

namespace Darwin

/-- Settings within the bounds. -/
structure Settings.Ranged (s : Settings) : Prop where
  /-- The ticks of an infection. -/
  infectionTime : (0 : Int) ≤ s.infectionTime ∧ (s.infectionTime : Int) ≤ 100000
  /-- The number of layers. -/
  layers : (1 : Int) ≤ s.layers ∧ (s.layers : Int) ≤ 16
  /-- The degrees of a unit of a turn. -/
  orientationStep : -360 ≤ s.orientationStep ∧ s.orientationStep ≤ 360
  /-- The first orientation. -/
  initialOrientation : 0 ≤ s.initialOrientation ∧ s.initialOrientation ≤ 359

/-- Settings that are read are in their ranges. -/
theorem Settings.ranged_of_ofParameters {s : Settings} (h : ofParameters p = .ok s) :
    s.Ranged := by
  unfold ofParameters at h
  obtain ⟨infectionTime, htime, h⟩ := bind_eq_ok.mp h
  obtain ⟨layers, hlayers, h⟩ := bind_eq_ok.mp h
  obtain ⟨orientationStep, hstep, h⟩ := bind_eq_ok.mp h
  obtain ⟨initialOrientation, hinitial, h⟩ := bind_eq_ok.mp h
  obtain rfl := Except.ok.inj h
  exact ⟨Parameters.toNat_of_integerWithin htime (by decide) (by decide) (by decide),
    Parameters.toNat_of_integerWithin hlayers (by decide) (by decide) (by decide),
    Parameters.integerWithin_bounds (by decide) (by decide) hstep,
    Parameters.integerWithin_bounds (by decide) (by decide) hinitial⟩

/-- Settings in their ranges are read as they have been written down, also when a seed is written
down afterwards. -/
theorem Settings.ofParameters_describe {s : Settings} (h : s.Ranged) (seed : Int)
    (p : Parameters) : ofParameters (Seed.describe seed (s.describe p)) = .ok s := by
  generalize hq : Seed.describe seed (s.describe p) = q
  have htime : q.integerWithin "infectionTime" 0 100000 (some 5) = .ok s.infectionTime :=
    Parameters.integerWithin_of_bounds (by simp [← hq, describe, Seed.describe]) (by decide)
      (by decide) h.infectionTime
  have hlayers : q.integerWithin "layers" 1 16 (some 1) = .ok s.layers :=
    Parameters.integerWithin_of_bounds (by simp [← hq, describe, Seed.describe]) (by decide)
      (by decide) h.layers
  have hstep : q.integerWithin "orientationStep" (-360) 360 (some 1) = .ok s.orientationStep :=
    Parameters.integerWithin_of_bounds (by simp [← hq, describe, Seed.describe]) (by decide)
      (by decide) h.orientationStep
  have hinitial : q.integerWithin "initialOrientation" 0 359 (some 0) =
      .ok s.initialOrientation :=
    Parameters.integerWithin_of_bounds (by simp [← hq, describe, Seed.describe]) (by decide)
      (by decide) h.initialOrientation
  rw [ofParameters, htime, hlayers, hstep, hinitial]
  rfl

/-- Rules that are read have settings in their ranges and the species that are given, and these
leave the empty state alone. -/
theorem Rules.ranged_of_ofParameters {species : Std.ExtTreeMap Nat Program} {r : Rules}
    (h : ofParameters p species = .ok r) :
    r.settings.Ranged ∧ r.species = species ∧ ¬ species.contains emptyState = true ∧
      Seed.ofParameters p = .ok r.seed := by
  unfold ofParameters at h
  split at h
  next => cases h
  next hreserved =>
    obtain ⟨settings, hsettings, h⟩ := bind_eq_ok.mp h
    obtain ⟨seed, hseed, h⟩ := bind_eq_ok.mp h
    obtain rfl := Except.ok.inj h
    exact ⟨Settings.ranged_of_ofParameters hsettings, rfl, hreserved, hseed⟩

/-- Rules in their ranges are read from their description and their species. -/
theorem Rules.ofParameters_parameters {r : Rules} (h : r.settings.Ranged)
    (hspecies : ¬ r.species.contains emptyState = true) (hseed : Seed.Stable r.seed) :
    ofParameters r.parameters r.species = .ok r := by
  have hsettings := Settings.ofParameters_describe h r.seed Parameters.empty
  have hseed := Seed.ofParameters_describe hseed (r.settings.describe Parameters.empty)
  rw [ofParameters, parameters, if_neg hspecies, hsettings, hseed]
  rfl

end Darwin

namespace Ruleset

/-- Rules that have been read are read again from the parameters that they report, for every kind
of automaton. They are the same rules with the same seed, so they report the same parameters and
start with the same source of random words, and every run is the same with them. -/
theorem build_parameters {kind : Kind} {species : Std.ExtTreeMap Nat Program} {r : Ruleset}
    (hp : p.Proper) (h : build kind p species = .ok r) :
    build kind r.parameters species = .ok r := by
  cases kind with
  | life =>
    obtain ⟨rules, hrules, rfl⟩ := map_eq_ok.mp h
    have hranged := Life.Rules.ranged_of_ofParameters hrules
    rw [parameters, build, Life.Rules.ofParameters_parameters hranged]
    rfl
  | percolation =>
    obtain ⟨rules, hrules, rfl⟩ := map_eq_ok.mp h
    rw [parameters, build, Percolation.Rules.ofParameters_parameters hrules]
    rfl
  | fire =>
    obtain ⟨rules, hrules, rfl⟩ := map_eq_ok.mp h
    obtain ⟨hranged, hseed⟩ := Fire.Rules.ranged_of_ofParameters hrules
    have hstable := Seed.stable_of_ofParameters hp hseed
    rw [parameters, build, Fire.Rules.ofParameters_parameters hranged hstable]
    rfl
  | segregation =>
    obtain ⟨rules, hrules, rfl⟩ := map_eq_ok.mp h
    obtain ⟨hranged, hseed⟩ := Segregation.Rules.ranged_of_ofParameters hrules
    have hstable := Seed.stable_of_ofParameters hp hseed
    rw [parameters, build, Segregation.Rules.ofParameters_parameters hranged hstable]
    rfl
  | predatorPrey =>
    obtain ⟨rules, hrules, rfl⟩ := map_eq_ok.mp h
    obtain ⟨hranged, hseed⟩ := PredatorPrey.Rules.ranged_of_ofParameters hrules
    have hstable := Seed.stable_of_ofParameters hp hseed
    rw [parameters, build, PredatorPrey.Rules.ofParameters_parameters hranged hstable]
    rfl
  | sand =>
    obtain ⟨rules, hrules, rfl⟩ := map_eq_ok.mp h
    have hstable := Seed.stable_of_ofParameters hp (Sand.Rules.seed_of_ofParameters hrules)
    rw [parameters, build, Sand.Rules.ofParameters_parameters hstable]
    rfl
  | dominance =>
    obtain ⟨rules, hrules, rfl⟩ := map_eq_ok.mp h
    have hranged := Dominance.Rules.ranged_of_ofParameters hrules
    rw [parameters, build, Dominance.Rules.ofParameters_parameters hranged]
    rfl
  | darwin =>
    obtain ⟨rules, hrules, rfl⟩ := map_eq_ok.mp h
    obtain ⟨hranged, rfl, hreserved, hseed⟩ := Darwin.Rules.ranged_of_ofParameters hrules
    have hstable := Seed.stable_of_ofParameters hp hseed
    rw [parameters, build, Darwin.Rules.ofParameters_parameters hranged hreserved hstable]
    rfl

/-- Parameters of segregation with numbers spelled as texts, a neighborhood under another of its
names, and a seed that is beyond the greatest one. -/
def spelled : Parameters :=
  ((((Parameters.empty.insert "toleranceThreshold" (.text " 5e-1 ")).insert
    "neighborhood" (.text "Moore")).insert "layers" (.text "+2")).insert
    "agentTypes" (.text "3.0")).insert "seed" (.ofInt (2 ^ 63))

/-- The rules that these parameters spell: half of the neighbors, three types, two layers, and the
greatest seed. -/
def spelledRules : Segregation.Rules :=
  ⟨.finite false (2 ^ 1073), 3, ⟨.square8, 2, false⟩, Numeral.mostInt64⟩

/-- What is read from these parameters is read again from what is reported of it. -/
theorem spelled_build_parameters :
    spelled.Proper ∧ build .segregation spelled ∅ = .ok (segregation spelledRules) ∧
      build .segregation (segregation spelledRules).parameters ∅ =
        .ok (segregation spelledRules) := by
  have hproper : spelled.Proper :=
    ((((Parameters.proper_empty.insert_text _ _).insert_text _ _).insert_text _ _).insert_text
      _ _).insert_ofInt _ _
  have hrules : Segregation.Rules.ofParameters spelled = .ok spelledRules := by decide +kernel
  have hread := congrArg (Except.map segregation) hrules
  exact ⟨hproper, hread, build_parameters hproper hread⟩

end Ruleset

end CellularAutomata
