import CellularAutomata.Proofs.Parameters.Reading
import CellularAutomata.Proofs.Run.Reachability

/-!
# Seeds of a run

The seed of a configuration is handed to the rules as a parameter, and nothing else depends on it.
A parameter is a signed double-precision number, so not every seed arrives: of a seed below
`2 ^ 63` the 53 leading bits are kept, and a greater one is refused.
-/

namespace CellularAutomata

section Rules

variable {p q : Parameters} (hagree : ∀ name, name ≠ "seed" → q.get? name = p.get? name)

include hagree

/-- Rules of a fire that have been read are read again with the seed that is given then. -/
theorem Fire.Rules.ofParameters_of_agree {r : Rules} (h : ofParameters p = .ok r) :
    ofParameters q = (Seed.ofParameters q).map fun seed => { r with seed } := by
  unfold ofParameters at h
  obtain ⟨growth, hgrowth, h⟩ := bind_eq_ok.mp h
  obtain ⟨ignition, hignition, h⟩ := bind_eq_ok.mp h
  obtain ⟨policy, hpolicy, h⟩ := bind_eq_ok.mp h
  obtain ⟨seed, -, h⟩ := bind_eq_ok.mp h
  obtain rfl := Except.ok.inj h
  rw [ofParameters, Parameters.probability_congr (hagree _ (by decide)), hgrowth,
    Parameters.probability_congr (hagree _ (by decide)), hignition,
    NeighborPolicy.ofParameters_congr hagree, hpolicy]
  cases Seed.ofParameters q <;> rfl

/-- Rules of segregation that have been read are read again with the seed that is given then. -/
theorem Segregation.Rules.ofParameters_of_agree {r : Rules} (h : ofParameters p = .ok r) :
    ofParameters q = (Seed.ofParameters q).map fun seed => { r with seed } := by
  unfold ofParameters at h
  obtain ⟨tolerance, htolerance, h⟩ := bind_eq_ok.mp h
  obtain ⟨agentTypes, hagentTypes, h⟩ := bind_eq_ok.mp h
  obtain ⟨policy, hpolicy, h⟩ := bind_eq_ok.mp h
  obtain ⟨seed, -, h⟩ := bind_eq_ok.mp h
  obtain rfl := Except.ok.inj h
  rw [ofParameters, Parameters.probability_congr (hagree _ (by decide)), htolerance,
    Parameters.integerWithin_congr (hagree _ (by decide)), hagentTypes,
    NeighborPolicy.ofParameters_congr hagree, hpolicy]
  cases Seed.ofParameters q <;> rfl

/-- Rules of predators that have been read are read again with the seed that is given then. -/
theorem PredatorPrey.Rules.ofParameters_of_agree {r : Rules} (h : ofParameters p = .ok r) :
    ofParameters q = (Seed.ofParameters q).map fun seed => { r with seed } := by
  have hwhole := fun name hname => Parameters.integerWithin_congr (hagree name hname)
  unfold ofParameters at h
  obtain ⟨fishBreedTime, hfish, h⟩ := bind_eq_ok.mp h
  obtain ⟨sharkBreedTime, hshark, h⟩ := bind_eq_ok.mp h
  obtain ⟨sharkStartEnergy, hstart, h⟩ := bind_eq_ok.mp h
  obtain ⟨energyFromFish, hgain, h⟩ := bind_eq_ok.mp h
  obtain ⟨policy, hpolicy, h⟩ := bind_eq_ok.mp h
  obtain ⟨seed, -, h⟩ := bind_eq_ok.mp h
  obtain rfl := Except.ok.inj h
  rw [ofParameters, hwhole _ (by decide), hfish, hwhole _ (by decide), hshark,
    hwhole _ (by decide), hstart, hwhole _ (by decide), hgain,
    NeighborPolicy.ofParameters_congr hagree, hpolicy]
  cases Seed.ofParameters q <;> rfl

/-- Settings do not depend on the seed. -/
theorem Darwin.Settings.ofParameters_congr : ofParameters q = ofParameters p := by
  simp only [ofParameters, Parameters.integerWithin_congr (hagree "infectionTime" (by decide)),
    Parameters.integerWithin_congr (hagree "layers" (by decide)),
    Parameters.integerWithin_congr (hagree "orientationStep" (by decide)),
    Parameters.integerWithin_congr (hagree "initialOrientation" (by decide))]

/-- Rules of a Darwin world that have been read are read again with the seed that is given
then. -/
theorem Darwin.Rules.ofParameters_of_agree {species : Std.ExtTreeMap Nat Program} {r : Rules}
    (h : ofParameters p species = .ok r) :
    ofParameters q species = (Seed.ofParameters q).map fun seed => { r with seed } := by
  unfold ofParameters at h
  split at h
  next => cases h
  next hfree =>
    obtain ⟨settings, hsettings, h⟩ := bind_eq_ok.mp h
    obtain ⟨seed, -, h⟩ := bind_eq_ok.mp h
    obtain rfl := Except.ok.inj h
    rw [ofParameters, if_neg hfree, Settings.ofParameters_congr hagree, hsettings]
    cases Seed.ofParameters q <;> rfl

end Rules

/-- The kinds of automata that involve chance. -/
def Kind.Seeded (k : Kind) : Prop := k ∈ [fire, segregation, predatorPrey, sand, darwin]

instance : DecidablePred Kind.Seeded :=
  fun k => inferInstanceAs
    (Decidable (k ∈ [Kind.fire, .segregation, .predatorPrey, .sand, .darwin]))

namespace Ruleset

/-- The rules with another seed. -/
def withSeed (r : Ruleset) (seed : Int) : Ruleset :=
  match r with
  | fire rules => fire { rules with seed }
  | segregation rules => segregation { rules with seed }
  | predatorPrey rules => predatorPrey { rules with seed }
  | sand _ => sand ⟨seed⟩
  | darwin rules => darwin { rules with seed }
  | life _ | percolation _ | dominance _ => r

/-- The cell with which a state starts does not depend on the seed. -/
theorem startAs_withSeed (r : Ruleset) (seed : Int) (kind : Kind) (state : Nat) (l : Location) :
    (r.withSeed seed).startAs kind state l = r.startAs kind state l := by
  cases r <;> rfl

variable {kind : Kind} {p q : Parameters} {species : Std.ExtTreeMap Nat Program} {r : Ruleset}

/-- The seed of rules that involve chance decides their source of random words. -/
theorem source_withSeed (hseeded : kind.Seeded) (h : build kind p species = .ok r) (seed : Int) :
    (r.withSeed seed).source = Seed.source seed := by
  cases kind with
  | life => exact absurd hseeded (by decide)
  | percolation => exact absurd hseeded (by decide)
  | dominance => exact absurd hseeded (by decide)
  | _ => obtain ⟨rules, -, rfl⟩ := map_eq_ok.mp h; rfl

/-- If rules that involve chance have been read and nothing but the seed is given otherwise, then
they are read with the seed that is read, and are not read if there is none. -/
theorem build_of_agree (hagree : ∀ name, name ≠ "seed" → q.get? name = p.get? name)
    (hseeded : kind.Seeded) (h : build kind p species = .ok r) :
    build kind q species = (Seed.ofParameters q).map r.withSeed := by
  cases kind with
  | life => exact absurd hseeded (by decide)
  | percolation => exact absurd hseeded (by decide)
  | dominance => exact absurd hseeded (by decide)
  | fire =>
    obtain ⟨rules, hrules, rfl⟩ := map_eq_ok.mp h
    rw [build, Fire.Rules.ofParameters_of_agree hagree hrules]
    cases Seed.ofParameters q <;> rfl
  | segregation =>
    obtain ⟨rules, hrules, rfl⟩ := map_eq_ok.mp h
    rw [build, Segregation.Rules.ofParameters_of_agree hagree hrules]
    cases Seed.ofParameters q <;> rfl
  | predatorPrey =>
    obtain ⟨rules, hrules, rfl⟩ := map_eq_ok.mp h
    rw [build, PredatorPrey.Rules.ofParameters_of_agree hagree hrules]
    cases Seed.ofParameters q <;> rfl
  | sand =>
    obtain ⟨rules, -, rfl⟩ := map_eq_ok.mp h
    rw [build, Sand.Rules.ofParameters]
    cases Seed.ofParameters q <;> rfl
  | darwin =>
    obtain ⟨rules, hrules, rfl⟩ := map_eq_ok.mp h
    rw [build, Darwin.Rules.ofParameters_of_agree hagree hrules]
    cases Seed.ofParameters q <;> rfl

end Ruleset

namespace Simulation

/-- The seed of a configuration stands in for a parameter of that name, and the other parameters
are as they are given. -/
theorem get?_seededParameters_eq (c : Configuration) (name : String) :
    (seededParameters c).get? name = (c.parameters.get? name).or
      (if name = "seed" then some (.ofInt (Int.bmod c.seed (2 ^ 64))) else none) := by
  rw [seededParameters, Parameters.contains]
  by_cases hname : name = "seed"
  · subst hname
    cases hseed : c.parameters.get? "seed" with
    | some value => rw [Option.isSome_some, if_pos rfl, hseed, Option.some_or]
    | none =>
      rw [Option.isSome_none, if_neg Bool.false_ne_true, Parameters.get?_insert, if_pos rfl]
      rfl
  · rw [if_neg hname, Option.or_none]
    split
    · rfl
    · rw [Parameters.get?_insert, if_neg (Ne.symm hname)]

/-- The seed of a configuration is no parameter but the seed. -/
theorem get?_seededParameters (c : Configuration) {name : String} (hname : name ≠ "seed") :
    (seededParameters c).get? name = c.parameters.get? name := by
  rw [get?_seededParameters_eq, if_neg hname, Option.or_none]

/-- The initial cells do not depend on the seed. -/
theorem populate_withSeed (c : Configuration) (kind : Kind) (r : Ruleset) (seed : Int) :
    populate c kind (r.withSeed seed) = populate c kind r := by
  have hplace : placeInitial c kind (r.withSeed seed) = placeInitial c kind r := by
    funext g l
    rw [placeInitial, placeInitial, r.startAs_withSeed]
  rw [populate, populate, hplace]

variable {c : Configuration} {kind : Kind}

/-- If a configuration of an automaton that involves chance describes a simulation with some seed,
then with any seed that can be read it describes the same one up to chance, and no simulation with
any other seed. -/
theorem ofConfiguration_of_seed (hkind : Kind.ofText c.automaton = .ok kind)
    (hseeded : kind.Seeded) {seed : Nat} {s : Simulation KeyStream}
    (hs : ofConfiguration { c with seed } = .ok s) :
    ofConfiguration c = (Seed.ofParameters (seededParameters c)).map fun n =>
      { s with rules := s.rules.withSeed n, source := Seed.source n } := by
  unfold ofConfiguration at hs
  obtain ⟨hvalid, hs⟩ := check_bind_eq_ok.mp hs
  obtain ⟨kind', hkind', hs⟩ := bind_eq_ok.mp hs
  obtain rfl := Except.ok.inj (hkind.symm.trans hkind')
  obtain ⟨rules, hrules, hs⟩ := bind_eq_ok.mp hs
  obtain ⟨grid, hgrid, hs⟩ := bind_eq_ok.mp hs
  obtain rfl := Except.ok.inj hs
  have hagree : ∀ name, name ≠ "seed" →
      (seededParameters c).get? name = (seededParameters { c with seed }).get? name := by
    intro name hname
    rw [get?_seededParameters c hname, get?_seededParameters _ hname]
  have hbuild : Ruleset.build kind (seededParameters c) (programs c) =
      (Seed.ofParameters (seededParameters c)).map rules.withSeed :=
    Ruleset.build_of_agree hagree hseeded hrules
  have hvalid : c.validate = .ok () := hvalid
  have hgrid : populate c kind rules = .ok grid := hgrid
  rw [ofConfiguration, hvalid, hkind]
  cases hn : Seed.ofParameters (seededParameters c) with
  | error fault =>
    rw [hn] at hbuild
    simp only [hbuild, Except.map, bind, Except.bind]
  | ok n =>
    rw [hn] at hbuild
    have hsource := Ruleset.source_withSeed hseeded hrules n
    simp only [hbuild, Except.map, bind, Except.bind, populate_withSeed, hgrid, hsource, new]
    rfl

end Simulation

namespace Seed

-- Written out, these have hundreds of digits.
attribute [local irreducible] Binary64.unitsPerOne Binary64.unitsLimit

/-- What arrives of a seed: the nearest number with 53 leading bits, or the greatest signed 64-bit
number if that is smaller. -/
def kept (n : Nat) : Nat := min (Binary64.roundUnits n 1) (2 ^ 63 - 1)

/-- A seed of at most 53 bits arrives as it is. -/
theorem kept_of_le {n : Nat} (h : n ≤ 2 ^ 53) : kept n = n := by
  have hexact : Binary64.spacing n ∣ n := by simpa using Binary64.spacing_dvd_shifted h 0
  rw [kept, Binary64.roundUnits_of_dvd hexact]
  omega

/-- A seed arrives as it is if it has no more than 53 leading bits, and the greatest one does. -/
theorem kept_eq_self_iff {n : Nat} (h : n < 2 ^ 63) :
    kept n = n ↔ Binary64.spacing n ∣ n ∨ n = 2 ^ 63 - 1 := by
  rw [← Binary64.roundUnits_eq_self_iff, kept]
  constructor
  · intro hkept
    omega
  · rintro (hexact | rfl)
    · omega
    · decide

/-- What arrives of a seed is at most half the distance of its neighbors away from it. -/
theorem kept_dist {n : Nat} (h : n < 2 ^ 63) :
    2 * kept n ≤ 2 * n + Binary64.spacing n ∧ 2 * n ≤ 2 * kept n + Binary64.spacing n := by
  have hdist := Binary64.roundUnits_dist n
  rw [kept]
  omega

variable {p : Parameters}

/-- A seed that is a signed 64-bit number is read with 53 leading bits. -/
theorem ofParameters_of_lt {n : Nat} (hget : p.get? "seed" = some (.ofInt n)) (hn : n < 2 ^ 63) :
    ofParameters p = .ok (kept n) := by
  have hpositive : decide ((n : Int) < 0) = false := by simp
  have hvalue := Binary64.ofInt_rounded (n := n) (by omega)
  rw [hpositive, Int.natAbs_natCast] at hvalue
  have hround : Binary64.roundUnits n 1 ≤ 2 ^ 63 := Binary64.roundUnits_le_two_pow hn
  have hplace : (Binary64.ofInt n).place =
      some ((Binary64.roundUnits n 1 : Int) * Binary64.unitsPerOne) := by
    rw [hvalue, Binary64.place, Nat.cast_mul]
  have hwhole : (Binary64.ofInt n).isWhole = true := by
    rw [hvalue, Binary64.isWhole, Nat.mul_mod_left]
    rfl
  have hgreatest : (Binary64.ofInt Numeral.mostInt64).place =
      some (2 ^ 63 * Binary64.unitsPerOne : Int) := by
    rw [Binary64.ofInt_mostInt64, Binary64.place, Nat.cast_mul]
    rfl
  have hleast : ¬ (Binary64.ofInt n).less (.ofInt 0) = true := by
    rw [Binary64.less_iff_of_ones hplace (Binary64.place_ofInt (by decide))]
    omega
  have hmost : ¬ (Binary64.ofInt Numeral.mostInt64).less (.ofInt n) = true := by
    rw [Binary64.less_iff_of_ones hgreatest hplace]
    omega
  have hfinite : (Binary64.ofInt n).isFinite = true := by
    rw [hvalue]
    rfl
  have hcut : max Numeral.leastInt64 (min Numeral.mostInt64 (Binary64.roundUnits n 1 : Int)) =
      kept n := by
    have hlow : (-2 ^ 63 : Int) = Numeral.leastInt64 := by decide
    have hhigh : (2 ^ 63 - 1 : Int) = Numeral.mostInt64 := by decide
    rw [kept]
    omega
  rw [ofParameters, Parameters.integerWithin,
    Parameters.numberWithin_of_get? hget hfinite hleast hmost]
  dsimp only
  rw [if_pos hwhole, Binary64.truncated_of_ones hwhole hplace, hcut]

/-- A negative seed is refused. -/
theorem ofParameters_of_neg {n : Int} (hget : p.get? "seed" = some (.ofInt n)) (hn : n < 0)
    (hbits : -2 ^ 63 ≤ n) :
    ofParameters p = .error (.parameter "seed" (.outside (.ofInt n) (.ofInt 0)
      (.ofInt Numeral.mostInt64))) := by
  have hvalue := Binary64.ofInt_rounded (n := n) (by omega)
  rw [decide_eq_true hn] at hvalue
  have hplace : (Binary64.ofInt n).place =
      some (-(Binary64.roundUnits n.natAbs 1 : Int) * Binary64.unitsPerOne) := by
    rw [hvalue, Binary64.place, Nat.cast_mul, neg_mul]
  have hround : 0 < Binary64.roundUnits n.natAbs 1 := Binary64.roundUnits_pos (by omega)
  have hless : (Binary64.ofInt n).less (.ofInt 0) = true := by
    rw [Binary64.less_iff_of_ones hplace (Binary64.place_ofInt (by decide))]
    omega
  have hfinite : (Binary64.ofInt n).isFinite = true := by
    rw [hvalue]
    rfl
  rw [ofParameters, Parameters.integerWithin]
  rw [Option.map_some, Parameters.numberWithin_of_less hget hfinite hless]

end Seed

namespace Simulation

variable {c : Configuration} {kind : Kind}

/-- The seed of a configuration of an automaton that involves chance is the seed of its rules if it
has at most 53 leading bits and is below `2 ^ 63`. Of any other seed below `2 ^ 63` the rules get
the nearest number with 53 leading bits, or the greatest signed 64-bit number if that is smaller.
A seed from `2 ^ 63` on is taken for a negative number and refused. -/
theorem seed_arrives_rounded (hkind : Kind.ofText c.automaton = .ok kind) (hseeded : kind.Seeded)
    (hfree : c.parameters.contains "seed" = false)
    (hvalid : ∃ seed s, ofConfiguration { c with seed } = .ok s) (hbits : c.seed < 2 ^ 64) :
    (c.seed < 2 ^ 63 → ∃ s, ofConfiguration c = .ok s ∧ s.source = s.rules.source ∧
      s.rules.source = KeyStream.ofSeed (UInt64.ofNat (Seed.kept c.seed))) ∧
    (2 ^ 63 ≤ c.seed → ofConfiguration c = .error (.parameter "seed" (.outside
      (.ofInt (c.seed - 2 ^ 64)) (.ofInt 0) (.ofInt Numeral.mostInt64)))) ∧
    (c.seed ≤ 2 ^ 53 → Seed.kept c.seed = c.seed) ∧
    (c.seed < 2 ^ 63 →
      (Seed.kept c.seed = c.seed ↔
        Binary64.spacing c.seed ∣ c.seed ∨ c.seed = 2 ^ 63 - 1) ∧
      2 * Seed.kept c.seed ≤ 2 * c.seed + Binary64.spacing c.seed ∧
      2 * c.seed ≤ 2 * Seed.kept c.seed + Binary64.spacing c.seed) := by
  obtain ⟨seed, s, hs⟩ := hvalid
  have hreads := ofConfiguration_of_seed hkind hseeded hs
  have hget : (seededParameters c).get? "seed" =
      some (.ofInt (Int.bmod c.seed (Nat.pow 2 64))) := by
    rw [seededParameters, hfree]
    simp
  refine ⟨?_, ?_, Seed.kept_of_le, fun h => ⟨Seed.kept_eq_self_iff h, Seed.kept_dist h⟩⟩
  · intro h
    have hsame : Int.bmod c.seed (Nat.pow 2 64) = c.seed := by
      rw [Nat.pow_eq, Int.bmod_eq_of_le] <;> omega
    rw [hsame] at hget
    rw [Seed.ofParameters_of_lt hget h] at hreads
    obtain ⟨kind', -, hkind', hbuild, -⟩ := ofConfiguration_eq_ok hs
    obtain rfl := Except.ok.inj (hkind.symm.trans hkind')
    have hsource := Ruleset.source_withSeed hseeded hbuild (Seed.kept c.seed)
    exact ⟨_, hreads, hsource.symm, hsource⟩
  · intro h
    have hwraps : Int.bmod c.seed (Nat.pow 2 64) = c.seed - 2 ^ 64 := by
      rw [Nat.pow_eq, Int.bmod_eq_iff] <;> omega
    rw [hwraps] at hget
    rw [hreads, Seed.ofParameters_of_neg hget (by omega) (by omega)]
    rfl

/-- A single position where grains may fall, with some seed. -/
def sandBox (seed : Nat) : Configuration :=
  { Configuration.default with automaton := "sand", rows := 1, cols := 1, seed := seed }

/-- The sand box is accepted with the seed zero. -/
theorem exists_sandBox : ∃ s, ofConfiguration (sandBox 0) = .ok s := by
  have haccepted : (ofConfiguration (sandBox 0)).toOption.map (fun s => s.tick) = some 0 := by
    decide +kernel
  obtain ⟨s, hs, -⟩ := exists_of_map_toOption haccepted
  exact ⟨s, hs⟩

/-- In the sand box, of the seed `2 ^ 53 + 1` the seed `2 ^ 53` arrives, and the seed `2 ^ 63` is
refused. -/
theorem sandBox_seed_arrives_rounded :
    (∃ s, ofConfiguration (sandBox (2 ^ 53 + 1)) = .ok s ∧
      s.rules.source = KeyStream.ofSeed (UInt64.ofNat (2 ^ 53))) ∧
    ofConfiguration (sandBox (2 ^ 63)) = .error (.parameter "seed" (.outside
      (.ofInt (-2 ^ 63)) (.ofInt 0) (.ofInt Numeral.mostInt64))) := by
  obtain ⟨s, hs⟩ := exists_sandBox
  have hname : Kind.ofText "sand" = .ok .sand := by decide
  have hkind : ∀ n, Kind.ofText (sandBox n).automaton = .ok .sand := fun _ => hname
  have hempty : Parameters.empty.contains "seed" = false := by decide
  have hfree : ∀ n, (sandBox n).parameters.contains "seed" = false := fun _ => hempty
  have hvalid : ∀ n, ∃ seed s, ofConfiguration { sandBox n with seed } = .ok s :=
    fun n => ⟨0, s, hs⟩
  have hkept : Seed.kept (2 ^ 53 + 1) = 2 ^ 53 := by decide
  refine ⟨?_, ?_⟩
  · obtain ⟨s, hs, -, hsource⟩ := (seed_arrives_rounded (c := sandBox (2 ^ 53 + 1)) (hkind _)
      (by decide) (hfree _) (hvalid _) (by decide)).1 (by decide)
    exact ⟨s, hs, hsource.trans (by rw [sandBox, hkept])⟩
  · exact (seed_arrives_rounded (c := sandBox (2 ^ 63)) (hkind _) (by decide) (hfree _)
      (hvalid _) (by decide)).2.1 (by decide)

/-- Two different seeds of the sand box give the same source of random words, and a third one is
refused. -/
theorem sandBox_seeds_collide :
    (∃ s s', ofConfiguration (sandBox (2 ^ 53)) = .ok s ∧
      ofConfiguration (sandBox (2 ^ 53 + 1)) = .ok s' ∧ s.rules.source = s'.rules.source ∧
      s.source = s'.source) ∧
    ∃ fault, ofConfiguration (sandBox (2 ^ 63)) = .error fault := by
  have hsources : ∀ n ∈ [2 ^ 53, 2 ^ 53 + 1], (ofConfiguration (sandBox n)).toOption.map
      (fun s => (s.rules.source, s.source)) =
        some (KeyStream.ofSeed (2 ^ 53), KeyStream.ofSeed (2 ^ 53)) := by decide +kernel
  obtain ⟨s, hs, hfirst⟩ := exists_of_map_toOption (hsources (2 ^ 53) (by simp))
  obtain ⟨s', hs', hsecond⟩ := exists_of_map_toOption (hsources (2 ^ 53 + 1) (by simp))
  have hsame := hfirst.trans hsecond.symm
  refine ⟨⟨s, s', hs, hs', congrArg Prod.fst hsame, congrArg Prod.snd hsame⟩, ?_⟩
  have hrefused : faultOf? (ofConfiguration (sandBox (2 ^ 63))) ≠ none := by decide +kernel
  cases hs : ofConfiguration (sandBox (2 ^ 63)) with
  | error fault => exact ⟨fault, rfl⟩
  | ok s =>
    rw [hs] at hrefused
    exact absurd rfl hrefused

end Simulation

end CellularAutomata
