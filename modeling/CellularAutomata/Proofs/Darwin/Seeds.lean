import CellularAutomata.Proofs.Darwin.Chance
import CellularAutomata.Proofs.Run.Seeds

/-!
# Seeds of a Darwin world

The course of a Darwin world depends on its seed only through the coins that are thrown. Nobody
runs anything but the program of a species, however often individuals are converted and revert;
so if no program of a description throws coins, then the run is the same for every seed and
never draws from its source.
-/

namespace CellularAutomata.Darwin

variable {ρ σ : Type} [WordSource ρ] [WordSource σ]

/-- No program of a configuration has an instruction that throws coins. -/
def Coinless (c : Configuration) : Prop :=
  ∀ (species : Nat) (text : String), c.species[species]? = some text →
    ∀ i ∈ (Program.parse text).instructions, i.opcode ≠ .ok .ifRandom

variable {c : Configuration} {r : Rules} {m : Simulation ρ} {m' : Simulation σ}

/-- All turns of a reachable Darwin world are calm if no program throws coins, because nobody
runs anything but the program of a species. -/
theorem calm_of_reachable (hc : Coinless c) (hm : Simulation.Reachable c m)
    (hr : m.rules = .darwin r) {t : Turn ρ} (ht : t ∈ turns (r.world m.grid) m.source) :
    t.Calm (r.world m.grid) := by
  intro i hi
  have hprogram := program_of_mem_turns hm hr ht
  rw [Simulation.programs, Std.ExtTreeMap.getElem?_map, Option.map_eq_some_iff] at hprogram
  obtain ⟨text, htext, hparse⟩ := hprogram
  refine hc _ text htext i ?_
  rw [hparse]
  exact List.mem_of_getElem? hi

/-- A tick of a Darwin world draws two words from the source for every coin that is thrown. -/
theorem source_step (hr : m.rules = .darwin r) :
    m.step.simulation.source =
      afterCoin^[(turns (r.world m.grid) m.source).countP (Turn.Throws (r.world m.grid) ·)]
        m.source := by
  rw [simulation_step hr]
  exact stageAfter_source (r.world m.grid) m.grid.cellList (opening m.source)

/-- A tick in which no coin is thrown leaves the source as it is. -/
theorem source_step_of_coinless (hc : Coinless c) (hm : Simulation.Reachable c m)
    (hr : m.rules = .darwin r) : m.step.simulation.source = m.source := by
  have hnone : (turns (r.world m.grid) m.source).countP (Turn.Throws (r.world m.grid) ·) = 0 := by
    rw [List.countP_eq_zero]
    intro t ht
    simpa using (calm_of_reachable hc hm hr ht).not_throws
  rw [source_step hr, hnone]
  rfl

/-- A run in which no coin is thrown leaves the source as it is. -/
theorem source_after_of_coinless (hc : Coinless c) (hm : Simulation.Reachable c m)
    (hr : m.rules = .darwin r) (n : Nat) : (m.after n).source = m.source := by
  induction n with
  | zero => rfl
  | succ n ih =>
    rw [Simulation.after, source_step_of_coinless hc (hm.after n) ((m.rules_after n).trans hr), ih]

/-- Two Darwin worlds that may differ in their sources of chance and in their seeds. -/
structure SameWorld (r r' : Rules) (m : Simulation ρ) (m' : Simulation σ) : Prop where
  /-- The one is a Darwin world. -/
  rules : m.rules = .darwin r
  /-- So is the other. -/
  rules' : m'.rules = .darwin r'
  /-- Their individuals share the same. -/
  settings : r'.settings = r.settings
  /-- They have the same species. -/
  species : r'.species = r.species
  /-- They are on the same grid. -/
  grid : m'.grid = m.grid
  /-- Equally many updates have been carried out in them. -/
  updatesApplied : m'.updatesApplied = m.updatesApplied

variable {r' : Rules}

/-- The ticks of two such worlds decide the same, and they come upon the same numbers, if no
program throws coins. -/
theorem SameWorld.ticks (h : SameWorld r r' m m') (hc : Coinless c)
    (hm : Simulation.Reachable c m) :
    r'.world m'.grid = r.world m.grid ∧
    (takeTurns (r'.world m'.grid) m'.source).decisions =
        (takeTurns (r.world m.grid) m.source).decisions ∧
      turnsFit (r'.world m'.grid) m'.grid.cellList (opening m'.source) =
        turnsFit (r.world m.grid) m.grid.cellList (opening m.source) := by
  have hworld : r'.world m'.grid = r.world m.grid := by
    rw [Rules.world, Rules.world, h.settings, h.species, h.grid]
  have hopening : (opening m'.source).decisions = (opening m.source).decisions := rfl
  refine ⟨hworld, ?_⟩
  rw [hworld, h.grid]
  exact stageAfter_agrees hopening fun t ht => calm_of_reachable hc hm h.rules ht

/-- Such worlds stay the same up to chance for a tick, if no program throws coins. -/
theorem SameWorld.step (h : SameWorld r r' m m') (hc : Coinless c)
    (hm : Simulation.Reachable c m) :
    SameWorld r r' m.step.simulation m'.step.simulation := by
  obtain ⟨-, hdecisions, -⟩ := h.ticks hc hm
  refine ⟨h.rules, h.rules', h.settings, h.species, ?_, ?_⟩
  · rw [simulation_step h.rules, simulation_step h.rules']
    dsimp only
    rw [hdecisions, h.grid]
  · rw [simulation_step h.rules, simulation_step h.rules']
    dsimp only
    rw [hdecisions, h.updatesApplied]

/-- Such worlds stay the same up to chance for any number of ticks, if no program throws
coins. -/
theorem SameWorld.after (h : SameWorld r r' m m') (hc : Coinless c)
    (hm : Simulation.Reachable c m) (n : Nat) : SameWorld r r' (m.after n) (m'.after n) := by
  induction n with
  | zero => exact h
  | succ n ih => exact ih.step hc (hm.after n)

/-- The next tick of such worlds can be completed in both of them or in neither. -/
theorem SameWorld.isSome_step? (h : SameWorld r r' m m') (hc : Coinless c)
    (hm : Simulation.Reachable c m) : m'.step?.isSome = m.step?.isSome := by
  rw [Darwin.isSome_step? h.rules, Darwin.isSome_step? h.rules', (h.ticks hc hm).2.2]

/-- Initial cells do not depend on the seed. -/
theorem populate_congr (c : Configuration) (seed : Nat) (p : Parameters)
    (hsettings : r'.settings = r.settings) (hspecies : r'.species = r.species) :
    Simulation.populate { c with seed := seed, parameters := p } .darwin (.darwin r') =
      Simulation.populate c .darwin (.darwin r) := by
  obtain ⟨settings, species, _⟩ := r
  obtain ⟨settings', species', _⟩ := r'
  subst hsettings hspecies
  rfl

/-- Two configurations that differ in their seeds only describe the same world up to chance. -/
theorem sameWorld_of_seeds (hdarwin : Kind.ofText c.automaton = .ok .darwin) {seed : Nat}
    {p : Parameters} (hp : ∀ name, name ≠ "seed" → p.get? name = c.parameters.get? name)
    {first first' : Simulation KeyStream} (hs : Simulation.ofConfiguration c = .ok first)
    (hs' : Simulation.ofConfiguration { c with seed := seed, parameters := p } = .ok first') :
    ∃ r r', SameWorld r r' first first' := by
  obtain ⟨r, hr⟩ := exists_darwin hdarwin hs
  obtain ⟨r', hr'⟩ := exists_darwin (c := { c with seed := seed, parameters := p }) hdarwin hs'
  have hreach : Simulation.Reachable c first := .start hs first.source
  have hreach' : Simulation.Reachable { c with seed := seed, parameters := p } first' :=
    .start hs' first'.source
  have hspecies : r'.species = r.species :=
    (species_of_reachable hreach' hr').1.trans (species_of_reachable hreach hr).1.symm
  have hsettings : r'.settings = r.settings := by
    have hread := settings_of_reachable hreach hr
    have hread' := settings_of_reachable hreach' hr'
    rw [Settings.ofParameters_congr (p := Simulation.seededParameters c) ?_, hread] at hread'
    · exact (Except.ok.inj hread').symm
    · intro name hname
      rw [Simulation.get?_seededParameters _ hname, Simulation.get?_seededParameters _ hname]
      exact hp name hname
  refine ⟨r, r', hr, hr', hsettings, hspecies, ?_, ?_⟩
  -- The first grids are populated by rules that differ in nothing but the seed.
  · obtain ⟨kind, -, hkind, -, hgrid⟩ := Simulation.ofConfiguration_eq_ok hs
    obtain ⟨kind', -, hkind', -, hgrid'⟩ := Simulation.ofConfiguration_eq_ok hs'
    obtain rfl := Except.ok.inj (hdarwin.symm.trans hkind)
    obtain rfl := Except.ok.inj (hdarwin.symm.trans hkind')
    rw [hr', populate_congr c seed p hsettings hspecies, ← hr, hgrid] at hgrid'
    exact (Except.ok.inj hgrid').symm
  · rw [Simulation.updatesApplied_ofConfiguration hs, Simulation.updatesApplied_ofConfiguration hs']

/-- Chance enters a Darwin world by the coins that are thrown and in no other way. In each turn
one coin, which is made of two words, is drawn from the source if the individual runs a random jump
whose argument is the number of a line of its program, and nothing otherwise; so a tick draws twice
as many words as there are such turns. If no program has an instruction that throws coins, then two
configurations that differ in their seeds only run through the same grids with as many updates, and
neither of the runs ever draws from its source. -/
theorem chance_enters_by_coins {c : Configuration}
    (hdarwin : Kind.ofText c.automaton = .ok .darwin) :
    (Coinless c → ∀ (seed : Nat) (p : Parameters),
      (∀ name, name ≠ "seed" → p.get? name = c.parameters.get? name) →
      ∀ m m', Simulation.ofConfiguration c = .ok m →
        Simulation.ofConfiguration { c with seed := seed, parameters := p } = .ok m' → ∀ n,
          (m'.after n).grid = (m.after n).grid ∧
          (m'.after n).updatesApplied = (m.after n).updatesApplied ∧
          (m.after n).source = m.source ∧ (m'.after n).source = m'.source ∧
          (m'.after n).step?.isSome = (m.after n).step?.isSome) ∧
    ∀ {ρ : Type} [WordSource ρ] (m : Simulation ρ) (r : Rules), m.rules = .darwin r →
      Simulation.Reachable c m →
        (∀ t ∈ turns (r.world m.grid) m.source,
          (takeTurn (r.world m.grid) t.stage t.cell).source =
            if t.Throws (r.world m.grid) then
              (WordSource.next (WordSource.next t.stage.source).2).2
            else t.stage.source) ∧
        m.step.simulation.source =
          (fun source => (WordSource.next source).2)^[2 *
            (turns (r.world m.grid) m.source).countP (Turn.Throws (r.world m.grid) ·)]
              m.source := by
  refine ⟨?_, ?_⟩
  · intro hc seed p hp m m' hm hm' n
    obtain ⟨r, r', hsame⟩ := sameWorld_of_seeds hdarwin hp hm hm'
    have hreach : Simulation.Reachable c m := .start hm m.source
    have hreach' : Simulation.Reachable { c with seed := seed, parameters := p } m' :=
      .start hm' m'.source
    have hafter := hsame.after hc hreach n
    exact ⟨hafter.grid, hafter.updatesApplied, source_after_of_coinless hc hreach hsame.rules n,
      source_after_of_coinless (c := { c with seed := seed, parameters := p }) hc hreach'
        hsame.rules' n,
      hafter.isSome_step? hc (hreach.after n)⟩
  · intro ρ _ m r hr hreach
    refine ⟨fun t ht => ?_, ?_⟩
    · have hturn := (Orderly.of_mem_turns (w := r.world m.grid) hreach.wellFormed ht).1
      exact takeTurn_source hturn
    · rw [Function.iterate_mul]
      exact source_step hr

/-- Nobody throws coins in the duel. -/
theorem coinless_duel : Coinless duel := by
  have hmove : (Program.parse "MOVE").instructions.map Instruction.mnemonic = ["MOVE"] := by
    decide +kernel
  have hinfect : (Program.parse "INFECT").instructions.map Instruction.mnemonic = ["INFECT"] := by
    decide +kernel
  have hcoin : ∀ i : Instruction, i.mnemonic = "MOVE" ∨ i.mnemonic = "INFECT" →
      i.opcode ≠ .ok .ifRandom := by
    intro i hname
    rw [Instruction.opcode]
    rcases hname with hname | hname <;> rw [hname] <;> decide
  intro species text htext i hi
  have hname := List.mem_map_of_mem (f := Instruction.mnemonic) hi
  simp only [duel, Std.ExtTreeMap.getElem?_insert] at htext
  split at htext
  next =>
    obtain rfl := Option.some.inj htext
    rw [hmove] at hname
    exact hcoin i (Or.inl (List.mem_singleton.mp hname))
  next =>
    split at htext
    next =>
      obtain rfl := Option.some.inj htext
      rw [hinfect] at hname
      exact hcoin i (Or.inr (List.mem_singleton.mp hname))
    next => simp at htext

/-- Two individuals in a row: the first moves, the second throws a coin for where to go on. -/
def gamble : Configuration :=
  { Configuration.default with
    automaton := "darwin"
    rows := 1
    cols := 2
    states := [[1, 2]]
    species := ((∅ : Std.ExtTreeMap Nat String).insert 1 "MOVE").insert 2 "IFRANDOM 1" }

/-- In the first tick of the gamble one coin is thrown. -/
theorem exists_gamble : ∃ m r, Simulation.ofConfiguration gamble = .ok m ∧ m.rules = .darwin r ∧
    (turns (r.world m.grid) m.source).countP (Turn.Throws (r.world m.grid) ·) = 1 := by
  have hfound : (Simulation.ofConfiguration gamble).toOption.map
      (surveyed fun w t => decide (t.Throws w)) = some [false, true] := by
    decide +kernel
  obtain ⟨m, r, hm, hr, hthrows⟩ := exists_of_surveyed hfound (List.cons_ne_nil _ _)
  have hcount := congrArg (List.countP id) hthrows
  rw [List.countP_map] at hcount
  exact ⟨m, r, hm, hr, hcount⟩

/-- The duel takes the same course with the seed 7 as with its own. In the first tick of the gamble
one coin is thrown, so two words are drawn, and fourteen of the first sixteen are left. -/
theorem duel_chance_enters_by_coins :
    (∃ m m', Simulation.ofConfiguration duel = .ok m ∧
      Simulation.ofConfiguration { duel with seed := 7 } = .ok m' ∧
      ∀ n, (m'.after n).grid = (m.after n).grid ∧ (m'.after n).source = m'.source) ∧
    ∃ m r, Simulation.ofConfiguration gamble = .ok m ∧ m.rules = .darwin r ∧
      (turns (r.world m.grid) m.source).countP (Turn.Throws (r.world m.grid) ·) = 1 ∧
      m.step.simulation.source = (WordSource.next (WordSource.next m.source).2).2 ∧
      m.source.pending.length = 0 ∧ m.step.simulation.source.pending.length = 14 := by
  constructor
  · obtain ⟨m, -, hm, -⟩ := exists_duel
    have haccepted :
        (Simulation.ofConfiguration { duel with seed := 7 }).toOption.isSome = true := by
      decide +kernel
    cases hm' : Simulation.ofConfiguration { duel with seed := 7 } with
    | error fault => simp [hm', Except.toOption] at haccepted
    | ok m' =>
      refine ⟨m, m', hm, rfl, fun n => ?_⟩
      have hsame := (chance_enters_by_coins (c := duel) (by decide)).1 coinless_duel 7
        duel.parameters (fun _ _ => rfl) m m' hm hm' n
      exact ⟨hsame.1, hsame.2.2.2.1⟩
  · obtain ⟨m, r, hm, hr, hone⟩ := exists_gamble
    have hpending : (Simulation.ofConfiguration gamble).toOption.all (fun m =>
        m.source.pending.length = 0 ∧ m.step.simulation.source.pending.length = 14) = true := by
      decide +kernel
    rw [hm] at hpending
    have hdrawn := ((chance_enters_by_coins (c := gamble) (by decide)).2 m r hr
      (.start hm m.source)).2
    rw [hone] at hdrawn
    exact ⟨m, r, hm, hr, hone, hdrawn, of_decide_eq_true hpending⟩

end CellularAutomata.Darwin
