import CellularAutomata.Proofs.Json.Cells
import CellularAutomata.Proofs.Parameters.Reading

/-!
# Trees of runs

The tree of a configuration conveys the configuration, and the tree of a summary conveys the
summary, as long as their numbers are of the sizes that they have room for. With the cells this is
everything that is written to a text and read from one.
-/

namespace CellularAutomata

open Numeral Json

/-- A number that is finite and whose numeral is read as it. -/
def Binary64.ReadsBack (n : Binary64) : Prop :=
  ∃ negative units, n = .finite negative units ∧
    Json.binary64? (layout.written negative units) = some n

/-- The numbers of a configuration have their sizes. -/
structure Configuration.Fits (c : Configuration) : Prop where
  /-- The number of rows is a signed 32-bit number. -/
  rows : leastInt32 ≤ c.rows ∧ c.rows ≤ mostInt32
  /-- The number of columns is a signed 32-bit number. -/
  cols : leastInt32 ≤ c.cols ∧ c.cols ≤ mostInt32
  /-- The number of ticks has 64 bits. -/
  ticks : c.ticks < 2 ^ 64
  /-- The seed has 64 bits. -/
  seed : c.seed < 2 ^ 64
  /-- The interval has 64 bits. -/
  metricsInterval : c.metricsInterval < 2 ^ 64
  /-- The numbers among the parameters are finite and read as they are written. -/
  numbers : ∀ name n, c.parameters.get? name = some (.number n) → n.ReadsBack
  /-- The states have 32 bits. -/
  states : ∀ row ∈ c.states, ∀ state ∈ row, state < 2 ^ 32
  /-- The numbers of the species have 32 bits. -/
  species : ∀ k ∈ c.species, k < 2 ^ 32

/-- The numbers of a summary have their sizes. -/
structure Summary.Fits (s : Summary) : Prop where
  /-- The number of ticks has 64 bits. -/
  ticks : s.ticks < 2 ^ 64
  /-- The number of updates has 64 bits. -/
  updatesApplied : s.updatesApplied < 2 ^ 64
  /-- The states have 32 bits. -/
  states : ∀ k ∈ s.population, k < 2 ^ 32
  /-- The counts have 64 bits. -/
  counts : ∀ (k : Nat) count, s.population[k]? = some count → count < 2 ^ 64

namespace Json

/-- The name of an edge is read as the edge. -/
theorem conveys_edge (e : Edge) : Conveys edge? (ofEdge e) e where
  writable := (conveys_text e.name).writable
  read_eq := by
    have hname : unitVariant? (ofEdge e) = some e.name := by
      rw [unitVariant?, ofEdge, variant?_ofText]
    rw [edge?, hname]
    cases e <;> decide

/-- The name of a topology is read as the topology. -/
theorem conveys_topology (t : Topology) : Conveys topology? (ofTopology t) t where
  writable := (conveys_text t.name).writable
  read_eq := by
    have hname : unitVariant? (ofTopology t) = some t.name := by
      rw [unitVariant?, ofTopology, variant?_ofText]
    rw [topology?, hname]
    cases t <;> decide

/-- A policy is conveyed when its number of layers has 32 bits. -/
theorem conveys_policy {n : NeighborPolicy} (h : n.layers < 2 ^ 32) :
    Conveys policy? (ofPolicy n) n := by
  have htopology := conveys_topology n.topology
  have hlayers := conveys_natural h (by decide)
  constructor
  · exact writable_ofMembers (by simp [htopology.writable, hlayers.writable, Writable.bool])
  · rw [policy?, ofPolicy, fields?_ofMembers (by rfl) (by decide)]
    simp [htopology.read_eq, hlayers.read_eq, Value.bool?]

/-- The name of an operation is read as the operation. -/
theorem conveys_opcode (o : Opcode) : Conveys opcode? (ofOpcode o) o where
  writable := (conveys_text (opcodeName o)).writable
  read_eq := by
    have hname : unitVariant? (ofOpcode o) = some (opcodeName o) := by
      rw [unitVariant?, ofOpcode, variant?_ofText]
    rw [opcode?, hname]
    cases o <;> decide

/-- The value of a parameter is conveyed, a text or a number that is read as it is written. -/
theorem conveys_parameterValue {v : ParameterValue} (h : ∀ n, v = .number n → n.ReadsBack) :
    Conveys parameterValue? (ofParameterValue v) v := by
  cases v with
  | number n =>
    obtain ⟨negative, units, rfl, hread⟩ := h n rfl
    constructor
    · exact .number (Layout.wellFormed_written layout negative units)
    · rw [ofParameterValue, ofBinary64, parameterValue?, hread]
      rfl
  | text s =>
    constructor
    · exact (conveys_text s).writable
    · rw [ofParameterValue, Value.ofText, parameterValue?, decode_encode, Option.map_some,
        String.ofList_toList]

/-- Parameters are conveyed when their numbers are read as they are written. -/
theorem conveys_parameters {p : Parameters}
    (h : ∀ name n, p.get? name = some (.number n) → n.ReadsBack) :
    Conveys parameters? (ofParameters p) p := by
  have hvalue : ∀ entry ∈ p.toList,
      Conveys parameterValue? (ofParameterValue entry.2) entry.2 := by
    intro entry hentry
    refine conveys_parameterValue fun n hn => h entry.1 n ?_
    rw [← hn]
    exact Std.ExtTreeMap.mem_toList_iff_getElem?_eq_some.mp hentry
  constructor
  · refine writable_ofMembers fun member hmember => ?_
    obtain ⟨entry, hentry, rfl⟩ := List.mem_map.mp hmember
    exact (hvalue entry hentry).writable
  · have hentries : (p.toList.map fun entry => (entry.1, ofParameterValue entry.2)).mapM
        (fun entry => (parameterValue? entry.2).map fun v => (entry.1, v)) = some p.toList := by
      refine mapM_map_of_forall fun entry hentry => ?_
      rw [(hvalue entry hentry).read_eq]
      rfl
    rw [parameters?, ofParameters, Value.ofMembers, entries?, namedMembers?_encode,
      Option.bind_eq_bind, Option.bind_some, hentries, Option.bind_eq_bind, Option.bind_some,
      Parameters.ofList_toList]
    rfl

/-- A configuration is conveyed. -/
theorem conveys_configuration {c : Configuration} (h : c.Fits) :
    Conveys configuration? (ofConfiguration c) c := by
  have hautomaton := conveys_text c.automaton
  have hrows := conveys_int32 h.rows
  have hcols := conveys_int32 h.cols
  have hedge := conveys_edge c.edge
  have hticks := conveys_natural h.ticks (by decide)
  have hseed := conveys_natural h.seed (by decide)
  have hinterval := conveys_natural h.metricsInterval (by decide)
  have hparameters := conveys_parameters h.numbers
  have hstates := conveys_list fun row hrow =>
    conveys_list fun state hstate => conveys_natural (h.states row hrow state hstate) (by decide)
  have hspecies := conveys_naturalMap h.species fun k text _ => conveys_text text
  constructor
  · exact writable_ofMembers (by simp [hautomaton.writable, hrows.writable, hcols.writable,
      hedge.writable, hticks.writable, hseed.writable, hinterval.writable, hparameters.writable,
      hstates.writable, hspecies.writable])
  · rw [configuration?, ofConfiguration, leadingFields?_ofMembers (by rfl) (by decide)]
    simp only [List.map_cons, List.map_nil, fieldOr, hautomaton.read_eq, hrows.read_eq,
      hcols.read_eq, hedge.read_eq, hticks.read_eq, hseed.read_eq, hinterval.read_eq,
      hparameters.read_eq, hstates.read_eq, hspecies.read_eq, Option.bind_eq_bind,
      Option.bind_some, Option.pure_def]

/-- A summary is conveyed. -/
theorem conveys_summary {s : Summary} (h : s.Fits) : Conveys summary? (ofSummary s) s := by
  have hautomaton := conveys_text s.automaton
  have hticks := conveys_natural h.ticks (by decide)
  have hupdates := conveys_natural h.updatesApplied (by decide)
  have hpopulation := conveys_naturalMap h.states fun k count hk =>
    conveys_natural (h.counts k count hk) (by decide)
  constructor
  · exact writable_ofMembers (by simp [hautomaton.writable, hticks.writable, hupdates.writable,
      ofPopulation, hpopulation.writable])
  · rw [summary?, ofSummary, fields?_ofMembers (by rfl) (by decide)]
    simp [ofPopulation, hautomaton.read_eq, hticks.read_eq, hupdates.read_eq, hpopulation.read_eq]

/-- Operations, and policies with a number of layers that there is room for, are read from their
compact texts unchanged. -/
theorem parse_compact_choices :
    (∀ o : Opcode, (parse (ofOpcode o).compact).bind opcode? = some o) ∧
    ∀ n : NeighborPolicy, n.layers < 2 ^ 32 → (parse (ofPolicy n).compact).bind policy? = some n :=
  ⟨fun o => (conveys_opcode o).parse, fun _ h => (conveys_policy h).parse⟩

/-- Cells and everything that they carry, programs, summaries and configurations are read from
their compact texts unchanged. Texts in them may have any characters; numbers are of the sizes
that there is room for, and parameters that are numbers are finite and read as they are
written. -/
theorem parse_compact_conveyed :
    (∀ c : Cell, c.Fits → (parse (ofCell c).compact).bind cell? = some c) ∧
    (∀ a : Attributes, a.Fits → (parse (ofAttributes a).compact).bind attributes? = some a) ∧
    (∀ i : Individual, i.Fits → (parse (ofIndividual i).compact).bind individual? = some i) ∧
    (∀ p : Program, (parse (ofProgram p).compact).bind program? = some p) ∧
    (∀ s : Summary, s.Fits → (parse (ofSummary s).compact).bind summary? = some s) ∧
    (∀ c : Configuration, c.Fits →
      (parse (ofConfiguration c).compact).bind configuration? = some c) :=
  ⟨fun _ h => (conveys_cell h).parse, fun _ h => (conveys_attributes h).parse,
    fun _ h => (conveys_individual h).parse, fun p => (conveys_program p).parse,
    fun _ h => (conveys_summary h).parse, fun _ h => (conveys_configuration h).parse⟩

/-- An infected individual at the edge of what there is room for; its program has words with
quotes, control characters and characters beyond the first plane. -/
def carrier : Individual :=
  ⟨-2147483648, 18446744073709551615, some ⟨4294967295, 0⟩,
    ⟨[⟨"", []⟩, ⟨"go\t\"\\", ["\u0000", "\u007f", "\u2028", "𝄞"]⟩]⟩⟩

/-- The numbers of the individual have their sizes. -/
theorem carrier_fits : carrier.Fits where
  orientation := by decide
  programCounter := by decide
  infection := by
    intro infection hmem
    obtain rfl := Option.some.inj hmem
    exact ⟨by decide, by decide⟩

/-- A configuration with a number and a text among its parameters, states and a species. -/
def settings : Configuration :=
  ⟨"fire \"front\"", -1, 2147483647, .mirror, 18446744073709551615, 0, 10,
    .ofList [("chance", .number (.finite true (Binary64.unitsPerOne / 8))),
      ("rule", .text "b3/s23")],
    [[], [4294967295, 0]], .ofList [(4294967295, "go 1\n")]⟩

/-- The numbers of the configuration have their sizes. -/
theorem settings_fits : settings.Fits where
  rows := by decide
  cols := by decide
  ticks := by decide
  seed := by decide
  metricsInterval := by decide
  numbers := by
    intro name n hget
    change ((Parameters.empty.insert "chance" _).insert "rule" _).get? name = _ at hget
    rw [Parameters.get?_insert] at hget
    split at hget
    next => cases hget
    next =>
      rw [Parameters.get?_insert] at hget
      split at hget
      next =>
        refine ⟨true, Binary64.unitsPerOne / 8, ?_, ?_⟩
        · exact (ParameterValue.number.inj (Option.some.inj hget)).symm
        · rw [← ParameterValue.number.inj (Option.some.inj hget)]
          decide +kernel
      next => cases hget
  states := by decide
  species := by
    intro k hk
    rw [settings, Std.ExtTreeMap.mem_ofList] at hk
    simp at hk
    omega

/-- A summary with a count. -/
def outcome : Summary := ⟨"sand", 3, 18446744073709551615, .ofList [(4294967295, 1024)]⟩

/-- The numbers of the summary have their sizes. -/
theorem outcome_fits : outcome.Fits where
  ticks := by decide
  updatesApplied := by decide
  states := by
    intro k hk
    rw [outcome, Std.ExtTreeMap.mem_ofList] at hk
    simp at hk
    omega
  counts := by
    intro k count hk
    rw [outcome, Std.ExtTreeMap.ofList_singleton, Std.ExtTreeMap.getElem?_insert] at hk
    split at hk
    next =>
      obtain rfl := Option.some.inj hk
      decide
    next => cases hk

/-- The individual, in a cell, the summary and the configuration are read from their texts. -/
theorem carrier_parse_compact_conveyed :
    carrier.Fits ∧ outcome.Fits ∧ settings.Fits ∧
    (parse (ofCell ⟨7, ⟨-1, 5⟩, .individual carrier⟩).compact).bind cell? =
      some ⟨7, ⟨-1, 5⟩, .individual carrier⟩ ∧
    (parse (ofAttributes .plain).compact).bind attributes? = some .plain ∧
    (parse (ofIndividual carrier).compact).bind individual? = some carrier ∧
    (parse (ofSummary outcome).compact).bind summary? = some outcome ∧
    (parse (ofConfiguration settings).compact).bind configuration? = some settings := by
  obtain ⟨hcells, hattributes, hindividuals, -, hsummaries, hconfigurations⟩ :=
    parse_compact_conveyed
  have hcell : Cell.Fits ⟨7, ⟨-1, 5⟩, .individual carrier⟩ :=
    ⟨by decide, ⟨by decide, by decide⟩, carrier_fits⟩
  exact ⟨carrier_fits, outcome_fits, settings_fits, hcells _ hcell, hattributes .plain trivial,
    hindividuals carrier carrier_fits, hsummaries outcome outcome_fits,
    hconfigurations settings settings_fits⟩

end Json

end CellularAutomata
