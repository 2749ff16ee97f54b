import CellularAutomata.Neighborhood.Policy
import CellularAutomata.Tick

/-!
# Segregation

Agents of several types live next to each other. An agent with too few neighbors of its
own type moves to a vacancy that is drawn by chance. Only cells that are empty before
the tick are vacancies, and each is given away once.
-/

namespace CellularAutomata.Segregation

/-- The rules of one automaton. -/
structure Rules where
  /-- The part of its neighbors that an agent wants to be of its own type. -/
  tolerance : Binary64
  /-- How many types of agents there are. -/
  agentTypes : Nat
  /-- Which cells are neighbors. -/
  policy : NeighborPolicy
  /-- Decides the course of chance. -/
  seed : Int
  deriving DecidableEq, Repr

/-- Reads the rules. -/
def Rules.ofParameters (p : Parameters) : Except Fault Rules := do
  let tolerance ← p.probability "toleranceThreshold" none
  let agentTypes ← p.integerWithin "agentTypes" 1 9 (some 2)
  let policy ← NeighborPolicy.ofParameters p .square8
  let seed ← Seed.ofParameters p
  return ⟨tolerance, agentTypes.toNat, policy, seed⟩

/-- The parameters that the rules are read from. -/
def Rules.parameters (r : Rules) : Parameters :=
  Seed.describe r.seed (r.policy.describe
    ((Parameters.empty.insert "toleranceThreshold" (.number r.tolerance)).insert
      "agentTypes" (.ofInt r.agentTypes)))

/-- Whether an agent stays where it is: it has no neighbors, or enough of them are of its
own type. -/
def Rules.isSatisfied (r : Rules) (g : Grid) (c : Cell) : Bool :=
  let occupied := (r.policy.neighbors g c.location).filter fun n => !n.isEmpty
  if occupied.isEmpty then true
  else
    let same := occupied.countP fun n => n.state == c.state
    r.tolerance.atMost (Binary64.ofRatio false same occupied.length)

/-- The entries without the one at an index; the last entry takes its place. -/
def swapRemove {α : Type} (entries : Array α) (index : Nat) (h : index < entries.size) : Array α :=
  (entries.swap index (entries.size - 1)).pop

/-- What the agents of a list do, given the vacancies that are left. A move is two
updates: the vacancy receives the agent and the agent's place the vacancy. -/
def Rules.relocate {ρ : Type} [WordSource ρ] (r : Rules) (g : Grid) :
    List Cell → Array Cell → ρ → Tick ρ
  | [], _, source => ⟨[], source, #[]⟩
  | agent :: rest, vacancies, source =>
    if r.isSatisfied g agent then r.relocate g rest vacancies source
    else if vacancies.isEmpty then
      let later := r.relocate g rest vacancies source
      { later with events := #[Event.noVacancy agent.location] ++ later.events }
    else
      let (index, source) := WordSource.index64 vacancies.size source
      if h : index < vacancies.size then
        let vacancy := vacancies[index]
        let later := r.relocate g rest (swapRemove vacancies index h) source
        { later with
          updates := CellUpdate.place vacancy.location agent ::
            CellUpdate.place agent.location vacancy :: later.updates }
      else r.relocate g rest vacancies source

/-- One tick. -/
def Rules.tick {ρ : Type} [WordSource ρ] (r : Rules) (g : Grid) (source : ρ) : Tick ρ :=
  r.relocate g (g.cellList.filter fun c => !c.isEmpty) (g.cellList.filter Cell.isEmpty).toArray
    source

end CellularAutomata.Segregation
