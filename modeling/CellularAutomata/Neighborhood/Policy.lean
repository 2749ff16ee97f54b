import CellularAutomata.Grid
import CellularAutomata.Neighborhood.Topology
import CellularAutomata.Parameters

/-!
# Neighborhood policies

Which cells of a grid count as the neighbors of a location: those that the steps of a
topology lead to, taken once, twice and so on up to a number of layers. A step that
leaves the grid is dropped; under truncation it also ends its layer.
-/

namespace CellularAutomata

/-- Which cells count as neighbors. -/
structure NeighborPolicy where
  /-- The steps to the neighbors. -/
  topology : Topology
  /-- How many times each step is taken. -/
  layers : Nat
  /-- Whether a step that leaves the grid ends its layer. -/
  truncates : Bool
  deriving DecidableEq, Repr

namespace NeighborPolicy

/-- Reads the policy from the parameters `neighborhood`, `layers` and
`truncateLayerAtEdge`, each of which is optional. -/
def ofParameters (p : Parameters) (default : Topology) : Except Fault NeighborPolicy := do
  let topology ←
    match p.get? "neighborhood" with
    | none => pure default
    | some value => Topology.ofText value.shown
  let layers ← p.integerWithin "layers" 1 16 (some 1)
  let truncates ← p.integerWithin "truncateLayerAtEdge" 0 1 (some 0)
  return ⟨topology, layers.toNat, truncates == 1⟩

/-- Adds the parameters that the policy is read from. -/
def describe (n : NeighborPolicy) (p : Parameters) : Parameters :=
  ((p.insert "neighborhood" (.text n.topology.name)).insert "layers" (.ofInt n.layers)).insert
    "truncateLayerAtEdge" (.ofInt (if n.truncates then 1 else 0))

/-- How many layers are gone through. They are counted with signed 32-bit numbers, so a greater
number of them is taken for a negative one. -/
def rounds (n : NeighborPolicy) : Nat := if n.layers < Nat.pow 2 31 then n.layers else 0

/-- All layers are gone through if their number is a signed 32-bit number. -/
theorem rounds_of_lt {n : NeighborPolicy} (h : n.layers < Nat.pow 2 31) :
    n.rounds = n.layers := if_pos h

/-- No more layers are gone through than there are. -/
theorem rounds_le (n : NeighborPolicy) : n.rounds ≤ n.layers := by
  rw [rounds]
  split <;> omega

/-- What the steps of one layer lead to. -/
def probes (n : NeighborPolicy) (g : Grid) (l : Location) (layer : Nat) :
    List (Option Location) :=
  (n.topology.directions l.row l.col).map fun direction => g.resolve (l.step direction layer)

/-- The neighbors that one layer contributes. -/
def layerLocations (n : NeighborPolicy) (g : Grid) (l : Location) (layer : Nat) :
    List Location :=
  let probes := n.probes g l layer
  (if n.truncates then probes.takeWhile Option.isSome else probes).filterMap id

/-- The positions around a location, layer by layer. -/
def neighborLocations (n : NeighborPolicy) (g : Grid) (l : Location) : List Location :=
  (List.range n.rounds).flatMap fun index => n.layerLocations g l (index + 1)

/-- The cells around a location. -/
def neighbors (n : NeighborPolicy) (g : Grid) (l : Location) : List Cell :=
  (n.neighborLocations g l).filterMap g.cellAt

/-- How many cells around a location are in a state. -/
def countInState (n : NeighborPolicy) (g : Grid) (l : Location) (state : Nat) : Nat :=
  (n.neighbors g l).countP fun c => c.state == state

end NeighborPolicy

end CellularAutomata
