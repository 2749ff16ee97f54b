import CellularAutomata.Main
import CellularAutomata.Proofs.Darwin.Checked
import CellularAutomata.Proofs.Darwin.Conservation
import CellularAutomata.Proofs.Darwin.Conversions
import CellularAutomata.Proofs.Darwin.Foresight
import CellularAutomata.Proofs.Darwin.Inaction
import CellularAutomata.Proofs.Darwin.Infection
import CellularAutomata.Proofs.Darwin.Names
import CellularAutomata.Proofs.Darwin.Recognition
import CellularAutomata.Proofs.Darwin.Seeds
import CellularAutomata.Proofs.Darwin.Turning
import CellularAutomata.Proofs.Darwin.Vision
import CellularAutomata.Proofs.Darwin.Walks
import CellularAutomata.Proofs.Dominance.Rotation
import CellularAutomata.Proofs.Fire.Front
import CellularAutomata.Proofs.Grid.Batches
import CellularAutomata.Proofs.Grid.Census
import CellularAutomata.Proofs.Grid.Chains
import CellularAutomata.Proofs.Grid.Distances
import CellularAutomata.Proofs.Grid.Layout
import CellularAutomata.Proofs.Grid.Neighborhoods
import CellularAutomata.Proofs.Grid.Operations
import CellularAutomata.Proofs.Grid.Resolution
import CellularAutomata.Proofs.Grid.Symmetry
import CellularAutomata.Proofs.Grid.Truncation
import CellularAutomata.Proofs.Grid.Updates
import CellularAutomata.Proofs.Json.Runs
import CellularAutomata.Proofs.Life.Grammar
import CellularAutomata.Proofs.Parameters.Effective
import CellularAutomata.Proofs.Percolation.Flow
import CellularAutomata.Proofs.PredatorPrey.Accounting
import CellularAutomata.Proofs.PredatorPrey.Hunting
import CellularAutomata.Proofs.PredatorPrey.Vitals
import CellularAutomata.Proofs.Random.Draws
import CellularAutomata.Proofs.Run.Phases
import CellularAutomata.Proofs.Run.Rest
import CellularAutomata.Proofs.Run.Seeds
import CellularAutomata.Proofs.Run.Setup
import CellularAutomata.Proofs.Run.States
import CellularAutomata.Proofs.Run.Torus
import CellularAutomata.Proofs.Run.Worlds
import CellularAutomata.Proofs.Sand.Matter
import CellularAutomata.Proofs.Sand.Rest
import CellularAutomata.Proofs.Sand.Settling
import CellularAutomata.Proofs.Segregation.Exchange
import CellularAutomata.Proofs.Segregation.Moves
import CellularAutomata.Proofs.Species.Check
import CellularAutomata.Proofs.Species.Written
