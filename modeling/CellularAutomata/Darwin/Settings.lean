import CellularAutomata.Parameters

/-!
# Settings of a Darwin world

The numbers that all individuals of a Darwin world share.
-/

namespace CellularAutomata.Darwin

/-- What all individuals share. -/
structure Settings where
  /-- Ticks for which an infected individual runs the program of its infector. -/
  infectionTime : Nat
  /-- How many positions ahead a conditional jump looks. -/
  layers : Nat
  /-- Degrees that one unit of a turn makes. -/
  orientationStep : Int
  /-- The orientation of an individual that nothing else decides. -/
  initialOrientation : Int
  deriving DecidableEq, Repr

namespace Settings

/-- Reads the settings. -/
def ofParameters (p : Parameters) : Except Fault Settings := do
  let infectionTime ← p.integerWithin "infectionTime" 0 100000 (some 5)
  let layers ← p.integerWithin "layers" 1 16 (some 1)
  let orientationStep ← p.integerWithin "orientationStep" (-360) 360 (some 1)
  let initialOrientation ← p.integerWithin "initialOrientation" 0 359 (some 0)
  return ⟨infectionTime.toNat, layers.toNat, orientationStep, initialOrientation⟩

/-- Adds the parameters that the settings are read from. -/
def describe (s : Settings) (p : Parameters) : Parameters :=
  (((p.insert "infectionTime" (.ofInt s.infectionTime)).insert "layers" (.ofInt s.layers)).insert
    "orientationStep" (.ofInt s.orientationStep)).insert
    "initialOrientation" (.ofInt s.initialOrientation)

/-- The settings in an event. -/
def text (s : Settings) : String :=
  "DarwinSettings \x7b infection_time: " ++ Numeral.natural s.infectionTime ++
    ", layers: " ++ Numeral.natural s.layers ++
    ", orientation_step: " ++ Numeral.integer s.orientationStep ++
    ", initial_orientation: " ++ Numeral.integer s.initialOrientation ++ " \x7d"

end Settings

end CellularAutomata.Darwin
