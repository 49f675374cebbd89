import MapperSweep.Naming

/-!
# Coordinate mappings

The heuristics that place the qubits of a circuit before routing starts.
-/

namespace MapperSweep

/-- How qubits are placed at first. -/
inductive CoordinateMapping where
  | trivial
  | random
  | graph
deriving DecidableEq

namespace CoordinateMapping

/-- All mappings, in the order in which `CoordinateMapping` declares them. -/
def all : List CoordinateMapping := [trivial, random, graph]

/-- The name of a mapping in settings, in records and in the arguments of the tool; `ofName` reads
    it back. -/
def name : CoordinateMapping → String
  | trivial => "trivial"
  | random => "random"
  | graph => "graph"

/-- The mapping that has the given `name`, or the error that there is none. -/
def ofName : String → Except UnknownName CoordinateMapping :=
  findNamed .coordinateMapping all name

/-- The mark in the report column `t r g`: every mapping has a place of its own there. -/
def flag : CoordinateMapping → String
  | trivial => "t    "
  | random => "  r  "
  | graph => "    g"

end CoordinateMapping

end MapperSweep
