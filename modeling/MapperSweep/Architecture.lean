import MapperSweep.Naming

/-!
# Hardware architectures

The families of neutral-atom hardware that a circuit can be mapped to, and the descriptions of
concrete machines.
-/

namespace MapperSweep

/-- The hardware family of a machine. -/
inductive ArchitectureKind where
  /-- Qubits are routed with swap and bridge gates. -/
  | gate
  /-- Atoms are moved physically. -/
  | shuttling
  /-- Both ways of routing are there. -/
  | hybrid
deriving DecidableEq

namespace ArchitectureKind

/-- All kinds, in the order in which `ArchitectureKind` declares them. -/
def all : List ArchitectureKind := [gate, shuttling, hybrid]

/-- The name of a kind in settings, in records and in the report; `ofName` reads it back. -/
def name : ArchitectureKind → String
  | gate => "gate"
  | shuttling => "shuttling"
  | hybrid => "hybrid"

/-- The kind that has the given `name`, or the error that there is none. -/
def ofName : String → Except UnknownName ArchitectureKind :=
  findNamed .architectureKind all name

/-- The mark in the report column `g s h`: every kind has a place of its own there. -/
def flag : ArchitectureKind → String
  | gate => "g    "
  | shuttling => "  s  "
  | hybrid => "    h"

end ArchitectureKind

/-- A machine that the mapping tool can be pointed at. -/
structure Architecture where
  kind : ArchitectureKind
  /-- The file that describes the machine, handed to the tool as it is. -/
  configPath : String
deriving DecidableEq

end MapperSweep
