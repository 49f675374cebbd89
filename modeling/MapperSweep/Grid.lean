import MapperSweep.Settings

/-!
# The grid of a sweep

All runs of a sweep: every machine with every coordinate mapping and every pair of weights that is
not zero twice.  Machines vary slowest and weights fastest, and the runs are numbered in this order.
-/

namespace MapperSweep

/-- The ranges that a sweep goes through, and what stays the same. -/
structure Grid where
  architectures : List Architecture
  coordinateMappings : List CoordinateMapping
  weights : List Weights
  circuitMapping : String
  parameters : Parameters

namespace Grid

/-- The grid that the settings `s` span. -/
def ofSettings (s : Settings) : Grid where
  architectures := s.architectures
  coordinateMappings := s.coordinateMappings
  weights := s.weights
  circuitMapping := s.circuitMapping
  parameters := s.parameters

/-- The weights that are worth a run: those that are not zero twice. -/
def usefulWeights (g : Grid) : List Weights := g.weights.filter (!·.isDegenerate)

/-- The points of the grid `g`, in the order of their runs. -/
def points (g : Grid) : List (Architecture × CoordinateMapping × Weights) :=
  g.architectures.flatMap fun a =>
    g.coordinateMappings.flatMap fun m =>
      g.usefulWeights.map fun w => (a, m, w)

/-- The run of a `point`, where `index` is its place in `points`. -/
def config (g : Grid) (index : Nat) (point : Architecture × CoordinateMapping × Weights) :
    RunConfig where
  runIndex := UInt64.ofNat index
  architecture := point.1
  coordinateMapping := point.2.1
  circuitMapping := g.circuitMapping
  weights := point.2.2
  parameters := g.parameters

/-- The runs of the grid `g`, in order and numbered from zero. -/
def configs (g : Grid) : List RunConfig :=
  g.points.mapIdx fun i point => g.config i point

/-- How many runs the grid `g` has.  The number has no bounds here: a product of lengths that does
    not fit 64 bits, at which a count in a machine word overflows, is a number like any other. -/
def size (g : Grid) : Nat :=
  g.architectures.length * g.coordinateMappings.length * g.usefulWeights.length

end Grid

end MapperSweep
