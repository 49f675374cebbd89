import MapperSweep.Architecture
import MapperSweep.CoordinateMapping
import MapperSweep.Binary64.Rounding

/-!
# Run configurations

One point of a sweep: the machine, the mappings, the weights and the parameters that the mapping
tool is started with.
-/

namespace MapperSweep

/-- The cost weights of the two ways of routing. -/
structure Weights where
  gate : Binary64
  shuttling : Binary64
deriving DecidableEq

/-- Whether both weights are zero, of either sign: there is nothing to optimise then. -/
def Weights.isDegenerate (w : Weights) : Bool := w.gate.isZero && w.shuttling.isZero

/-- Numeric equality of both weights, by `Binary64.numEq`. -/
def Weights.numEq (v w : Weights) : Bool := v.gate.numEq w.gate && v.shuttling.numEq w.shuttling

/-- The tuning of the mapper, the same for a whole sweep. -/
structure Parameters where
  lookaheadGate : Binary64 := .ofDecimal false 1 (-1)
  lookaheadShuttling : Binary64 := .ofDecimal false 1 (-1)
  decay : Binary64 := .zero false
  shuttlingTimeWeight : Binary64 := .ofDecimal false 1 (-1)
  verbose : Bool := false
deriving DecidableEq

/-- Numeric equality of all parameters, by `Binary64.numEq`. -/
def Parameters.numEq (p q : Parameters) : Bool :=
  p.lookaheadGate.numEq q.lookaheadGate && p.lookaheadShuttling.numEq q.lookaheadShuttling &&
    p.decay.numEq q.decay && p.shuttlingTimeWeight.numEq q.shuttlingTimeWeight &&
    p.verbose == q.verbose

/-- A single point of a sweep, of which `Grid.configs` makes all. -/
structure RunConfig where
  runIndex : UInt64
  architecture : Architecture
  coordinateMapping : CoordinateMapping
  /-- The initial circuit mapping, handed to the tool as it is. -/
  circuitMapping : String
  weights : Weights
  parameters : Parameters
deriving DecidableEq

/-- Equality of the points `c` and `d`, with numeric equality of their numbers. -/
def RunConfig.numEq (c d : RunConfig) : Bool :=
  c.runIndex == d.runIndex && c.architecture == d.architecture &&
    c.coordinateMapping == d.coordinateMapping && c.circuitMapping == d.circuitMapping &&
    c.weights.numEq d.weights && c.parameters.numEq d.parameters

end MapperSweep
