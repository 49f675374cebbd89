import MapperSweep.RunConfig

/-!
# Result records

What the mapping tool reports for one benchmark circuit, together with the point of the sweep that
it was started for.
-/

namespace MapperSweep

/-- The measurements of one benchmark circuit.  Not every machine reports every one of them. -/
structure Metrics where
  swaps : Option UInt64 := none
  bridges : Option UInt64 := none
  moves : Option UInt64 := none
  czCount : Option UInt64 := none
  executionTime : Option Binary64 := none
  idleTime : Option Binary64 := none
  gateFidelity : Option Binary64 := none
  fidelity : Option Binary64 := none
  runtimeMs : Option UInt64 := none
deriving DecidableEq

/-- Whether nothing was measured. -/
def Metrics.isEmpty (m : Metrics) : Bool := m == {}

/-- The measurements of one benchmark circuit in one run. -/
structure Record where
  /-- The circuit's file name without directory and extension. -/
  benchmark : String
  architecture : ArchitectureKind
  coordinateMapping : CoordinateMapping
  runIndex : UInt64
  weights : Weights
  metrics : Metrics
deriving DecidableEq

/-- A record of the run `config`, with the `metrics` of a `benchmark`. -/
def Record.ofRun (config : RunConfig) (benchmark : String) (metrics : Metrics) : Record where
  benchmark
  architecture := config.architecture.kind
  coordinateMapping := config.coordinateMapping
  runIndex := config.runIndex
  weights := config.weights
  metrics

/-- The first run of a gate-based machine with plain settings, for use where one run is as good as
    another. -/
def RunConfig.plain : RunConfig where
  runIndex := 0
  architecture := ⟨.gate, "gate.json"⟩
  coordinateMapping := .trivial
  circuitMapping := "identity"
  weights := ⟨.ofNat 1, .ofNat 1⟩
  parameters := {}

/-- A record of `RunConfig.plain` with few measurements. -/
def Record.plain : Record :=
  .ofRun .plain "qft" { fidelity := some (.ofDecimal false 5 (-1)), runtimeMs := some 5 }

/-- The records of one `benchmark`. -/
structure Group where
  benchmark : String
  records : List Record
deriving DecidableEq

/-- The first record of `g`, which in a ranked group is the best one. -/
def Group.best? (g : Group) : Option Record := g.records.head?

end MapperSweep
