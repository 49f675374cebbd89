import MapperSweep.Json.Decode
import MapperSweep.Json.Printer
import MapperSweep.Record

/-!
# Records as JSON

The written form of every type of the domain, and its reader.  Structures are written as objects
with all fields in the order of their declaration.
-/

namespace MapperSweep

namespace ArchitectureKind

/-- The kind `k` as JSON: its name. -/
def toJson (k : ArchitectureKind) : Json := .text k.name

/-- Reads a kind, the inverse of `toJson`. -/
def ofJson? : Json → Option ArchitectureKind := Json.named? ofName

end ArchitectureKind

namespace CoordinateMapping

/-- The mapping `m` as JSON: its name. -/
def toJson (m : CoordinateMapping) : Json := .text m.name

/-- Reads a mapping, the inverse of `toJson`. -/
def ofJson? : Json → Option CoordinateMapping := Json.named? ofName

end CoordinateMapping

namespace Architecture

/-- The machine `a` as a JSON object. -/
def toJson (a : Architecture) : Json :=
  .ofMembers [("kind", a.kind.toJson), ("config_path", .text a.configPath)]

/-- Reads a machine from the JSON value `j`. -/
def ofJson? (j : Json) : Option Architecture := do
  match ← j.fields? ["kind", "config_path"] with
  | [kind, configPath] =>
    return {
      kind := ← Json.required? ArchitectureKind.ofJson? kind
      configPath := ← Json.required? Json.text? configPath }
  | _ => none

end Architecture

namespace Weights

/-- The weights `w` as a JSON object. -/
def toJson (w : Weights) : Json :=
  .ofMembers [("gate", .ofBinary64 w.gate), ("shuttling", .ofBinary64 w.shuttling)]

/-- Reads weights from the JSON value `j`. -/
def ofJson? (j : Json) : Option Weights := do
  match ← j.fields? ["gate", "shuttling"] with
  | [gate, shuttling] =>
    return {
      gate := ← Json.required? Json.float? gate
      shuttling := ← Json.required? Json.float? shuttling }
  | _ => none

end Weights

namespace Parameters

/-- The parameters `p` as a JSON object. -/
def toJson (p : Parameters) : Json :=
  .ofMembers
    [("lookahead_gate", .ofBinary64 p.lookaheadGate),
      ("lookahead_shuttling", .ofBinary64 p.lookaheadShuttling), ("decay", .ofBinary64 p.decay),
      ("shuttling_time_weight", .ofBinary64 p.shuttlingTimeWeight), ("verbose", .bool p.verbose)]

/-- The names of the parameters in JSON, in the order of the fields of `Parameters`. -/
def names : List String :=
  ["lookahead_gate", "lookahead_shuttling", "decay", "shuttling_time_weight", "verbose"]

/-- Reads parameters from the JSON value `j`.  Those that are left out have their defaults. -/
def ofJson? (j : Json) : Option Parameters := do
  let d : Parameters := {}
  match ← j.optionalFields? names with
  | [lookaheadGate, lookaheadShuttling, decay, shuttlingTimeWeight, verbose] =>
    return {
      lookaheadGate := ← Json.defaulted? d.lookaheadGate Json.float? lookaheadGate
      lookaheadShuttling := ← Json.defaulted? d.lookaheadShuttling Json.float? lookaheadShuttling
      decay := ← Json.defaulted? d.decay Json.float? decay
      shuttlingTimeWeight := ← Json.defaulted? d.shuttlingTimeWeight Json.float? shuttlingTimeWeight
      verbose := ← Json.defaulted? d.verbose Json.bool? verbose }
  | _ => none

end Parameters

namespace RunConfig

/-- The point `c` of a sweep as a JSON object. -/
def toJson (c : RunConfig) : Json :=
  .ofMembers
    [("run_idx", .ofCount c.runIndex), ("architecture", c.architecture.toJson),
      ("coordinate_mapping", c.coordinateMapping.toJson),
      ("circuit_mapping", .text c.circuitMapping), ("weights", c.weights.toJson),
      ("parameters", c.parameters.toJson)]

/-- Reads a point of a sweep from the JSON value `j`. -/
def ofJson? (j : Json) : Option RunConfig := do
  match ← j.fields? ["run_idx", "architecture", "coordinate_mapping", "circuit_mapping", "weights",
    "parameters"] with
  | [runIndex, architecture, coordinateMapping, circuitMapping, weights, parameters] =>
    return {
      runIndex := ← Json.required? Json.toCount? runIndex
      architecture := ← Json.required? Architecture.ofJson? architecture
      coordinateMapping := ← Json.required? CoordinateMapping.ofJson? coordinateMapping
      circuitMapping := ← Json.required? Json.text? circuitMapping
      weights := ← Json.required? Weights.ofJson? weights
      parameters := ← Json.required? Parameters.ofJson? parameters }
  | _ => none

end RunConfig

namespace Metrics

/-- A count as JSON, where `null` says that it is absent. -/
def countJson : Option UInt64 → Json
  | some n => .ofCount n
  | none => .null

/-- A real number as JSON, where `null` says that it is absent. -/
def floatJson : Option Binary64 → Json
  | some x => .ofBinary64 x
  | none => .null

/-- The measurements `m` as a JSON object, in which those that are absent are `null`. -/
def toJson (m : Metrics) : Json :=
  .ofMembers
    [("swaps", countJson m.swaps), ("bridges", countJson m.bridges), ("moves", countJson m.moves),
      ("cz_count", countJson m.czCount), ("execution_time", floatJson m.executionTime),
      ("idle_time", floatJson m.idleTime), ("gate_fidelity", floatJson m.gateFidelity),
      ("fidelity", floatJson m.fidelity), ("runtime_ms", countJson m.runtimeMs)]

/-- Reads a count that may be `null` or left out. -/
def count? : Option Json → Option (Option UInt64) :=
  Json.defaulted? none (Json.nullable? Json.toCount?)

/-- Reads a real number that may be `null` or left out. -/
def float? : Option Json → Option (Option Binary64) :=
  Json.defaulted? none (Json.nullable? Json.float?)

/-- Reads measurements from the JSON value `j`. -/
def ofJson? (j : Json) : Option Metrics := do
  match ← j.fields? ["swaps", "bridges", "moves", "cz_count", "execution_time", "idle_time",
    "gate_fidelity", "fidelity", "runtime_ms"] with
  | [swaps, bridges, moves, czCount, executionTime, idleTime, gateFidelity, fidelity, runtimeMs] =>
    return {
      swaps := ← count? swaps
      bridges := ← count? bridges
      moves := ← count? moves
      czCount := ← count? czCount
      executionTime := ← float? executionTime
      idleTime := ← float? idleTime
      gateFidelity := ← float? gateFidelity
      fidelity := ← float? fidelity
      runtimeMs := ← count? runtimeMs }
  | _ => none

end Metrics

namespace Record

/-- The record `r` as a JSON object. -/
def toJson (r : Record) : Json :=
  .ofMembers
    [("benchmark", .text r.benchmark), ("architecture", r.architecture.toJson),
      ("coordinate_mapping", r.coordinateMapping.toJson), ("run_idx", .ofCount r.runIndex),
      ("weights", r.weights.toJson), ("metrics", r.metrics.toJson)]

/-- Reads a record from the JSON value `j`. -/
def ofJson? (j : Json) : Option Record := do
  match ← j.fields? ["benchmark", "architecture", "coordinate_mapping", "run_idx", "weights",
    "metrics"] with
  | [benchmark, architecture, coordinateMapping, runIndex, weights, metrics] =>
    return {
      benchmark := ← Json.required? Json.text? benchmark
      architecture := ← Json.required? ArchitectureKind.ofJson? architecture
      coordinateMapping := ← Json.required? CoordinateMapping.ofJson? coordinateMapping
      runIndex := ← Json.required? Json.toCount? runIndex
      weights := ← Json.required? Weights.ofJson? weights
      metrics := ← Json.required? Metrics.ofJson? metrics }
  | _ => none

end Record

namespace Group

/-- The group `g` as a JSON object. -/
def toJson (g : Group) : Json :=
  .ofMembers [("benchmark", .text g.benchmark), ("records", .array (g.records.map Record.toJson))]

/-- Reads a group from the JSON value `j`. -/
def ofJson? (j : Json) : Option Group := do
  match ← j.fields? ["benchmark", "records"] with
  | [benchmark, records] =>
    return {
      benchmark := ← Json.required? Json.text? benchmark
      records := ← Json.required? (Json.list? Record.ofJson?) records }
  | _ => none

end Group

end MapperSweep
