import MapperSweep.Settings
import MapperSweep.Toml.Decode
import MapperSweep.Toml.Parser

/-!
# Settings in TOML

A document gives any of the settings; the others have their defaults.  At the top level every key
has to be the name of a setting.
-/

namespace MapperSweep

/-- Reads a kind of machine from a TOML value: one of the names that `ofName` knows. -/
def ArchitectureKind.ofToml? : Toml.Value → Option ArchitectureKind :=
  Toml.named? fun s => (ofName s).toOption

/-- Reads a coordinate mapping from a TOML value: one of the names that `ofName` knows. -/
def CoordinateMapping.ofToml? : Toml.Value → Option CoordinateMapping :=
  Toml.named? fun s => (ofName s).toOption

/-- Reads a layout from a TOML value: one of the names that `ofName` knows. -/
def Report.Layout.ofToml? : Toml.Value → Option Report.Layout :=
  Toml.named? fun s => (ofName s).toOption

/-- Reads a policy from a TOML value: one of the names that `ofName?` knows. -/
def MalformedOutput.ofToml? : Toml.Value → Option MalformedOutput := Toml.named? ofName?

/-- Reads a machine from the TOML value `v`. -/
def Architecture.ofToml? (v : Toml.Value) : Option Architecture := do
  match ← Toml.fields? ["kind", "config_path"] v with
  | [kind, configPath] =>
    return {
      kind := ← Toml.required? ArchitectureKind.ofToml? kind
      configPath := ← Toml.required? Toml.text? configPath }
  | _ => none

/-- Reads weights from the TOML value `v`. -/
def Weights.ofToml? (v : Toml.Value) : Option Weights := do
  match ← Toml.fields? ["gate", "shuttling"] v with
  | [gate, shuttling] =>
    return {
      gate := ← Toml.required? Toml.toFloat? gate
      shuttling := ← Toml.required? Toml.toFloat? shuttling }
  | _ => none

/-- Reads parameters from the TOML value `v`.  Those that are left out have their defaults. -/
def Parameters.ofToml? (v : Toml.Value) : Option Parameters := do
  let d : Parameters := {}
  match ← Toml.fields? ["lookahead_gate", "lookahead_shuttling", "decay", "shuttling_time_weight",
    "verbose"] v with
  | [lookaheadGate, lookaheadShuttling, decay, shuttlingTimeWeight, verbose] =>
    return {
      lookaheadGate := ← Toml.defaulted? d.lookaheadGate Toml.toFloat? lookaheadGate
      lookaheadShuttling := ← Toml.defaulted? d.lookaheadShuttling Toml.toFloat? lookaheadShuttling
      decay := ← Toml.defaulted? d.decay Toml.toFloat? decay
      shuttlingTimeWeight :=
        ← Toml.defaulted? d.shuttlingTimeWeight Toml.toFloat? shuttlingTimeWeight
      verbose := ← Toml.defaulted? d.verbose Toml.bool? verbose }
  | _ => none

namespace Settings

/-- The keys that a settings file may have, in the order of the fields of `Settings`. -/
def keys : List String :=
  ["binary", "input_dir", "output_dir", "architectures", "coordinate_mappings", "weights",
    "circuit_mapping", "parameters", "timeout_s", "grace_period_s", "results_path",
    "malformed_output", "report_layout", "no_progress"]

/-- Reads settings from the top-level table `t` of a document.  A key that is not among `keys` is
    refused. -/
def ofTable? (t : Toml.Table) : Option Settings := do
  let d : Settings := {}
  if t.all (fun (key, _) => keys.contains key) then
    return {
      binary := ← Toml.defaulted? d.binary Toml.text? (t.lookup "binary")
      inputDir := ← Toml.defaulted? d.inputDir Toml.text? (t.lookup "input_dir")
      outputDir := ← Toml.defaulted? d.outputDir Toml.text? (t.lookup "output_dir")
      architectures :=
        ← Toml.defaulted? d.architectures (Toml.list? Architecture.ofToml?)
          (t.lookup "architectures")
      coordinateMappings :=
        ← Toml.defaulted? d.coordinateMappings (Toml.list? CoordinateMapping.ofToml?)
          (t.lookup "coordinate_mappings")
      weights := ← Toml.defaulted? d.weights (Toml.list? Weights.ofToml?) (t.lookup "weights")
      circuitMapping := ← Toml.defaulted? d.circuitMapping Toml.text? (t.lookup "circuit_mapping")
      parameters := ← Toml.defaulted? d.parameters Parameters.ofToml? (t.lookup "parameters")
      timeout := ← Toml.defaulted? d.timeout Toml.count? (t.lookup "timeout_s")
      gracePeriod := ← Toml.defaulted? d.gracePeriod Toml.count? (t.lookup "grace_period_s")
      resultsPath :=
        ← Toml.defaulted? d.resultsPath (fun v => some <$> Toml.text? v) (t.lookup "results_path")
      malformedOutput :=
        ← Toml.defaulted? d.malformedOutput MalformedOutput.ofToml? (t.lookup "malformed_output")
      reportLayout :=
        ← Toml.defaulted? d.reportLayout Report.Layout.ofToml? (t.lookup "report_layout")
      noProgress := ← Toml.defaulted? d.noProgress Toml.bool? (t.lookup "no_progress") }
  else none

/-- What is said about a text that holds no settings. -/
def notTomlMessage : String := "Invalid sweep configuration"

/-- Reads settings from the text `cs` of a TOML document. -/
def ofToml? (cs : List Char) : Option Settings := (Toml.parse? cs).bind ofTable?

end Settings

end MapperSweep
