import MapperSweep.Duration
import MapperSweep.Report.Layout

/-!
# Settings of a sweep

Everything that a sweep is run with, the defaults, and what makes settings useless.
-/

namespace MapperSweep

/-- What is done with a run whose output is malformed. -/
inductive MalformedOutput where
  /-- Its results are dropped and the sweep goes on. -/
  | skipRun
  /-- The sweep ends with an error. -/
  | abortSweep
deriving DecidableEq

namespace MalformedOutput

/-- The name of a policy in settings files. -/
def name : MalformedOutput → String
  | skipRun => "skip-run"
  | abortSweep => "abort-sweep"

/-- The policy that has the name `s`. -/
def ofName? (s : String) : Option MalformedOutput := [skipRun, abortSweep].find? (·.name == s)

end MalformedOutput

/-- The settings of a sweep.  Paths are handed on as they are, and they are text here: a path that
    is not Unicode, which the command line could give, is left out. -/
structure Settings where
  binary : String := "./NaMain"
  inputDir : String := "circuits"
  outputDir : String := "output"
  architectures : List Architecture :=
    [⟨.gate, "architectures/rubidium_gate.json"⟩,
      ⟨.shuttling, "architectures/rubidium_shuttling.json"⟩,
      ⟨.hybrid, "architectures/rubidium_hybrid.json"⟩]
  coordinateMappings : List CoordinateMapping := CoordinateMapping.all
  weights : List Weights := [⟨.ofNat 1, .ofNat 1⟩]
  circuitMapping : String := "identity"
  parameters : Parameters := {}
  /-- The time limit of a run, in seconds. -/
  timeout : UInt64 := 10000
  /-- How long a run that is told to end may take for it, in seconds. -/
  gracePeriod : UInt64 := 5
  /-- The file that results are added to. -/
  resultsPath : Option String := none
  malformedOutput : MalformedOutput := .skipRun
  reportLayout : Report.Layout := .gateBased
  noProgress : Bool := false
deriving DecidableEq

namespace Settings

/-- Why `validate` refuses settings. -/
inductive Invalid where
  | noArchitectures
  | noCoordinateMappings
  | noWeights
  | noTime
deriving DecidableEq

/-- The text of the error. -/
def Invalid.message : Invalid → String
  | noArchitectures => "No architectures configured"
  | noCoordinateMappings => "No coordinate mappings configured"
  | noWeights => "No weight pair with a non-zero weight configured"
  | noTime => "The run timeout must be at least one second"

/-- Refuses settings `s` that cannot give a single run.  The first reason counts. -/
def validate (s : Settings) : Except Invalid Unit :=
  if s.architectures.isEmpty then .error .noArchitectures
  else if s.coordinateMappings.isEmpty then .error .noCoordinateMappings
  else if s.weights.all Weights.isDegenerate then .error .noWeights
  else if s.timeout = 0 then .error .noTime
  else .ok ()

/-- The time limit of a run, which `timeout` gives in seconds. -/
def timeLimit (s : Settings) : Duration := .ofSeconds s.timeout.toNat

/-- How long a run that is told to end may take for it, which `gracePeriod` gives in seconds. -/
def grace (s : Settings) : Duration := .ofSeconds s.gracePeriod.toNat

end Settings

end MapperSweep
