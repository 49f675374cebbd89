import MapperSweep.CommandLine
import MapperSweep.Log
import MapperSweep.Settings.Toml
import MapperSweep.Workspace

/-!
# Definitions of sweeps

A program defines a sweep by a list of choices over the default settings.  A settings file that is
named on the command line takes the place of all of these choices, and the values of the command
line go over either.  Results go to a file with a time stamp in its name if the program asks for it
and nothing else names a file.
-/

namespace MapperSweep

/-- A choice that the program which defines a sweep makes before `Definition.build`. -/
inductive Choice where
  | binary (path : String)
  | inputDir (path : String)
  | outputDir (path : String)
  | architectures (all : List Architecture)
  | coordinateMappings (all : List CoordinateMapping)
  | weights (all : List Weights)
  | circuitMapping (name : String)
  | parameters (p : Parameters)
  | timeout (d : Duration)
  | reportLayout (l : Report.Layout)
  | malformedOutput (m : MalformedOutput)
  | resultsPath (path : String)
  | timestampedResults
deriving DecidableEq

/-- The span `d` in whole seconds, rounded up, if a 64-bit count holds them. -/
def Duration.wholeSeconds? (d : Duration) : Option UInt64 :=
  let n := (d.nanoseconds + (second - 1)) / second
  if n < UInt64.size then some (UInt64.ofNat n) else none

/-- A sweep as a program defines it: the `settings` that it chooses, and the `commandLine` over
    them. -/
structure Definition where
  name : String
  commandLine : CommandLine := {}
  settings : Settings := {}
  timestamped : Bool := false

namespace Definition

/-- Makes a choice.  A time limit that `Duration.wholeSeconds?` cannot count cannot be chosen. -/
def choose (d : Definition) : Choice → Option Definition
  | .binary path => some { d with settings.binary := path }
  | .inputDir path => some { d with settings.inputDir := path }
  | .outputDir path => some { d with settings.outputDir := path }
  | .architectures all => some { d with settings.architectures := all }
  | .coordinateMappings all => some { d with settings.coordinateMappings := all }
  | .weights all => some { d with settings.weights := all }
  | .circuitMapping name => some { d with settings.circuitMapping := name }
  | .parameters p => some { d with settings.parameters := p }
  | .timeout span => span.wholeSeconds?.map fun n => { d with settings.timeout := n }
  | .reportLayout l => some { d with settings.reportLayout := l }
  | .malformedOutput m => some { d with settings.malformedOutput := m }
  | .resultsPath path => some { d with settings.resultsPath := some path }
  | .timestampedResults => some { d with timestamped := true }

/-- Makes the `choices`, one after the other. -/
def chooseAll (d : Definition) (choices : List Choice) : Option Definition :=
  choices.foldlM choose d

/-- Why `build` does not give the settings of a sweep. -/
inductive Error where
  | unreadableFile (path : String) (cause : FileError)
  | malformedFile (path : String)
  | invalid (cause : Settings.Invalid)
deriving DecidableEq

/-- The settings to start from: those of the file that the command line names, or the chosen ones.
    `readText` gives the content of files. -/
def base (d : Definition) (readText : String → Except FileError (List Char)) :
    Logged (Except Error Settings) :=
  match d.commandLine.config with
  | none => pure (.ok d.settings)
  | some path =>
    { value := match readText path with
        | .error e => .error (.unreadableFile path e)
        | .ok cs =>
          match Settings.ofToml? cs with
          | some s => .ok s
          | none => .error (.malformedFile path)
      log := [.loadingSettings path] }

/-- The path of a results file with a time stamp, for the sweep called `name`. -/
def timestampedPath (name timestamp : String) : String := name ++ "-" ++ timestamp ++ ".jsonl"

/-- The settings that `d` gives if it starts from `s`: the command line is put over them, and a
    results file with a time stamp is chosen if one is wanted and none is named. -/
def complete (d : Definition) (timestamp : String) (s : Settings) : Settings :=
  let s := d.commandLine.apply s
  if s.resultsPath.isNone && d.timestamped then
    { s with resultsPath := some (timestampedPath d.name timestamp) }
  else s

/-- The settings of the sweep `d`, which are completed from its `base` and then validated. -/
def build (d : Definition) (readText : String → Except FileError (List Char)) (timestamp : String) :
    Logged (Except Error Settings) := do
  match ← d.base readText with
  | .error e => return .error e
  | .ok s =>
    let s := d.complete timestamp s
    match s.validate with
    | .error e => return .error (.invalid e)
    | .ok () => return .ok s

end Definition

end MapperSweep
