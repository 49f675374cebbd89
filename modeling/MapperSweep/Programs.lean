import MapperSweep.Sweep

/-!
# The programs

Two sweeps, and a program that prints the summary of a results file.

The variables that the last one reads are given as it sees them: `none` stands for a variable that
is not set, and as well for one whose value is not Unicode.
-/

namespace MapperSweep

namespace Definition

/-- The choices of the sweep that compares the three kinds of rubidium machines under every
    coordinate mapping. -/
def architectureSweepChoices : List Choice :=
  [.inputDir "circuits", .outputDir "output",
    .architectures
      [⟨.gate, "architectures/rubidium_gate.json"⟩,
        ⟨.shuttling, "architectures/rubidium_shuttling.json"⟩,
        ⟨.hybrid, "architectures/rubidium_hybrid.json"⟩],
    .coordinateMappings [.trivial, .random, .graph], .weights [⟨.ofNat 1, .ofNat 1⟩],
    .reportLayout .gateBased, .timestampedResults]

/-- The choices of the sweep over mixed hardware. -/
def mixedHardwareChoices : List Choice :=
  [.inputDir "benchmarks", .outputDir "output_circuit/mixedHW/0.99_1",
    .architectures [⟨.hybrid, "json/rubidium_mixed.json"⟩], .coordinateMappings [.trivial],
    .weights [⟨.ofDecimal false 99 (-2), .ofNat 1⟩], .reportLayout .czCount, .timestampedResults]

end Definition

/-- A sweep that comes as a program of its own. -/
inductive SweepProgram where
  | architectureSweep
  | mixedHardware
deriving DecidableEq

namespace SweepProgram

/-- The name of a program, which is that of its sweep. -/
def name : SweepProgram → String
  | architectureSweep => "architecture_sweep"
  | mixedHardware => "mixed_hardware"

/-- The choices that define the sweep of a program. -/
def choices : SweepProgram → List Choice
  | architectureSweep => Definition.architectureSweepChoices
  | mixedHardware => Definition.mixedHardwareChoices

/-- The definition of the sweep `p` for the command line `c`, unless a choice cannot be made. -/
def definition? (p : SweepProgram) (c : CommandLine) : Option Definition :=
  ({ name := p.name, commandLine := c } : Definition).chooseAll p.choices

end SweepProgram

/-- What a program leaves behind: its exit `code`, what it has printed, and the files. -/
structure ProgramResult where
  code : Nat
  stdout : List Char := []
  /-- What is said about an error, the widest context first. -/
  messages : List String := []
  workspace : Workspace

/-- The exit code of a program that gives up where a clock overflows. -/
def overflowCode : Nat := 101

/-- Runs the sweep program `p` with the arguments `args`. -/
def SweepProgram.run (p : SweepProgram) (env : Sweep.Environment) (args : List String) :
    ProgramResult :=
  match CommandLine.read args with
  | .error .help => { code := 0, workspace := env.workspace }
  | .error _ => { code := 2, workspace := env.workspace }
  | .ok c =>
    match p.definition? c with
    | none => { code := overflowCode, workspace := env.workspace }
    | some d =>
      let swept := (Sweep.run env d).value
      let stdout := swept.output
      let workspace := swept.workspace
      match swept.result with
      | .ok _ => { code := 0, stdout, workspace }
      | .error .deadlineOverflow => { code := overflowCode, stdout, workspace }
      | .error e => { code := 1, stdout, messages := e.messages, workspace }

/-- The calls of the tool that the sweep program `p` makes if nothing stops it, in order. -/
def SweepProgram.plan (p : SweepProgram) (readText : String → Except FileError (List Char))
    (toolOverride : Option String) (c : CommandLine) : Except SweepError (List Invocation) :=
  match p.definition? c with
  | none => .error .deadlineOverflow
  | some d =>
    match (d.build readText "").value with
    | .error e => .error (.definition e)
    | .ok s =>
      .ok ((Grid.ofSettings s).configs.map (Sweep.invocation s (toolOverride.getD s.binary)))

namespace Summariser

/-- The variable that names the results file. -/
def resultsVariable : String := "SWEEP_RESULTS_PATH"

/-- The results file if `resultsVariable` is not set. -/
def defaultResultsPath : String := "sweep_results.jsonl"

/-- The variable that names the layout of the report. -/
def layoutVariable : String := "REPORT_LAYOUT"

/-- Why `Summariser.run` gives no summary. -/
inductive Error where
  | layout (cause : UnknownName)
  | unreadable (path : String) (cause : FileError)
  | malformed (path : String) (cause : Record.LoadError)
deriving DecidableEq

/-- What is said about an error of `Summariser.run`, the widest context first. -/
def Error.messages : Error → List String
  | .layout e => [s!"Invalid {layoutVariable}", e.message]
  | .unreadable path _ => [s!"Failed to load results from {path}"]
  | .malformed path _ => [s!"Failed to load results from {path}"]

/-- The layout with the name `name?`, which is the one for gates if there is no name. -/
def layout (name? : Option String) : Except Error Report.Layout :=
  match name? with
  | none => .ok .gateBased
  | some name => (Report.Layout.ofName name).mapError .layout

/-- The summary of the `content` of the results file at `path`. -/
def summarise (l : Report.Layout) (path : String) (content : Except FileError (List UInt8)) :
    Except Error (List Char) := do
  let bytes ← content.mapError (.unreadable path)
  let records ← (Record.load bytes).mapError (.malformed path)
  return Report.summary l (rank records) ++ ['\n']

/-- The summary that is asked for by the values of `resultsVariable` and `layoutVariable`. -/
def run (w : Workspace) (resultsPath layoutName : Option String) : Except Error (List Char) := do
  let l ← layout layoutName
  let path := resultsPath.getD defaultResultsPath
  summarise l path (w.read path)

/-- Runs the program that prints a summary again. -/
def program (w : Workspace) (resultsPath layoutName : Option String) : ProgramResult :=
  match run w resultsPath layoutName with
  | .ok stdout => { code := 0, stdout, workspace := w }
  | .error e => { code := 1, messages := e.messages, workspace := w }

end Summariser

end MapperSweep
