import MapperSweep.Programs

/-!
# The command line

* `summarise` prints the summary of a results file.
* `architecture_sweep` and `mixed_hardware` with the options of a sweep print the calls of the
  mapping tool that the sweep makes, one per line, and start none of them.
-/

namespace MapperSweep.Main

/-- The `FileError` that a failed operation of the system stands for. -/
def fileError : IO.Error → FileError
  | .noFileOrDirectory .. => .notFound
  | .permissionDenied .. => .permissionDenied
  | .inappropriateType .. => .isADirectory
  | _ => .invalidInput

/-- The content of the file at `path`. -/
def readFile (path : String) : IO (Except FileError (List UInt8)) := do
  try return .ok (← IO.FS.readBinFile path).toList
  catch e => return .error (fileError e)

/-- The content of the file at `path` as text. -/
def readTextFile (path : String) : IO (Except FileError (List Char)) := do
  match ← readFile path with
  | .error e => return .error e
  | .ok bytes =>
    match Text.Utf8.decode? bytes with
    | some cs => return .ok cs
    | none => return .error .invalidData

/-- Prints the `messages` about an error, and gives the exit code. -/
def fail (messages : List String) : IO UInt32 := do
  match messages with
  | [] => pure ()
  | first :: causes =>
    IO.eprintln s!"Error: {first}"
    causes.forM fun cause => IO.eprintln s!"  caused by: {cause}"
  return 1

/-- Prints the summary of the results file that the variables of `Summariser` name. -/
def summarise : IO UInt32 := do
  match Summariser.layout (← IO.getEnv Summariser.layoutVariable) with
  | .error e => fail e.messages
  | .ok layout =>
    let path := (← IO.getEnv Summariser.resultsVariable).getD Summariser.defaultResultsPath
    match Summariser.summarise layout path (← readFile path) with
    | .error e => fail e.messages
    | .ok text =>
      IO.print (String.ofList text)
      return 0

/-- What is said about a command line that is not carried out. -/
def refusal : CommandLine.Refusal → String
  | .help => "Options: --config, --binary, --input-dir, --output-dir, --timeout-s, " ++
      "--grace-period-s, --results, --abort-on-malformed, --no-progress"
  | .unknownArgument => "Unknown argument"
  | .missingValue => "An option has no value"
  | .notCount => "A value is not a count"
  | .repeated => "An option is given twice"
  | .unwantedValue => "A flag has a value"

/-- Prints the calls of the mapping tool that the sweep `p` makes with the arguments `args`. -/
def plan (p : SweepProgram) (args : List String) : IO UInt32 := do
  match CommandLine.read args with
  | .error .help =>
    IO.println (refusal .help)
    return 0
  | .error e =>
    IO.eprintln (refusal e)
    return 2
  | .ok c =>
    let content ← match c.config with
      | some path => readTextFile path
      | none => pure (.ok [])
    match p.plan (fun _ => content) (← IO.getEnv ToolLookup.overrideVariable) c with
    | .error e => fail e.messages
    | .ok calls =>
      calls.forM fun call => IO.println call.text
      return 0

end MapperSweep.Main

/-- Runs the program that the first argument names. -/
def main (args : List String) : IO UInt32 :=
  match args with
  | "summarise" :: _ => MapperSweep.Main.summarise
  | "architecture_sweep" :: options => MapperSweep.Main.plan .architectureSweep options
  | "mixed_hardware" :: options => MapperSweep.Main.plan .mixedHardware options
  | _ => do
    IO.eprintln "Usage: summarise | architecture_sweep [options] | mixed_hardware [options]"
    return 2
