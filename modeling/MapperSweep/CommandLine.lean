import MapperSweep.Numeral
import MapperSweep.Settings
import MapperSweep.Text.Find

/-!
# The command line of a sweep

Options with a value, `--name value` or `--name=value`, and flags, `--name`.  Each may be given
once.  An option without an attached value takes the next argument, if that does not start with a
dash or is nothing but a dash.

Arguments are looked at from left to right and the first complaint wins, with one exception: an
option with a value of its own argument is only judged when the next option begins or the arguments
end, so an argument that nobody knows comes first.
-/

namespace MapperSweep

/-- The values given on a command line.  What was not given is `none` or `false`. -/
structure CommandLine where
  config : Option String := none
  binary : Option String := none
  inputDir : Option String := none
  outputDir : Option String := none
  timeout : Option UInt64 := none
  gracePeriod : Option UInt64 := none
  results : Option String := none
  abortOnMalformed : Bool := false
  noProgress : Bool := false
deriving DecidableEq

namespace CommandLine

/-- Why a command line is not carried out. -/
inductive Refusal where
  /-- The user asked for help. -/
  | help
  | unknownArgument
  /-- An option without a value, or with an empty path. -/
  | missingValue
  /-- A value that is not a count. -/
  | notCount
  /-- The same option twice. -/
  | repeated
  /-- A flag with a value. -/
  | unwantedValue
deriving DecidableEq

/-- The options that take a value, such as `--timeout-s`. -/
inductive Key where
  | config
  | binary
  | inputDir
  | outputDir
  | timeout
  | gracePeriod
  | results
deriving DecidableEq

/-- The options without a value, such as `--no-progress`. -/
inductive Flag where
  | abortOnMalformed
  | noProgress
  | help
deriving DecidableEq

/-- An option: a `Key` with its value, or a `Flag`. -/
inductive Switch where
  | key (k : Key)
  | flag (f : Flag)
deriving DecidableEq

/-- The option with the given `name`, in which the leading dashes are left out. -/
def Switch.ofName? (name : List Char) : Option Switch :=
  [("config", key .config), ("binary", key .binary), ("input-dir", key .inputDir),
    ("output-dir", key .outputDir), ("timeout-s", key .timeout),
    ("grace-period-s", key .gracePeriod), ("results", key .results),
    ("abort-on-malformed", flag .abortOnMalformed), ("no-progress", flag .noProgress),
    ("help", flag .help)].lookup (String.ofList name)

/-- Takes `value` as a path, which must not be empty. -/
def path (value : List Char) : Except Refusal String :=
  if value.isEmpty then .error .missingValue else .ok (String.ofList value)

/-- Takes `value` as a count of seconds that 64 bits hold. -/
def seconds (value : List Char) : Except Refusal UInt64 :=
  match readCount? value with
  | some n => .ok n
  | none => .error .notCount

/-- Whether `c` has a value for an option already. -/
def has (c : CommandLine) : Key → Bool
  | .config => c.config.isSome
  | .binary => c.binary.isSome
  | .inputDir => c.inputDir.isSome
  | .outputDir => c.outputDir.isSome
  | .timeout => c.timeout.isSome
  | .gracePeriod => c.gracePeriod.isSome
  | .results => c.results.isSome

/-- Gives `value` to the option `k`, if it is a value for `k`. -/
def setValue (c : CommandLine) (k : Key) (value : List Char) : Except Refusal CommandLine :=
  match k with
  | .config => do return { c with config := some (← path value) }
  | .binary => do return { c with binary := some (← path value) }
  | .inputDir => do return { c with inputDir := some (← path value) }
  | .outputDir => do return { c with outputDir := some (← path value) }
  | .timeout => do return { c with timeout := some (← seconds value) }
  | .gracePeriod => do return { c with gracePeriod := some (← seconds value) }
  | .results => do return { c with results := some (← path value) }

/-- An option that was begun: `value` is absent as long as it is awaited. -/
structure Pending where
  key : Key
  value : Option (List Char)

/-- Takes in the option that was begun, if any.  It must have a value, and must not have been given
    before. -/
def settle (c : CommandLine) : Option Pending → Except Refusal CommandLine
  | none => .ok c
  | some ⟨_, none⟩ => .error .missingValue
  | some ⟨k, some value⟩ => if c.has k then .error .repeated else c.setValue k value

/-- Takes in a flag, which must not have been given before.  Help is a `Refusal` of its own. -/
def setFlag (c : CommandLine) : Flag → Except Refusal CommandLine
  | .abortOnMalformed =>
    if c.abortOnMalformed then .error .repeated else .ok { c with abortOnMalformed := true }
  | .noProgress => if c.noProgress then .error .repeated else .ok { c with noProgress := true }
  | .help => .error .help

/-- The name and the value of the long option `cs`, whose leading dashes are left out. -/
def splitValue (cs : List Char) : List Char × Option (List Char) :=
  match Text.splitAt? ['='] cs with
  | some (name, value) => (name, some value)
  | none => (cs, none)

/-- What an argument is. -/
inductive Argument where
  /-- Two dashes: all that follows is no option. -/
  | rest
  /-- A long option, perhaps with a value. -/
  | long (name : List Char) (value : Option (List Char))
  /-- Letters after one dash. -/
  | short (letters : List Char)
  | plain (text : List Char)

/-- Tells what an argument is by its leading dashes. -/
def Argument.ofText : List Char → Argument
  | ['-', '-'] => .rest
  | '-' :: '-' :: cs => let (name, value) := splitValue cs; .long name value
  | '-' :: c :: cs => .short (c :: cs)
  | cs => .plain cs

/-- Reads arguments from left to right into `c`, where `pending` is the option that was begun. -/
def readFrom (c : CommandLine) (pending : Option Pending) :
    List (List Char) → Except Refusal CommandLine
  | [] => c.settle pending
  | arg :: args =>
    match Argument.ofText arg with
    | .rest =>
      if args.isEmpty then c.settle pending else .error .unknownArgument
    | .long name value =>
      match Switch.ofName? name with
      | none => .error .unknownArgument
      | some (.flag f) =>
        if value.isSome then .error .unwantedValue
        else do
          let c ← c.settle pending
          let c ← c.setFlag f
          readFrom c none args
      | some (.key k) => do
        let c ← c.settle pending
        match value with
        | none => readFrom c (some ⟨k, none⟩) args
        | some text =>
          let c ← c.settle (some ⟨k, some text⟩)
          readFrom c none args
    | .short letters =>
      if letters.head? = some 'h' then do
        let _ ← c.settle pending
        .error .help
      else .error .unknownArgument
    | .plain text =>
      match pending with
      | some ⟨k, none⟩ => readFrom c (some ⟨k, some text⟩) args
      | _ => .error .unknownArgument

/-- Reads the arguments `args` of a sweep, or gives the first reason to refuse them. -/
def read (args : List String) : Except Refusal CommandLine :=
  readFrom {} none (args.map String.toList)

/-- Puts the values of the command line `c` over the settings `s`. -/
def apply (c : CommandLine) (s : Settings) : Settings :=
  { s with
    binary := c.binary.getD s.binary
    inputDir := c.inputDir.getD s.inputDir
    outputDir := c.outputDir.getD s.outputDir
    timeout := c.timeout.getD s.timeout
    gracePeriod := c.gracePeriod.getD s.gracePeriod
    resultsPath := c.results.orElse fun _ => s.resultsPath
    malformedOutput := if c.abortOnMalformed then .abortSweep else s.malformedOutput
    noProgress := c.noProgress || s.noProgress }

end CommandLine

end MapperSweep
