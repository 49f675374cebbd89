import MapperSweep.Duration
import MapperSweep.ToolOutput.Line

/-!
# The log

Everything that is logged, as one type, with the level and the text of each entry.  A computation
that logs returns a `Logged` value: its result, and the entries in the order in which they arose.
-/

namespace MapperSweep

/-- How important a log entry is. -/
inductive Level where
  | error
  | warn
  | info
  | debug
  | trace
deriving DecidableEq

/-- The name of a `Level` in the log. -/
def Level.name : Level → String
  | .error => "error"
  | .warn => "warn"
  | .info => "info"
  | .debug => "debug"
  | .trace => "trace"

/-- What can be logged.  The `level` and the `message` of each entry are given below. -/
inductive Event where
  | loadingSettings (path : String)
  | sweepStarted (name : String)
  | sweepSize (runs : Nat)
  | searchingForTool (name : String)
  | stoppingBefore (run : UInt64)
  | runStarted (run : UInt64) (commandLine : String)
  | deadlinePassed (run : UInt64) (timeout : Duration)
  | outputStillOpen (run : UInt64) (timeout : Duration)
  | endedByTerm (status : String)
  | survivedTerm (grace : Duration)
  | termNotSent (cause : String)
  | runCancelled (run : UInt64)
  | runTimedOut (run : UInt64)
  | runFailed (run : UInt64) (code : Int) (complaint : String)
  | runSignalled (run : UInt64) (complaint : String)
  | failedOutput (run : UInt64) (output : String)
  | unnamedResult (run : UInt64) (lineNo : Nat)
  | unterminatedResult (run : UInt64)
  | runProduced (run : UInt64) (results : Nat)
  | runDiscarded (run : UInt64) (cause : ToolOutput.Error)
  | progressCleared
  | resultsWritten (results : Nat) (path : String)
  | unrankedResult (benchmark : String) (run : UInt64)
  | shutdownRepeated
deriving DecidableEq

namespace Event

/-- The level of a log entry. -/
def level : Event → Level
  | runFailed .. | runSignalled .. | runDiscarded .. => .error
  | outputStillOpen .. | survivedTerm _ | termNotSent _ | runCancelled _ | runTimedOut _
  | unnamedResult .. | unrankedResult .. => .warn
  | loadingSettings _ | sweepStarted _ | sweepSize _ | stoppingBefore _ | runStarted ..
  | runProduced .. | resultsWritten .. => .info
  | searchingForTool _ | deadlinePassed .. | endedByTerm _ | failedOutput .. | unterminatedResult _
  | shutdownRepeated => .debug
  | progressCleared => .trace

/-- The text of a log entry. -/
def message : Event → String
  | loadingSettings path => s!"Loading sweep configuration from {path}"
  | sweepStarted name => s!"Running sweep: {name}"
  | sweepSize runs => s!"Sweep has {runs} runs"
  | searchingForTool name => s!"'{name}' is not a path so looking in user's 'PATH'"
  | stoppingBefore run => s!"Stopping sweep before run {run}"
  | runStarted run commandLine => s!"Run {run}: {commandLine}"
  | deadlinePassed run timeout => s!"Run {run} exceeded {timeout.text}, terminating"
  | outputStillOpen run timeout =>
    s!"Output of run {run} was still open when {timeout.text} had passed"
  | endedByTerm status => s!"Mapping tool exited after SIGTERM with {status}"
  | survivedTerm grace => s!"Mapping tool did not exit within {grace.text} of SIGTERM, killing it"
  | termNotSent cause => s!"Failed to send SIGTERM to the mapping tool: {cause}"
  | runCancelled run => s!"Run {run} cancelled"
  | runTimedOut run => s!"Run {run} timed out"
  | runFailed run code complaint => s!"Run {run} failed with exit code {code}: {complaint}"
  | runSignalled run complaint => s!"Run {run} was terminated by a signal: {complaint}"
  | failedOutput run output => s!"Output of failed run {run}:\n{output}"
  | unnamedResult run lineNo =>
    s!"Run {run} closed a result on line {lineNo} without naming the benchmark"
  | unterminatedResult run =>
    s!"Discarding unterminated result at the end of the output of run {run}"
  | runProduced run results => s!"Run {run} produced {results} results"
  | runDiscarded run cause => s!"Discarding all results of run {run}: {cause.message}"
  | progressCleared => "Clearing progress bar"
  | resultsWritten results path => s!"Wrote {results} results to {path}"
  | unrankedResult benchmark run =>
    s!"Result for {benchmark} from run {run} has no fidelity, it will be ranked last"
  | shutdownRepeated => "Shutdown already requested"

end Event

/-- A `value`, with all that was logged on the way to it. -/
structure Logged (α : Type u) where
  value : α
  log : List Event := []

namespace Logged

/-- Goes on from the value of `x` with `f`, and keeps both logs. -/
def andThen (x : Logged α) (f : α → Logged β) : Logged β :=
  let y := f x.value
  { value := y.value, log := x.log ++ y.log }

instance : Monad Logged where
  pure a := { value := a }
  bind := andThen

/-- Logs the one entry `e`. -/
def write (e : Event) : Logged Unit := { value := (), log := [e] }

@[simp] theorem value_pure (a : α) : (pure a : Logged α).value = a := rfl

@[simp] theorem value_bind (x : Logged α) (f : α → Logged β) :
    (x >>= f).value = (f x.value).value := rfl

@[simp] theorem value_map (f : α → β) (x : Logged α) : (f <$> x).value = f x.value := rfl

end Logged

end MapperSweep
