import MapperSweep.Invocation
import MapperSweep.Outcome
import MapperSweep.Supervisor
import MapperSweep.Workspace

/-!
# Executing a run

A run is executed by starting the mapping tool and watching over it.  What the tool does once it was
started is its *course*: what it prints, and what happens in which order.

The system is taken to do its part.  There is no `Execution` for a tool that was started and cannot
be waited for or killed, nor for output that cannot be read.
-/

namespace MapperSweep

/-- What happens after the start of the tool: what it prints, and the `inputs` that its supervisor
    gets. -/
structure Course where
  stdout : List UInt8 := []
  stderr : List UInt8 := []
  inputs : List Supervisor.Input
  /-- Whether the sweep was asked to stop by the time the run is over. -/
  stopRequested : Bool := false

/-- What came of a run, of which `execute` tells. -/
inductive Execution where
  | done (o : Outcome)
  | notStarted (program : String) (cause : FileError)
  /-- The run was stopped because the sweep was asked to stop. -/
  | cancelled
  /-- The deadline lies beyond what the clock can count. -/
  | deadlineOverflow
  /-- The course is over before the run is. -/
  | unfinished
deriving DecidableEq

/-- What is said about a program that cannot be started. -/
def notStartedMessage (program : String) : String := s!"Failed to start {program}"

/-- What is said about a run that was stopped because the sweep was asked to stop. -/
def cancelledMessage : String := "Run cancelled by shutdown signal"

/-- The limits of a run: when it is told to end, and how long it may take for that. -/
structure Limits where
  timeout : Duration
  grace : Duration

/-- Whether the clock, which counts seconds in 63 bits, reaches the deadline of a run that starts
    when it shows `clock`. -/
def Limits.deadlineFits (l : Limits) (clock : Duration) : Bool :=
  clock.nanoseconds + l.timeout.nanoseconds < 0x8000000000000000 * Duration.second

/-- The outcome of a run that ended by itself with `status`, and with what `c` says it has
    printed. -/
def Course.outcome (c : Course) (status : Supervisor.ExitStatus) : Outcome :=
  let stdout := String.ofList (Text.Utf8.decode c.stdout)
  let stderr := String.ofList (Text.Utf8.decode c.stderr)
  match status with
  | .code 0 => .success stdout
  | .code n => .failed (some n) stdout stderr
  | .signal _ => .failed none stdout stderr

/-- What came of a run that was started, if its supervisor has come to the phase `p`. -/
def Course.execution (c : Course) (p : Supervisor.Phase) : Execution :=
  match p with
  | .over (.completed status) => .done (c.outcome status)
  | .over (.stopped .timedOut) => .done .timedOut
  | .over (.stopped .cancelled) => .cancelled
  | _ => .unfinished

/-- Executes the run with number `run`, which is the call `i`.  The tool takes the given `course` if
    it can be started, and `clock` is what the clock shows by then. -/
def execute (limits : Limits) (clock : Duration) (w : Workspace) (run : UInt64) (i : Invocation)
    (course : Course) : Logged Execution := do
  Logged.write (.runStarted run i.text)
  match w.start i.program i.args with
  | .error e => return .notStarted i.program e
  | .ok () =>
    if limits.deadlineFits clock then
      let watch : Supervisor.Watch := { run, timeout := limits.timeout, grace := limits.grace }
      let reaction := Supervisor.reactAll watch .start course.inputs
      { value := course.execution reaction.next, log := reaction.log }
    else return .deadlineOverflow

end MapperSweep
