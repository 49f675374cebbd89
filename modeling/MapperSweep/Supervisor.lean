import MapperSweep.Log

/-!
# Watching over a run

One run of the mapping tool, from its start to the moment when it is over.  The supervisor waits for
what comes first: the end of the tool, the deadline or a request to stop.

* If the tool ends by itself, the ends of its two output streams are awaited until the deadline,
  because something that the tool started may still hold them open.
* At the deadline or on a request to stop, the tool is told to end.  It is killed if it is still
  there when the grace period is over, or cannot be told.

In every case the end of the tool is noticed before the run is over.

* `reactAll_append`   inputs that come in two portions
-/

namespace MapperSweep.Supervisor

/-- How the tool ended. -/
inductive ExitStatus where
  | code (n : Nat)
  | signal (n : Nat)
deriving DecidableEq

/-- The name of the signal `n`, if it is one of those that are told apart. -/
def signalName? (n : Nat) : Option String :=
  [(1, "SIGHUP"), (2, "SIGINT"), (3, "SIGQUIT"), (6, "SIGABRT"), (9, "SIGKILL"), (10, "SIGUSR1"),
    (12, "SIGUSR2"), (13, "SIGPIPE"), (14, "SIGALRM"), (15, "SIGTERM")].lookup n

/-- The text of a status in the log. -/
def ExitStatus.text : ExitStatus → String
  | .code n => s!"exit status: {n}"
  | .signal n =>
    match signalName? n with
    | some name => s!"signal: {n} ({name})"
    | none => s!"signal: {n}"

/-- The signal that tells a program to end. -/
def termSignal : Nat := 15

/-- The signal that ends a program without telling it. -/
def killSignal : Nat := 9

/-- The streams that the tool prints to. -/
inductive Stream where
  | stdout
  | stderr
deriving DecidableEq

/-- Which streams are at their end. -/
structure Ended where
  stdout : Bool := false
  stderr : Bool := false
deriving DecidableEq

/-- Takes in the end of a stream. -/
def Ended.add (e : Ended) : Stream → Ended
  | .stdout => { e with stdout := true }
  | .stderr => { e with stderr := true }

/-- Whether both streams are at their end. -/
def Ended.all (e : Ended) : Bool := e.stdout && e.stderr

/-- What can happen during a run. -/
inductive Input where
  /-- The tool has ended, and the supervisor takes notice of it. -/
  | exited (status : ExitStatus)
  | ended (s : Stream)
  | deadline
  | stopRequested
  /-- The tool cannot be told to end. -/
  | termRefused (cause : String)
  | graceOver
deriving DecidableEq

/-- Why the tool is told to end. -/
inductive Stop where
  | timedOut
  | cancelled
deriving DecidableEq

/-- How a run is over. -/
inductive Result where
  /-- The tool ended by itself, and all its output is there. -/
  | completed (status : ExitStatus)
  | stopped (why : Stop)
deriving DecidableEq

/-- How far a run is, as its supervisor sees it. -/
inductive Phase where
  | running (e : Ended)
  /-- The tool has ended and its output is awaited. -/
  | draining (status : ExitStatus) (e : Ended)
  /-- The tool was told to end. -/
  | terminating (why : Stop)
  /-- The tool was killed. -/
  | killing (why : Stop)
  | over (r : Result)
deriving DecidableEq

/-- The phase at the start of a run. -/
def Phase.start : Phase := .running {}

/-- The phase after the end of the tool with `status`, where `e` says whose end is still awaited. -/
def Phase.settle (status : ExitStatus) (e : Ended) : Phase :=
  if e.all then .over (.completed status) else .draining status e

/-- What is done to the tool. -/
inductive Action where
  | terminate
  | kill
deriving DecidableEq

/-- What happens on an input: the `next` phase, what is done to the tool, and what is logged. -/
structure Reaction where
  next : Phase
  actions : List Action := []
  log : List Event := []
deriving DecidableEq

/-- What the supervisor knows about its run beforehand. -/
structure Watch where
  run : UInt64
  timeout : Duration
  grace : Duration

/-- The reaction to the input `i` in the phase `p`.  What is not waited for in a phase has no effect
    in it. -/
def react (w : Watch) (p : Phase) (i : Input) : Reaction :=
  match p, i with
  | .running e, .exited status => { next := .settle status e }
  | .running e, .ended s => { next := .running (e.add s) }
  | .running _, .deadline =>
    { next := .terminating .timedOut, actions := [.terminate],
      log := [.deadlinePassed w.run w.timeout] }
  | .running _, .stopRequested => { next := .terminating .cancelled, actions := [.terminate] }
  | .draining status e, .ended s => { next := .settle status (e.add s) }
  | .draining _ _, .deadline =>
    { next := .over (.stopped .timedOut), log := [.outputStillOpen w.run w.timeout] }
  | .terminating why, .exited status =>
    { next := .over (.stopped why), log := [.endedByTerm status.text] }
  | .terminating why, .graceOver =>
    { next := .killing why, actions := [.kill], log := [.survivedTerm w.grace] }
  | .terminating why, .termRefused cause =>
    { next := .killing why, actions := [.kill], log := [.termNotSent cause] }
  | .killing why, .exited _ => { next := .over (.stopped why) }
  | p, _ => { next := p }

/-- The reaction to several inputs, one after the other, from the phase `p` on. -/
def reactAll (w : Watch) (p : Phase) : List Input → Reaction
  | [] => { next := p }
  | i :: inputs =>
    let r := react w p i
    let rest := reactAll w r.next inputs
    { next := rest.next, actions := r.actions ++ rest.actions, log := r.log ++ rest.log }

@[simp] theorem reactAll_nil (w : Watch) (p : Phase) : reactAll w p [] = { next := p } := rfl

/-- The reaction to inputs that come in two portions, `first` and `rest`. -/
theorem reactAll_append (w : Watch) (p : Phase) (first rest : List Input) :
    reactAll w p (first ++ rest) =
      { next := (reactAll w (reactAll w p first).next rest).next
        actions :=
          (reactAll w p first).actions ++ (reactAll w (reactAll w p first).next rest).actions
        log := (reactAll w p first).log ++ (reactAll w (reactAll w p first).next rest).log } := by
  induction first generalizing p with
  | nil => simp
  | cons i first ih => simp [reactAll, ih]

/-- No input does anything once a run is over. -/
@[simp] theorem react_over (w : Watch) (r : Result) (i : Input) :
    react w (.over r) i = { next := .over r } := by
  cases i <;> rfl

end MapperSweep.Supervisor
