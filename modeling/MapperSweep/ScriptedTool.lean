import MapperSweep.Execution

/-!
# A mapping tool that follows a script

For rehearsals of a sweep: a tool that prints what its script says and then ends as it says.
-/

namespace MapperSweep

/-- How a scripted tool ends. -/
inductive ScriptEnd where
  | exit (code : Nat)
  | signal (n : Nat)
  /-- It does not end by itself. -/
  | hang
  /-- It ends at once, and something that it started holds its output open. -/
  | holdOutput
  /-- It asks for the end of the sweep and goes on. -/
  | interrupt
deriving DecidableEq

/-- The script of a tool: what it prints, and how it ends. -/
structure Script where
  /-- Whether it prints its arguments first, one per line. -/
  echoArgs : Bool := false
  stdout : List UInt8 := []
  stderr : List UInt8 := []
  ending : ScriptEnd := .exit 0
  /-- Whether it ignores being told to end. -/
  ignoresTerm : Bool := false

namespace Script

/-- What the supervisor gets to know once the tool was told to end. -/
def afterTerm (s : Script) : List Supervisor.Input :=
  if s.ignoresTerm then [.graceOver, .exited (.signal Supervisor.killSignal)]
  else [.exited (.signal Supervisor.termSignal)]

/-- What the supervisor gets to know of a tool with the script `s`, in order. -/
def inputs (s : Script) : List Supervisor.Input :=
  match s.ending with
  | .exit code => [.exited (.code (code % 256)), .ended .stdout, .ended .stderr]
  | .signal n => [.exited (.signal n), .ended .stdout, .ended .stderr]
  | .hang => .deadline :: s.afterTerm
  | .holdOutput => [.exited (.code 0), .deadline]
  | .interrupt => .stopRequested :: s.afterTerm

/-- The arguments of the call `i`, one per line. -/
def echo (i : Invocation) : List UInt8 :=
  i.args.flatMap fun arg => Text.Utf8.encode (arg.toList ++ ['\n'])

/-- The course of a run of the tool with the script `s`.  A request to stop that was there before
    comes first. -/
def course (s : Script) (stopRequested : Bool) (i : Invocation) : Course where
  stdout := (if s.echoArgs then echo i else []) ++ s.stdout
  stderr := s.stderr
  inputs := if stopRequested then .stopRequested :: s.afterTerm else s.inputs
  stopRequested := stopRequested || s.ending == .interrupt

end Script

end MapperSweep
