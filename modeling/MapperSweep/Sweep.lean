import MapperSweep.Definition
import MapperSweep.Execution
import MapperSweep.Grid
import MapperSweep.Ranking
import MapperSweep.Record.Store
import MapperSweep.Report.Summary
import MapperSweep.ToolLookup

/-!
# Sweeps

A sweep runs the mapping tool for every point of its grid, one after the other.  It then adds the
records to the results file, if there is one, and prints the summary.  When it is asked to stop, it
gives up the run in progress and all that follow, and still exports and prints what it has.

The request is noticed by a task of its own, which prints a notice.  The notice may come before or
after what the sweep prints, but always before the sweep returns.

The system is taken to do its part, beyond what `FileError` tells apart: a `SweepError` for a
runtime that cannot be set up, or for a tool that was started and cannot be waited for, is left out.
-/

namespace MapperSweep

/-- Why `run` ends without a summary. -/
inductive SweepError where
  | definition (cause : Definition.Error)
  | tool (cause : ToolLookup.Error)
  | notStarted (run : UInt64) (program : String) (cause : FileError)
  | malformedOutput (run : UInt64) (cause : ToolOutput.Error)
  | resultsNotWritten (path : String) (cause : FileError)
  | deadlineOverflow
  | unfinished (run : UInt64)
deriving DecidableEq

/-- The innermost reason of an error, where it is not said in words of this program. -/
inductive Cause where
  | file (e : FileError)
  | notToml
  | notInPath
  | output (e : ToolOutput.Error)
deriving DecidableEq

namespace SweepError

/-- What is said about an error, the widest context first. -/
def messages : SweepError → List String
  | .definition (.unreadableFile path _) => [s!"Failed to read sweep configuration {path}"]
  | .definition (.malformedFile path) =>
    [s!"Failed to load sweep configuration {path}", Settings.notTomlMessage]
  | .definition (.invalid e) => [e.message]
  | .tool e => [e.message]
  | .notStarted run program _ =>
    [s!"Run {run} could not be executed", notStartedMessage program]
  | .malformedOutput run e => [s!"Malformed output from run {run}", e.message]
  | .resultsNotWritten path _ => [s!"Failed to write results to {path}"]
  | .deadlineOverflow => ["The deadline lies beyond what the clock can count"]
  | .unfinished run => [s!"Run {run} did not end"]

/-- The innermost reason of an error, if it is a `Cause`. -/
def cause? : SweepError → Option Cause
  | .definition (.unreadableFile _ e) => some (.file e)
  | .definition (.malformedFile _) => some .notToml
  | .definition (.invalid _) => none
  | .tool (.notInPath _) => some .notInPath
  | .tool _ => none
  | .notStarted _ _ e => some (.file e)
  | .malformedOutput _ e => some (.output e)
  | .resultsNotWritten _ e => some (.file e)
  | .deadlineOverflow => none
  | .unfinished _ => none

end SweepError

namespace Sweep

/-- What a sweep depends on beside its definition.  The search path is text, and so are all paths in
    the settings. -/
structure Environment where
  workspace : Workspace
  /-- The bytes of the variable that names a tool in the place of the configured one, if it is
      set. -/
  toolVariable : Option (List UInt8) := none
  searchPath : Option String := none
  /-- The time stamp for results files. -/
  timestamp : String := ""
  /-- Whether the sweep is asked to stop before its first run. -/
  stopRequested : Bool := false
  /-- Whether the sweep is asked to stop after its last run, which keeps it from nothing. -/
  requestedLate : Bool := false
  /-- How many pieces are printed before the notice, if the sweep is asked to stop. -/
  noticePlace : Nat := 0
  /-- What the clock shows when the tool has been started for a run. -/
  clock : RunConfig → Duration := fun _ => .ofSeconds 0
  /-- What the tool does when it is started. -/
  course : RunConfig → Invocation → Course

/-- What comes of the loop over the runs. -/
structure Tour where
  result : Except SweepError (List Record)
  /-- Whether the sweep was asked to stop by the time the loop is over. -/
  asked : Bool

/-- The tour `t` with `records` before those that it has. -/
def Tour.prepend (records : List Record) (t : Tour) : Tour :=
  { t with result := t.result.map (records ++ ·) }

/-- Goes through the runs in order and collects the records that they contribute.  `attempt` tells
    what came of a run, and `stopped` whether the sweep was asked to stop by then. -/
def runAll (attempt : RunConfig → Logged Execution) (stopped : RunConfig → Bool)
    (contribute : RunConfig → Outcome → Logged (Except ToolOutput.Error (List Record))) :
    (stop : Bool) → List RunConfig → Logged Tour
  | stop, [] => pure { result := .ok [], asked := stop }
  | true, c :: _ =>
    { value := { result := .ok [], asked := true }, log := [.stoppingBefore c.runIndex] }
  | false, c :: cs =>
    let failed (e : SweepError) : Logged Tour := pure { result := .error e, asked := stopped c }
    (attempt c).andThen fun
      | .cancelled =>
        { value := { result := .ok [], asked := true }, log := [.runCancelled c.runIndex] }
      | .notStarted program e => failed (.notStarted c.runIndex program e)
      | .deadlineOverflow => failed .deadlineOverflow
      | .unfinished => failed (.unfinished c.runIndex)
      | .done o =>
        (contribute c o).andThen fun
          | .error e => failed (.malformedOutput c.runIndex e)
          | .ok records =>
            Tour.prepend records <$> runAll attempt stopped contribute (stopped c) cs

/-- The call of the `tool` for the run `c`. -/
def invocation (s : Settings) (tool : String) (c : RunConfig) : Invocation :=
  .ofRun tool s.inputDir s.outputDir c

/-- The limits that the settings `s` put on every run. -/
def limits (s : Settings) : Limits := { timeout := s.timeLimit, grace := s.grace }

/-- What comes of the run `c` in the surroundings `env`. -/
def attempt (env : Environment) (s : Settings) (tool : String) (c : RunConfig) : Logged Execution :=
  let i := invocation s tool c
  execute (limits s) (env.clock c) env.workspace c.runIndex i (env.course c i)

/-- Whether the sweep was asked to stop by the time the run `c` is over. -/
def stopped (env : Environment) (s : Settings) (tool : String) (c : RunConfig) : Bool :=
  (env.course c (invocation s tool c)).stopRequested

/-- What comes of all runs of the grid that the settings `s` span. -/
def collect (env : Environment) (s : Settings) (tool : String) : Logged Tour := do
  let grid := Grid.ofSettings s
  Logged.write (.sweepSize grid.size)
  let contribute c (o : Outcome) := o.records s.malformedOutput s.inputDir c
  let tour ← runAll (attempt env s tool) (stopped env s tool) contribute env.stopRequested
    grid.configs
  if !s.noProgress then Logged.write .progressCleared
  return tour

/-- A piece of what a sweep prints.  A piece is printed at once, so that no other gets into it. -/
inductive Print where
  /-- The notice that the sweep was asked to stop. -/
  | notice
  /-- A part of the records, which are written bit by bit. -/
  | stored (c : Char)
  /-- The summary, on lines of its own. -/
  | report (summary : List Char)
deriving DecidableEq

/-- The line that says that the sweep was asked to stop. -/
def noticeText : List Char := "Received shutdown signal, stopping the sweep...\n".toList

/-- The characters of a piece, with its line feed. -/
def Print.text : Print → List Char
  | .notice => noticeText
  | .stored c => [c]
  | .report summary => summary ++ ['\n']

/-- Adds `records` to the results file, if there is one.  Beside the files, this gives what is
    printed in case that the results file is the standard output. -/
def exportRecords (w : Workspace) (s : Settings) (records : List Record) :
    Logged (Except SweepError (Workspace × List Print)) :=
  match s.resultsPath with
  | none => pure (.ok (w, []))
  | some path =>
    let text := Record.store records
    if w.printsTo path then
      { value := .ok (w, text.map .stored), log := [.resultsWritten records.length path] }
    else match w.append path (Text.Utf8.encode text) with
      | .error e => pure (.error (.resultsNotWritten path e))
      | .ok w => { value := .ok (w, []), log := [.resultsWritten records.length path] }

/-- What a sweep leaves behind: what it returns, what it has printed, and the files. -/
structure Completion where
  result : Except SweepError (List Group)
  stdout : List Print := []
  workspace : Workspace

namespace Completion

/-- All that was printed, as one text. -/
def output (c : Completion) : List Char := c.stdout.flatMap Print.text

/-- The texts of the pieces of `stdout` that are reports. -/
def reports (c : Completion) : List (List Char) :=
  c.stdout.filterMap fun
    | .report summary => some (Print.report summary).text
    | _ => none

/-- Puts the notice behind the first `place` pieces if the sweep was asked to stop. -/
def announce (c : Completion) (asked : Bool) (place : Nat) : Completion :=
  if asked then { c with stdout := c.stdout.take place ++ .notice :: c.stdout.drop place } else c

end Completion

/-- Exports `records`, and prints their summary.  Nothing is printed if they cannot be exported. -/
def conclude (w : Workspace) (s : Settings) (records : List Record) : Logged Completion := do
  match ← exportRecords w s records with
  | .error e => return { result := .error e, workspace := w }
  | .ok (workspace, printed) =>
    let groups ← rankLogged records
    return {
      result := .ok groups
      stdout := printed ++ [.report (Report.summary s.reportLayout groups)]
      workspace }

/-- How a sweep ends, given what `runAll` returns, and without the notice. -/
def ending (w : Workspace) (s : Settings) : Except SweepError (List Record) → Logged Completion
  | .error e => pure { result := .error e, workspace := w }
  | .ok records => conclude w s records

/-- Runs the sweep `d` in the surroundings `env`. -/
def run (env : Environment) (d : Definition) : Logged Completion := do
  match ← d.build env.workspace.readText env.timestamp with
  | .error e => return { result := .error (.definition e), workspace := env.workspace }
  | .ok s =>
    Logged.write (.sweepStarted d.name)
    match ← ToolLookup.toolPath env.workspace env.toolVariable env.searchPath s.binary with
    | .error e => return { result := .error (.tool e), workspace := env.workspace }
    | .ok tool =>
      let tour ← collect env s tool
      let completion ← ending env.workspace s tour.result
      return completion.announce (tour.asked || env.requestedLate) env.noticePlace

end Sweep

end MapperSweep
