import MapperSweep.Settings
import MapperSweep.ToolOutput.Parser

/-!
# Outcomes of runs

How a run of the mapping tool ended, and the records that it contributes to the sweep.  Only a
successful run contributes any, whatever the others printed before they ended.
-/

namespace MapperSweep

/-- How a run ended. -/
inductive Outcome where
  | success (stdout : String)
  /-- A signal ended the tool if there is no code. -/
  | failed (code : Option Int) (stdout stderr : String)
  | timedOut
deriving DecidableEq

/-- The text `s` without the blanks at its ends. -/
def trimmed (s : String) : String := String.ofList (Text.trim s.toList)

/-- The records that the run `config` contributes.  The error is that of malformed output, if the
    `policy` is to abort the sweep for it. -/
def Outcome.records (policy : MalformedOutput) (inputDir : String) (config : RunConfig) :
    Outcome → Logged (Except ToolOutput.Error (List Record))
  | .success stdout =>
    (ToolOutput.parse inputDir config stdout).andThen fun
      | .ok records =>
        { value := .ok records, log := [.runProduced config.runIndex records.length] }
      | .error e =>
        match policy with
        | .skipRun => { value := .ok [], log := [.runDiscarded config.runIndex e] }
        | .abortSweep => pure (.error e)
  | .failed code stdout stderr =>
    { value := .ok []
      log :=
        [match code with
          | some n => .runFailed config.runIndex n (trimmed stderr)
          | none => .runSignalled config.runIndex (trimmed stderr),
          .failedOutput config.runIndex stdout] }
  | .timedOut => { value := .ok [], log := [.runTimedOut config.runIndex] }

end MapperSweep
