import MapperSweep.ToolOutput.Accumulator
import MapperSweep.Text.Lines

/-!
# The output of a run

The whole standard output of the mapping tool to the records in it.  The first faulty line makes
the whole output faulty, and a result that is not closed at the end is dropped.
-/

namespace MapperSweep.ToolOutput

/-- Feeds all lines to `a` and collects the results that they close, with the accumulator after the
    last line.  The first error ends it. -/
def collect (lead : List Char) (config : RunConfig) (a : Accumulator) :
    List (List Char) → Logged (Except Error (List Record × Accumulator))
  | [] => pure (.ok ([], a))
  | line :: lines =>
    let (next, fed) := a.feed lead config line
    fed.andThen fun
      | .error e => pure (.error e)
      | .ok closed =>
        (collect lead config next lines).andThen fun
          | .error e => pure (.error e)
          | .ok (records, last) => pure (.ok (closed.toList ++ records, last))

/-- The records in the `output` of the run `config`, which was given the circuits of `inputDir`.
    What is pending at the end makes no record, and is reported in the log. -/
def parse (inputDir : String) (config : RunConfig) (output : String) :
    Logged (Except Error (List Record)) :=
  (collect (lead inputDir) config {} (Text.lines output.toList)).andThen fun
    | .error e => pure (.error e)
    | .ok (records, last) =>
      { value := .ok records
        log := if last.hasPending then [.unterminatedResult config.runIndex] else [] }

end MapperSweep.ToolOutput
