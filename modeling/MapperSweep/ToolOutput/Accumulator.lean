import MapperSweep.Log

/-!
# Collecting results line by line

A result is spread over several lines and closed by its runtime.  The accumulator holds what was
read since the last closed result, and counts the lines.

* `feed_of_error`   a faulty line is counted and changes nothing else
-/

namespace MapperSweep.ToolOutput

/-- The result that is being collected: what the lines since the last `Record` said. -/
structure Accumulator where
  benchmark : Option String := none
  metrics : Metrics := {}
  /-- How many lines were fed. -/
  lineNo : Nat := 0
deriving DecidableEq

/-- The benchmark of a `Record` whose lines name none. -/
def unnamedBenchmark : String := "<unnamed>"

namespace Accumulator

/-- `a.hasPending` holds if anything was collected since the last closed result. -/
def hasPending (a : Accumulator) : Bool := a.benchmark.isSome || !a.metrics.isEmpty

/-- `a.take config line` takes in what one line says.  The runtime closes a result of the run
    `config`, and `a` begins anew. -/
def take (config : RunConfig) (a : Accumulator) : Line → Accumulator × Logged (Option Record)
  | .benchmark name => ({ a with benchmark := some name }, pure none)
  | .reading r => ({ a with metrics := a.metrics.set r }, pure none)
  | .noise => (a, pure none)
  | .runtime ms =>
    let record benchmark := some (.ofRun config benchmark { a.metrics with runtimeMs := some ms })
    ({ lineNo := a.lineNo },
      match a.benchmark with
      | some name => pure (record name)
      | none =>
        { value := record unnamedBenchmark, log := [.unnamedResult config.runIndex a.lineNo] })

/-- Feeds the next line of the output of a run whose benchmarks are announced with `lead`.  The
    answer is the result that the line closes, if any. -/
def feed (lead : List Char) (config : RunConfig) (a : Accumulator) (line : List Char) :
    Accumulator × Logged (Except Error (Option Record)) :=
  let a := { a with lineNo := a.lineNo + 1 }
  match readLine lead line with
  | .ok content =>
    let (next, closed) := a.take config content
    (next, .ok <$> closed)
  | .error (marker, fault) => (a, pure (.error { lineNo := a.lineNo, marker, fault }))

theorem feed_of_error {lead : List Char} {config : RunConfig} {a : Accumulator} {line : List Char}
    {e : Marker × Fault} (h : readLine lead line = .error e) :
    (a.feed lead config line).1 = { a with lineNo := a.lineNo + 1 } := by
  simp [feed, h]

end Accumulator

end MapperSweep.ToolOutput
