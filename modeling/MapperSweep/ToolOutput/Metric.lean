import MapperSweep.Record

/-!
# Metrics and their markers

The labels under which the mapping tool prints its measurements, and where each of them is kept.
-/

namespace MapperSweep.ToolOutput

/-- The measurements that are counts; `Reading.count` gives one its value. -/
inductive Count where
  | czCount
  | bridges
  | swaps
  | moves
deriving DecidableEq

/-- The measurements that are real numbers; `Reading.measure` gives one its value. -/
inductive Measure where
  | gateFidelity
  | executionTime
  | fidelity
  | idleTime
deriving DecidableEq

/-- A measurement of the mapping tool, a `Count` or a `Measure`. -/
inductive Metric where
  | count (c : Count)
  | measure (m : Measure)
deriving DecidableEq

/-- A `Metric` with its value. -/
inductive Reading where
  | count (c : Count) (n : UInt64)
  | measure (m : Measure) (x : Binary64)
deriving DecidableEq

/-- What was measured, without the value. -/
def Reading.metric : Reading → Metric
  | .count c _ => .count c
  | .measure m _ => .measure m

/-- All measurements, in the order in which a line is searched for their `Metric.marker`.  A longer
    marker stands before one that is a part of it. -/
def Metric.all : List Metric :=
  [.measure .gateFidelity, .measure .executionTime, .measure .fidelity, .measure .idleTime,
    .count .czCount, .count .bridges, .count .swaps, .count .moves]

/-- The text by which a line is known to hold a measurement. -/
def Metric.marker : Metric → String
  | .measure .gateFidelity => "totalGateFidelities"
  | .measure .executionTime => "totalExecutionTimes"
  | .measure .fidelity => "totalFidelities"
  | .measure .idleTime => "totalIdleTime"
  | .count .czCount => "totalnCZs"
  | .count .bridges => "nBridges"
  | .count .swaps => "nSwaps"
  | .count .moves => "nMoves"

end MapperSweep.ToolOutput

namespace MapperSweep

open ToolOutput

/-- `m.set r` keeps the reading `r`; an earlier reading of the same measurement is forgotten. -/
def Metrics.set (m : Metrics) : Reading → Metrics
  | .count .czCount n => { m with czCount := some n }
  | .count .bridges n => { m with bridges := some n }
  | .count .swaps n => { m with swaps := some n }
  | .count .moves n => { m with moves := some n }
  | .measure .gateFidelity x => { m with gateFidelity := some x }
  | .measure .executionTime x => { m with executionTime := some x }
  | .measure .fidelity x => { m with fidelity := some x }
  | .measure .idleTime x => { m with idleTime := some x }

end MapperSweep
