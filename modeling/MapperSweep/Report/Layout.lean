import MapperSweep.Binary64.Writing
import MapperSweep.Record

/-!
# Report layouts

The columns of the report.  The layouts differ in the three columns of counts.
-/

namespace MapperSweep.Report

/-- Which counts the report shows. -/
inductive Layout where
  | gateBased
  | czCount
deriving DecidableEq

namespace Layout

/-- All layouts, in the order in which `Layout` declares them. -/
def all : List Layout := [gateBased, czCount]

/-- The name of a layout in settings and in `REPORT_LAYOUT`; `ofName` reads it back. -/
def name : Layout → String
  | gateBased => "gate-based"
  | czCount => "cz-count"

/-- The layout that has the given `name`, or the error that there is none. -/
def ofName : String → Except UnknownName Layout := findNamed .reportLayout all name

end Layout

/-- The layout of numbers: positional from `10 ^ -4` to below `10 ^ 16`, with a point in every
    positional numeral and no plus sign. -/
def numberStyle : Binary64.Style where
  lowest := some (-4)
  highest := some 15
  wholePoint := true
  plus := false
  tie := .up

/-- The text of the number `x` in the report. -/
def float (x : Binary64) : List Char := x.text numberStyle

/-- The text of a number that may be absent, which is empty then. -/
def optionalFloat : Option Binary64 → List Char
  | some x => float x
  | none => []

/-- The text of the count `n` in the report. -/
def count (n : UInt64) : List Char := digits n.toNat

/-- The text of a count that may be absent, which is empty then. -/
def optionalCount : Option UInt64 → List Char
  | some n => count n
  | none => []

/-- A column of the report: its `label`, its `width` and its `value` for a record. -/
structure Column where
  label : String
  width : Nat
  value : Record → List Char

/-- A column of counts, which shows the given `metric`. -/
def countColumn (label : String) (metric : Metrics → Option UInt64) : Column :=
  { label, width := 8, value := fun r => optionalCount (metric r.metrics) }

/-- The columns of counts that are shown in a layout. -/
def Layout.counts : Layout → List Column
  | gateBased =>
    [countColumn "nSwaps" (·.swaps), countColumn "nBridges" (·.bridges),
      countColumn "nMoves" (·.moves)]
  | czCount =>
    [countColumn "nCZs" (·.czCount), countColumn "nSwaps" (·.swaps),
      countColumn "nMoves" (·.moves)]

/-- The columns of `layout`, by section. -/
def Layout.sections (layout : Layout) : List (List Column) :=
  [[{ label := "benchmark", width := 50, value := fun r => r.benchmark.toList }],
    [{ label := "g s h", width := 5, value := fun r => r.architecture.flag.toList },
      { label := "t r g", width := 5, value := fun r => r.coordinateMapping.flag.toList },
      { label := "index", width := 5, value := fun r => count r.runIndex },
      { label := "gateW", width := 6, value := fun r => float r.weights.gate },
      { label := "shutW", width := 6, value := fun r => float r.weights.shuttling }],
    layout.counts,
    [{ label := "ExecTime", width := 10, value := fun r => optionalFloat r.metrics.executionTime },
      { label := "Fidelity", width := 12, value := fun r => optionalFloat r.metrics.fidelity }],
    [{ label := "runtime[ms]", width := 12, value := fun r => optionalCount r.metrics.runtimeMs }]]

end MapperSweep.Report
