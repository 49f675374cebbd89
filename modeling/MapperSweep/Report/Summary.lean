import MapperSweep.Ranking
import MapperSweep.Report.BoxTable
import MapperSweep.Report.FixedWidth

/-!
# The summary of a sweep

The report of all records, followed by a table of the best record of each benchmark.
-/

namespace MapperSweep.Report

/-- The heads of the columns of `bestTable?`. -/
def bestHeads : List (List Char) :=
  ["Benchmark".toList, "Architecture".toList, "Mapping".toList, "Run".toList, "gateW".toList,
    "shutW".toList, "Fidelity".toList, "Runtime [ms]".toList]

/-- The cells of the record `r` in `bestTable?`. -/
def bestCells (r : Record) : List (List Char) :=
  [r.benchmark.toList, r.architecture.name.toList, r.coordinateMapping.name.toList,
    count r.runIndex, float r.weights.gate, float r.weights.shuttling,
    optionalFloat r.metrics.fidelity, optionalCount r.metrics.runtimeMs]

/-- The table of the best record of each group in `gs`, if there is any record. -/
def bestTable? (gs : List Group) : Option (List Char) :=
  match bestPerGroup gs with
  | [] => none
  | best => some (BoxTable.render (bestHeads :: best.map bestCells))

/-- The report on the groups `gs` in `layout`, and the table of best records. -/
def summary (layout : Layout) (gs : List Group) : List Char :=
  render layout gs ++
    match bestTable? gs with
    | some table => "\nBest run per benchmark\n".toList ++ table ++ ['\n']
    | none => []

end MapperSweep.Report
