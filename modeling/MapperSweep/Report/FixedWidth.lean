import MapperSweep.Report.Layout

/-!
# The fixed-width report

One row per record under a row of labels.  A text that is shorter than its column is padded on the
right, and a longer one pushes the rest of its row to the right: nothing is cut off.  Lengths are
numbers of characters.
-/

namespace MapperSweep.Report

/-- The text `cs` filled up with blanks to `width` characters. -/
def padRight (width : Nat) (cs : List Char) : List Char :=
  cs ++ List.replicate (width - cs.length) ' '

/-- The text `cs` in the middle of a line of dashes.  An odd dash is on the right. -/
def centred (width : Nat) (cs : List Char) : List Char :=
  let fill := width - cs.length
  List.replicate (fill / 2) '-' ++ cs ++ List.replicate (fill - fill / 2) '-'

/-- The cells of one section of `columns`, side by side. -/
def sectionText (cell : Column → List Char) (columns : List Column) : List Char :=
  " | ".toList.intercalate (columns.map fun c => padRight c.width (cell c))

/-- A row of the report in the given `layout`, where `cell` gives the text of each cell. -/
def row (layout : Layout) (cell : Column → List Char) : List Char :=
  "| ".toList ++ " || ".toList.intercalate (layout.sections.map (sectionText cell)) ++ " |".toList

/-- The row of labels of `layout`. -/
def labelRow (layout : Layout) : List Char := row layout (·.label.toList)

/-- The row of the record `r` in `layout`. -/
def recordRow (layout : Layout) (r : Record) : List Char := row layout (·.value r)

/-- The lines of the report on the groups `gs`: a title, the labels, a rule, the records and a
    rule. -/
def reportLines (layout : Layout) (gs : List Group) : List (List Char) :=
  let labels := labelRow layout
  let rule := List.replicate labels.length '-'
  centred labels.length " Result ".toList :: labels :: rule ::
    (gs.flatMap (·.records)).map (recordRow layout) ++ [rule]

/-- The report on the groups `gs`, every line with its line feed. -/
def render (layout : Layout) (gs : List Group) : List Char :=
  (reportLines layout gs).flatMap (· ++ ['\n'])

end MapperSweep.Report
