import MapperSweep.Text.Find
import MapperSweep.Text.Width

/-!
# Boxed tables

A table drawn with box characters, with a rule between all rows and one blank on either side of
every cell.  Cells are aligned to the left.  A cell with line feeds takes several lines, and a
column is as wide on the screen as its widest line.
-/

namespace MapperSweep.Report.BoxTable

/-- The lines of `cell`. -/
def cellLines (cell : List Char) : List (List Char) := Text.splitOnChar '\n' cell

/-- The width of `cell`: that of its widest line. -/
def cellWidth (cell : List Char) : Nat := ((cellLines cell).map Text.width).foldl max 0

/-- The widths of the columns of the table with the given `rows`. -/
def columnWidths : (rows : List (List (List Char))) → List Nat
  | [] => []
  | [row] => row.map cellWidth
  | row :: rows => List.zipWith max (row.map cellWidth) (columnWidths rows)

/-- A rule for columns of the given `widths`, with the characters at its left end, between columns
    and at its right end. -/
def rule (left middle right : Char) (widths : List Nat) : List Char :=
  left :: [middle].intercalate (widths.map fun w => List.replicate (w + 2) '─') ++ [right]

/-- One line `cs` of a cell, filled up to the `width` of its column. -/
def cellLine (width : Nat) (cs : List Char) : List Char :=
  ' ' :: cs ++ List.replicate (width - Text.width cs) ' ' ++ [' ']

/-- The lines of `row`.  Cells with fewer lines than others are empty below them. -/
def rowLines (widths : List Nat) (row : List (List Char)) : List (List Char) :=
  let cells := row.map cellLines
  let height := (cells.map List.length).foldl max 0
  (List.range height).map fun i =>
    let parts := List.zipWith (fun w cell => cellLine w (cell.getD i [])) widths cells
    '│' :: ['│'].intercalate parts ++ ['│']

/-- A table with the given `rows`, without a line feed at its end. -/
def render (rows : List (List (List Char))) : List Char :=
  let widths := columnWidths rows
  let between := rule '├' '┼' '┤' widths
  let body := [between].intercalate (rows.map (rowLines widths))
  ['\n'].intercalate (rule '┌' '┬' '┐' widths :: body ++ [rule '└' '┴' '┘' widths])

end MapperSweep.Report.BoxTable
