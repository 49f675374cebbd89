import MapperSweep.Json.Decode
import MapperSweep.Report.Layout

/-!
# Report layouts as JSON
-/

namespace MapperSweep.Report.Layout

/-- The layout `l` as JSON: its name. -/
def toJson (l : Layout) : Json := .text l.name

/-- Reads a layout, the inverse of `toJson`. -/
def ofJson? : Json → Option Layout := Json.named? ofName

end MapperSweep.Report.Layout
