import MapperSweep.Record.Json
import MapperSweep.Text.Lines
import MapperSweep.Text.Utf8
import MapperSweep.Text.Whitespace

/-!
# Files of records

A file holds one record per line, as JSON.  Blank lines are skipped on loading.
-/

namespace MapperSweep.Record

/-- Why `load` cannot load a file of records. -/
inductive LoadError where
  /-- A line is not UTF-8. -/
  | notText
  /-- A line is not the JSON of a record. -/
  | notRecord
deriving DecidableEq

/-- The line of the record `r`, with its line feed. -/
def line (r : Record) : List Char := r.toJson.print ++ ['\n']

/-- The text of a file with the records `rs`. -/
def store (rs : List Record) : List Char := rs.flatMap line

/-- The record on the line `bytes`, if the line is not blank. -/
def loadLine (bytes : List UInt8) : Except LoadError (Option Record) :=
  match Text.Utf8.decode? bytes with
  | none => .error .notText
  | some cs =>
    if Text.isBlankText cs then .ok none
    else match (Json.parse? cs).bind ofJson? with
      | some r => .ok (some r)
      | none => .error .notRecord

/-- The records of a list of lines.  The first faulty line ends the loading. -/
def loadLines : List (List UInt8) → Except LoadError (List Record)
  | [] => .ok []
  | bytes :: rest => do
    let r ← loadLine bytes
    let rs ← loadLines rest
    return r.toList ++ rs

/-- The records of a file with the content `bytes`. -/
def load (bytes : List UInt8) : Except LoadError (List Record) := loadLines (Text.byteLines bytes)

end MapperSweep.Record
