import MapperSweep.ToolOutput.Metric
import MapperSweep.Binary64.Reading
import MapperSweep.Text.Find
import MapperSweep.Text.Quoted
import MapperSweep.Text.Whitespace

/-!
# One line of tool output

What a line says does not depend on the lines before it.  A line either names the benchmark that is
mapped next, or holds a measurement, or the runtime that closes a result, or nothing of interest.
It is the first of these that fits, and only then its value is read.
-/

namespace MapperSweep.ToolOutput

/-- The marker of a line that carries a number, that of a `Metric` or that of the runtime. -/
inductive Marker where
  | metric (m : Metric)
  | runtime
deriving DecidableEq

/-- The text that marks a line, see `Marker.marks`. -/
def Marker.text : Marker → String
  | .metric m => m.marker
  | .runtime => "* runtime"

/-- The kinds of numbers that a line can carry; a `Fault` names the one that is missing. -/
inductive NumberKind where
  | integer
  | float
deriving DecidableEq

/-- The name of a kind of number in an `Error.message`. -/
def NumberKind.name : NumberKind → String
  | .integer => "integer"
  | .float => "float"

/-- What is wrong with a line that has a `Marker`. -/
inductive Fault where
  | missingSeparator (line : String)
  | malformedNumber (value : String) (expected : NumberKind)
deriving DecidableEq

/-- A faulty line of the output of a run: its number, its `marker` and what is wrong with it. -/
structure Error where
  /-- The number of the line, from 1. -/
  lineNo : Nat
  marker : Marker
  fault : Fault
deriving DecidableEq

/-- `s` in double quotes with nothing invisible in it, see `Text.quoted`. -/
def quote (s : String) : String := String.ofList (Text.quoted s.toList)

/-- The text of `e`: the number of the line, its marker and the `fault`. -/
def Error.message (e : Error) : String :=
  "line " ++ toString e.lineNo ++ ": `" ++ e.marker.text ++
    match e.fault with
    | .missingSeparator line => "` line has no `:` separator: " ++ quote line
    | .malformedNumber value expected =>
      "` value " ++ quote value ++ " is not a valid " ++ expected.name

/-- What a line says, as `readLine` gives it. -/
inductive Line where
  | benchmark (name : String)
  | reading (r : Reading)
  | runtime (ms : UInt64)
  | noise
deriving DecidableEq

/-- The start of the lines that name a benchmark of `inputDir`. -/
def lead (inputDir : String) : List Char :=
  "Mapping ".toList ++ Text.dropTrailing '/' inputDir.toList ++ ['/']

/-- The benchmark in `path`, the rest of a line after `lead`: the text up to the extension of
    circuit files. -/
def benchmarkName (path : List Char) : String := String.ofList (Text.upTo ".qasm".toList path)

/-- `m.marks line` holds if the text of `m` occurs in `line`. -/
def Marker.marks (line : List Char) (m : Marker) : Bool := Text.contains m.text.toList line

/-- The markers, in the order in which `readLine` searches a line for them. -/
def Marker.all : List Marker := Metric.all.map .metric ++ [.runtime]

/-- The value of a `line` that has a marker: what `read` makes of the trimmed text after the last
    colon, which should be an `expected` number. -/
def readValue (read : List Char → Option α) (expected : NumberKind) (line : List Char) :
    Except Fault α :=
  match Text.afterLast? ':' line with
  | none => .error (.missingSeparator (String.ofList line))
  | some rest =>
    let value := Text.trim rest
    match read value with
    | some x => .ok x
    | none => .error (.malformedNumber (String.ofList value) expected)

/-- Reads the number of a `line` that has the given marker, see `readValue`. -/
def readMarked (line : List Char) : Marker → Except Fault Line
  | .metric (.count c) => (readValue readCount? .integer line).map (.reading <| .count c ·)
  | .metric (.measure m) => (readValue Binary64.ofText? .float line).map (.reading <| .measure m ·)
  | .runtime => (readValue readCount? .integer line).map .runtime

/-- Reads a `line`, which names a benchmark if it starts with `lead`.  An error comes with the
    marker that called for a number. -/
def readLine (lead line : List Char) : Except (Marker × Fault) Line :=
  match Text.stripStart? lead line with
  | some path => .ok (.benchmark (benchmarkName path))
  | none =>
    match Marker.all.find? (·.marks line) with
    | some m => (readMarked line m).mapError (m, ·)
    | none => .ok .noise

end MapperSweep.ToolOutput
