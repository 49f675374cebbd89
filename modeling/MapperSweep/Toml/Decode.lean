import MapperSweep.Binary64.Rounding
import MapperSweep.Toml.Basic

/-!
# TOML values as typed data

Readers for the shapes that data can have.  A structure is a table with its fields as entries, where
entries with other keys are ignored, or an array that starts with its fields in their order; a date
or time counts as a structure that has none of the fields asked for.  A name out of a closed set is
a string, or a table whose only entry is called by that name and is empty.
-/

namespace MapperSweep.Toml

/-- The text of `.string s`; no other value is a text. -/
def text? : Value → Option String
  | .string s => some s
  | _ => none

/-- The truth value of `.bool b`; no other value is one. -/
def bool? : Value → Option Bool
  | .bool b => some b
  | _ => none

/-- A real number, which may be written as a whole one: `.integer z` is read as `Binary64.ofInt
    z`. -/
def toFloat? : Value → Option Binary64
  | .float x => some x
  | .integer z => some (.ofInt z)
  | _ => none

/-- A count: `.integer z` where `z` is not negative. -/
def count? : Value → Option UInt64
  | .integer z => if 0 ≤ z then some (UInt64.ofNat z.toNat) else none
  | _ => none

/-- `list? read` reads every item of an array with `read`; no other value is a list. -/
def list? (read : Value → Option α) : Value → Option (List α)
  | .array items => items.mapM read
  | _ => none

/-- `isHollow v` holds of an array or a table with nothing in it. -/
def isHollow : Value → Bool
  | .array [] => true
  | .table [] => true
  | _ => false

/-- `named? ofName` reads a name out of a closed set, the one that `ofName` knows.  The name may
    also be the only key of a table, with nothing in it. -/
def named? (ofName : String → Option α) : Value → Option α
  | .string s => ofName s
  | .table [(s, v)] => if isHollow v then ofName s else none
  | _ => none

/-- The fields of a structure, in the order of `names`, each present or not.  A table gives them by
    key and an array by place; `.datetime` has none of them. -/
def fields? (names : List String) : Value → Option (List (Option Value))
  | .table entries => some (names.map (entries.lookup ·))
  | .array items => some ((List.range names.length).map (items[·]?))
  | .datetime => some (names.map fun _ => none)
  | _ => none

/-- `required? read` reads a field that has to be there. -/
def required? (read : Value → Option α) (field : Option Value) : Option α := field.bind read

/-- `defaulted? default read` reads a field that is `default` where it is not given. -/
def defaulted? (default : α) (read : Value → Option α) : Option Value → Option α
  | some v => read v
  | none => some default

end MapperSweep.Toml
