import MapperSweep.Json.Number
import MapperSweep.Json.Parser

/-!
# JSON values as typed data

Readers for the shapes that data can have.  A structure is an object with its fields as members in
any order, where members with other names are ignored, or an array of its fields in their order.
A name out of a closed set is a string, or an object whose only member is called by that name and
is `null`.
-/

namespace MapperSweep.Json

/-- Reads a value as a text. -/
def text? : Json → Option String
  | .string s => s
  | _ => none

/-- Reads a value as a truth value. -/
def bool? : Json → Option Bool
  | .bool b => some b
  | _ => none

/-- Reads a value as a real number, by `binary64?`. -/
def float? : Json → Option Binary64
  | .number n => binary64? n
  | _ => none

/-- Reads a value as a count, by `count?`. -/
def toCount? : Json → Option UInt64
  | .number n => count? n
  | _ => none

/-- Reads a value that may be absent, which `null` says, and otherwise by `read`. -/
def nullable? (read : Json → Option α) : Json → Option (Option α)
  | .null => some none
  | j => some <$> read j

/-- Reads a value as a list, and each of its items by `read`. -/
def list? (read : Json → Option α) : Json → Option (List α)
  | .array items => items.mapM read
  | _ => none

/-- Reads a value as a name out of the closed set that `ofName` knows: a string, or an object whose
    only key is the name and whose value is `null`. -/
def named? (ofName : String → Except ε α) : Json → Option α
  | .string (some s) => (ofName s).toOption
  | .object [(some s, .null)] => (ofName s).toOption
  | _ => none

/-- The values of the members with the given `names`.  Every key has to have a text, and none of the
    `names` may occur twice. -/
def members? (names : List String) (members : List (Option String × Json)) :
    Option (List (Option Json)) :=
  let keys := members.map (·.1)
  if keys.any (·.isNone) || names.any (fun name => 1 < keys.count (some name)) then none
  else some (names.map fun name => members.lookup (some name))

/-- The fields of a structure, each present or not: an object with members of the given `names`, or
    an array with just as many items. -/
def fields? (names : List String) : Json → Option (List (Option Json))
  | .object members => members? names members
  | .array items => if items.length = names.length then some (items.map some) else none
  | _ => none

/-- The same as `fields?` for a structure all of whose fields may be left out, in an array those at
    its end. -/
def optionalFields? (names : List String) : Json → Option (List (Option Json))
  | .object members => members? names members
  | .array items =>
    if items.length ≤ names.length then
      some (items.map some ++ List.replicate (names.length - items.length) none)
    else none
  | _ => none

/-- Reads a `field` that has to be there. -/
def required? (read : Json → Option α) (field : Option Json) : Option α := field.bind read

/-- Reads a field that has a `default` value. -/
def defaulted? (default : α) (read : Json → Option α) : Option Json → Option α
  | some j => read j
  | none => some default

end MapperSweep.Json
