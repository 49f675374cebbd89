import MapperSweep.Numeral

/-!
# JSON values

Values as they are written: numbers are numerals and objects are lists of members, so nothing that
a reader might care about is lost.

A string literal can spell half of a surrogate pair, which is no character.  Such a literal is
well-formed but has no text; it is `none` where other strings have their text.
-/

namespace MapperSweep

/-- A JSON value. -/
inductive Json where
  | null
  | bool (b : Bool)
  | number (n : Numeral)
  | string (s : Option String)
  | array (items : List Json)
  | object (members : List (Option String × Json))

namespace Json

/-- The JSON string with the text `s`. -/
def text (s : String) : Json := .string (some s)

/-- The JSON object with the given `members`, in their order. -/
def ofMembers (members : List (String × Json)) : Json :=
  .object (members.map fun (key, value) => (some key, value))

end Json

end MapperSweep
