import MapperSweep.Binary64.Basic

/-!
# TOML values

The data of a TOML document as a tree of tables.
-/

namespace MapperSweep.Toml

/-- A value of a TOML document.  Of a date or time only its presence is kept, because no setting
    takes one. -/
inductive Value where
  | string (s : String)
  | integer (z : Int)
  | float (x : Binary64)
  | bool (b : Bool)
  | datetime
  | array (items : List Value)
  | table (entries : List (String × Value))

/-- The entries of a table: its keys with the `Value` of each. -/
abbrev Table := List (String × Value)

/-- A line of a document that says something, its keys split at the dots; `build?` takes them in. -/
inductive Statement where
  /-- A header in single brackets. -/
  | openTable (path : List String)
  /-- A header in double brackets. -/
  | openArray (path : List String)
  /-- A key with its value. -/
  | assign (path : List String) (v : Value)

end MapperSweep.Toml
