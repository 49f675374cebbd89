/-!
# Names

Closed sets of names, and the error for a name outside its set.
-/

namespace MapperSweep

/-- What a name is a name of. -/
inductive Named where
  | architectureKind
  | coordinateMapping
  | reportLayout
deriving DecidableEq

/-- How messages call the set of names that `Named` stands for. -/
def Named.text : Named → String
  | .architectureKind => "architecture kind"
  | .coordinateMapping => "coordinate mapping"
  | .reportLayout => "report layout"

/-- The error that `name` is not among the names of `named`. -/
structure UnknownName where
  named : Named
  name : String
deriving DecidableEq

/-- The text of the error `e`. -/
def UnknownName.message (e : UnknownName) : String := "Unknown " ++ e.named.text ++ ": " ++ e.name

/-- The member of `all` whose `text` is `name`, or the error that there is none. -/
def findNamed (named : Named) (all : List α) (text : α → String) (name : String) :
    Except UnknownName α :=
  match all.find? (text · == name) with
  | some a => .ok a
  | none => .error { named, name }

end MapperSweep
