import MapperSweep.Text.Find

/-!
# The text of paths

A path is a text with slashes.  Its *pieces* stand between the slashes.  Its *components* are the
pieces that lead somewhere: empty ones do not, nor does a dot, unless it comes first.
-/

namespace MapperSweep.PathText

/-- The pieces of `path` between its slashes. -/
def pieces (path : String) : List String := (Text.splitOnChar '/' path.toList).map String.ofList

/-- Whether `path` starts at the root. -/
def isAbsolute (path : String) : Bool := path.toList.head? == some '/'

/-- The components of `path`, the root apart: its `pieces` without the empty ones, and with a dot
    only if it stands first. -/
def components (path : String) : List String :=
  match pieces path with
  | "." :: rest => "." :: rest.filter (fun p => p != "" && p != ".")
  | all => all.filter (fun p => p != "" && p != ".")

/-- Whether `path` is the name of something and does not say where it is. -/
def isBareName (path : String) : Bool :=
  !isAbsolute path &&
    match components path with
    | [name] => name != "." && name != ".."
    | _ => false

/-- The path of `name` in the directory `dir`. -/
def join (dir name : String) : String :=
  if dir.isEmpty then name
  else if dir.toList.getLast? = some '/' then dir ++ name
  else dir ++ "/" ++ name

/-- The text of the absolute path with the components `names`. -/
def absolute (names : List String) : String := names.foldl (fun s name => s ++ "/" ++ name) ""

end MapperSweep.PathText
