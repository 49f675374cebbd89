import MapperSweep.PathText
import MapperSweep.Text.Utf8

/-!
# Files

The files that a sweep can see: what stands at each location, where a location is the list of names
that leads to it from the root.  A path is followed piece by piece, and each piece is looked for in
a directory that has to be there.

* `get?_set_self`, `get?_set_of_ne`   a change at one location is seen there and nowhere else
-/

namespace MapperSweep

/-- What can go wrong with a file of a `Workspace`. -/
inductive FileError where
  | notFound
  | permissionDenied
  | notADirectory
  | isADirectory
  /-- The content is not UTF-8. -/
  | invalidData
  /-- The name has a NUL in it. -/
  | invalidInput
deriving DecidableEq

/-- The place of a file or directory: the names on the way from the root, which is `[]`. -/
abbrev Location := List String

/-- What stands at a `Location`. -/
inductive Entry where
  | directory
  | file (executable : Bool) (content : List UInt8)
deriving DecidableEq

/-- All files and directories, and the working directory `home`. -/
structure Workspace where
  home : Location
  entries : List (Location × Entry)
  /-- The files that are the standard output of the program itself, as `/dev/stdout` is. -/
  outputs : List Location := []

namespace Workspace

/-- What stands at `loc`, if anything does. -/
def get? (w : Workspace) (loc : Location) : Option Entry := w.entries.lookup loc

/-- Puts `e` in the place of the entry at `loc`, or at the end if there is none. -/
def putEntry (loc : Location) (e : Entry) : List (Location × Entry) → List (Location × Entry)
  | [] => [(loc, e)]
  | (l, old) :: rest => if l = loc then (loc, e) :: rest else (l, old) :: putEntry loc e rest

/-- Puts `e` at `loc`; what stood there is gone. -/
def set (w : Workspace) (loc : Location) (e : Entry) : Workspace :=
  { w with entries := putEntry loc e w.entries }

theorem lookup_putEntry_self (loc : Location) (e : Entry) (es : List (Location × Entry)) :
    (putEntry loc e es).lookup loc = some e := by
  induction es with
  | nil => simp [putEntry]
  | cons head rest ih =>
    obtain ⟨l, old⟩ := head
    by_cases h : l = loc
    · simp [putEntry, h]
    · have h' : (loc == l) = false := by simpa using fun hl => h hl.symm
      simp [putEntry, h, List.lookup_cons, h', ih]

theorem lookup_putEntry_of_ne {loc other : Location} (h : other ≠ loc) (e : Entry)
    (es : List (Location × Entry)) : (putEntry loc e es).lookup other = es.lookup other := by
  induction es with
  | nil =>
    have h' : (other == loc) = false := by simpa using h
    simp [putEntry, List.lookup_cons, h']
  | cons head rest ih =>
    obtain ⟨l, old⟩ := head
    by_cases hl : l = loc
    · have h' : (other == loc) = false := by simpa using h
      subst hl
      simp [putEntry, List.lookup_cons, h']
    · simp only [putEntry, hl, if_false, List.lookup_cons]
      split
      · rfl
      · exact ih

@[simp] theorem get?_set_self (w : Workspace) (loc : Location) (e : Entry) :
    (w.set loc e).get? loc = some e := lookup_putEntry_self loc e w.entries

theorem get?_set_of_ne (w : Workspace) {loc other : Location} (h : other ≠ loc) (e : Entry) :
    (w.set loc e).get? other = w.get? other := lookup_putEntry_of_ne h e w.entries

/-- The workspace whose working directory is `home`, with nothing in it but the directories on the
    way. -/
def empty (home : Location) : Workspace where
  home
  entries := (List.range (home.length + 1)).map fun n => (home.take n, .directory)

/-- Makes directories at the locations `locs` where there is nothing yet. -/
def makeDirectories (w : Workspace) (locs : List Location) : Workspace :=
  locs.foldl (fun w loc => if (w.get? loc).isSome then w else w.set loc .directory) w

/-- Puts `e` at a path below the working directory, with all directories on the way. -/
def install (w : Workspace) (path : String) (e : Entry) : Workspace :=
  let names := (PathText.components path).filter (· != ".")
  let parents := (List.range names.length).map fun n => w.home ++ names.take n
  (w.makeDirectories parents).set (w.home ++ names) e

/-- Follows one `piece` of a path from the directory at `loc`. -/
def follow (w : Workspace) (loc : Location) (piece : String) : Except FileError Location :=
  match w.get? loc with
  | none => .error .notFound
  | some (.file ..) => .error .notADirectory
  | some .directory =>
    if piece = "" ∨ piece = "." then .ok loc
    else if piece = ".." then .ok loc.dropLast
    else .ok (loc ++ [piece])

/-- The location that `path` leads to by `follow`, where there need not be anything yet. -/
def locate (w : Workspace) (path : String) : Except FileError Location :=
  if path.toList.contains (Char.ofNat 0) then .error .invalidInput
  else if path.isEmpty then .error .notFound
  else (PathText.pieces path).foldlM w.follow (if PathText.isAbsolute path then [] else w.home)

/-- What stands at the end of `path`; `.notFound` if nothing does. -/
def find (w : Workspace) (path : String) : Except FileError Entry := do
  match w.get? (← w.locate path) with
  | some e => .ok e
  | none => .error .notFound

/-- `w.contains path` holds if there is anything at the end of `path`. -/
def contains (w : Workspace) (path : String) : Bool := (w.find path).toBool

/-- The content of the file at the end of `path`; a directory has none. -/
def read (w : Workspace) (path : String) : Except FileError (List UInt8) := do
  match ← w.find path with
  | .file _ content => .ok content
  | .directory => .error .isADirectory

/-- The content of the file at the end of `path` as text, which has to be UTF-8. -/
def readText (w : Workspace) (path : String) : Except FileError (List Char) := do
  match Text.Utf8.decode? (← w.read path) with
  | some cs => .ok cs
  | none => .error .invalidData

/-- The location of the file `path` that is opened for writing, which may have to be created.  A
    slash at the end asks for a directory. -/
def locateFile (w : Workspace) (path : String) : Except FileError Location := do
  let trimmed := String.ofList (Text.dropTrailing '/' path.toList)
  if trimmed ≠ path then
    if !trimmed.isEmpty then
      let _ ← w.locate trimmed
    .error .isADirectory
  else w.locate path

/-- Adds `bytes` to the end of the file at `path`, which is created if it is not there. -/
def append (w : Workspace) (path : String) (bytes : List UInt8) : Except FileError Workspace := do
  let loc ← w.locateFile path
  match w.get? loc with
  | none => .ok (w.set loc (.file false bytes))
  | some (.file executable content) => .ok (w.set loc (.file executable (content ++ bytes)))
  | some .directory => .error .isADirectory

/-- Whether what is written to the file at the end of `path` is printed, because the file is the
    standard output of the program. -/
def printsTo (w : Workspace) (path : String) : Bool :=
  match w.locateFile path with
  | .error _ => false
  | .ok loc =>
    match w.get? loc with
    | some (.file ..) => w.outputs.contains loc
    | _ => false

/-- `w.isProgram path` holds if `path` leads to a file that can be started. -/
def isProgram (w : Workspace) (path : String) : Bool :=
  match w.find path with
  | .ok (.file true _) => true
  | _ => false

/-- `w.start program args` fails if the `program` cannot be started with `args`.  A program without
    a slash in its path is looked for among installed programs, and there is none here; the
    directories `.` and `..` are there, but are no programs. -/
def start (w : Workspace) (program : String) (args : List String) : Except FileError Unit := do
  if (program :: args).any (·.toList.contains (Char.ofNat 0)) then .error .invalidInput
  else if program = "." ∨ program = ".." then .error .permissionDenied
  else if !program.toList.contains '/' then .error .notFound
  else match ← w.find program with
    | .file true _ => .ok ()
    | _ => .error .permissionDenied

/-- The files right in the working directory, by name; the files in directories below it are not
    among them. -/
def homeFiles (w : Workspace) : List (String × List UInt8) :=
  w.entries.filterMap fun
    | (loc, .file _ content) =>
      match loc.getLast? with
      | some name => if loc.dropLast = w.home then some (name, content) else none
      | none => none
    | (_, .directory) => none

end Workspace

end MapperSweep
