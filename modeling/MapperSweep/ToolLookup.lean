import MapperSweep.Log
import MapperSweep.Workspace

/-!
# Finding the mapping tool

The tool is the one that the environment names, or else the configured one.  A bare name is looked
for in the directories of the search path, in order, and any other path is taken as it is if there
is something at its end.

The variable that names the tool holds any bytes.  All other paths, and the search path, are text
here: a configured path, a directory or a file whose name is not Unicode is left out.
-/

namespace MapperSweep.ToolLookup

/-- The name of the variable that overrides the configured tool. -/
def overrideVariable : String := "NAMAP_BIN_PATH"

/-- Why `resolve` does not find the tool. -/
inductive Error where
  /-- The variable is set, but to nothing. -/
  | emptyOverride
  /-- A bare name is in none of the directories. -/
  | notInPath (name : String)
  /-- There is nothing at the path. -/
  | missing (path : String)
deriving DecidableEq

/-- The text of an error.  It names the `overrideVariable` where that is wrong, or where setting it
    would help. -/
def Error.message : Error → String
  | .emptyOverride => s!"'{overrideVariable}' set to empty string"
  | .notInPath name =>
    s!"Mapping tool binary '{name}' not found in PATH. Install it or set '{overrideVariable}' " ++
      "to the correct path."
  | .missing path => s!"Mapping tool binary '{path}' doesn't exist"

/-- The directories of a `searchPath`, which are separated by colons. -/
def directories (searchPath : String) : List String :=
  (Text.splitOnChar ':' searchPath.toList).map String.ofList

/-- The absolute path of `name` in the directory `dir` of the search path.  A relative directory
    starts at the working directory of `w`.  In the home directory of a user there is no tool. -/
def candidate? (w : Workspace) (name dir : String) : Option String :=
  if (PathText.components dir).head? = some "~" ∧ !PathText.isAbsolute dir then none
  else
    let path := PathText.join dir name
    if PathText.isAbsolute dir then some path
    else
      let names := match PathText.components path with
        | "." :: rest => rest
        | all => all
      some (PathText.absolute (w.home ++ names))

/-- The first program `name` in the directories of `searchPath`, see `candidate?` and
    `Workspace.isProgram`. -/
def search (w : Workspace) (searchPath : Option String) (name : String) : Option String :=
  if name.toList.contains '/' then none
  else match searchPath with
    | none => none
    | some dirs => ((directories dirs).filterMap (candidate? w name)).find? w.isProgram

/-- The path of the mapping tool: that of `override` if there is one, and else `configured`.  A bare
    name is looked for by `search`, and any other path has to lead somewhere. -/
def resolve (w : Workspace) (override searchPath : Option String) (configured : String) :
    Logged (Except Error String) :=
  if override = some "" then pure (.error .emptyOverride)
  else
    let path := override.getD configured
    if PathText.isBareName path then
      { value := match search w searchPath path with
          | some found => .ok found
          | none => .error (.notInPath path)
        log := [.searchingForTool path] }
    else pure (if w.contains path then .ok path else .error (.missing path))

/-- The override that the `overrideVariable` gives, where `value?` is what it is set to.  A value
    that is not Unicode counts as if the variable was not set. -/
def override? (value? : Option (List UInt8)) : Option String :=
  value?.bind fun bytes => (Text.Utf8.decode? bytes).map String.ofList

/-- The path of the mapping tool, where `value?` is what the `overrideVariable` is set to. -/
def toolPath (w : Workspace) (value? : Option (List UInt8)) (searchPath : Option String)
    (configured : String) : Logged (Except Error String) :=
  resolve w (override? value?) searchPath configured

end MapperSweep.ToolLookup
