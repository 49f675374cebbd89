import MapperSweep.Toml.Basic

/-!
# The tables of a document

The statements of a document, one after the other, build a tree of tables.  A table remembers how
it came about, because that decides who may still add to it:

* a header defines its table once, and may complete one that only longer headers implied;
* a dotted key adds to tables that dotted keys made, and passes through those that headers implied;
* a header in double brackets adds one more table to an array that only such headers made;
* a value is never added to.
-/

namespace MapperSweep.Toml

/-- How a table came about, which decides what may still be added to it, see `defineTable` and
    `addValue`. -/
inductive Origin where
  /-- Its own header. -/
  | header
  /-- The header of a table inside it. -/
  | implied
  /-- A dotted key. -/
  | dotted
deriving DecidableEq

/-- What a key stands for while the document is read; `Node.finish` gives its `Value` in the end. -/
inductive Node where
  | value (v : Value)
  | table (origin : Origin) (entries : List (String × Node))
  /-- The tables of double-bracket headers, the last one apart. -/
  | tables (earlier : List (List (String × Node))) (last : List (String × Node))

/-- The entries of a table under construction: its keys with the `Node` of each. -/
abbrev Entries := List (String × Node)

/-- `alter key f es` changes what `key` stands for in `es` by `f`, which gets `none` where it stands
    for nothing so far. -/
def alter (key : String) (f : Option Node → Option Node) : Entries → Option Entries
  | [] => (f none).map fun node => [(key, node)]
  | (k, node) :: rest =>
    if k = key then (f (some node)).map fun node => (k, node) :: rest
    else (alter key f rest).map ((k, node) :: ·)

/-- `within change path es` changes the entries of the table at `path`, a path of headers.  In an
    array it is the last table, and a table that is not there yet is `.implied`. -/
def within (change : Entries → Option Entries) : (path : List String) → Entries → Option Entries
  | [], es => change es
  | key :: path, es =>
    alter key (fun
      | none => (within change path []).map (.table .implied)
      | some (.table origin below) => (within change path below).map (.table origin)
      | some (.tables earlier last) => (within change path last).map (.tables earlier)
      | some (.value _) => none) es

/-- Defines the table `key` by its header: it is new, or was only `.implied` so far. -/
def defineTable (key : String) : Entries → Option Entries :=
  alter key fun
    | none => some (.table .header [])
    | some (.table .implied es) => some (.table .header es)
    | some _ => none

/-- Starts the next table of the array `key`. -/
def extendArray (key : String) : Entries → Option Entries :=
  alter key fun
    | none => some (.tables [] [])
    | some (.tables earlier last) => some (.tables (earlier ++ [last]) [])
    | some _ => none

/-- `atLast change path es` applies `change` to the last key of `path`, in the table that the rest
    of `path` leads to. -/
def atLast (change : String → Entries → Option Entries) (path : List String) (es : Entries) :
    Option Entries :=
  match path.getLast? with
  | none => none
  | some key => within (change key) path.dropLast es

/-- Adds `v` under a key that may be dotted.  `writable` says whether the table at hand takes the
    value itself. -/
def addValue (v : Value) (writable : Bool) : (path : List String) → Entries → Option Entries
  | [], _ => none
  | [key], es =>
    if writable then
      alter key (fun
        | none => some (.value v)
        | some _ => none) es
    else none
  | key :: path, es =>
    alter key (fun
      | none => (addValue v true path []).map (.table .dotted)
      | some (.table .header _) => none
      | some (.table origin below) =>
        (addValue v (origin == .dotted) path below).map (.table origin)
      | some (.tables earlier last) => (addValue v false path last).map (.tables earlier)
      | some (.value _) => none) es

mutual

/-- The finished value of a key: the origins of its tables are forgotten, and the tables of
    `.tables` are an array. -/
def Node.finish : Node → Value
  | .value v => v
  | .table _ es => .table (finishEntries es)
  | .tables earlier last => .array (finishTables earlier ++ [.table (finishEntries last)])

/-- `Node.finish` for each of the entries of a table. -/
def finishEntries : List (String × Node) → List (String × Value)
  | [] => []
  | (key, node) :: rest => (key, node.finish) :: finishEntries rest

/-- The finished tables of an array, each by `finishEntries`. -/
def finishTables : List (List (String × Node)) → List Value
  | [] => []
  | es :: rest => .table (finishEntries es) :: finishTables rest

end

/-- The table between braces with the given `pairs` of keys and values, unless two of them are in
    each other's way. -/
def inlineTable? (pairs : List (List String × Value)) : Option Value :=
  (pairs.foldlM (fun es (path, v) => addValue v true path es) []).map (.table <| finishEntries ·)

/-- What was read of a document: its tables `root`, and `current`, the path of the header that is in
    force. -/
structure Reading where
  root : Entries := []
  current : List String := []

/-- `r.step statement` takes in one more statement; `none` if it is in the way of an earlier one. -/
def Reading.step (r : Reading) : Statement → Option Reading
  | .openTable path => (atLast defineTable path r.root).map ({ root := ·, current := path })
  | .openArray path => (atLast extendArray path r.root).map ({ root := ·, current := path })
  | .assign path v => (within (addValue v true path) r.current r.root).map ({ r with root := · })

/-- The top-level table of a document: one `Reading.step` for each of the `statements`. -/
def build? (statements : List Statement) : Option Table :=
  (statements.foldlM Reading.step {}).map (finishEntries ·.root)

end MapperSweep.Toml
