import MapperSweep.Toml.Document
import MapperSweep.Toml.Number
import MapperSweep.Toml.Text

/-!
# Reading TOML

The statements of a document, line by line, and the tables that they build.  The fuel of the
recursive readers is the length of the text: every round of theirs takes at least one character.
-/

namespace MapperSweep.Toml

/-- Drops blanks, line endings and comments, which may stand anywhere within an array; `inComment`
    says whether the text at hand is a comment up to the end of its line. -/
def skipTrivia? : (inComment : Bool) → List Char → Option (List Char)
  | _, '\n' :: rest => skipTrivia? false rest
  | _, '\r' :: '\n' :: rest => skipTrivia? false rest
  | false, c :: rest =>
    if isBlank c then skipTrivia? false rest
    else if c = '#' then skipTrivia? true rest
    else some (c :: rest)
  | true, c :: rest => if isPlain c then skipTrivia? true rest else none
  | false, [] => some []
  | true, [] => none

mutual

/-- A value with what follows it, inside of which arrays and tables nest at most `depth` deep.
    `fuel` bounds the recursion. -/
def readValue? (fuel depth : Nat) (cs : List Char) : Option (Value × List Char) :=
  match fuel with
  | 0 => none
  | fuel + 1 =>
    match cs with
    | 't' :: 'r' :: 'u' :: 'e' :: rest => some (.bool true, rest)
    | 'f' :: 'a' :: 'l' :: 's' :: 'e' :: rest => some (.bool false, rest)
    | '[' :: rest =>
      match depth with
      | 0 => none
      | depth + 1 => do
        let (items, rest) ← readItems? fuel depth rest
        return (.array items, rest)
    | '{' :: rest =>
      match depth with
      | 0 => none
      | depth + 1 => do
        let (pairs, rest) ← match skipBlanks rest with
          | '}' :: rest => pure ([], rest)
          | _ => readPairs? fuel depth rest
        return (← inlineTable? pairs, rest)
    | c :: _ =>
      if c = '\x22' ∨ c = '\x27' then do
        let (s, rest) ← readString? cs
        return (.string (String.ofList s), rest)
      else readScalar? cs
    | [] => none

/-- The items of an array up to its closing bracket, each by `readValue?`. -/
def readItems? (fuel depth : Nat) (cs : List Char) : Option (List Value × List Char) :=
  match fuel with
  | 0 => none
  | fuel + 1 => do
    match ← skipTrivia? false cs with
    | ']' :: rest => return ([], rest)
    | rest =>
      let (item, rest) ← readValue? fuel depth rest
      match ← skipTrivia? false rest with
      | ',' :: rest =>
        let (items, rest) ← readItems? fuel depth rest
        return (item :: items, rest)
      | ']' :: rest => return ([item], rest)
      | _ => none

/-- The keys and values of a table between braces, up to its closing brace; each value by
    `readValue?`. -/
def readPairs? (fuel depth : Nat) (cs : List Char) :
    Option (List (List String × Value) × List Char) :=
  match fuel with
  | 0 => none
  | fuel + 1 => do
    let (path, rest) ← readPath? cs
    let rest ← skipChar? '=' rest
    let (value, rest) ← readValue? fuel depth (skipBlanks rest)
    match skipBlanks rest with
    | ',' :: rest =>
      let (pairs, rest) ← readPairs? fuel depth rest
      return ((path, value) :: pairs, rest)
    | '}' :: rest => return ([(path, value)], rest)
    | _ => none

end

/-- What follows the end of a line.  Blanks and a comment may stand before it, and the end of the
    document is the end of a line, too. -/
def endLine? (cs : List Char) : Option (List Char) :=
  let rest := match skipBlanks cs with
    | '#' :: rest => rest.dropWhile isPlain
    | rest => rest
  match rest with
  | [] => some []
  | _ => newline? rest

/-- One `Statement` with the end of its line, and what follows that line. -/
def readStatement? (cs : List Char) : Option (Statement × List Char) :=
  match cs with
  | '[' :: '[' :: rest => do
    let (path, rest) ← readPath? rest
    let rest ← skipChar? ']' (← skipChar? ']' rest)
    return (.openArray path, ← endLine? rest)
  | '[' :: rest => do
    let (path, rest) ← readPath? rest
    let rest ← skipChar? ']' rest
    return (.openTable path, ← endLine? rest)
  | _ => do
    let (path, rest) ← readPath? cs
    let rest ← skipChar? '=' rest
    let (value, rest) ← readValue? (2 * cs.length + 2) (depthLimit - 1) (skipBlanks rest)
    return (.assign path value, ← endLine? rest)

/-- The statements of a document, without its empty lines and comments.  `fuel` bounds the number of
    lines. -/
def readStatements? : (fuel : Nat) → List Char → Option (List Statement)
  | 0, _ => none
  | fuel + 1, cs =>
    match skipBlanks cs with
    | [] => some []
    | '#' :: rest => do readStatements? fuel (← endLine? ('#' :: rest))
    | c :: rest =>
      match newline? (c :: rest) with
      | some rest => readStatements? fuel rest
      | none => do
        let (s, rest) ← readStatement? (c :: rest)
        let ss ← readStatements? fuel rest
        return s :: ss

/-- Drops the mark of the byte order from the front of a document. -/
def skipMark : List Char → List Char
  | '\ufeff' :: rest => rest
  | cs => cs

/-- The top-level table of the document `cs`: `build?` of its statements. -/
def parse? (cs : List Char) : Option Table := do
  build? (← readStatements? (cs.length + 1) (skipMark cs))

end MapperSweep.Toml
