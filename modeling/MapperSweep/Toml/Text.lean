import MapperSweep.Json.Parser

/-!
# Keys and strings of TOML

Readers for the parts of a document that are text.  They read from the front of a text and return
what follows.
-/

namespace MapperSweep.Toml

/-- `isBlank c` holds of the blanks within a line: the space and the tab. -/
def isBlank (c : Char) : Bool := c == ' ' || c == '\t'

/-- `cs` without the blanks at its front, see `isBlank`. -/
def skipBlanks (cs : List Char) : List Char := cs.dropWhile isBlank

/-- What follows a line ending at the front: `\n`, or `\r\n`. -/
def newline? : List Char → Option (List Char)
  | '\n' :: rest => some rest
  | '\r' :: '\n' :: rest => some rest
  | _ => none

/-- `isPlain c` holds of all characters but the ASCII controls, and of the tab. -/
def isPlain (c : Char) : Bool := c == '\t' || (0x20 ≤ c.toNat && c.toNat != 0x7F)

/-- `isBasic c` holds if `c` stands for itself between double quotes. -/
def isBasic (c : Char) : Bool := isPlain c && c != '\x22' && c != '\\'

/-- `isLiteral c` holds if `c` stands for itself between single quotes. -/
def isLiteral (c : Char) : Bool := isPlain c && c != '\x27'

/-- `isBare c` holds if `c` can be in a key without quotes. -/
def isBare (c : Char) : Bool := c.isAlphanum || c == '_' || c == '-'

/-- The character that the letter `c` stands for after a backslash. -/
def shortEscape? (c : Char) : Option Char :=
  if c = '\x22' ∨ c = '\\' then some c
  else if c = 'b' then some (Char.ofNat 0x08)
  else if c = 't' then some '\t'
  else if c = 'n' then some '\n'
  else if c = 'f' then some (Char.ofNat 0x0C)
  else if c = 'r' then some '\r'
  else none

/-- The character whose number the hexadecimal digits `ds` give, if there is one. -/
def numbered? (ds : List Char) : Option Char := do
  let n ← ds.foldlM (fun n d => (16 * n + ·) <$> Json.hexValue? d) 0
  if n.isValidChar then return Char.ofNat n else none

/-- The rest of a string in double quotes, its escapes resolved, and what follows it. -/
def basicBody? : List Char → Option (List Char × List Char)
  | '\x22' :: rest => some ([], rest)
  | '\\' :: 'u' :: a :: b :: c :: d :: rest => do
    let ch ← numbered? [a, b, c, d]
    let (cs, rest) ← basicBody? rest
    return (ch :: cs, rest)
  | '\\' :: 'U' :: a :: b :: c :: d :: e :: f :: g :: h :: rest => do
    let ch ← numbered? [a, b, c, d, e, f, g, h]
    let (cs, rest) ← basicBody? rest
    return (ch :: cs, rest)
  | '\\' :: e :: rest => do
    let ch ← shortEscape? e
    let (cs, rest) ← basicBody? rest
    return (ch :: cs, rest)
  | ch :: rest =>
    if isBasic ch then do
      let (cs, rest) ← basicBody? rest
      return (ch :: cs, rest)
    else none
  | [] => none

/-- The rest of a string in single quotes, where all is literal, and what follows it; see
    `isLiteral`. -/
def literalBody? : List Char → Option (List Char × List Char)
  | '\x27' :: rest => some ([], rest)
  | ch :: rest =>
    if isLiteral ch then do
      let (cs, rest) ← literalBody? rest
      return (ch :: cs, rest)
    else none
  | [] => none

/-- Whether `multilineBody?` is dropping blanks after a backslash at the end of a line. -/
inductive Trimming where
  | off
  /-- The end of the line is still to come. -/
  | toNewline
  /-- Up to the next character that is not blank. -/
  | beyond
deriving DecidableEq

/-- The rest of a string in three double quotes, and what follows it.  One or two quotes may stand
    right before the closing three; `t` says whether blanks are being dropped. -/
def multilineBody? : (t : Trimming) → List Char → Option (List Char × List Char)
  | .off, '\n' :: rest => (fun (cs, rest) => ('\n' :: cs, rest)) <$> multilineBody? .off rest
  | .off, '\r' :: '\n' :: rest =>
    (fun (cs, rest) => ('\n' :: cs, rest)) <$> multilineBody? .off rest
  | _, '\n' :: rest => multilineBody? .beyond rest
  | _, '\r' :: '\n' :: rest => multilineBody? .beyond rest
  | t, ' ' :: rest =>
    if t = .off then (fun (cs, rest) => (' ' :: cs, rest)) <$> multilineBody? .off rest
    else multilineBody? t rest
  | t, '\t' :: rest =>
    if t = .off then (fun (cs, rest) => ('\t' :: cs, rest)) <$> multilineBody? .off rest
    else multilineBody? t rest
  | .toNewline, _ => none
  | _, '\x22' :: '\x22' :: '\x22' :: '\x22' :: '\x22' :: rest => some (['\x22', '\x22'], rest)
  | _, '\x22' :: '\x22' :: '\x22' :: '\x22' :: rest => some (['\x22'], rest)
  | _, '\x22' :: '\x22' :: '\x22' :: rest => some ([], rest)
  | _, '\x22' :: rest => (fun (cs, rest) => ('\x22' :: cs, rest)) <$> multilineBody? .off rest
  | _, '\\' :: 'u' :: a :: b :: c :: d :: rest => do
    let ch ← numbered? [a, b, c, d]
    let (cs, rest) ← multilineBody? .off rest
    return (ch :: cs, rest)
  | _, '\\' :: 'U' :: a :: b :: c :: d :: e :: f :: g :: h :: rest => do
    let ch ← numbered? [a, b, c, d, e, f, g, h]
    let (cs, rest) ← multilineBody? .off rest
    return (ch :: cs, rest)
  | _, '\\' :: '\r' :: '\n' :: rest => multilineBody? .beyond rest
  | _, '\\' :: e :: rest =>
    if e = '\n' then multilineBody? .beyond rest
    else if isBlank e then multilineBody? .toNewline rest
    else do
      let ch ← shortEscape? e
      let (cs, rest) ← multilineBody? .off rest
      return (ch :: cs, rest)
  | _, ch :: rest =>
    if isBasic ch then (fun (cs, rest) => (ch :: cs, rest)) <$> multilineBody? .off rest else none
  | _, [] => none

/-- The rest of a string in three single quotes, and what follows it.  One or two quotes may stand
    right before the closing three, as in `multilineBody?`. -/
def multilineLiteralBody? : List Char → Option (List Char × List Char)
  | '\x27' :: '\x27' :: '\x27' :: '\x27' :: '\x27' :: rest => some (['\x27', '\x27'], rest)
  | '\x27' :: '\x27' :: '\x27' :: '\x27' :: rest => some (['\x27'], rest)
  | '\x27' :: '\x27' :: '\x27' :: rest => some ([], rest)
  | '\r' :: '\n' :: rest => (fun (cs, rest) => ('\n' :: cs, rest)) <$> multilineLiteralBody? rest
  | ch :: rest =>
    if isPlain ch || ch == '\n' then
      (fun (cs, rest) => (ch :: cs, rest)) <$> multilineLiteralBody? rest
    else none
  | [] => none

/-- Drops a line ending right after the opening quotes, see `newline?`. -/
def skipFirstNewline (cs : List Char) : List Char := (newline? cs).getD cs

/-- A string of any of the four kinds and what follows it; the opening quotes choose between
    `basicBody?`, `multilineBody?`, `literalBody?` and `multilineLiteralBody?`. -/
def readString? : List Char → Option (List Char × List Char)
  | '\x22' :: '\x22' :: '\x22' :: rest => multilineBody? .off (skipFirstNewline rest)
  | '\x22' :: rest => basicBody? rest
  | '\x27' :: '\x27' :: '\x27' :: rest => multilineLiteralBody? (skipFirstNewline rest)
  | '\x27' :: rest => literalBody? rest
  | _ => none

/-- A key without dots, in quotes or made of characters for which `isBare` holds, and what follows
    it. -/
def readKey? (cs : List Char) : Option (String × List Char) :=
  match cs with
  | '\x22' :: rest => (fun (k, rest) => (String.ofList k, rest)) <$> basicBody? rest
  | '\x27' :: rest => (fun (k, rest) => (String.ofList k, rest)) <$> literalBody? rest
  | _ =>
    let key := cs.takeWhile isBare
    if key.isEmpty then none else some (String.ofList key, cs.dropWhile isBare)

/-- Keys with dots between them, and blanks around each, by `readKey?`.  `fuel` bounds their
    number. -/
def readKeys? : (fuel : Nat) → List Char → Option (List String × List Char)
  | 0, _ => none
  | fuel + 1, cs => do
    let (key, rest) ← readKey? (skipBlanks cs)
    match skipBlanks rest with
    | '.' :: rest =>
      let (path, rest) ← readKeys? fuel rest
      return (key :: path, rest)
    | rest => return ([key], rest)

/-- Nesting is limited: arrays and tables within each other, and keys between dots, are fewer than
    `depthLimit`. -/
def depthLimit : Nat := 80

/-- A key that may be dotted: the keys between its dots, fewer than `depthLimit`, and what
    follows. -/
def readPath? (cs : List Char) : Option (List String × List Char) := do
  let (path, rest) ← readKeys? (cs.length + 1) cs
  if path.length < depthLimit then return (path, rest) else none

end MapperSweep.Toml
