import MapperSweep.Json.Basic

/-!
# Reading JSON

One value and nothing after it but blanks.  Only space, tab, carriage return and line feed are
blanks.  The functions here read from the front of a text and return the rest of it.  Each value,
item and member costs one unit of fuel and at least one character, so the fuel that `parse?`
provides never runs out.
-/

namespace MapperSweep.Json

/-- Whether `c` is one of the characters that may stand between tokens. -/
def isSpace (c : Char) : Bool := c == ' ' || c == '\t' || c == '\r' || c == '\n'

/-- Drops the characters of `isSpace` from the front of `cs`. -/
def skipSpace (cs : List Char) : List Char := cs.dropWhile isSpace

/-- The value of the hexadecimal digit `c`, of either case. -/
def hexValue? (c : Char) : Option Nat :=
  if c.isDigit then some (c.toNat - '0'.toNat)
  else if 'a' ≤ c ∧ c ≤ 'f' then some (c.toNat - 'a'.toNat + 10)
  else if 'A' ≤ c ∧ c ≤ 'F' then some (c.toNat - 'A'.toNat + 10)
  else none

/-- A part of a string literal: a character, or a number given by four hexadecimal digits. -/
inductive Piece where
  | char (c : Char)
  | number (n : Nat)

/-- The character that the letter `c` stands for after a backslash. -/
def shortEscape? (c : Char) : Option Char :=
  if c = '"' ∨ c = '\\' ∨ c = '/' then some c
  else if c = 'b' then some (Char.ofNat 0x08)
  else if c = 'f' then some (Char.ofNat 0x0C)
  else if c = 'n' then some '\n'
  else if c = 'r' then some '\r'
  else if c = 't' then some '\t'
  else none

/-- The parts of a string literal whose opening quote was read, and the rest after its closing
    quote. -/
def pieces? : List Char → Option (List Piece × List Char)
  | '"' :: rest => some ([], rest)
  | '\\' :: 'u' :: a :: b :: c :: d :: rest => do
    let n := ((← hexValue? a) * 16 + (← hexValue? b)) * 256 + (← hexValue? c) * 16 + (← hexValue? d)
    let (pieces, rest) ← pieces? rest
    return (.number n :: pieces, rest)
  | '\\' :: e :: rest => do
    let c ← shortEscape? e
    let (pieces, rest) ← pieces? rest
    return (.char c :: pieces, rest)
  | c :: rest =>
    if c = '\\' ∨ c.toNat < 0x20 then none
    else do
      let (pieces, rest) ← pieces? rest
      return (.char c :: pieces, rest)
  | [] => none

/-- The text of the parts of a literal.  Two numbers that form a surrogate pair are one character,
    and a surrogate by itself is none. -/
def assemble? : List Piece → Option (List Char)
  | [] => some []
  | .char c :: rest => (c :: ·) <$> assemble? rest
  | .number high :: .number low :: rest =>
    if 0xD800 ≤ high ∧ high < 0xDC00 then
      if 0xDC00 ≤ low ∧ low < 0xE000 then
        (Char.ofNat (0x10000 + (high - 0xD800) * 0x400 + (low - 0xDC00)) :: ·) <$> assemble? rest
      else none
    else if 0xDC00 ≤ high ∧ high < 0xE000 then none
    else (Char.ofNat high :: ·) <$> assemble? (.number low :: rest)
  | .number n :: rest =>
    if 0xD800 ≤ n ∧ n < 0xE000 then none else (Char.ofNat n :: ·) <$> assemble? rest

/-- Reads a string literal whose opening quote was read.  The literal has no text if `assemble?`
    finds none. -/
def readString? (cs : List Char) : Option (Option String × List Char) := do
  let (pieces, rest) ← pieces? cs
  return ((assemble? pieces).map String.ofList, rest)

/-- Reads the digits of the whole part of a number: a zero alone, or digits that do not start with
    zero. -/
def readWhole? (cs : List Char) : Option (List Char × List Char) :=
  match cs with
  | '0' :: rest => some (['0'], rest)
  | _ =>
    let (ds, rest) := spanDigits cs
    if ds.isEmpty then none else some (ds, rest)

/-- Reads the point and the digits after it, if there is a point. -/
def readFraction? : List Char → Option (List Char × List Char)
  | '.' :: rest =>
    let (ds, rest) := spanDigits rest
    if ds.isEmpty then none else some (ds, rest)
  | cs => some ([], cs)

/-- Reads the exponent of a number, if there is one. -/
def readPower? : List Char → Option (Option Int × List Char)
  | c :: rest =>
    if c = 'e' ∨ c = 'E' then
      let (negative, rest) := match rest with
        | '-' :: rest => (true, rest)
        | '+' :: rest => (false, rest)
        | _ => (false, rest)
      let (ds, rest) := spanDigits rest
      if ds.isEmpty then none
      else
        let e : Int := readDigits ds
        some (some (if negative then -e else e), rest)
    else some (none, c :: rest)
  | [] => some (none, [])

/-- Reads a number at the front of `cs`, as the `Numeral` that is written there. -/
def readNumber? (cs : List Char) : Option (Numeral × List Char) := do
  let (negative, rest) := match cs with
    | '-' :: rest => (true, rest)
    | _ => (false, cs)
  let (whole, rest) ← readWhole? rest
  let (fraction, rest) ← readFraction? rest
  let (exponent, rest) ← readPower? rest
  return ({ negative, whole, fraction, exponent }, rest)

mutual

/-- Reads a value at the front of `cs`, after blanks.  Every value within it takes from the
    `fuel`. -/
def readValue? (fuel : Nat) (cs : List Char) : Option (Json × List Char) :=
  match fuel with
  | 0 => none
  | fuel + 1 =>
    match skipSpace cs with
    | 'n' :: 'u' :: 'l' :: 'l' :: rest => some (.null, rest)
    | 't' :: 'r' :: 'u' :: 'e' :: rest => some (.bool true, rest)
    | 'f' :: 'a' :: 'l' :: 's' :: 'e' :: rest => some (.bool false, rest)
    | '"' :: rest => do
      let (s, rest) ← readString? rest
      return (.string s, rest)
    | '[' :: rest =>
      match skipSpace rest with
      | ']' :: rest => some (.array [], rest)
      | rest => do
        let (items, rest) ← readItems? fuel rest
        return (.array items, rest)
    | '{' :: rest =>
      match skipSpace rest with
      | '}' :: rest => some (.object [], rest)
      | rest => do
        let (members, rest) ← readMembers? fuel rest
        return (.object members, rest)
    | rest => do
      let (n, rest) ← readNumber? rest
      return (.number n, rest)

/-- Reads the items of an array that is not empty, up to its closing bracket. -/
def readItems? (fuel : Nat) (cs : List Char) : Option (List Json × List Char) :=
  match fuel with
  | 0 => none
  | fuel + 1 => do
    let (item, rest) ← readValue? fuel cs
    match skipSpace rest with
    | ']' :: rest => return ([item], rest)
    | ',' :: rest =>
      let (items, rest) ← readItems? fuel rest
      return (item :: items, rest)
    | _ => none

/-- Reads the members of an object that is not empty, up to its closing brace. -/
def readMembers? (fuel : Nat) (cs : List Char) : Option (List (Option String × Json) × List Char) :=
  match fuel with
  | 0 => none
  | fuel + 1 =>
    match skipSpace cs with
    | '"' :: rest => do
      let (key, rest) ← readString? rest
      match skipSpace rest with
      | ':' :: rest =>
        let (value, rest) ← readValue? fuel rest
        match skipSpace rest with
        | '}' :: rest => return ([(key, value)], rest)
        | ',' :: rest =>
          let (members, rest) ← readMembers? fuel rest
          return ((key, value) :: members, rest)
        | _ => none
      | _ => none
    | _ => none

end

/-- The value of the JSON text `cs`.  The `fuel` is two for each character, and two more. -/
def parse? (cs : List Char) : Option Json := do
  let (value, rest) ← readValue? (2 * cs.length + 2) cs
  if (skipSpace rest).isEmpty then return value else none

end MapperSweep.Json
