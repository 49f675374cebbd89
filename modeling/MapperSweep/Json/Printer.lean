import MapperSweep.Json.Basic
import MapperSweep.Text.Quoted

/-!
# Writing JSON

Compact text: no blanks, members in their order.  In strings only the quote, the backslash and the
control characters below U+0020 are escaped.
-/

namespace MapperSweep.Json

/-- The number `n` with four hexadecimal digits. -/
def hexFour (n : Nat) : List Char :=
  let ds := Text.hexDigits n
  List.replicate (4 - ds.length) '0' ++ ds

/-- The character `c` as it stands in a string literal. -/
def escapeChar (c : Char) : List Char :=
  if c = '"' then ['\\', '"']
  else if c = '\\' then ['\\', '\\']
  else if c = '\n' then ['\\', 'n']
  else if c = '\r' then ['\\', 'r']
  else if c = '\t' then ['\\', 't']
  else if c = Char.ofNat 0x08 then ['\\', 'b']
  else if c = Char.ofNat 0x0C then ['\\', 'f']
  else if c.toNat < 0x20 then '\\' :: 'u' :: hexFour c.toNat
  else [c]

/-- The string literal of the text `cs`, with its quotes. -/
def literal (cs : List Char) : List Char := '"' :: cs.flatMap escapeChar ++ ['"']

/-- The literal of a string.  One without a text is written as half of a surrogate pair. -/
def stringLiteral : Option String → List Char
  | some s => literal s.toList
  | none => "\"\\ud800\"".toList

mutual

/-- The written form of a JSON value, without any blanks. -/
def print : Json → List Char
  | .null => "null".toList
  | .bool true => "true".toList
  | .bool false => "false".toList
  | .number n => n.text true
  | .string s => stringLiteral s
  | .array items => '[' :: printItems items
  | .object members => '{' :: printMembers members

/-- The items of an array, with commas between them, and its closing bracket. -/
def printItems : List Json → List Char
  | [] => [']']
  | [item] => print item ++ [']']
  | item :: items => print item ++ ',' :: printItems items

/-- The members of an object, with commas between them, and its closing brace. -/
def printMembers : List (Option String × Json) → List Char
  | [] => ['}']
  | [(key, value)] => stringLiteral key ++ ':' :: print value ++ ['}']
  | (key, value) :: members =>
    stringLiteral key ++ ':' :: print value ++ ',' :: printMembers members

end

end MapperSweep.Json
