import MapperSweep.Text.Hidden

/-!
# Quoted text

A text between double quotes in which nothing is invisible.  The quote and the backslash are
escaped, tab, carriage return, line feed and NUL have their letter, and every other character
without a glyph of its own is written `\u` with its number in lower-case hexadecimal between
braces.
-/

namespace MapperSweep.Text

/-- The lower-case hexadecimal digits of `n`. -/
def hexDigits (n : Nat) : List Char := Nat.toDigits 16 n

/-- The character `c` as it stands inside a quoted text. -/
def quotedChar (c : Char) : List Char :=
  if c = '"' then ['\\', '"']
  else if c = '\\' then ['\\', '\\']
  else if c = '\t' then ['\\', 't']
  else if c = '\r' then ['\\', 'r']
  else if c = '\n' then ['\\', 'n']
  else if c = Char.ofNat 0 then ['\\', '0']
  else if isHidden c then '\\' :: 'u' :: '{' :: hexDigits c.toNat ++ ['}']
  else [c]

/-- The quoted form of the text `cs`. -/
def quoted (cs : List Char) : List Char := '"' :: cs.flatMap quotedChar ++ ['"']

end MapperSweep.Text
