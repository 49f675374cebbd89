/-!
# White space

The characters with the Unicode property `White_Space`, and trimming by them.  The core class
`Char.isWhitespace` knows ASCII only.
-/

namespace MapperSweep.Text

/-- The Unicode property `White_Space` of `c`. -/
def isBlank (c : Char) : Bool :=
  let n := c.toNat
  (9 ≤ n && n ≤ 13) || n == 0x20 || n == 0x85 || n == 0xA0 || n == 0x1680 ||
    (0x2000 ≤ n && n ≤ 0x200A) || n == 0x2028 || n == 0x2029 || n == 0x202F || n == 0x205F ||
    n == 0x3000

/-- Drops blanks from the front of `cs`. -/
def trimStart (cs : List Char) : List Char := cs.dropWhile isBlank

/-- Drops blanks from the back of `cs`. -/
def trimEnd (cs : List Char) : List Char := (cs.reverse.dropWhile isBlank).reverse

/-- Drops blanks from both ends of `cs`. -/
def trim (cs : List Char) : List Char := trimEnd (trimStart cs)

/-- Whether `cs` consists of blanks only.  The empty text does. -/
def isBlankText (cs : List Char) : Bool := cs.all isBlank

end MapperSweep.Text
