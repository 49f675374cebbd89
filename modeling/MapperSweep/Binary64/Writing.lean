import MapperSweep.Binary64.Shortest

/-!
# Writing a number

A number is written with the digits of its shortest decimal.  A `Style` says how these digits are
laid out: from which to which power of ten the notation is positional, whether a whole number keeps
a point, whether a positive exponent has its sign, and where a tie between two decimals goes.
-/

namespace MapperSweep.Binary64

/-- How the digits of a number are laid out.  A bound that is absent does not bound. -/
structure Style where
  /-- The least power of ten of a leading digit that is written positionally. -/
  lowest : Option Int
  /-- The greatest power of ten of a leading digit that is written positionally. -/
  highest : Option Int
  /-- Whether a whole number written positionally ends in `.0`. -/
  wholePoint : Bool
  /-- Whether a positive exponent has its sign. -/
  plus : Bool
  tie : Tie

/-- Whether a number whose leading digit stands for `10 ^ e` is written positionally. -/
def Style.positional (s : Style) (e : Int) : Bool :=
  s.lowest.all (· ≤ e) && s.highest.all (e ≤ ·)

/-- The numeral of `d` without an exponent. -/
def positionalNumeral (wholePoint negative : Bool) (d : Decimal) : Numeral :=
  let ds := digits d.coefficient
  if 0 ≤ d.scale then
    { negative, whole := ds ++ List.replicate d.scale.toNat '0'
      fraction := if wholePoint then ['0'] else [] }
  else
    let places := (-d.scale).toNat
    if places < ds.length then
      { negative, whole := ds.take (ds.length - places), fraction := ds.drop (ds.length - places) }
    else
      { negative, whole := ['0'], fraction := List.replicate (places - ds.length) '0' ++ ds }

/-- The numeral of `d` with one digit before the point and an exponent. -/
def scientificNumeral (negative : Bool) (d : Decimal) : Numeral :=
  let ds := digits d.coefficient
  { negative, whole := ds.take 1, fraction := ds.drop 1
    exponent := some (d.scale + ds.length - 1) }

/-- The numeral of the finite number `x`, laid out as `s` says. -/
def numeral (s : Style) (x : Binary64) : Numeral :=
  if x.isZero then positionalNumeral s.wholePoint x.negative ⟨0, 0⟩
  else
    let d := shortest s.tie x.rank
    if s.positional (d.scale + (digits d.coefficient).length - 1) then
      positionalNumeral s.wholePoint x.negative d
    else scientificNumeral x.negative d

/-- The written form of any number `x`, laid out as `s` says. -/
def text (s : Style) (x : Binary64) : List Char :=
  if x.isNaN then "NaN".toList
  else if x.isFinite then (numeral s x).text s.plus
  else if x.negative then "-inf".toList
  else "inf".toList

end MapperSweep.Binary64
