import MapperSweep.Binary64.Rounding
import MapperSweep.Numeral

/-!
# Reading a number

Decimal text to the nearest binary64 number.  A sign may stand first.  Then come digits with at most
one decimal point among, before or after them, and an optional exponent; or one of the words `inf`,
`infinity` and `nan` in any case.
-/

namespace MapperSweep

/-- The value of the digits `ds` of an exponent.  It stops growing once it has passed `2 ^ 16`,
    where every number of the format is long out of reach. -/
def readExponent (ds : List Char) : Nat :=
  ds.foldl (fun n d => if n < 0x10000 then 10 * n + digitValue d else n) 0

/-- Reads the exponent `cs` at the end of a numeral: a sign that may be left out, and digits. -/
def readSignedExponent? (cs : List Char) : Option Int :=
  let (negative, ds) := match cs with
    | '-' :: rest => (true, rest)
    | '+' :: rest => (false, rest)
    | _ => (false, cs)
  if ds.isEmpty || !ds.all Char.isDigit then none
  else if negative then some (-(readExponent ds : Int)) else some (readExponent ds)

namespace Numeral

/-- Reads the unsigned numeral `cs`.  At least one digit is there, before or after the point. -/
def ofText? (negative : Bool) (cs : List Char) : Option Numeral :=
  let (whole, rest) := spanDigits cs
  let (fraction, rest) := match rest with
    | '.' :: rest => spanDigits rest
    | _ => ([], rest)
  if whole.isEmpty && fraction.isEmpty then none
  else match rest with
    | [] => some { negative, whole, fraction }
    | c :: rest =>
      if c = 'e' ∨ c = 'E' then
        (readSignedExponent? rest).map fun e => { negative, whole, fraction, exponent := some e }
      else none

/-- The `Binary64` number nearest to the value of the numeral `n`. -/
def toBinary64 (n : Numeral) : Binary64 := .ofDecimal n.negative n.coefficient n.scale

end Numeral

namespace Binary64

/-- Reads `cs` as a word for a number that has no digits, in any case. -/
def ofWord? (negative : Bool) (cs : List Char) : Option Binary64 :=
  let word := cs.map Char.toLower
  if word = "inf".toList ∨ word = "infinity".toList then some (infinity negative)
  else if word = "nan".toList then some (nan negative)
  else none

/-- Reads `cs` as a number with an optional sign: a `Numeral`, or one of the words of `ofWord?`. -/
def ofText? (cs : List Char) : Option Binary64 :=
  let (negative, rest) := match cs with
    | '-' :: rest => (true, rest)
    | '+' :: rest => (false, rest)
    | _ => (false, cs)
  match Numeral.ofText? negative rest with
  | some n => some n.toBinary64
  | none => ofWord? negative rest

end Binary64

end MapperSweep
