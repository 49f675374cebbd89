/-!
# Decimal numerals

Numbers as they are written: digits before and after a decimal point and a power of ten.  The value
of a numeral is `coefficient * 10 ^ scale`, with a sign.  Whole numbers have the numeral `digits`,
and `readDigits` reads it back.
-/

namespace MapperSweep

/-- The value of the decimal digit `c`. -/
def digitValue (c : Char) : Nat := c.toNat - '0'.toNat

/-- The number that the decimal digits `ds` denote. -/
def readDigits (ds : List Char) : Nat := ds.foldl (fun n d => 10 * n + digitValue d) 0

/-- The decimal digits of `n`. -/
def digits (n : Nat) : List Char := Nat.toDigits 10 n

/-- The digits of the integer `z`, with a sign if it is negative. -/
def signedDigits (z : Int) : List Char :=
  if z < 0 then '-' :: digits z.natAbs else digits z.natAbs

/-- The digits at the front of `cs`, and what follows them. -/
def spanDigits (cs : List Char) : List Char × List Char :=
  (cs.takeWhile Char.isDigit, cs.dropWhile Char.isDigit)

@[simp] theorem spanDigits_append (cs : List Char) : (spanDigits cs).1 ++ (spanDigits cs).2 = cs :=
  List.takeWhile_append_dropWhile

/-- A number in decimal notation, as it is written. -/
structure Numeral where
  negative : Bool
  whole : List Char
  fraction : List Char := []
  exponent : Option Int := none
deriving DecidableEq

namespace Numeral

/-- The number that the digits of `n` denote, the decimal point left out. -/
def coefficient (n : Numeral) : Nat := readDigits (n.whole ++ n.fraction)

/-- The power of ten that the `coefficient` of `n` is multiplied by. -/
def scale (n : Numeral) : Int := n.exponent.getD 0 - n.fraction.length

/-- The numeral of the whole number `n`. -/
def ofNat (n : Nat) : Numeral where
  negative := false
  whole := digits n

/-- The written form of `n`.  A fraction follows a point, and `plus` says whether the sign of a
    positive exponent is written. -/
def text (plus : Bool) (n : Numeral) : List Char :=
  let sign := if n.negative then ['-'] else []
  let point := if n.fraction.isEmpty then [] else '.' :: n.fraction
  let power := match n.exponent with
    | none => []
    | some e => 'e' :: (if plus && 0 ≤ e then '+' :: signedDigits e else signedDigits e)
  sign ++ n.whole ++ point ++ power

end Numeral

/-- Reads `cs` as a 64-bit count: decimal digits after an optional plus sign. -/
def readCount? (cs : List Char) : Option UInt64 :=
  let ds := match cs with
    | '+' :: rest => rest
    | _ => cs
  if ds.isEmpty || !ds.all Char.isDigit then none
  else
    let n := readDigits ds
    if n < UInt64.size then some (UInt64.ofNat n) else none

end MapperSweep
