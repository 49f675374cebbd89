import MapperSweep.Binary64.Rounding
import MapperSweep.Binary64.Writing
import MapperSweep.Json.Basic

/-!
# Numbers in JSON

Numbers are read in two steps.  First come as many digits as a 64-bit significand holds, in the
whole part and again in the fraction; digits that do not fit only move the decimal point.  Then the
significand is rounded, and multiplied or divided by a power of ten, each time with a rounding of
its own.  So a number of many digits, or far from one, can end up next to the nearest one.

Numbers are written with the fewest digits that determine them.
-/

namespace MapperSweep.Json

/-- Appends digits to `significand` while it stays below `2 ^ 64`.  The result is the significand
    and how many digits it took. -/
def appendDigits (significand : Nat) : List Char → Nat × Nat
  | [] => (significand, 0)
  | d :: ds =>
    let next := 10 * significand + digitValue d
    if next < UInt64.size then
      let (s, taken) := appendDigits next ds
      (s, taken + 1)
    else (significand, 0)

/-- The exponent of the greatest power of ten that `Binary64` holds. -/
def greatestPower : Nat := 308

/-- Multiplies the positive number `x` by `10 ^ scale` in steps that are rounded.  There is no
    answer if the result is too large. -/
def scaleByTen? (x : Binary64) (scale : Int) : Option Binary64 :=
  if scale.natAbs ≤ greatestPower then
    let power := Binary64.ofDecimal false 1 scale.natAbs
    if 0 ≤ scale then
      let y := x.scaleUp power
      if y.isFinite then some y else none
    else some (x.scaleDown power)
  else if x.isZero then some x
  else if 0 ≤ scale then none
  else scaleByTen? (x.scaleDown (Binary64.ofDecimal false 1 greatestPower)) (scale + greatestPower)
termination_by scale.natAbs
decreasing_by simp only [greatestPower] at *; omega

/-- The number that the numeral `n` is read as, if it is not too large.  It need not be the nearest
    one. -/
def binary64? (n : Numeral) : Option Binary64 := do
  let (whole, wholeTaken) := appendDigits 0 n.whole
  let (significand, fractionTaken) := appendDigits whole n.fraction
  let scale := n.exponent.getD 0 + (n.whole.length - wholeTaken : Nat) - fractionTaken
  let x ← scaleByTen? (.ofNat significand) scale
  return if n.negative then x.neg else x

/-- The count that the numeral `n` stands for: digits only, and below `2 ^ 64`. -/
def count? (n : Numeral) : Option UInt64 :=
  if n.negative || !n.fraction.isEmpty || n.exponent.isSome then none
  else
    let value := readDigits n.whole
    if value < UInt64.size then some (UInt64.ofNat value) else none

/-- The layout of numbers: positional from `10 ^ -5` to below `10 ^ 16`, with a point in every
    positional numeral and a sign on every exponent. -/
def numberStyle : Binary64.Style where
  lowest := some (-5)
  highest := some 15
  wholePoint := true
  plus := true
  tie := .even

/-- The number `x` as a JSON value, which is `null` if `x` is not finite. -/
def ofBinary64 (x : Binary64) : Json :=
  if x.isFinite then .number (x.numeral numberStyle) else .null

/-- The count `n` as a JSON value. -/
def ofCount (n : UInt64) : Json := .number (.ofNat n.toNat)

end MapperSweep.Json
