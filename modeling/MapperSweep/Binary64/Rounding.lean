import MapperSweep.Binary64.Basic

/-!
# Rounding to the nearest number

A positive quotient `n / d`, measured in units of `2 ^ -1074`, goes to the nearest magnitude of the
format, and a quotient halfway between two magnitudes goes to the one of even rank.  From the middle
between the largest number and `2 ^ 1024` on it goes to infinity.

Reading a decimal, converting a whole number, multiplying and dividing are each one rounding of an
exact quotient.
-/

namespace MapperSweep.Binary64

/-- The largest rank whose magnitude is at most `n / d` units. -/
def floorRank (n d : Nat) : Nat :=
  let q := n / d
  let shift := q.log2 - 52
  shift * binade + q / Nat.pow 2 shift

/-- The rank of the magnitude nearest to `n / d` units. -/
def nearestRank (n d : Nat) : Nat :=
  let r := floorRank n d
  let middle := (units r + units (r + 1)) * d
  let nearest :=
    if 2 * n < middle then r
    else if middle < 2 * n then r + 1
    else r + r % 2
  min nearest infinityRank

theorem nearestRank_le (n d : Nat) : nearestRank n d ≤ infinityRank := Nat.min_le_right ..

/-- The number nearest to `n / d` units, with the sign that `negative` gives. -/
def ofUnits (negative : Bool) (n d : Nat) : Binary64 where
  negative
  rank := nearestRank n d
  rank_lt := Nat.lt_of_le_of_lt (nearestRank_le n d) (by decide)

/-- The number nearest to `n / d`, with the sign that `negative` gives. -/
def ofRatio (negative : Bool) (n d : Nat) : Binary64 := ofUnits negative (n * unitsPerOne) d

/-- The number nearest to the natural number `n`. -/
def ofNat (n : Nat) : Binary64 := ofRatio false n 1

/-- The number nearest to the integer `z`.  Zero is positive. -/
def ofInt (z : Int) : Binary64 := ofRatio (z < 0) z.natAbs 1

/-- The number nearest to `coefficient * 10 ^ scale`, with a sign.  The first two cases answer what
    the last one would, without raising ten to a power far out of range. -/
def ofDecimal (negative : Bool) (coefficient : Nat) (scale : Int) : Binary64 :=
  if coefficient = 0 then zero negative
  else if 400 < scale then infinity negative
  else if scale < -(400 + coefficient.log2 : Int) then zero negative
  else ofRatio negative (coefficient * Nat.pow 10 scale.toNat) (Nat.pow 10 (-scale).toNat)

/-- The product of the finite magnitudes of `x` and `y`, rounded; the sign of `x` is kept. -/
def scaleUp (x y : Binary64) : Binary64 :=
  ofUnits x.negative (units x.rank * units y.rank) unitsPerOne

/-- The quotient of the finite magnitudes of `x` and `y`, rounded; the sign of `x` is kept. -/
def scaleDown (x y : Binary64) : Binary64 :=
  ofUnits x.negative (units x.rank * unitsPerOne) (units y.rank)

end MapperSweep.Binary64
