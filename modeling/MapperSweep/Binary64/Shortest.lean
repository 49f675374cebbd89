import MapperSweep.Binary64.Basic
import MapperSweep.Numeral

/-!
# The shortest decimal of a number

Every decimal strictly between the two middles around a number reads back as that number, and the
middles do too when the rank is even.  `shortest` takes the fewest digits with which some decimal
lies there, and of the decimals with that many digits the one nearest to the number.

A decimal here is `coefficient * 10 ^ scale`.  On the grid of multiples of `10 ^ scale` only the two
neighbours of the number matter: if any point of the grid reads back, so does one of these.
-/

namespace MapperSweep.Binary64

/-- Which of two equally near decimals is taken. -/
inductive Tie where
  /-- The larger one. -/
  | up
  /-- The one with an even last digit. -/
  | even
deriving DecidableEq

/-- The decimal `coefficient * 10 ^ scale`. -/
structure Decimal where
  coefficient : Nat
  scale : Int
deriving DecidableEq

/-- `10 ^ e` as a quotient of whole numbers. -/
def powerOfTen (e : Int) : Nat × Nat := (Nat.pow 10 e.toNat, Nat.pow 10 (-e).toNat)

/-- Whether `coefficient * 10 ^ scale` reads back as the positive number of rank `r`. -/
def readsBack (r coefficient : Nat) (scale : Int) : Bool :=
  let (a, b) := powerOfTen scale
  let twice := coefficient * a * (2 * unitsPerOne)
  let low := (units (r - 1) + units r) * b
  let high := (units r + units (r + 1)) * b
  if r % 2 = 0 then low ≤ twice && twice ≤ high else low < twice && twice < high

/-- The multiple of `10 ^ scale` just below the positive number of rank `r`, as a coefficient. -/
def below (r : Nat) (scale : Int) : Nat :=
  let (a, b) := powerOfTen scale
  units r * b / (unitsPerOne * a)

/-- The coefficient on the grid of `10 ^ scale` that is taken for rank `r`, if any point of the grid
    reads back. -/
def onGrid? (tie : Tie) (r : Nat) (scale : Int) : Option Nat :=
  let (a, b) := powerOfTen scale
  let lower := below r scale
  let upper := lower + 1
  match readsBack r lower scale, readsBack r upper scale with
  | true, true =>
    let twice := 2 * units r * b
    let middle := (lower + upper) * a * unitsPerOne
    if twice < middle then some lower
    else if middle < twice then some upper
    else match tie with
      | .up => some upper
      | .even => some (lower + lower % 2)
  | true, false => some lower
  | false, true => some upper
  | false, false => none

/-- How many decimal digits the positive number `n` has. -/
def digitCount (n : Nat) : Nat := if n < 10 then 1 else digitCount (n / 10) + 1

/-- The position of the decimal point: the least `k` for which the positive number of rank `r` is
    below `10 ^ k`.  Every positive number is above `10 ^ -324`. -/
def pointPosition (r : Nat) : Int := digitCount (units r * Nat.pow 10 324 / unitsPerOne) - 324

/-- The decimal `coefficient * 10 ^ scale` without zeros at the end of its coefficient. -/
def dropZeros (coefficient : Nat) (scale : Int) : Decimal :=
  if h : coefficient ≠ 0 ∧ coefficient % 10 = 0 then dropZeros (coefficient / 10) (scale + 1)
  else ⟨coefficient, scale⟩
termination_by coefficient
decreasing_by exact Nat.div_lt_self (Nat.pos_of_ne_zero h.1) (by decide)

/-- Tries the grids with `used` digits, with one more, and so on, at most `left` times.  Seventeen
    digits always suffice. -/
def shortestFrom (tie : Tie) (r : Nat) (point : Int) : (used left : Nat) → Decimal
  | used, 0 => ⟨below r (point - used), point - used⟩
  | used, left + 1 =>
    match onGrid? tie r (point - used) with
    | some c => dropZeros c (point - used)
    | none => shortestFrom tie r point (used + 1) left

/-- The shortest decimal of the positive finite number of rank `r`. -/
def shortest (tie : Tie) (r : Nat) : Decimal := shortestFrom tie r (pointPosition r) 1 17

end MapperSweep.Binary64
