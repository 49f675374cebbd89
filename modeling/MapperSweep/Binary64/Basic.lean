/-!
# Binary64 numbers

Floating-point numbers of the 64-bit binary format, as a sign and a *rank*: the position of the
magnitude among all magnitudes of the format.  Rank 0 is zero, the next `2 ^ 52 - 1` ranks are the
subnormal numbers, `infinityRank` is infinity, and the ranks above it are not numbers.

A magnitude is measured in *units* of `2 ^ -1074`, the smallest positive number.  `units` takes a
rank to its magnitude, and it takes `infinityRank` to `2 ^ 1024`, the value from which the spacing
of the largest numbers is measured.  Everything said about these numbers is then said in whole
numbers.

* `units_of_lt`   below `2 ^ 53` a rank is its own magnitude
* `key_inj`       the total order tells any two numbers apart
-/

namespace MapperSweep

/-- The number of ranks with the same exponent, `2 ^ 52`. -/
def Binary64.binade : Nat := 0x10000000000000

/-- A number of the 64-bit binary format: a sign and a `rank`, by which magnitudes are counted
    through. -/
structure Binary64 where
  negative : Bool
  rank : Nat
  rank_lt : rank < 2048 * Binary64.binade
deriving DecidableEq

namespace Binary64

/-- The rank of infinity.  All finite magnitudes have ranks below `infinityRank`. -/
def infinityRank : Nat := 2047 * binade

/-- The rank of `nan`, one of the many above `infinityRank`. -/
def quietRank : Nat := infinityRank + binade / 2

/-- The magnitude of rank `r` in units of `2 ^ -1074`, of which every finite one is a multiple. -/
def units (r : Nat) : Nat :=
  if r < binade then r else (binade + r % binade) * Nat.pow 2 (r / binade - 1)

/-- How many `units` there are in one. -/
def unitsPerOne : Nat := Nat.pow 2 1074

theorem units_of_lt {r : Nat} (h : r < 2 * binade) : units r = r := by
  unfold units
  split
  · rfl
  · unfold binade at *
    have h1 : r / 0x10000000000000 = 1 := by omega
    rw [h1, Nat.sub_self, Nat.pow_eq, Nat.pow_zero]
    omega

/-- Zero, with the sign that `negative` gives. -/
def zero (negative : Bool) : Binary64 := ⟨negative, 0, by decide⟩

/-- Infinity, with the sign that `negative` gives. -/
def infinity (negative : Bool) : Binary64 := ⟨negative, infinityRank, by decide⟩

/-- Not a number.  It has a sign all the same, which `key` sees. -/
def nan (negative : Bool) : Binary64 := ⟨negative, quietRank, by decide⟩

instance : Inhabited Binary64 := ⟨zero false⟩

/-- Whether `x` is not a number. -/
def isNaN (x : Binary64) : Bool := infinityRank < x.rank

/-- Whether `x` is zero of either sign. -/
def isZero (x : Binary64) : Bool := x.rank == 0

/-- Whether `x` is neither infinite nor `nan`. -/
def isFinite (x : Binary64) : Bool := x.rank < infinityRank

/-- The number `x` with the opposite sign. -/
def neg (x : Binary64) : Binary64 := { x with negative := !x.negative }

/-- Numeric equality of `x` and `y`: the two zeros are equal, and what is not a number equals
    nothing. -/
def numEq (x y : Binary64) : Bool :=
  !x.isNaN && !y.isNaN && (x == y || (x.isZero && y.isZero))

/-- The place of `x` in the total order: negative not-a-number, minus infinity, the negative
    numbers, minus zero, zero, the positive numbers, infinity, positive not-a-number. -/
def key (x : Binary64) : Int := if x.negative then -1 - x.rank else x.rank

theorem key_inj {x y : Binary64} (h : x.key = y.key) : x = y := by
  obtain ⟨nx, rx, hx⟩ := x
  obtain ⟨ny, ry, hy⟩ := y
  simp only [key] at h
  cases nx <;> cases ny <;> simp at h <;> simp <;> omega

end Binary64

end MapperSweep
