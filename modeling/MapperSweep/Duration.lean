import MapperSweep.Numeral

/-!
# Durations

Spans of time to the nanosecond, and their text in the largest unit in which they are not below one.
-/

namespace MapperSweep

/-- A span of time, in `nanoseconds`. -/
structure Duration where
  nanoseconds : Nat
deriving DecidableEq

namespace Duration

/-- The nanoseconds in a second. -/
def second : Nat := 1000000000

/-- The nanoseconds in a millisecond. -/
def millisecond : Nat := 1000000

/-- The nanoseconds in a microsecond. -/
def microsecond : Nat := 1000

/-- The span of `n` seconds. -/
def ofSeconds (n : Nat) : Duration := ⟨n * second⟩

/-- The span of `n` milliseconds. -/
def ofMilliseconds (n : Nat) : Duration := ⟨n * millisecond⟩

/-- The quotient of `n` by `10 ^ places` in decimal notation, without zeros at the end. -/
def decimalText (n places : Nat) : List Char :=
  let unit := Nat.pow 10 places
  let below := n % unit
  let all := digits below
  let padded := List.replicate (places - all.length) '0' ++ all
  let fraction := (padded.reverse.dropWhile (· == '0')).reverse
  digits (n / unit) ++ if fraction.isEmpty then [] else '.' :: fraction

/-- The text of the span `d`, in the largest unit in which it is not below one. -/
def text (d : Duration) : String :=
  let n := d.nanoseconds
  if second ≤ n then String.ofList (decimalText n 9) ++ "s"
  else if millisecond ≤ n then String.ofList (decimalText n 6) ++ "ms"
  else if microsecond ≤ n then String.ofList (decimalText n 3) ++ "µs"
  else String.ofList (decimalText n 0) ++ "ns"

end Duration

end MapperSweep
