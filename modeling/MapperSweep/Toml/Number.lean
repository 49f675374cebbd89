import MapperSweep.Binary64.Reading
import MapperSweep.Json.Parser
import MapperSweep.Toml.Basic

/-!
# Numbers, dates and times of TOML

Underscores may stand between digits.  Whole numbers are 64-bit with a sign, in decimal or after
`0x`, `0o` or `0b`.  Dates and times are checked against the calendar.
-/

namespace MapperSweep.Toml

/-- The digits that continue a number, without the underscores between them, and what follows them.
    `isDigit` says what a digit is. -/
def groupedTail (isDigit : Char → Bool) : List Char → List Char × List Char
  | '_' :: c :: rest =>
    if isDigit c then
      let (ds, rest) := groupedTail isDigit rest
      (c :: ds, rest)
    else ([], '_' :: c :: rest)
  | c :: rest =>
    if isDigit c then
      let (ds, rest) := groupedTail isDigit rest
      (c :: ds, rest)
    else ([], c :: rest)
  | [] => ([], [])

/-- At least one digit, without the underscores between digits, and what follows; see
    `groupedTail`. -/
def grouped? (isDigit : Char → Bool) : List Char → Option (List Char × List Char)
  | c :: rest =>
    if isDigit c then
      let (ds, rest) := groupedTail isDigit rest
      some (c :: ds, rest)
    else none
  | [] => none

/-- An optional sign at the front: whether it is a minus, and what follows it. -/
def readSign : List Char → Bool × List Char
  | '-' :: rest => (true, rest)
  | '+' :: rest => (false, rest)
  | cs => (false, cs)

/-- The digits of a decimal number, which start with zero only if there is no other, and what
    follows. -/
def readWhole? : List Char → Option (List Char × List Char)
  | '0' :: rest => some (['0'], rest)
  | cs => grouped? Char.isDigit cs

/-- `z` as a whole number of 64 bits, or `none` if it is too large for that. -/
def integer? (z : Int) : Option Value :=
  if -0x8000000000000000 ≤ z ∧ z < 0x8000000000000000 then some (.integer z) else none

/-- A whole number in the given `radix`, with what follows it; the value of a digit is
    `Json.hexValue?`. -/
def readRadix? (radix : Nat) (cs : List Char) : Option (Value × List Char) := do
  let isDigit c := (Json.hexValue? c).any (· < radix)
  let (ds, rest) ← grouped? isDigit cs
  let n := ds.foldl (fun n d => radix * n + (Json.hexValue? d).getD 0) 0
  return (← integer? n, rest)

/-- The part of a number after the letter of its exponent: the exponent and what follows it. -/
def readPower? (cs : List Char) : Option (Int × List Char) := do
  let (negative, rest) := readSign cs
  let (ds, rest) ← grouped? Char.isDigit rest
  let e : Int := readExponent ds
  return (if negative then -e else e, rest)

/-- The real number that the parts `n` stand for.  One that is too large is refused, unless it is
    negative. -/
def float? (n : Numeral) : Option Value :=
  let x := n.toBinary64
  if x.isFinite || x.negative then some (.float x) else none

/-- A decimal number with what follows it: `.integer`, or `.float` if a point or an exponent follows
    its digits.  `inf` and `nan` are numbers, too, and may have a sign. -/
def readDecimal? (cs : List Char) : Option (Value × List Char) := do
  let (negative, rest) := readSign cs
  match rest with
  | 'i' :: 'n' :: 'f' :: rest => return (.float (.infinity negative), rest)
  | 'n' :: 'a' :: 'n' :: rest => return (.float (.nan negative), rest)
  | _ =>
    let (whole, rest) ← readWhole? rest
    let power (fraction rest : List Char) : Option (Value × List Char) := do
      match rest with
      | c :: after =>
        if c = 'e' ∨ c = 'E' then
          let (e, rest) ← readPower? after
          return (← float? { negative, whole, fraction, exponent := some e }, rest)
        else return (← float? { negative, whole, fraction }, rest)
      | [] => return (← float? { negative, whole, fraction }, rest)
    match rest with
    | '.' :: rest =>
      let (fraction, rest) ← grouped? Char.isDigit rest
      power fraction rest
    | 'e' :: _ => power [] rest
    | 'E' :: _ => power [] rest
    | _ =>
      let n : Int := readDigits whole
      return (← integer? (if negative then -n else n), rest)

/-- A number with what follows it, by `readRadix?` after `0x`, `0o` and `0b` and by `readDecimal?`
    otherwise. -/
def readNumber? : List Char → Option (Value × List Char)
  | '0' :: 'x' :: rest => readRadix? 16 rest
  | '0' :: 'o' :: rest => readRadix? 8 rest
  | '0' :: 'b' :: rest => readRadix? 2 rest
  | cs => readDecimal? cs

/-- A number of exactly `count` digits between `low` and `high`, and what follows it. -/
def fixedDigits? (count low high : Nat) (cs : List Char) : Option (Nat × List Char) :=
  let ds := cs.take count
  let n := readDigits ds
  if ds.length = count ∧ ds.all Char.isDigit ∧ low ≤ n ∧ n ≤ high then some (n, cs.drop count)
  else none

/-- What follows the character `c` at the front. -/
def skipChar? (c : Char) : List Char → Option (List Char)
  | d :: rest => if c = d then some rest else none
  | [] => none

/-- How many days the `month` of the `year` has. -/
def daysIn (year month : Nat) : Nat :=
  if month = 2 then
    if year % 4 = 0 ∧ (year % 100 ≠ 0 ∨ year % 400 = 0) then 29 else 28
  else if month = 4 ∨ month = 6 ∨ month = 9 ∨ month = 11 then 30
  else 31

/-- What follows a date at the front, which has to exist, see `daysIn`. -/
def skipDate? (cs : List Char) : Option (List Char) := do
  let (year, rest) ← fixedDigits? 4 0 9999 cs
  let (month, rest) ← fixedDigits? 2 1 12 (← skipChar? '-' rest)
  let (_, rest) ← fixedDigits? 2 1 (daysIn year month) (← skipChar? '-' rest)
  return rest

/-- What follows a time of day at the front, with a fraction of a second or without. -/
def skipTime? (cs : List Char) : Option (List Char) := do
  let (_, rest) ← fixedDigits? 2 0 23 cs
  let (_, rest) ← fixedDigits? 2 0 59 (← skipChar? ':' rest)
  let (_, rest) ← fixedDigits? 2 0 60 (← skipChar? ':' rest)
  match rest with
  | '.' :: d :: after => return if d.isDigit then after.dropWhile Char.isDigit else rest
  | _ => return rest

/-- What follows the distance from universal time: `Z`, or hours and minutes with a sign. -/
def skipOffset? : List Char → Option (List Char)
  | c :: rest =>
    if c = 'Z' ∨ c = 'z' then some rest
    else if c = '+' ∨ c = '-' then do
      let (_, rest) ← fixedDigits? 2 0 23 rest
      let (_, rest) ← fixedDigits? 2 0 59 (← skipChar? ':' rest)
      return rest
    else none
  | [] => none

/-- What follows a date, a time, or both with an optional distance from universal time; see
    `skipDate?`, `skipTime?` and `skipOffset?`. -/
def skipDatetime? (cs : List Char) : Option (List Char) :=
  match skipDate? cs with
  | none => skipTime? cs
  | some rest =>
    match rest with
    | c :: after =>
      if c = 'T' ∨ c = 't' ∨ c = ' ' then
        match skipTime? after with
        | some rest => some ((skipOffset? rest).getD rest)
        | none => some rest
      else some rest
    | [] => some []

/-- A number, or a date or time, of which nothing is kept but `.datetime`. -/
def readScalar? (cs : List Char) : Option (Value × List Char) :=
  match skipDatetime? cs with
  | some rest => some (.datetime, rest)
  | none => readNumber? cs

end MapperSweep.Toml
