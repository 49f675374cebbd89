/-!
# Looking for a piece of text

Search for a fixed piece inside a text, and the parts before and after it.

* `stripStart?_eq_some`   what is left after a leading piece
-/

namespace MapperSweep.Text

/-- What follows the leading piece `piece`, if the text starts with it. -/
def stripStart? : (piece cs : List Char) → Option (List Char)
  | [], cs => some cs
  | _ :: _, [] => none
  | p :: ps, c :: cs => if p = c then stripStart? ps cs else none

theorem stripStart?_eq_some {piece cs rest : List Char} :
    stripStart? piece cs = some rest ↔ cs = piece ++ rest := by
  induction piece generalizing cs with
  | nil => simp [stripStart?]
  | cons p ps ih =>
    cases cs with
    | nil => simp [stripStart?]
    | cons c cs =>
      by_cases h : p = c
      · simp [stripStart?, h, ih]
      · simp only [stripStart?, h, if_false, List.cons_append, List.cons.injEq, reduceCtorEq,
          false_iff, not_and]
        intro hc
        exact absurd hc.symm h

/-- The parts before and after the first occurrence of `piece`. -/
def splitAt? (piece : List Char) : List Char → Option (List Char × List Char)
  | [] => (stripStart? piece []).map ([], ·)
  | c :: cs =>
    match stripStart? piece (c :: cs) with
    | some rest => some ([], rest)
    | none => (splitAt? piece cs).map fun (front, rest) => (c :: front, rest)

/-- Whether `piece` occurs in the text. -/
def contains (piece cs : List Char) : Bool := (splitAt? piece cs).isSome

/-- The text up to the first occurrence of `piece`, or all of it. -/
def upTo (piece cs : List Char) : List Char :=
  match splitAt? piece cs with
  | some (front, _) => front
  | none => cs

/-- What follows the last occurrence of `sep`. -/
def afterLast? (sep : Char) : List Char → Option (List Char)
  | [] => none
  | c :: cs =>
    match afterLast? sep cs with
    | some rest => some rest
    | none => if c = sep then some cs else none

/-- Drops every copy of `c` from the back of `cs`. -/
def dropTrailing (c : Char) (cs : List Char) : List Char :=
  (cs.reverse.dropWhile (· == c)).reverse

/-- The pieces of a text between the copies of `sep`, so always at least one. -/
def splitOnChar (sep : Char) : List Char → List (List Char)
  | [] => [[]]
  | c :: cs =>
    if c = sep then [] :: splitOnChar sep cs
    else match splitOnChar sep cs with
      | [] => [[c]]
      | piece :: pieces => (c :: piece) :: pieces

end MapperSweep.Text
