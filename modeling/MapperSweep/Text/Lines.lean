/-!
# Lines

A line ends at a line feed, and a carriage return right before that line feed belongs to the
ending.  What follows the last line feed is a line of its own unless it is empty, and keeps its
carriage return.  Characters and bytes are split by the same rule.

* `splitLines_append_newline`  what follows a line feed is split as if it stood alone
-/

namespace MapperSweep.Text

/-- Drops one copy of `ret` from the end of `line`. -/
def chopReturn [DecidableEq α] (ret : α) (line : List α) : List α :=
  if line.getLast? = some ret then line.dropLast else line

/-- Splits a text after each copy of `feed`.  `line` holds, reversed, what was already read of the
    current line. -/
def splitLinesFrom [DecidableEq α] (feed ret : α) (line : List α) : List α → List (List α)
  | [] => if line.isEmpty then [] else [line.reverse]
  | c :: cs =>
    if c = feed then chopReturn ret line.reverse :: splitLinesFrom feed ret [] cs
    else splitLinesFrom feed ret (c :: line) cs

/-- The lines of a text in which `feed` ends a line, after an optional `ret`. -/
def splitLines [DecidableEq α] (feed ret : α) (cs : List α) : List (List α) :=
  splitLinesFrom feed ret [] cs

/-- The lines of the text `cs`. -/
def lines (cs : List Char) : List (List Char) := splitLines '\n' '\r' cs

/-- The lines of the byte string `bs`. -/
def byteLines (bs : List UInt8) : List (List UInt8) := splitLines 0x0A 0x0D bs

section

variable {α : Type} [DecidableEq α] (feed ret : α)

theorem splitLinesFrom_append_newline (line as bs : List α) :
    splitLinesFrom feed ret line (as ++ feed :: bs) =
      splitLinesFrom feed ret line (as ++ [feed]) ++ splitLines feed ret bs := by
  induction as generalizing line with
  | nil => simp [splitLinesFrom, splitLines]
  | cons c cs ih =>
    by_cases h : c = feed
    · simp [splitLinesFrom, h, ih]
    · simp [splitLinesFrom, h, ih]

/-- The lines of `as` before a line feed do not depend on the `bs` that follow it. -/
theorem splitLines_append_newline (as bs : List α) :
    splitLines feed ret (as ++ feed :: bs) =
      splitLines feed ret (as ++ [feed]) ++ splitLines feed ret bs :=
  splitLinesFrom_append_newline feed ret [] as bs

end

end MapperSweep.Text
