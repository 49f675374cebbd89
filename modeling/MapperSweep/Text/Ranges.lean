/-!
# Ranges of code points

Tables that say which characters have a property, as ranges of code points.
-/

namespace MapperSweep.Text

/-- Whether a table of ranges has the code point `n`. -/
def inRanges (table : List (Nat × Nat)) (n : Nat) : Bool :=
  table.any fun (lo, hi) => lo ≤ n && n ≤ hi

end MapperSweep.Text
