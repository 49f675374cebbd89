import MapperSweep.Binary64.Writing
import MapperSweep.Proofs.Binary64.ReadsBack
import MapperSweep.Proofs.Numeral

/-!
# The value of a written number

A positive number is written with the digits of its shortest decimal.  Whatever the layout, the
digits and the power of ten of the numeral have the value of that decimal, so the numeral reads
back.

## Key results

- `coefficient_positionalNumeral`, `scale_positionalNumeral`: positional notation
- `coefficient_scientificNumeral`, `scale_scientificNumeral`: scientific notation
- `readsBack_numeral`: a numeral reads back
- `isNumberText_text`: the characters of written numbers
-/

namespace MapperSweep.Binary64

/-! ## The two notations -/

/-- How many zeros positional notation writes after the digits of `d`; a point after a whole number
    asks for one more. -/
def zerosAfter (wholePoint : Bool) (d : Decimal) : Nat :=
  if 0 ≤ d.scale then d.scale.toNat + wholePoint.toNat else 0

/-- The digits of `positionalNumeral` are those of `d` and the zeros after them. -/
theorem coefficient_positionalNumeral (wholePoint negative : Bool) (d : Decimal) :
    (positionalNumeral wholePoint negative d).coefficient =
      10 ^ zerosAfter wholePoint d * d.coefficient := by
  rw [positionalNumeral, zerosAfter]
  dsimp only
  split
  · rename_i hscale
    have hzeros : (if wholePoint then ['0'] else []) = List.replicate wholePoint.toNat '0' := by
      cases wholePoint <;> rfl
    rw [Numeral.coefficient, hzeros, List.append_assoc, List.replicate_append_replicate,
      readDigits_append_zeros, readDigits_digits]
  · split
    -- The digits stand on both sides of the point.
    · rw [Numeral.coefficient, List.take_append_drop, readDigits_digits, Nat.pow_zero, Nat.one_mul]
    -- The digits all stand behind it, after zeros.
    · rw [Numeral.coefficient, ← List.append_assoc, ← List.replicate_one,
        List.replicate_append_replicate, readDigits_zeros_append, readDigits_digits, Nat.pow_zero,
        Nat.one_mul]

/-- The zeros that `positionalNumeral` writes after the digits of `d` lower its scale. -/
theorem scale_positionalNumeral (wholePoint negative : Bool) (d : Decimal) :
    (positionalNumeral wholePoint negative d).scale + zerosAfter wholePoint d = d.scale := by
  rw [positionalNumeral, zerosAfter]
  dsimp only
  split
  · cases wholePoint <;> simp [Numeral.scale] <;> omega
  · split
    · simp only [Numeral.scale, List.length_drop, Option.getD_none]
      omega
    · simp only [Numeral.scale, List.length_append, List.length_replicate, Option.getD_none]
      omega

theorem coefficient_scientificNumeral (negative : Bool) (d : Decimal) :
    (scientificNumeral negative d).coefficient = d.coefficient := by
  rw [scientificNumeral, Numeral.coefficient, List.take_append_drop, readDigits_digits]

theorem scale_scientificNumeral (negative : Bool) (d : Decimal) :
    (scientificNumeral negative d).scale = d.scale := by
  have hdigit := List.length_pos_iff.2 (digits_ne_nil d.coefficient)
  simp only [scientificNumeral, Numeral.scale, Option.getD_some, List.length_drop]
  omega

/-! ## The numeral of a number -/

theorem negative_numeral (s : Style) (x : Binary64) : (x.numeral s).negative = x.negative := by
  have hpositional : ∀ d, (positionalNumeral s.wholePoint x.negative d).negative = x.negative := by
    intro d
    rw [positionalNumeral]
    dsimp only
    split
    · rfl
    · split <;> rfl
  rw [numeral]
  split
  · exact hpositional _
  · dsimp only
    split
    · exact hpositional _
    · rfl

/-- The numeral of a positive number has the value of its `shortest` decimal. -/
theorem decimalUnits_numeral (s : Style) {x : Binary64} (hx : 0 < x.rank) :
    decimalUnits (x.numeral s).coefficient (x.numeral s).scale =
      decimalUnits (shortest s.tie x.rank).coefficient (shortest s.tie x.rank).scale := by
  have hzero : x.isZero = false := beq_eq_false_iff_ne.2 hx.ne'
  rw [numeral, hzero, if_neg Bool.false_ne_true]
  dsimp only
  split
  · rw [coefficient_positionalNumeral, decimalUnits_pow_mul, scale_positionalNumeral]
  · rw [coefficient_scientificNumeral, scale_scientificNumeral]

/-- The numeral of a positive `x` reads back as `x.rank`. -/
theorem readsBack_numeral (s : Style) {x : Binary64} (hx : 0 < x.rank) :
    readsBack x.rank (x.numeral s).coefficient (x.numeral s).scale = true := by
  obtain ⟨r, hr⟩ := Nat.exists_eq_succ_of_ne_zero hx.ne'
  have hshortest := readsBack_shortest s.tie hx
  rw [hr] at hshortest ⊢
  rw [readsBack_iff] at hshortest ⊢
  rw [decimalUnits_numeral s hx, hr]
  exact hshortest

/-- A finite number is written as its `numeral`. -/
theorem text_of_isFinite (s : Style) {x : Binary64} (h : x.isFinite = true) :
    x.text s = (x.numeral s).text s.plus := by
  have hnan : x.isNaN = false := by
    simp only [isNaN, isFinite, decide_eq_true_eq, decide_eq_false_iff_not] at h ⊢
    omega
  simp [text, hnan, h]

/-! ## Characters -/

theorem isDigit_positionalNumeral (wholePoint negative : Bool) (d : Decimal) :
    ∀ c ∈ (positionalNumeral wholePoint negative d).whole ++
      (positionalNumeral wholePoint negative d).fraction, c.isDigit = true := by
  have hdigits : ∀ c ∈ digits d.coefficient, c.isDigit = true := fun _ => isDigit_of_mem_digits
  have hzero : '0'.isDigit = true := rfl
  intro c hc
  rw [positionalNumeral] at hc
  dsimp only at hc
  split at hc
  · cases wholePoint <;> simp only [Bool.false_eq_true, if_false, if_true, List.mem_append,
      List.mem_replicate, List.mem_singleton, List.not_mem_nil, or_false] at hc
    · exact hc.elim (hdigits c) fun h => h.2 ▸ hzero
    · exact hc.elim (fun h => h.elim (hdigits c) fun h => h.2 ▸ hzero) fun h => h ▸ hzero
  · split at hc
    · rw [List.take_append_drop] at hc
      exact hdigits c hc
    · simp only [List.mem_append, List.mem_singleton, List.mem_replicate] at hc
      exact hc.elim (fun h => h ▸ hzero) fun h => h.elim (fun h => h.2 ▸ hzero) (hdigits c)

/-- All characters before and after the point of `x.numeral s` are digits. -/
theorem isDigit_numeral (s : Style) (x : Binary64) :
    ∀ c ∈ (x.numeral s).whole ++ (x.numeral s).fraction, c.isDigit = true := by
  rw [numeral]
  split
  · exact isDigit_positionalNumeral _ _ _
  · dsimp only
    split
    · exact isDigit_positionalNumeral _ _ _
    · intro c hc
      rw [scientificNumeral, List.take_append_drop] at hc
      exact isDigit_of_mem_digits hc

/-- The text of `x` consists of `numberChars`. -/
theorem isNumberText_text (s : Style) (x : Binary64) : IsNumberText (x.text s) := by
  rw [text]
  split
  · exact List.all_iff_forall_prop.1 (by decide)
  split
  · exact Numeral.isNumberText_text (isDigit_numeral s x) s.plus
  split
  · exact List.all_iff_forall_prop.1 (by decide)
  · exact List.all_iff_forall_prop.1 (by decide)

end MapperSweep.Binary64
