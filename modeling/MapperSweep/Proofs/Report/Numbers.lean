import MapperSweep.Proofs.Binary64.FewestDigits
import MapperSweep.Proofs.Text
import MapperSweep.Report.Summary

/-!
# The numbers of the report

The report and the table of best records write a number so that it is read back, shows that it is
not a count and has no digit that could be left out.  As the text of a number has no blank, it can
be told from the blanks that fill up its cell.  So two records with different weights or fidelities
differ in the cells that show them.

## Key results

- `point_or_exponent`: a finite number has a point or an exponent
- `append_blanks_inj`: a text without blanks is determined by its cell
- `optionalFloat_inj`: a number is determined by its text
- `float_identifies_number`: the texts of numbers, and the cells that show them
-/

namespace MapperSweep.Report

/-! ## The text of a number -/

/-- `positionalNumeral` with a point in whole numbers always has a fraction. -/
private theorem fraction_positionalNumeral_ne (negative : Bool) (d : Binary64.Decimal) :
    (Binary64.positionalNumeral true negative d).fraction ≠ [] := by
  have hdigits := List.length_pos_iff.2 (digits_ne_nil d.coefficient)
  unfold Binary64.positionalNumeral
  dsimp only
  split
  · exact List.cons_ne_nil _ _
  · split
    · rw [← List.length_pos_iff, List.length_drop]
      omega
    · exact List.append_ne_nil_of_right_ne_nil _ (digits_ne_nil d.coefficient)

private theorem fraction_or_exponent (x : Binary64) :
    (x.numeral numberStyle).fraction ≠ [] ∨ (x.numeral numberStyle).exponent.isSome = true := by
  unfold Binary64.numeral
  split
  · exact .inl (fraction_positionalNumeral_ne _ _)
  · dsimp only
    split
    · exact .inl (fraction_positionalNumeral_ne _ _)
    · exact .inr rfl

/-- The text `float x` of a finite number has a point or an exponent. -/
theorem point_or_exponent {x : Binary64} (h : x.isFinite = true) :
    '.' ∈ float x ∨ 'e' ∈ float x := by
  rw [float, Binary64.text_of_isFinite numberStyle h, Numeral.text_eq_parts]
  rcases fraction_or_exponent x with hfraction | hexponent
  · left
    simp [Numeral.fractionPart, hfraction]
  · right
    obtain ⟨e, he⟩ := Option.isSome_iff_exists.1 hexponent
    simp [Numeral.powerPart, he]

/-- A number is determined by its text `optionalFloat`, and an absent number has another text. -/
theorem optionalFloat_inj {u v : Option Binary64} (hu : ∀ x ∈ u, x.isNaN = false)
    (hv : ∀ x ∈ v, x.isNaN = false) (h : optionalFloat u = optionalFloat v) : u = v := by
  -- Reading takes every text back, and an empty text is no number.
  have hread : ∀ w : Option Binary64, (∀ x ∈ w, x.isNaN = false) →
      Binary64.ofText? (optionalFloat w) = w := by
    intro w hw
    cases w with
    | none => rfl
    | some x => exact Binary64.ofText?_text numberStyle (hw x rfl)
  rw [← hread u hu, ← hread v hv, h]

/-! ## Cells -/

/-- The text of a number has no other character than `numberChars`. -/
theorem not_mem_optionalFloat (u : Option Binary64) {c : Char} (hc : c ∉ numberChars) :
    c ∉ optionalFloat u := by
  cases u with
  | none => exact List.not_mem_nil
  | some x =>
    intro hmem
    exact hc (Binary64.isNumberText_text numberStyle x c hmem)

/-- A text without blanks is determined by what stands before the blanks after it. -/
theorem append_blanks_inj {s t : List Char} {m n : Nat} (hs : ' ' ∉ s) (ht : ' ' ∉ t)
    (h : s ++ List.replicate m ' ' = t ++ List.replicate n ' ') : s = t := by
  have hcut : ∀ (u : List Char) (k : Nat), ' ' ∉ u →
      (u ++ List.replicate k ' ').takeWhile (· != ' ') = u := by
    intro u k hu
    have hall : ∀ c ∈ u, (c != ' ') = true := by
      intro c hc
      apply bne_iff_ne.2
      rintro rfl
      exact hu hc
    have hblanks : (List.replicate k ' ').takeWhile (· != ' ') = [] := by
      cases k <;> rfl
    rw [List.takeWhile_append_of_pos hall, hblanks, List.append_nil]
  rw [← hcut s m hs, ← hcut t n ht, h]

/-- `cellLine` of `cs` is a blank, `cs` and the blanks that fill it up, one of which is the right
    end. -/
private theorem cellLine_eq (width : Nat) (cs : List Char) :
    BoxTable.cellLine width cs =
      ' ' :: (cs ++ List.replicate (width - Text.width cs + 1) ' ') := by
  rw [BoxTable.cellLine, List.cons_append, List.cons_append, List.append_assoc,
    ← List.replicate_append_replicate, List.replicate_one]

/-- A number that has a column in the report and in the table of best records. -/
inductive Quantity where
  | gateWeight
  | shuttlingWeight
  | fidelity

namespace Quantity

/-- The label of the two columns that show the quantity. -/
def label : Quantity → String
  | gateWeight => "gateW"
  | shuttlingWeight => "shutW"
  | fidelity => "Fidelity"

/-- The number of a record that the quantity stands for, if it has one. -/
def value : Quantity → Record → Option Binary64
  | gateWeight, r => some r.weights.gate
  | shuttlingWeight, r => some r.weights.shuttling
  | fidelity, r => r.metrics.fidelity

/-- The cells of `r` in the columns of the report with the label of `q`. -/
def reportCells (q : Quantity) (layout : Layout) (r : Record) : List (List Char) :=
  (layout.sections.flatten.filter (·.label = q.label)).map fun c => padRight c.width (c.value r)

/-- The lines of `r` in the columns of the table of best records with the label of `q`, if they have
    the given `width`. -/
def tableCells (q : Quantity) (width : Nat) (r : Record) : List (List Char) :=
  ((bestHeads.zip (bestCells r)).filter (·.1 = q.label.toList)).flatMap fun p =>
    (BoxTable.cellLines p.2).map (BoxTable.cellLine width)

/-- The report has one column with the label of `q`, which shows the number of `r`. -/
theorem reportCells_eq (q : Quantity) (layout : Layout) :
    ∃ width, ∀ r, q.reportCells layout r = [padRight width (optionalFloat (q.value r))] := by
  cases q with
  | gateWeight => exact ⟨6, fun r => by cases layout <;> rfl⟩
  | shuttlingWeight => exact ⟨6, fun r => by cases layout <;> rfl⟩
  | fidelity => exact ⟨12, fun r => by cases layout <;> rfl⟩

/-- The table has one column with the label of `q`, which shows the number of `r` on one line. -/
theorem tableCells_eq (q : Quantity) (width : Nat) (r : Record) :
    q.tableCells width r = [BoxTable.cellLine width (optionalFloat (q.value r))] := by
  have hcell : (bestHeads.zip (bestCells r)).filter (·.1 = q.label.toList) =
      [(q.label.toList, optionalFloat (q.value r))] := by
    cases q <;> rfl
  have hline : BoxTable.cellLines (optionalFloat (q.value r)) = [optionalFloat (q.value r)] :=
    Text.splitOnChar_of_not_mem (not_mem_optionalFloat _ (by decide))
  rw [tableCells, hcell, List.flatMap_singleton, hline, List.map_singleton]

end Quantity

/-- Every number but "not a number" is read back from its text `float x`, with the sign of zero.
    The text of a finite number has a point or an exponent, and no text with fewer significant
    digits is read as that number.  So two records that differ in a weight or in the fidelity have
    different cells for it, in every layout of the report and in every width of the table of best
    records. -/
theorem float_identifies_number :
    (∀ x : Binary64, x.isNaN = false → Binary64.ofText? (float x) = some x) ∧
    (∀ x : Binary64, x.isFinite = true → ('.' ∈ float x ∨ 'e' ∈ float x) ∧
      ∀ cs, Binary64.ofText? cs = some x → significantDigits (float x) ≤ significantDigits cs) ∧
    ∀ (q : Quantity) (a b : Record), (∀ x ∈ q.value a, x.isNaN = false) →
      (∀ x ∈ q.value b, x.isNaN = false) → q.value a ≠ q.value b →
      (∀ layout, q.reportCells layout a ≠ q.reportCells layout b) ∧
      ∀ width, q.tableCells width a ≠ q.tableCells width b := by
  refine ⟨fun x h => Binary64.ofText?_text numberStyle h, fun x h => ⟨point_or_exponent h, ?_⟩, ?_⟩
  · intro cs hread
    exact Binary64.significantDigits_text_le numberStyle h hread
  · intro q a b ha hb hne
    have hblank : ∀ r, ' ' ∉ optionalFloat (q.value r) := fun r =>
      not_mem_optionalFloat _ (by decide)
    constructor
    · intro layout hcells
      obtain ⟨width, heq⟩ := q.reportCells_eq layout
      rw [heq, heq] at hcells
      exact hne (optionalFloat_inj ha hb
        (append_blanks_inj (hblank a) (hblank b) (List.cons.inj hcells).1))
    · intro width hcells
      rw [q.tableCells_eq, q.tableCells_eq, cellLine_eq, cellLine_eq] at hcells
      have hline := (List.cons.inj (List.cons.inj hcells).1).2
      exact hne (optionalFloat_inj ha hb (append_blanks_inj (hblank a) (hblank b) hline))

/-- A record of two zeros as weights, the first one `negative` or not, and the given `fidelity`. -/
def zeroWeights (negative : Bool) (fidelity : Option Binary64) : Record where
  benchmark := "ghz"
  architecture := .gate
  coordinateMapping := .trivial
  runIndex := 0
  weights := ⟨.zero negative, .zero false⟩
  metrics := { fidelity }

/-- The text of `3e-1` has the least number of significant digits, and the two zeros, or a fidelity
    of infinity and none at all, have different cells. -/
theorem float_identifies_zeros :
    let x := Binary64.ofDecimal false 3 (-1)
    float x = "0.3".toList ∧
    (∀ cs, Binary64.ofText? cs = some x → 1 ≤ significantDigits cs) ∧
    Binary64.ofText? (float (.zero true)) = some (.zero true) ∧
    (∀ layout, Quantity.gateWeight.reportCells layout (zeroWeights true none) ≠
      Quantity.gateWeight.reportCells layout (zeroWeights false none)) ∧
    ∀ width, Quantity.fidelity.tableCells width (zeroWeights true none) ≠
      Quantity.fidelity.tableCells width (zeroWeights true (some (.infinity false))) := by
  intro x
  obtain ⟨hread, hfinite, hcells⟩ := float_identifies_number
  have htext : float x = "0.3".toList := by decide +kernel
  have hdigits : significantDigits (float x) = 1 := by decide +kernel
  have hfew := (hfinite x (by decide +kernel)).2
  rw [hdigits] at hfew
  refine ⟨htext, hfew, hread _ (by decide), ?_, ?_⟩
  · apply (hcells .gateWeight _ _ _ _ _).1
    · exact fun x hx => Option.some.inj hx ▸ by decide
    · exact fun x hx => Option.some.inj hx ▸ by decide
    · decide
  · apply (hcells .fidelity _ _ _ _ _).2
    · intro x hx
      cases hx
    · exact fun x hx => Option.some.inj hx ▸ by decide
    · decide

end MapperSweep.Report
