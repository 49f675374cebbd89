import MapperSweep.Binary64.Reading
import MapperSweep.Proofs.Binary64.Writing

/-!
# Written numbers are read back

A decimal is read as a positive number exactly if it lies between the two middles around it, and the
shortest decimal of the number does.  The text of a number is split at the point and at the letter
of the exponent, and each part is what was written there.  So every number but "not a number" comes
back from its text, whatever the layout, with the sign of zero and with infinity.

## Key results

- `ofDecimal_eq_iff`: the decimals that are read as a positive number
- `readSignedExponent?_signedDigits`: exponents are read back
- `Numeral.ofText?_parts`, `Numeral.ofText?_text`: numerals are read back
- `toBinary64_numeral`, `ofText?_text`: numbers are read back
-/

namespace MapperSweep

namespace Binary64

/-! ## Decimals -/

/-- The rank that `ofDecimal` gives, without the two cases of extreme scales that it looks at
    first. -/
private theorem ofRatio_rank (negative : Bool) (coefficient : Nat) (scale : Int) :
    (ofRatio negative (coefficient * Nat.pow 10 scale.toNat) (Nat.pow 10 (-scale).toNat)).rank =
      nearestRank (coefficient * (powerOfTen scale).1 * unitsPerOne) (powerOfTen scale).2 :=
  rfl

/-- A positive finite `x` is what `ofDecimal` gives for exactly those decimals that read back as
    `x.rank`, with the sign of `x`. -/
theorem ofDecimal_eq_iff {x : Binary64} (hpos : 0 < x.rank) (hfinite : x.isFinite = true)
    {negative : Bool} {coefficient : Nat} {scale : Int} :
    ofDecimal negative coefficient scale = x ↔
      negative = x.negative ∧ readsBack x.rank coefficient scale = true := by
  have hrank : x.rank < infinityRank := of_decide_eq_true hfinite
  -- Neither of the values that are answered at once is this number.
  have hzero : ∀ b, zero b ≠ x := by
    rintro b rfl
    exact absurd hpos (Nat.lt_irrefl 0)
  have hinfinity : ∀ b, infinity b ≠ x := by
    rintro b rfl
    exact absurd hrank (Nat.lt_irrefl _)
  unfold ofDecimal
  split
  · rename_i hcoefficient
    refine iff_of_false (hzero negative) fun h => ?_
    have hcoefficient' := pos_of_readsBack hpos h.2
    omega
  split
  · rename_i hlarge
    refine iff_of_false (hinfinity negative) fun h => ?_
    have hscale := scale_le_of_readsBack hpos hrank h.2
    omega
  split
  · rename_i hsmall
    refine iff_of_false (hzero negative) fun h => ?_
    have hscale := le_scale_of_readsBack hpos h.2
    omega
  · obtain ⟨r, hr⟩ := Nat.exists_eq_succ_of_ne_zero hpos.ne'
    have hiff := nearestRank_eq_iff_readsBack (r := r) (powerOfTen_pos scale).2 (by omega)
      (decimalUnits_eq_div coefficient scale).symm
    rw [← Nat.succ_eq_add_one, ← hr, ← ofRatio_rank negative] at hiff
    rw [← hiff]
    constructor
    · intro h
      rw [h]
      exact ⟨h ▸ rfl, rfl⟩
    · rintro ⟨hsign, heq⟩
      exact ext_rank hsign heq

/-- A coefficient of zero is read as zero, whatever the `scale`. -/
theorem ofDecimal_zero (negative : Bool) (scale : Int) :
    ofDecimal negative 0 scale = zero negative :=
  rfl

end Binary64

/-! ## Exponents -/

/-- The digits of an exponent that `readExponent` does not cut off are read as those of any
    number. -/
theorem readExponent_eq {ds : List Char} (h : readDigits ds < 0x10000) :
    readExponent ds = readDigits ds := by
  -- From the last digit: the value before it is smaller still.
  induction ds using List.reverseRecOn with
  | nil => rfl
  | append_singleton ds d ih =>
    have hlast := readDigits_concat ds d
    have hbefore : readDigits ds < 0x10000 := by omega
    have hstep : readExponent (ds ++ [d]) =
        if readExponent ds < 0x10000 then 10 * readExponent ds + digitValue d
        else readExponent ds := by
      rw [readExponent, List.foldl_append]
      rfl
    rw [hstep, ih hbefore, if_pos hbefore, hlast]

/-- Digits are an exponent without a sign, with a plus and with a minus. -/
private theorem readSignedExponent?_of_digits {ds : List Char} (hne : ds ≠ [])
    (hall : ∀ c ∈ ds, c.isDigit = true) :
    readSignedExponent? ds = some (readExponent ds : Int) ∧
      readSignedExponent? ('+' :: ds) = some (readExponent ds : Int) ∧
      readSignedExponent? ('-' :: ds) = some (-(readExponent ds : Int)) := by
  have hdigits : (ds.isEmpty || !ds.all Char.isDigit) = false := by
    simp [hne, List.all_eq_true.2 hall]
  refine ⟨?_, ?_, ?_⟩
  · unfold readSignedExponent?
    split
    rename_i negative rest hsign
    -- There is no sign to take off, as a sign is no digit.
    split at hsign
    · exact absurd (hall '-' List.mem_cons_self) (by decide)
    · exact absurd (hall '+' List.mem_cons_self) (by decide)
    · obtain ⟨rfl, rfl⟩ := Prod.mk.inj hsign
      rw [hdigits]
      rfl
  · unfold readSignedExponent?
    simp only [hdigits]
    rfl
  · unfold readSignedExponent?
    simp only [hdigits]
    rfl

/-- An exponent that is not cut off is read back from its `signedDigits`, with or without a plus
    sign. -/
theorem readSignedExponent?_signedDigits (plus : Bool) {e : Int} (h : e.natAbs < 0x10000) :
    readSignedExponent? (if plus && 0 ≤ e then '+' :: signedDigits e else signedDigits e) =
      some e := by
  have hread : readExponent (digits e.natAbs) = e.natAbs := by
    rw [readExponent_eq (by rwa [readDigits_digits]), readDigits_digits]
  obtain ⟨hbare, hplus, hminus⟩ := readSignedExponent?_of_digits (digits_ne_nil e.natAbs)
    fun c hc => isDigit_of_mem_digits hc
  rw [hread] at hbare hplus hminus
  by_cases he : e < 0
  · have hsigned : signedDigits e = '-' :: digits e.natAbs := if_pos he
    rw [if_neg (by simp [he]), hsigned, hminus]
    congr 1
    omega
  · have hsigned : signedDigits e = digits e.natAbs := if_neg he
    have hvalue : (e.natAbs : Int) = e := by omega
    rw [hsigned]
    split
    · rw [hplus, hvalue]
    · rw [hbare, hvalue]

/-! ## Numerals -/

namespace Numeral

/-- A numeral whose text can be read: it has digits before the point, and its exponent is not so
    large that `readExponent` cuts it off. -/
structure IsReadable (n : Numeral) : Prop where
  whole_ne : n.whole ≠ []
  isDigit : ∀ c ∈ n.whole ++ n.fraction, c.isDigit = true
  exponent_lt : ∀ e ∈ n.exponent, e.natAbs < 0x10000

/-- The part with the exponent does not begin with a digit, so the digits before it end there. -/
private theorem head?_powerPart {plus : Bool} {n : Numeral} {c : Char}
    (h : (n.powerPart plus).head? = some c) : c.isDigit = false := by
  unfold powerPart at h
  split at h
  · cases h
  · obtain rfl := Option.some.inj h
    rfl

/-- What follows the whole part does not begin with a digit. -/
private theorem head?_fractionPart {plus : Bool} {n : Numeral} {c : Char}
    (h : (n.fractionPart ++ n.powerPart plus).head? = some c) : c.isDigit = false := by
  unfold fractionPart at h
  split at h
  · exact head?_powerPart h
  · obtain rfl := Option.some.inj h
    rfl

/-- `Numeral.ofText?` reads the exponent back from the end of a numeral. -/
private theorem ofText?_powerPart {n : Numeral} (hn : n.IsReadable) (plus : Bool) :
    (match n.powerPart plus with
      | [] => some { n with exponent := none }
      | c :: rest =>
        if c = 'e' ∨ c = 'E' then
          (readSignedExponent? rest).map fun e => { n with exponent := some e }
        else none) = some n := by
  obtain ⟨negative, whole, fraction, exponent⟩ := n
  cases exponent with
  | none => rfl
  | some e =>
    have hread := readSignedExponent?_signedDigits plus (hn.exponent_lt e rfl)
    simp only [powerPart, true_or, if_true]
    rw [hread, Option.map_some]

/-- A numeral is read back from its `whole`, `fractionPart` and `powerPart`. -/
theorem ofText?_parts {n : Numeral} (hn : n.IsReadable) (plus : Bool) :
    ofText? n.negative (n.whole ++ (n.fractionPart ++ n.powerPart plus)) = some n := by
  have hwhole : spanDigits (n.whole ++ (n.fractionPart ++ n.powerPart plus)) =
      (n.whole, n.fractionPart ++ n.powerPart plus) :=
    spanDigits_append_of (fun c hc => hn.isDigit c (List.mem_append_left _ hc)) fun c hc =>
      head?_fractionPart hc
  have hpower := ofText?_powerPart hn plus
  have hsome : (n.whole.isEmpty && n.fraction.isEmpty) = false := by
    simp [hn.whole_ne]
  unfold ofText?
  rw [hwhole]
  dsimp only
  by_cases hempty : n.fraction = []
  · have hpart : n.fractionPart = [] := by
      simp [fractionPart, hempty]
    rw [hempty] at hsome
    rw [hpart, List.nil_append]
    split
    -- Without a fraction no point follows either.
    · rename_i rest hpoint
      unfold powerPart at hpoint
      split at hpoint
      · cases hpoint
      · cases hpoint
    · rw [hsome, ← hempty]
      exact hpower
  · have hpart : n.fractionPart = '.' :: n.fraction := by
      simp [fractionPart, hempty]
    have hspan : spanDigits (n.fraction ++ n.powerPart plus) = (n.fraction, n.powerPart plus) :=
      spanDigits_append_of (fun c hc => hn.isDigit c (List.mem_append_right _ hc)) fun c hc =>
        head?_powerPart hc
    simp only [hpart, List.cons_append, hspan, hsome]
    exact hpower

/-- The value of a numeral is read back from its `text`. -/
theorem ofText?_text {n : Numeral} (hn : n.IsReadable) (plus : Bool) :
    Binary64.ofText? (n.text plus) = some n.toBinary64 := by
  have hparts := ofText?_parts hn plus
  rw [text_eq_parts]
  generalize htext : n.whole ++ (n.fractionPart ++ n.powerPart plus) = cs at hparts ⊢
  cases hsign : n.negative with
  | true =>
    rw [hsign] at hparts
    rw [if_pos rfl, List.singleton_append]
    unfold Binary64.ofText?
    simp only [hparts]
  | false =>
    rw [hsign] at hparts
    -- The text begins with a digit, so that there is no sign to take off.
    obtain ⟨c, whole, hwhole⟩ := List.exists_cons_of_ne_nil hn.whole_ne
    have hc : c.isDigit = true := hn.isDigit c (by simp [hwhole])
    rw [hwhole, List.cons_append] at htext
    rw [if_neg Bool.false_ne_true, List.nil_append]
    unfold Binary64.ofText?
    split
    rename_i negative rest hmatch
    split at hmatch
    · obtain ⟨rfl, -⟩ := List.cons.inj htext
      exact absurd hc (by decide)
    · obtain ⟨rfl, -⟩ := List.cons.inj htext
      exact absurd hc (by decide)
    · obtain ⟨rfl, rfl⟩ := Prod.mk.inj hmatch
      rw [hparts]

end Numeral

/-! ## Numbers -/

namespace Binary64

private theorem isReadable_positionalNumeral (wholePoint negative : Bool) (d : Decimal) :
    (positionalNumeral wholePoint negative d).IsReadable := by
  have hdigits := List.length_pos_iff.2 (digits_ne_nil d.coefficient)
  refine ⟨?_, isDigit_positionalNumeral wholePoint negative d, ?_⟩
  · unfold positionalNumeral
    dsimp only
    split
    · simp [digits_ne_nil]
    · split
      · rw [← List.length_pos_iff, List.length_take]
        omega
      · exact List.cons_ne_nil _ _
  · have hnone : (positionalNumeral wholePoint negative d).exponent = none := by
      unfold positionalNumeral
      dsimp only
      split
      · rfl
      · split <;> rfl
    intro e he
    rw [hnone] at he
    cases he

/-- The numeral in scientific notation can be read unless the exponent of `d` is far out of
    range. -/
private theorem isReadable_scientificNumeral (negative : Bool) {d : Decimal}
    (hlow : -340 ≤ d.scale) (hhigh : d.scale ≤ 308) (hcoefficient : d.coefficient ≤ 10 ^ 17) :
    (scientificNumeral negative d).IsReadable := by
  have hlength : (digits d.coefficient).length ≤ 18 := by
    refine (Nat.length_toDigits_le_iff (by decide) (by decide)).2 ?_
    exact Nat.lt_of_le_of_lt hcoefficient (by decide)
  refine ⟨?_, ?_, ?_⟩
  · simp [scientificNumeral, digits_ne_nil]
  · intro c hc
    rw [scientificNumeral, List.take_append_drop] at hc
    exact isDigit_of_mem_digits hc
  · intro e he
    obtain rfl := Option.some.inj he
    omega

/-- The numeral of a finite number in any style `IsReadable`. -/
theorem isReadable_numeral (s : Style) {x : Binary64} (hfinite : x.isFinite = true) :
    (x.numeral s).IsReadable := by
  unfold numeral
  split
  · exact isReadable_positionalNumeral _ _ _
  · rename_i hzero
    have hpos : 0 < x.rank := Nat.pos_of_ne_zero fun h => hzero (by simp [isZero, h])
    dsimp only
    split
    · exact isReadable_positionalNumeral _ _ _
    · exact isReadable_scientificNumeral _ (le_scale_shortest s.tie hpos)
        (scale_le_of_readsBack hpos (of_decide_eq_true hfinite) (readsBack_shortest s.tie hpos))
        (coefficient_shortest_le s.tie hpos)

/-- The numeral of a finite `x` has the value `x`. -/
theorem toBinary64_numeral (s : Style) {x : Binary64} (hfinite : x.isFinite = true) :
    (x.numeral s).toBinary64 = x := by
  rcases Nat.eq_zero_or_pos x.rank with hzero | hpos
  · have hcoefficient : (x.numeral s).coefficient = 0 := by
      rw [numeral, if_pos (by simp [isZero, hzero]), coefficient_positionalNumeral]
      exact Nat.mul_zero _
    rw [Numeral.toBinary64, hcoefficient, ofDecimal_zero, negative_numeral]
    exact ext_rank rfl hzero.symm
  · exact (ofDecimal_eq_iff hpos hfinite).2 ⟨negative_numeral s x, readsBack_numeral s hpos⟩

/-- Every number but "not a number" is read back from its text, in any style `s`. -/
theorem ofText?_text (s : Style) {x : Binary64} (h : x.isNaN = false) :
    ofText? (x.text s) = some x := by
  unfold text
  rw [h, if_neg Bool.false_ne_true]
  split
  · rename_i hfinite
    rw [Numeral.ofText?_text (isReadable_numeral s hfinite) s.plus, toBinary64_numeral s hfinite]
  · rename_i hfinite
    -- A number that is not finite is infinity, with its sign.
    have hrank : infinityRank = x.rank := by
      simp only [isNaN, isFinite, decide_eq_true_eq, decide_eq_false_iff_not] at h hfinite
      omega
    split
    · rename_i hsign
      have hread : ofText? "-inf".toList = some (infinity true) := by decide +kernel
      rw [hread, ext_rank (x := infinity true) hsign.symm hrank]
    · rename_i hsign
      have hread : ofText? "inf".toList = some (infinity false) := by decide +kernel
      rw [hread, ext_rank (x := infinity false) (Bool.eq_false_iff.2 hsign).symm hrank]

end Binary64

end MapperSweep
