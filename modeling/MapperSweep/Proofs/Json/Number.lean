import MapperSweep.Json.Decode
import MapperSweep.Proofs.Binary64.Shortest
import MapperSweep.Proofs.Numeral

/-!
# Numerals of JSON

A numeral of JSON has digits before the point, without a leading zero unless zero is all there is.
Such a numeral is read back from its text as it was, if the text ends there.  All numbers that are
written have such numerals.

## Key results

- `readNumber?_text`: a numeral is read back from its text
- `le_of_mem_text`: a text has no control characters
- `isJson_ofNat`, `isJson_numeral`: the numerals that are written
- `toCount?_ofCount`: counts are read back
-/

namespace MapperSweep

/-- `n.IsJson` holds of the numerals that JSON allows: there are digits before the point, and the
    first one is zero only if there is no other. -/
structure Numeral.IsJson (n : Numeral) : Prop where
  whole_digits : ∀ c ∈ n.whole, c.isDigit = true
  whole_start : n.whole = ['0'] ∨ n.whole ≠ [] ∧ n.whole.head? ≠ some '0'
  fraction_digits : ∀ c ∈ n.fraction, c.isDigit = true

namespace Json

/-- `FollowsValue rest` holds of what can follow a value: nothing, the next item or member, or the
    end of an array or object. -/
def FollowsValue (rest : List Char) : Prop := ∀ c, rest.head? = some c → c = ',' ∨ c = ']' ∨ c = '}'

theorem followsValue_nil : FollowsValue [] := nofun

theorem followsValue_cons {c : Char} (h : c = ',' ∨ c = ']' ∨ c = '}') (rest : List Char) :
    FollowsValue (c :: rest) := by
  intro d hd
  obtain rfl := Option.some.inj hd
  exact h

/-! ## The parts of a number -/

private theorem isDigit_of_followsValue {rest : List Char} (h : FollowsValue rest) :
    ∀ c, rest.head? = some c → c.isDigit = false := by
  intro c hc
  rcases h c hc with rfl | rfl | rfl <;> rfl

/-- What begins with the exponent of `n`, or follows the number, begins with no digit and no
    point. -/
private theorem head?_powerPart_append {n : Numeral} {rest : List Char} (h : FollowsValue rest)
    {c : Char} (hc : (n.powerPart true ++ rest).head? = some c) : c.isDigit = false ∧ c ≠ '.' := by
  rw [Numeral.powerPart] at hc
  split at hc
  · rcases h c hc with rfl | rfl | rfl <;> decide
  · obtain rfl := Option.some.inj hc
    decide

/-- What begins with the fraction of `n`, or follows the number, begins with no digit. -/
private theorem head?_fractionPart_append {n : Numeral} {rest : List Char} (h : FollowsValue rest)
    {c : Char} (hc : (n.fractionPart ++ (n.powerPart true ++ rest)).head? = some c) :
    c.isDigit = false := by
  rw [Numeral.fractionPart] at hc
  split at hc
  · exact (head?_powerPart_append h hc).1
  · obtain rfl := Option.some.inj hc
    rfl

/-- `readWhole?` reads the whole part of `n` back. -/
private theorem readWhole?_append {n : Numeral} (hn : n.IsJson) {rest : List Char}
    (hrest : ∀ c, rest.head? = some c → c.isDigit = false) :
    readWhole? (n.whole ++ rest) = some (n.whole, rest) := by
  rcases hn.whole_start with hzero | ⟨hne, hhead⟩
  · rw [hzero]
    rfl
  · unfold readWhole?
    split
    · rename_i tail htail
      -- A zero in front would be the first digit of the whole part.
      refine absurd ?_ hhead
      cases hwhole : n.whole with
      | nil => exact absurd hwhole hne
      | cons d ds =>
        rw [hwhole, List.cons_append, List.cons.injEq] at htail
        rw [htail.1, List.head?_cons]
    · rw [spanDigits_append_of hn.whole_digits hrest]
      simp [hne]

/-- `readFraction?` reads the fraction of `n` back. -/
private theorem readFraction?_append {n : Numeral} (hn : n.IsJson) {rest : List Char}
    (hrest : ∀ c, rest.head? = some c → c.isDigit = false ∧ c ≠ '.') :
    readFraction? (n.fractionPart ++ rest) = some (n.fraction, rest) := by
  rw [Numeral.fractionPart]
  split
  · rename_i hempty
    rw [List.nil_append, List.isEmpty_iff.1 hempty]
    unfold readFraction?
    split
    -- Without a fraction no point follows either.
    · exact absurd rfl (hrest '.' rfl).2
    · rfl
  · rename_i hempty
    rw [List.cons_append, readFraction?,
      spanDigits_append_of hn.fraction_digits fun c hc => (hrest c hc).1]
    simp [hempty]

/-- `readPower?` reads the exponent of `n` back. -/
private theorem readPower?_append (n : Numeral) {rest : List Char} (hrest : FollowsValue rest) :
    readPower? (n.powerPart true ++ rest) = some (n.exponent, rest) := by
  have hspan : ∀ k, spanDigits (digits k ++ rest) = (digits k, rest) := fun k =>
    spanDigits_append_of (fun c hc => isDigit_of_mem_digits hc) (isDigit_of_followsValue hrest)
  rw [Numeral.powerPart]
  cases hexponent : n.exponent with
  | none =>
    cases rest with
    | nil => rfl
    | cons c rest => rcases hrest c rfl with rfl | rfl | rfl <;> rfl
  | some e =>
    by_cases he : 0 ≤ e
    -- A plus is written where there is no minus.
    · obtain ⟨k, rfl⟩ : ∃ k : Nat, e = k := ⟨e.toNat, by omega⟩
      have hsigned : signedDigits k = digits k := if_neg (by omega)
      simp [hsigned, readPower?, hspan, digits_ne_nil, readDigits_digits]
    · obtain ⟨k, rfl⟩ : ∃ k : Nat, e = -k := ⟨(-e).toNat, by omega⟩
      have hsigned : signedDigits (-k) = '-' :: digits k := by
        rw [signedDigits, if_pos (by omega), Int.natAbs_neg, Int.natAbs_natCast]
      simp only [Bool.true_and, decide_eq_true_eq, if_neg he, hsigned]
      simp [readPower?, hspan, digits_ne_nil, readDigits_digits]

/-! ## Numbers -/

/-- The text of a numeral begins with a minus sign or with a digit. -/
theorem exists_text_eq_cons {n : Numeral} (hn : n.IsJson) :
    ∃ c cs, n.text true = c :: cs ∧ (c = '-' ∨ c.isDigit = true) := by
  cases hwhole : n.whole with
  | nil => exact absurd hn.whole_start (by simp [hwhole])
  | cons d ds =>
    rw [Numeral.text_eq_parts, hwhole]
    cases n.negative with
    | true => exact ⟨'-', _, rfl, .inl rfl⟩
    | false => exact ⟨d, _, rfl, .inr (hn.whole_digits d (by simp [hwhole]))⟩

/-- `readNumber?` reads `n` back from its text, and leaves what follows. -/
theorem readNumber?_text {n : Numeral} (hn : n.IsJson) {rest : List Char}
    (hrest : FollowsValue rest) : readNumber? (n.text true ++ rest) = some (n, rest) := by
  have hwhole : readWhole? (n.whole ++ (n.fractionPart ++ (n.powerPart true ++ rest))) =
      some (n.whole, n.fractionPart ++ (n.powerPart true ++ rest)) :=
    readWhole?_append hn fun c hc => head?_fractionPart_append hrest hc
  have hfraction : readFraction? (n.fractionPart ++ (n.powerPart true ++ rest)) =
      some (n.fraction, n.powerPart true ++ rest) :=
    readFraction?_append hn fun c hc => head?_powerPart_append hrest hc
  have hpower := readPower?_append n hrest
  rw [Numeral.text_eq_parts]
  simp only [List.append_assoc]
  unfold readNumber?
  cases hnegative : n.negative with
  | true =>
    simp only [if_pos, List.singleton_append, hwhole, hfraction, hpower, Option.bind_eq_bind,
      Option.bind_some, Option.pure_def]
    rw [← hnegative]
  | false =>
    -- The first character is a digit, so no sign is taken off.
    cases hdigits : n.whole with
    | nil => exact absurd hn.whole_start (by simp [hdigits])
    | cons d ds =>
      have hd : d ≠ '-' := by
        rintro rfl
        exact absurd (hn.whole_digits '-' (by simp [hdigits])) (by decide)
      rw [hdigits] at hwhole
      simp only [Bool.false_eq_true, if_false, List.nil_append, List.cons_append] at hwhole ⊢
      split
      · rename_i heq
        exact absurd (List.cons.inj heq).1 hd
      · simp [hwhole, hfraction, hpower, ← hdigits, ← hnegative]

theorem le_of_mem_text {n : Numeral} (hn : n.IsJson) {c : Char} (h : c ∈ n.text true) :
    0x20 ≤ c.toNat := by
  have hnumber : ∀ d ∈ numberChars, 0x20 ≤ d.toNat := List.all_iff_forall_prop.1 (by decide)
  have hdigits : ∀ d ∈ n.whole ++ n.fraction, d.isDigit = true := fun d hd =>
    (List.mem_append.1 hd).elim (hn.whole_digits d) (hn.fraction_digits d)
  exact hnumber c (Numeral.isNumberText_text hdigits true c h)

/-! ## The numerals that are written -/

/-- The digits of the whole number `k` are a numeral that JSON allows. -/
theorem isJson_ofNat (k : Nat) : (Numeral.ofNat k).IsJson where
  whole_digits _ hc := isDigit_of_mem_digits hc
  whole_start := by
    rcases Nat.eq_zero_or_pos k with rfl | hpos
    · exact .inl rfl
    · exact .inr ⟨digits_ne_nil k, head?_digits_ne_zero hpos⟩
  fraction_digits := nofun

/-- The first `m` digits of a positive number do not begin with a zero. -/
private theorem head?_take_digits {k m : Nat} (hk : 0 < k) (hm : 0 < m) :
    (digits k).take m ≠ [] ∧ ((digits k).take m).head? ≠ some '0' := by
  have hhead := head?_digits_ne_zero hk
  have hne := digits_ne_nil k
  rw [List.head?_take, if_neg (by omega)]
  refine ⟨?_, hhead⟩
  rw [Ne, List.take_eq_nil_iff, not_or]
  exact ⟨by omega, hne⟩

private theorem isJson_positionalNumeral (negative : Bool) {d : Binary64.Decimal}
    (hd : 0 < d.coefficient) : (Binary64.positionalNumeral true negative d).IsJson := by
  have hdigits : ∀ c ∈ digits d.coefficient, c.isDigit = true := fun c hc =>
    isDigit_of_mem_digits hc
  have hzeros : ∀ k, ∀ c ∈ List.replicate k '0', c.isDigit = true := by
    intro k c hc
    rw [List.eq_of_mem_replicate hc]
    rfl
  rw [Binary64.positionalNumeral]
  dsimp only
  split
  -- All digits come before the point, and zeros fill the places up to it.
  · refine ⟨?_, .inr ⟨?_, ?_⟩, ?_⟩
    · exact fun c hc => (List.mem_append.1 hc).elim (hdigits c) (hzeros _ c)
    · simp [digits_ne_nil]
    · have hhead := head?_digits_ne_zero hd
      cases h : digits d.coefficient with
      | nil => exact absurd h (digits_ne_nil _)
      | cons c cs =>
        rw [h] at hhead
        exact hhead
    · simp
  split
  -- The point falls between two digits.
  · exact ⟨fun c hc => hdigits c (List.mem_of_mem_take hc), .inr (head?_take_digits hd (by omega)),
      fun c hc => hdigits c (List.mem_of_mem_drop hc)⟩
  -- All digits come after the point, and zero before it.
  · exact ⟨by simp, .inl rfl, fun c hc => (List.mem_append.1 hc).elim (hzeros _ c) (hdigits c)⟩

private theorem isJson_scientificNumeral (negative : Bool) {d : Binary64.Decimal}
    (hd : 0 < d.coefficient) : (Binary64.scientificNumeral negative d).IsJson where
  whole_digits _ hc := isDigit_of_mem_digits (List.mem_of_mem_take hc)
  whole_start := .inr (head?_take_digits hd (by decide))
  fraction_digits _ hc := isDigit_of_mem_digits (List.mem_of_mem_drop hc)

/-- Every number is written as a numeral that JSON allows, in the `numberStyle` of JSON. -/
theorem isJson_numeral (x : Binary64) : (x.numeral numberStyle).IsJson := by
  rw [Binary64.numeral]
  split
  -- Zero has no shortest decimal; it is written on its own.
  · exact ⟨by simp [Binary64.positionalNumeral, digits], .inl rfl,
      by simp [Binary64.positionalNumeral, numberStyle]⟩
  · rename_i hzero
    have hd : 0 < (Binary64.shortest numberStyle.tie x.rank).coefficient :=
      Binary64.coefficient_shortest_pos _
        (Nat.pos_of_ne_zero (by simpa [Binary64.isZero] using hzero))
    dsimp only
    split
    · exact isJson_positionalNumeral x.negative hd
    · exact isJson_scientificNumeral x.negative hd

/-- A count is read back from its JSON value `ofCount n`. -/
@[simp] theorem toCount?_ofCount (n : UInt64) : toCount? (ofCount n) = some n := by
  have hlt : n.toNat < UInt64.size := n.toNat_lt
  simp [toCount?, ofCount, count?, Numeral.ofNat, readDigits_digits, hlt]

end Json

end MapperSweep
