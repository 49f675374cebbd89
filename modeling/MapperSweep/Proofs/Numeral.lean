import Mathlib.Data.Bool.AllAny
import Mathlib.Data.List.Induction
import Mathlib.Data.List.TakeWhile
import Mathlib.Tactic.IntervalCases
import MapperSweep.Binary64.Reading

/-!
# Digits and the texts of numbers

The digits of a number read back as that number.  All texts that read as a number are made of a few
characters, none of which is a blank or a separator.

## Key results

- `readDigits_digits`, `readCount?_digits`: digits read back
- `readDigits_append`, `readDigits_append_zeros`, `readDigits_zeros_append`: digits side by side
- `head?_digits_ne_zero`: a positive number has no leading zero
- `isNumberText_of_readCount?`, `isNumberText_of_ofText?`: the characters of numbers that are read
- `Numeral.text_eq_parts`: the parts of a numeral that is written
- `Numeral.isNumberText_text`: its characters
-/

namespace MapperSweep

/-! ## Digits -/

/-- `readDigits` is the inverse of `digits`. -/
theorem readDigits_digits (n : Nat) : readDigits (digits n) = n :=
  Nat.ofDigitChars_ten_toDigits

theorem isDigit_of_mem_digits {n : Nat} {c : Char} (h : c ∈ digits n) : c.isDigit = true :=
  Nat.isDigit_of_mem_toDigits (by decide) (by decide) h

theorem digits_ne_nil (n : Nat) : digits n ≠ [] := Nat.toDigits_ne_nil

/-- The digits of a positive number have no leading zero. -/
theorem head?_digits_ne_zero {n : Nat} (h : 0 < n) : (digits n).head? ≠ some '0' := by
  induction n using Nat.strong_induction_on with
  | _ n ih =>
    rw [digits, Nat.toDigits_eq_if (by decide)]
    split
    · -- One digit, which is not zero.
      have hdigit : n.digitChar ≠ '0' := by
        interval_cases n <;> decide
      simpa using hdigit
    · have hrest := ih (n / 10) (by omega) (by omega)
      have hne := digits_ne_nil (n / 10)
      rw [digits] at hrest hne
      rw [List.head?_append]
      cases hhead : (Nat.toDigits 10 (n / 10)).head? with
      | none => exact absurd (List.head?_eq_none_iff.1 hhead) hne
      | some d =>
        rw [hhead] at hrest
        exact hrest

/-- The value of the digits `ds` with `es` after them. -/
theorem readDigits_append (ds es : List Char) :
    readDigits (ds ++ es) = 10 ^ es.length * readDigits ds + readDigits es :=
  (Nat.ofDigitChars_append 0).trans Nat.ofDigitChars_eq_ofDigitChars_zero

/-- The value of the digits `ds` with `d` after them. -/
theorem readDigits_concat (ds : List Char) (d : Char) :
    readDigits (ds ++ [d]) = 10 * readDigits ds + digitValue d := by
  simp [readDigits]

/-- Zeros at the end of `ds` multiply by a power of ten. -/
theorem readDigits_append_zeros (ds : List Char) (k : Nat) :
    readDigits (ds ++ List.replicate k '0') = 10 ^ k * readDigits ds :=
  (Nat.ofDigitChars_append 0).trans Nat.ofDigitChars_replicate_zero

/-- Zeros in front of `ds` do not matter. -/
theorem readDigits_zeros_append (k : Nat) (ds : List Char) :
    readDigits (List.replicate k '0' ++ ds) = readDigits ds := by
  have hzeros : readDigits (List.replicate k '0') = 0 := Nat.ofDigitChars_replicate_zero
  rw [readDigits_append, hzeros, Nat.mul_zero, Nat.zero_add]

/-- `n` is below the power of ten with one digit more. -/
theorem lt_pow_length_digits (n : Nat) : n < 10 ^ (digits n).length :=
  (Nat.length_toDigits_le_iff (by decide) (List.length_pos_iff.2 (digits_ne_nil n))).1
    (Nat.le_refl _)

/-- `readDigits ds` is below the power of ten with one digit more. -/
theorem readDigits_lt {ds : List Char} (h : ∀ c ∈ ds, c.isDigit = true) :
    readDigits ds < 10 ^ ds.length := by
  induction ds using List.reverseRecOn with
  | nil => exact Nat.one_pos
  | append_singleton ds d ih =>
    have hbefore := ih fun c hc => h c (List.mem_append_left _ hc)
    have hlast : digitValue d < 10 := by
      have hd := Char.isDigit_iff_toNat.1 (h d (by simp))
      simp only [Char.reduceToNat] at hd
      simp only [digitValue, Char.reduceToNat]
      omega
    rw [readDigits_concat, List.length_append, List.length_singleton, Nat.pow_succ]
    omega

/-- `readCount?` reads digits without a sign as they are. -/
theorem readCount?_of_digits {ds : List Char} (hne : ds ≠ []) (hall : ∀ c ∈ ds, c.isDigit = true)
    (hlt : readDigits ds < UInt64.size) : readCount? ds = some (UInt64.ofNat (readDigits ds)) := by
  have hall' := List.all_eq_true.2 hall
  unfold readCount?
  -- There is no plus sign to take off, as a plus is no digit.
  split
  · exact absurd (hall '+' List.mem_cons_self) (by decide)
  · simpa [hne, hall'] using hlt

/-- A 64-bit count is read back from its digits by `readCount?`. -/
theorem readCount?_digits (n : UInt64) : readCount? (digits n.toNat) = some n := by
  have hlt : readDigits (digits n.toNat) < UInt64.size := by
    rw [readDigits_digits]
    exact n.toNat_lt
  rw [readCount?_of_digits (digits_ne_nil _) (fun c hc => isDigit_of_mem_digits hc) hlt,
    readDigits_digits, UInt64.ofNat_toNat]

/-- `spanDigits` takes all of `ds` and no more, if something else than a digit follows. -/
theorem spanDigits_append_of {ds rest : List Char} (hds : ∀ c ∈ ds, c.isDigit = true)
    (hrest : ∀ c, rest.head? = some c → c.isDigit = false) :
    spanDigits (ds ++ rest) = (ds, rest) := by
  have htake : rest.takeWhile Char.isDigit = [] ∧ rest.dropWhile Char.isDigit = rest := by
    cases rest with
    | nil => simp
    | cons c rest => simp [hrest c rfl]
  rw [spanDigits, List.takeWhile_append_of_pos hds, List.dropWhile_append_of_pos hds, htake.1,
    htake.2, List.append_nil]

/-! ## The characters of numbers -/

/-- The characters that occur in texts of numbers: digits, signs, the point and the letters of the
    exponent and of the words. -/
def numberChars : List Char := "0123456789+-.eEinftyaINFTYA".toList

/-- `IsNumberText cs` holds if every character of `cs` is one of `numberChars`. -/
def IsNumberText (cs : List Char) : Prop := ∀ c ∈ cs, c ∈ numberChars

theorem mem_numberChars_of_isDigit {c : Char} (h : c.isDigit = true) : c ∈ numberChars := by
  obtain ⟨hlow, hhigh⟩ := Char.isDigit_iff_toNat.1 h
  rw [← Char.ofNat_toNat c]
  simp only [Char.reduceToNat] at hlow hhigh
  -- Ten numbers are left.
  generalize c.toNat = n at *
  interval_cases n <;> decide

/-- The letters of the words for numbers are among `numberChars` in either case. -/
private theorem mem_numberChars_of_toLower {c : Char} (h : c.toLower ∈ "infinityna".toList) :
    c ∈ numberChars := by
  -- The lower case is 32 above the upper case, so both can be looked up in the list.
  have hletters : ∀ d ∈ "infinityna".toList,
      d ∈ numberChars ∧ Char.ofNat (d.toNat - 32) ∈ numberChars :=
    List.all_iff_forall_prop.1 (by decide)
  by_cases hupper : c.val ≥ 'A'.val ∧ c.val ≤ 'Z'.val
  · have hcode : c.toLower.toNat = c.toNat + 32 := by
      have hlower : c.toLower = ⟨c.val + ('a'.val - 'A'.val), _⟩ := dif_pos hupper
      rw [hlower]
      have hhigh : c.val.toNat ≤ 90 := hupper.2
      have hshift : ('a'.val - 'A'.val).toNat = 32 := rfl
      simp only [Char.toNat, UInt32.toNat_add, hshift]
      omega
    have hmem := (hletters _ h).2
    rwa [hcode, Nat.add_sub_cancel, Char.ofNat_toNat] at hmem
  · have hsame : c.toLower = c := dif_neg hupper
    rw [hsame] at h
    exact (hletters c h).1

private theorem isNumberText_of_spanDigits {cs : List Char} (h : IsNumberText (spanDigits cs).2) :
    IsNumberText cs := by
  intro c hc
  rw [← spanDigits_append cs, List.mem_append] at hc
  rcases hc with hc | hc
  · exact mem_numberChars_of_isDigit (List.mem_takeWhile_imp hc)
  · exact h c hc

private theorem isNumberText_cons {c : Char} {cs : List Char} (hc : c ∈ numberChars)
    (h : IsNumberText cs) : IsNumberText (c :: cs) := by
  intro d hd
  rcases List.mem_cons.1 hd with rfl | hd
  · exact hc
  · exact h d hd

/-- What is read only if it consists of digits is a text of a number. -/
private theorem isNumberText_of_guard {ds : List Char} {x : Option α} {y : α}
    (h : (if (ds.isEmpty || !ds.all Char.isDigit) = true then none else x) = some y) :
    IsNumberText ds := by
  split at h
  · exact nomatch h
  · rename_i hdigits
    simp only [Bool.or_eq_true, not_or, Bool.not_eq_true', Bool.not_eq_false] at hdigits
    exact fun c hc => mem_numberChars_of_isDigit (List.all_eq_true.1 hdigits.2 c hc)

/-- What `readCount?` reads consists of `numberChars`: digits after an optional sign. -/
theorem isNumberText_of_readCount? {cs : List Char} {n : UInt64} (h : readCount? cs = some n) :
    IsNumberText cs := by
  unfold readCount? at h
  split at h
  · exact isNumberText_cons (by decide) (isNumberText_of_guard h)
  · exact isNumberText_of_guard h

/-- What `readSignedExponent?` reads consists of `numberChars`: digits after an optional sign. -/
private theorem isNumberText_of_readSignedExponent? {cs : List Char} {e : Int}
    (h : readSignedExponent? cs = some e) : IsNumberText cs := by
  unfold readSignedExponent? at h
  split at h
  rename_i negative ds hsign
  split at hsign
  · cases hsign
    exact isNumberText_cons (by decide) (isNumberText_of_guard h)
  · cases hsign
    exact isNumberText_cons (by decide) (isNumberText_of_guard h)
  · cases hsign
    exact isNumberText_of_guard h

/-- The end of a numeral consists of `numberChars`: nothing, or the exponent. -/
private theorem isNumberText_of_power {rest : List Char} {n m : Numeral} {f : Int → Numeral}
    (h : (match rest with
      | [] => some m
      | c :: rest =>
        if c = 'e' ∨ c = 'E' then (readSignedExponent? rest).map f else none) = some n) :
    IsNumberText rest := by
  cases rest with
  | nil => intro c hc; exact nomatch hc
  | cons c rest =>
    simp only at h
    split at h
    · rename_i hletter
      obtain ⟨e, he, _⟩ := Option.map_eq_some_iff.1 h
      have hmem : c ∈ numberChars := by
        rcases hletter with rfl | rfl <;> decide
      exact isNumberText_cons hmem (isNumberText_of_readSignedExponent? he)
    · exact nomatch h

/-- What `Numeral.ofText?` reads consists of `numberChars`. -/
private theorem isNumberText_of_numeral {negative : Bool} {cs : List Char} {n : Numeral}
    (h : Numeral.ofText? negative cs = some n) : IsNumberText cs := by
  apply isNumberText_of_spanDigits
  unfold Numeral.ofText? at h
  dsimp only at h
  split at h
  · -- A point follows, with digits after it.
    rename_i afterPoint hpoint
    rw [hpoint]
    split at h
    · exact nomatch h
    · exact isNumberText_cons (by decide) (isNumberText_of_spanDigits (isNumberText_of_power h))
  · split at h
    · exact nomatch h
    · exact isNumberText_of_power h

private theorem isNumberText_of_ofWord? {negative : Bool} {cs : List Char} {x : Binary64}
    (h : Binary64.ofWord? negative cs = some x) : IsNumberText cs := by
  have hword : cs.map Char.toLower ∈ ["inf".toList, "infinity".toList, "nan".toList] := by
    unfold Binary64.ofWord? at h
    dsimp only at h
    split at h
    · rename_i hinf
      rcases hinf with hinf | hinf <;> simp [hinf]
    · split at h
      · rename_i hnan
        simp [hnan]
      · exact nomatch h
  have hletters : ∀ word ∈ ["inf".toList, "infinity".toList, "nan".toList],
      (word.all fun d => d ∈ "infinityna".toList) = true := by decide
  intro c hc
  exact mem_numberChars_of_toLower
    (List.all_iff_forall_prop.1 (hletters _ hword) _ (List.mem_map_of_mem hc))

/-- What `Binary64.ofText?` reads consists of `numberChars`. -/
theorem isNumberText_of_ofText? {cs : List Char} {x : Binary64} (h : Binary64.ofText? cs = some x) :
    IsNumberText cs := by
  unfold Binary64.ofText? at h
  split at h
  rename_i negative rest hsign
  -- After the sign there is a numeral or a word.
  have hrest : IsNumberText rest := by
    split at h
    · rename_i n hn
      exact isNumberText_of_numeral hn
    · exact isNumberText_of_ofWord? h
  split at hsign
  · cases hsign
    exact isNumberText_cons (by decide) hrest
  · cases hsign
    exact isNumberText_cons (by decide) hrest
  · cases hsign
    exact hrest

/-! ## Writing numbers -/

private theorem isNumberText_signedDigits (e : Int) : IsNumberText (signedDigits e) := by
  have hdigits : IsNumberText (digits e.natAbs) := fun c hc =>
    mem_numberChars_of_isDigit (isDigit_of_mem_digits hc)
  rw [signedDigits]
  split
  · exact isNumberText_cons (by decide) hdigits
  · exact hdigits

/-- The fraction as it is written: nothing if there are no digits, otherwise a point and the
    digits. -/
def Numeral.fractionPart (n : Numeral) : List Char :=
  if n.fraction.isEmpty then [] else '.' :: n.fraction

/-- The exponent as it is written, with a plus sign in front of it if `plus` says so. -/
def Numeral.powerPart (plus : Bool) (n : Numeral) : List Char :=
  match n.exponent with
  | none => []
  | some e => 'e' :: (if plus && 0 ≤ e then '+' :: signedDigits e else signedDigits e)

/-- The text of a numeral is its sign, `whole`, `fractionPart` and `powerPart`. -/
theorem Numeral.text_eq_parts (plus : Bool) (n : Numeral) :
    n.text plus =
      (if n.negative then ['-'] else []) ++ (n.whole ++ (n.fractionPart ++ n.powerPart plus)) := by
  cases hexponent : n.exponent <;> simp [text, fractionPart, powerPart, hexponent]

/-- The text of a numeral consists of `numberChars`. -/
theorem Numeral.isNumberText_text {n : Numeral}
    (h : ∀ c ∈ n.whole ++ n.fraction, c.isDigit = true) (plus : Bool) :
    IsNumberText (n.text plus) := by
  have hdigits : ∀ c ∈ n.whole ++ n.fraction, c ∈ numberChars := fun c hc =>
    mem_numberChars_of_isDigit (h c hc)
  intro c hc
  simp only [text, List.mem_append] at hc
  -- The four parts of the text, of which the last two may be missing.
  rcases hc with ((hsign | hwhole) | hpoint) | hpower
  · split at hsign
    · obtain rfl := List.mem_singleton.1 hsign
      decide
    · cases hsign
  · exact hdigits c (List.mem_append_left _ hwhole)
  · split at hpoint
    · cases hpoint
    · exact isNumberText_cons (by decide)
        (fun d hd => hdigits d (List.mem_append_right _ hd)) c hpoint
  · split at hpower
    · cases hpower
    · rename_i e he
      refine isNumberText_cons (by decide) ?_ c hpower
      split
      · exact isNumberText_cons (by decide) (isNumberText_signedDigits e)
      · exact isNumberText_signedDigits e

end MapperSweep
