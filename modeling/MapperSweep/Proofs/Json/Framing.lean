import MapperSweep.Proofs.Json.RoundTrip

/-!
# Values at the front of a text

What is read from the front of a text does not depend on what follows it, except that digits which
follow a number at the end of the text belong to the number.  An array or object is therefore read
from a longer text as well, and two of them side by side are no value.

## Key results

- `readValue?_append`: a value is read whatever follows it
- `parse?_append_eq_none`: nothing but blanks can follow an array or object
- `parse?_blanks_append`, `parse?_eq_none_of_start`: what can stand in front of a value
-/

namespace MapperSweep.Json

/-! ## Blanks -/

/-- What follows the first character that is no blank does not matter for `skipSpace`. -/
private theorem skipSpace_append {cs rest : List Char} {c : Char} (h : skipSpace cs = c :: rest)
    (more : List Char) : skipSpace (cs ++ more) = c :: (rest ++ more) := by
  rw [skipSpace] at h
  rw [skipSpace, List.dropWhile_append, h]
  rfl

private theorem isSpace_of_skipSpace {cs rest : List Char} {c : Char}
    (h : skipSpace cs = c :: rest) : isSpace c = false := by
  have hhead := List.head?_dropWhile_not isSpace cs
  rw [skipSpace] at h
  rw [h] at hhead
  exact hhead

private theorem skipSpace_blanks_append {blanks : List Char} (h : ∀ c ∈ blanks, isSpace c = true)
    (cs : List Char) : skipSpace (blanks ++ cs) = skipSpace cs :=
  List.dropWhile_append_of_pos h

/-! ## Strings and numbers -/

/-- The `pieces?` of a string literal end at its closing quote, whatever follows. -/
private theorem pieces?_append {cs rest : List Char} {ps : List Piece}
    (h : pieces? cs = some (ps, rest)) (more : List Char) :
    pieces? (cs ++ more) = some (ps, rest ++ more) := by
  fun_induction pieces? cs generalizing ps rest with
  | case1 tail =>
    obtain ⟨rfl, rfl⟩ := Prod.mk.inj (Option.some.inj h)
    rw [List.cons_append, pieces?]
  | case2 a b c d tail ih =>
    simp only [Option.bind_eq_bind, Option.bind_eq_some_iff, Prod.exists] at h
    obtain ⟨x, hx, y, hy, z, hz, w, hw, ps', rest', hrec, hpure⟩ := h
    obtain ⟨rfl, rfl⟩ := Prod.mk.inj (Option.some.inj hpure)
    simp [pieces?, hx, hy, hz, hw, ih hrec]
  | case3 e tail hu ih =>
    simp only [Option.bind_eq_bind, Option.bind_eq_some_iff, Prod.exists] at h
    obtain ⟨x, hx, ps', rest', hrec, hpure⟩ := h
    obtain ⟨rfl, rfl⟩ := Prod.mk.inj (Option.some.inj hpure)
    -- The letter is one of the short escapes, so no number begins here.
    have hletter : e ≠ 'u' := by
      rintro rfl
      cases hx
    rw [List.cons_append, List.cons_append, pieces?]
    · simp [hx, ih hrec]
    · exact fun _ _ _ _ _ heq _ => hletter heq
  | case4 c tail h1 h2 h3 hbad => cases h
  | case5 c tail h1 h2 h3 hgood ih =>
    simp only [Option.bind_eq_bind, Option.bind_eq_some_iff, Prod.exists] at h
    obtain ⟨ps', rest', hrec, hpure⟩ := h
    obtain ⟨rfl, rfl⟩ := Prod.mk.inj (Option.some.inj hpure)
    have hescape : c ≠ '\\' := fun heq => hgood (.inl heq)
    rw [List.cons_append, pieces?, if_neg hgood, ih hrec]
    · rfl
    · exact h1
    · exact fun _ _ _ _ _ heq _ => hescape heq
    · exact fun _ _ heq _ => hescape heq
  | case6 => cases h

/-- `readString?` ends at the closing quote, whatever follows. -/
private theorem readString?_append {cs rest : List Char} {s : Option String}
    (h : readString? cs = some (s, rest)) (more : List Char) :
    readString? (cs ++ more) = some (s, rest ++ more) := by
  simp only [readString?, Option.bind_eq_bind, Option.bind_eq_some_iff, Prod.exists] at h
  obtain ⟨ps, rest', hpieces, hpure⟩ := h
  obtain ⟨rfl, rfl⟩ := Prod.mk.inj (Option.some.inj hpure)
  simp [readString?, pieces?_append hpieces more]

/-- `spanDigits` ends where something else than a digit follows. -/
private theorem spanDigits_append_of_cons {cs rest : List Char} {c : Char}
    (h : (spanDigits cs).2 = c :: rest) (more : List Char) :
    spanDigits (cs ++ more) = ((spanDigits cs).1, c :: (rest ++ more)) := by
  have hsplit := spanDigits_append cs
  rw [h] at hsplit
  have hc : c.isDigit = false := by
    have hhead := List.head?_dropWhile_not Char.isDigit cs
    have hdrop : cs.dropWhile Char.isDigit = c :: rest := h
    rw [hdrop] at hhead
    exact hhead
  have hcs : cs ++ more = (spanDigits cs).1 ++ (c :: (rest ++ more)) := by
    rw [← List.cons_append, ← List.append_assoc, hsplit]
  rw [hcs]
  refine spanDigits_append_of (fun d hd => List.mem_takeWhile_imp hd) fun d hd => ?_
  obtain rfl := Option.some.inj hd
  exact hc

/-- The digits of a part of a number, of which there has to be one, with something else after
    them. -/
private theorem digits_append {cs ds rest : List Char} {c : Char}
    (h : (if (spanDigits cs).1.isEmpty then none else some ((spanDigits cs).1, (spanDigits cs).2)) =
      some (ds, c :: rest)) (more : List Char) :
    (if (spanDigits (cs ++ more)).1.isEmpty then none
      else some ((spanDigits (cs ++ more)).1, (spanDigits (cs ++ more)).2)) =
      some (ds, c :: (rest ++ more)) := by
  split at h
  · cases h
  · rename_i hne
    obtain ⟨rfl, hrest⟩ := Prod.mk.inj (Option.some.inj h)
    rw [spanDigits_append_of_cons hrest more, if_neg hne]

/-- `readWhole?` ends where something else follows. -/
private theorem readWhole?_append_of_cons {cs ds rest : List Char} {c : Char}
    (h : readWhole? cs = some (ds, c :: rest)) (more : List Char) :
    readWhole? (cs ++ more) = some (ds, c :: (rest ++ more)) := by
  cases cs with
  | nil => cases h
  | cons d cs =>
    by_cases hzero : d = '0'
    · subst hzero
      obtain ⟨rfl, rfl⟩ := Prod.mk.inj (Option.some.inj h)
      rfl
    · have hother : ∀ cs, readWhole? (d :: cs) = if (spanDigits (d :: cs)).1.isEmpty then none
          else some ((spanDigits (d :: cs)).1, (spanDigits (d :: cs)).2) := by
        intro cs
        rw [readWhole?]
        exact fun _ heq => hzero (List.cons.inj heq).1
      rw [hother] at h
      rw [List.cons_append, hother]
      exact digits_append h more

/-- `readFraction?` ends where something else follows. -/
private theorem readFraction?_append_of_cons {cs ds rest : List Char} {c : Char}
    (h : readFraction? cs = some (ds, c :: rest)) (more : List Char) :
    readFraction? (cs ++ more) = some (ds, c :: (rest ++ more)) := by
  cases cs with
  | nil => cases h
  | cons d cs =>
    by_cases hpoint : d = '.'
    · subst hpoint
      exact digits_append h more
    · have hother : ∀ cs, readFraction? (d :: cs) = some ([], d :: cs) := by
        intro cs
        rw [readFraction?]
        exact fun _ heq => hpoint (List.cons.inj heq).1
      rw [hother] at h
      obtain ⟨rfl, heq⟩ := Prod.mk.inj (Option.some.inj h)
      obtain ⟨rfl, rfl⟩ := List.cons.inj heq
      rw [List.cons_append, hother]

/-- Whether an exponent has a minus sign, and what follows the sign; `readPower?` looks for it. -/
private def exponentSign (cs : List Char) : Bool × List Char :=
  match cs with
  | '-' :: rest => (true, rest)
  | '+' :: rest => (false, rest)
  | _ => (false, cs)

/-- The sign of an exponent does not depend on what follows the text. -/
private theorem exponentSign_append {cs : List Char} (h : cs ≠ []) (more : List Char) :
    exponentSign (cs ++ more) = ((exponentSign cs).1, (exponentSign cs).2 ++ more) := by
  obtain ⟨d, cs, rfl⟩ := List.exists_cons_of_ne_nil h
  by_cases hminus : d = '-'
  · subst hminus
    rfl
  by_cases hplus : d = '+'
  · subst hplus
    rfl
  · have hother : ∀ cs, exponentSign (d :: cs) = (false, d :: cs) := by
      intro cs
      rw [exponentSign]
      · exact fun _ heq => hminus (List.cons.inj heq).1
      · exact fun _ heq => hplus (List.cons.inj heq).1
    rw [List.cons_append, hother, hother]
    rfl

/-- `readPower?` ends where something else follows. -/
private theorem readPower?_append_of_cons {cs rest : List Char} {c : Char} {e : Option Int}
    (h : readPower? cs = some (e, c :: rest)) (more : List Char) :
    readPower? (cs ++ more) = some (e, c :: (rest ++ more)) := by
  cases cs with
  | nil => cases h
  | cons d cs =>
    -- The reader matches on the sign in place, which `exponentSign` takes out.
    have hpower : ∀ cs, readPower? (d :: cs) =
        if d = 'e' ∨ d = 'E' then
          if (spanDigits (exponentSign cs).2).1.isEmpty then none
          else some (some (if (exponentSign cs).1 then
              -(readDigits (spanDigits (exponentSign cs).2).1 : Int)
            else readDigits (spanDigits (exponentSign cs).2).1), (spanDigits (exponentSign cs).2).2)
        else some (none, d :: cs) := fun _ => rfl
    rw [hpower] at h
    rw [List.cons_append, hpower]
    split at h
    · rename_i hletter
      split at h
      · cases h
      · rename_i hne
        obtain ⟨rfl, hrest⟩ := Prod.mk.inj (Option.some.inj h)
        have hcs : cs ≠ [] := by
          rintro rfl
          exact hne rfl
        rw [if_pos hletter, exponentSign_append hcs, spanDigits_append_of_cons hrest more,
          if_neg hne]
    · rename_i hletter
      obtain ⟨rfl, heq⟩ := Prod.mk.inj (Option.some.inj h)
      obtain ⟨rfl, rfl⟩ := List.cons.inj heq
      rw [if_neg hletter]

/-- Whether a number has a minus sign, and what follows the sign; `readNumber?` looks for it. -/
private def numberSign (cs : List Char) : Bool × List Char :=
  match cs with
  | '-' :: rest => (true, rest)
  | _ => (false, cs)

private theorem numberSign_of_ne {d : Char} (h : d ≠ '-') (cs : List Char) :
    numberSign (d :: cs) = (false, d :: cs) := by
  rw [numberSign]
  exact fun _ heq => h (List.cons.inj heq).1

/-- The sign of a number does not depend on what follows the text. -/
private theorem numberSign_append {cs : List Char} (h : cs ≠ []) (more : List Char) :
    numberSign (cs ++ more) = ((numberSign cs).1, (numberSign cs).2 ++ more) := by
  obtain ⟨d, cs, rfl⟩ := List.exists_cons_of_ne_nil h
  by_cases hminus : d = '-'
  · subst hminus
    rfl
  · rw [List.cons_append, numberSign_of_ne hminus, numberSign_of_ne hminus]
    rfl

/-- `readNumber?` reads the sign, the whole part, the fraction and the exponent, one after the
    other. -/
private theorem readNumber?_eq_some_iff {cs rest : List Char} {n : Numeral} :
    readNumber? cs = some (n, rest) ↔
      n.negative = (numberSign cs).1 ∧ ∃ afterWhole afterFraction,
        readWhole? (numberSign cs).2 = some (n.whole, afterWhole) ∧
        readFraction? afterWhole = some (n.fraction, afterFraction) ∧
        readPower? afterFraction = some (n.exponent, rest) := by
  have hnumber : readNumber? cs = (readWhole? (numberSign cs).2).bind fun whole =>
      (readFraction? whole.2).bind fun fraction =>
        (readPower? fraction.2).bind fun exponent =>
          some (⟨(numberSign cs).1, whole.1, fraction.1, exponent.1⟩, exponent.2) := rfl
  rw [hnumber]
  constructor
  · intro h
    obtain ⟨⟨whole, afterWhole⟩, hwhole, h⟩ := Option.bind_eq_some_iff.1 h
    obtain ⟨⟨fraction, afterFraction⟩, hfraction, h⟩ := Option.bind_eq_some_iff.1 h
    obtain ⟨⟨exponent, rest⟩, hpower, h⟩ := Option.bind_eq_some_iff.1 h
    obtain ⟨rfl, rfl⟩ := Prod.mk.inj (Option.some.inj h)
    exact ⟨rfl, afterWhole, afterFraction, hwhole, hfraction, hpower⟩
  · rintro ⟨hsign, afterWhole, afterFraction, hwhole, hfraction, hpower⟩
    rw [hwhole, Option.bind_some, hfraction, Option.bind_some, hpower, Option.bind_some, ← hsign]

/-- What `readWhole?` reads begins with a digit. -/
private theorem isDigit_of_readWhole? {d : Char} {ds : List Char} {x : List Char × List Char}
    (h : readWhole? (d :: ds) = some x) : d.isDigit = true := by
  by_contra hd
  have hzero : d ≠ '0' := by
    rintro rfl
    exact hd rfl
  have hspan : (spanDigits (d :: ds)).1 = [] := List.takeWhile_cons_of_neg hd
  rw [readWhole?] at h
  · dsimp only at h
    rw [hspan] at h
    cases h
  · exact fun _ heq => hzero (List.cons.inj heq).1

/-- What `readNumber?` reads begins with a minus sign or with a digit. -/
private theorem exists_numberStart {cs : List Char} {x : Numeral × List Char}
    (h : readNumber? cs = some x) : ∃ d ds, cs = d :: ds ∧ (d = '-' ∨ d.isDigit = true) := by
  obtain ⟨-, afterWhole, afterFraction, hwhole, -⟩ := readNumber?_eq_some_iff.1 h
  cases cs with
  | nil => cases hwhole
  | cons d ds =>
    refine ⟨d, ds, rfl, ?_⟩
    by_cases hminus : d = '-'
    · exact .inl hminus
    · rw [numberSign_of_ne hminus] at hwhole
      exact .inr (isDigit_of_readWhole? hwhole)

/-- `readNumber?` ends where something else follows. -/
private theorem readNumber?_append_of_cons {cs rest : List Char} {c : Char} {n : Numeral}
    (h : readNumber? cs = some (n, c :: rest)) (more : List Char) :
    readNumber? (cs ++ more) = some (n, c :: (rest ++ more)) := by
  obtain ⟨d, ds, rfl, -⟩ := exists_numberStart h
  obtain ⟨hsign, afterWhole, afterFraction, hwhole, hfraction, hpower⟩ :=
    readNumber?_eq_some_iff.1 h
  -- Something follows the number, so something follows each of its parts.
  cases afterFraction with
  | nil => simp [readPower?] at hpower
  | cons b afterFraction =>
    cases afterWhole with
    | nil => simp [readFraction?] at hfraction
    | cons a afterWhole =>
      rw [readNumber?_eq_some_iff, numberSign_append (List.cons_ne_nil d ds)]
      exact ⟨hsign, _, _, readWhole?_append_of_cons hwhole more,
        readFraction?_append_of_cons hfraction more, readPower?_append_of_cons hpower more⟩

/-! ## Values -/

/-- `Closed j rest` holds if `j` is no number, or something follows it: only a number at the end of
    a text would go on if more was added. -/
def Closed (j : Json) (rest : List Char) : Prop := rest = [] → ∀ n, j ≠ .number n

/-- With the given `fuel`, or more, values, items and members are read whatever follows them. -/
private structure Framed (fuel : Nat) : Prop where
  value : ∀ {cs rest : List Char} {j : Json} {more : List Char} {k : Nat},
    readValue? fuel cs = some (j, rest) → Closed j rest →
      readValue? (fuel + k) (cs ++ more) = some (j, rest ++ more)
  items : ∀ {cs rest : List Char} {js : List Json} {more : List Char} {k : Nat},
    readItems? fuel cs = some (js, rest) →
      readItems? (fuel + k) (cs ++ more) = some (js, rest ++ more)
  members : ∀ {cs rest : List Char} {ms : List (Option String × Json)} {more : List Char} {k : Nat},
    readMembers? fuel cs = some (ms, rest) →
      readMembers? (fuel + k) (cs ++ more) = some (ms, rest ++ more)

private theorem closed_of_skipSpace {j : Json} {rest tail : List Char} {c : Char}
    (h : skipSpace rest = c :: tail) : Closed j rest := by
  rintro rfl
  cases h

private theorem Framed.items_succ {fuel : Nat} (ih : Framed fuel) {cs rest : List Char}
    {js : List Json} {more : List Char} {k : Nat}
    (h : readItems? (fuel + 1) cs = some (js, rest)) :
    readItems? (fuel + 1 + k) (cs ++ more) = some (js, rest ++ more) := by
  rw [readItems?] at h
  obtain ⟨⟨item, afterItem⟩, hitem, h⟩ := Option.bind_eq_some_iff.1 h
  dsimp only at h
  rw [Nat.add_right_comm, readItems?]
  -- A bracket or a comma follows the item, so it is closed even if it is a number.
  split at h
  · rename_i tail hskip
    obtain ⟨rfl, rfl⟩ := Prod.mk.inj (Option.some.inj h)
    rw [ih.value hitem (closed_of_skipSpace hskip)]
    simp [skipSpace_append hskip]
  · rename_i tail hskip
    obtain ⟨⟨items, afterItems⟩, hitems, h⟩ := Option.bind_eq_some_iff.1 h
    obtain ⟨rfl, rfl⟩ := Prod.mk.inj (Option.some.inj h)
    rw [ih.value hitem (closed_of_skipSpace hskip)]
    simp [skipSpace_append hskip, ih.items hitems]
  · cases h

private theorem Framed.members_succ {fuel : Nat} (ih : Framed fuel) {cs rest : List Char}
    {ms : List (Option String × Json)} {more : List Char} {k : Nat}
    (h : readMembers? (fuel + 1) cs = some (ms, rest)) :
    readMembers? (fuel + 1 + k) (cs ++ more) = some (ms, rest ++ more) := by
  -- Everything up to the value is followed by something, and so is the value itself.
  rw [readMembers?] at h
  rw [Nat.add_right_comm, readMembers?]
  split at h
  · rename_i afterQuote hquote
    obtain ⟨⟨key, afterKey⟩, hkey, h⟩ := Option.bind_eq_some_iff.1 h
    dsimp only at h
    split at h
    · rename_i afterColon hcolon
      obtain ⟨⟨value, afterValue⟩, hvalue, h⟩ := Option.bind_eq_some_iff.1 h
      dsimp only at h
      split at h
      · rename_i tail hskip
        obtain ⟨rfl, rfl⟩ := Prod.mk.inj (Option.some.inj h)
        simp [skipSpace_append hquote, readString?_append hkey, skipSpace_append hcolon,
          ih.value hvalue (closed_of_skipSpace hskip), skipSpace_append hskip]
      · rename_i tail hskip
        obtain ⟨⟨members, afterMembers⟩, hmembers, h⟩ := Option.bind_eq_some_iff.1 h
        obtain ⟨rfl, rfl⟩ := Prod.mk.inj (Option.some.inj h)
        simp [skipSpace_append hquote, readString?_append hkey, skipSpace_append hcolon,
          ih.value hvalue (closed_of_skipSpace hskip), skipSpace_append hskip, ih.members hmembers]
      · cases h
    · cases h
  · cases h

private theorem readValue?_nil (fuel : Nat) : readValue? fuel [] = none := by
  cases fuel <;> rfl

private theorem readItems?_nil (fuel : Nat) : readItems? fuel [] = none := by
  cases fuel with
  | zero => rfl
  | succ fuel => rw [readItems?, readValue?_nil]; rfl

private theorem readMembers?_nil (fuel : Nat) : readMembers? fuel [] = none := by
  cases fuel <;> rfl

/-- `readValue?` of an array: its items after the opening bracket are read whatever follows them. -/
private theorem Framed.array_succ {fuel : Nat} (ih : Framed fuel) {cs tail rest : List Char}
    {js : List Json} {more : List Char} {k : Nat} (hskip : skipSpace cs = '[' :: tail)
    (hopen : ∀ rest, skipSpace tail = ']' :: rest → False)
    (h : readItems? fuel (skipSpace tail) = some (js, rest)) :
    readValue? (fuel + k + 1) (cs ++ more) = some (.array js, rest ++ more) := by
  cases hitems : skipSpace tail with
  | nil =>
    rw [hitems, readItems?_nil] at h
    cases h
  -- The first item begins with a character other than the closing bracket, and so it does if more
  -- text follows.
  | cons c cs' =>
    rw [hitems] at h
    have hread : readItems? (fuel + k) (c :: cs' ++ more) = some (js, rest ++ more) := ih.items h
    rw [readValue?, skipSpace_append hskip]
    simp only [skipSpace_append hitems]
    split
    · rename_i heq
      obtain ⟨rfl, -⟩ := List.cons.inj heq
      exact (hopen _ hitems).elim
    · rw [List.cons_append] at hread
      simp [hread]

/-- `readValue?` of an object: its members after the opening brace are read whatever follows
    them. -/
private theorem Framed.object_succ {fuel : Nat} (ih : Framed fuel) {cs tail rest : List Char}
    {ms : List (Option String × Json)} {more : List Char} {k : Nat}
    (hskip : skipSpace cs = '\x7b' :: tail)
    (hopen : ∀ rest, skipSpace tail = '\x7d' :: rest → False)
    (h : readMembers? fuel (skipSpace tail) = some (ms, rest)) :
    readValue? (fuel + k + 1) (cs ++ more) = some (.object ms, rest ++ more) := by
  cases hmembers : skipSpace tail with
  | nil =>
    rw [hmembers, readMembers?_nil] at h
    cases h
  | cons c cs' =>
    rw [hmembers] at h
    have hread : readMembers? (fuel + k) (c :: cs' ++ more) = some (ms, rest ++ more) :=
      ih.members h
    rw [readValue?, skipSpace_append hskip]
    simp only [skipSpace_append hmembers]
    split
    · rename_i heq
      obtain ⟨rfl, -⟩ := List.cons.inj heq
      exact (hopen _ hmembers).elim
    · rw [List.cons_append] at hread
      simp [hread]

/-- `readValue?` of a number with something after it. -/
private theorem readValue?_number_append {cs rest : List Char} {n : Numeral} {c : Char}
    (h : readNumber? (skipSpace cs) = some (n, c :: rest)) (fuel : Nat) (more : List Char) :
    readValue? (fuel + 1) (cs ++ more) = some (.number n, c :: (rest ++ more)) := by
  obtain ⟨d, ds, hskip, hstart⟩ := exists_numberStart h
  have hread := readNumber?_append_of_cons h more
  rw [hskip, List.cons_append] at hread
  have hsame : readValue? (fuel + 1) (cs ++ more) = readValue? (fuel + 1) (d :: (ds ++ more)) := by
    rw [readValue?, readValue?, skipSpace_append hskip, skipSpace_cons (isSpace_of_skipSpace hskip)]
  rw [hsame, readValue?_of_numberStart hstart, hread, Option.map_some]

private theorem Framed.value_succ {fuel : Nat} (ih : Framed fuel) {cs rest : List Char} {j : Json}
    {more : List Char} {k : Nat} (h : readValue? (fuel + 1) cs = some (j, rest))
    (hclosed : Closed j rest) :
    readValue? (fuel + 1 + k) (cs ++ more) = some (j, rest ++ more) := by
  rw [readValue?] at h
  rw [Nat.add_right_comm]
  split at h
  case h_1 hskip | h_2 hskip | h_3 hskip =>
    obtain ⟨rfl, rfl⟩ := Prod.mk.inj (Option.some.inj h)
    rw [readValue?, skipSpace_append hskip]
    rfl
  · rename_i tail hskip
    obtain ⟨⟨s, afterString⟩, hstring, h⟩ := Option.bind_eq_some_iff.1 h
    obtain ⟨rfl, rfl⟩ := Prod.mk.inj (Option.some.inj h)
    rw [readValue?, skipSpace_append hskip]
    simp [readString?_append hstring]
  · rename_i tail hskip
    split at h
    · rename_i afterBracket hbracket
      obtain ⟨rfl, rfl⟩ := Prod.mk.inj (Option.some.inj h)
      rw [readValue?, skipSpace_append hskip]
      simp [skipSpace_append hbracket]
    · rename_i hopen
      obtain ⟨⟨items, afterItems⟩, hitems, h⟩ := Option.bind_eq_some_iff.1 h
      obtain ⟨rfl, rfl⟩ := Prod.mk.inj (Option.some.inj h)
      exact ih.array_succ hskip hopen hitems
  · rename_i tail hskip
    split at h
    · rename_i afterBrace hbrace
      obtain ⟨rfl, rfl⟩ := Prod.mk.inj (Option.some.inj h)
      rw [readValue?, skipSpace_append hskip]
      simp [skipSpace_append hbrace]
    · rename_i hopen
      obtain ⟨⟨members, afterMembers⟩, hmembers, h⟩ := Option.bind_eq_some_iff.1 h
      obtain ⟨rfl, rfl⟩ := Prod.mk.inj (Option.some.inj h)
      exact ih.object_succ hskip hopen hmembers
  · obtain ⟨⟨n, afterNumber⟩, hnumber, h⟩ := Option.bind_eq_some_iff.1 h
    obtain ⟨rfl, rfl⟩ := Prod.mk.inj (Option.some.inj h)
    -- The number is followed by something, which says where it ends.
    cases afterNumber with
    | nil => exact absurd rfl (hclosed rfl n)
    | cons c afterNumber => exact readValue?_number_append hnumber (fuel + k) more

private theorem framed (fuel : Nat) : Framed fuel := by
  induction fuel with
  | zero => exact ⟨nofun, nofun, nofun⟩
  | succ fuel ih => exact ⟨ih.value_succ, ih.items_succ, ih.members_succ⟩

/-- A value that is `Closed` is read whatever follows it. -/
theorem readValue?_append {fuel : Nat} {cs rest : List Char} {j : Json}
    (h : readValue? fuel cs = some (j, rest)) (hclosed : Closed j rest) (k : Nat)
    (more : List Char) : readValue? (fuel + k) (cs ++ more) = some (j, rest ++ more) :=
  (framed fuel).value h hclosed

/-! ## Texts -/

/-- `parse?` reads one value, after which there are only blanks. -/
private theorem parse?_eq_some_iff {cs : List Char} {j : Json} :
    parse? cs = some j ↔
      ∃ rest, readValue? (2 * cs.length + 2) cs = some (j, rest) ∧ skipSpace rest = [] := by
  rw [parse?]
  constructor
  · intro h
    obtain ⟨⟨value, rest⟩, hvalue, h⟩ := Option.bind_eq_some_iff.1 h
    dsimp only at h
    split at h
    · rename_i hempty
      obtain rfl := Option.some.inj h
      exact ⟨rest, hvalue, List.isEmpty_iff.1 hempty⟩
    · cases h
  · rintro ⟨rest, hvalue, hempty⟩
    rw [hvalue]
    simp [hempty]

/-- Nothing but blanks can follow a text that `parse?` reads, unless its value is a number. -/
theorem parse?_append_eq_none {cs : List Char} {j : Json} (h : parse? cs = some j)
    (hnumber : ∀ n, j ≠ .number n) {c : Char} (hc : isSpace c = false) (more : List Char) :
    parse? (cs ++ c :: more) = none := by
  obtain ⟨rest, hvalue, hempty⟩ := parse?_eq_some_iff.1 h
  have hlength : 2 * (cs ++ c :: more).length + 2 =
      2 * cs.length + 2 + 2 * (more.length + 1) := by
    rw [List.length_append, List.length_cons]
    omega
  have hskip : skipSpace (rest ++ c :: more) = c :: more := by
    rw [skipSpace_blanks_append (List.dropWhile_eq_nil_iff.1 hempty), skipSpace_cons hc]
  -- The same value is read, and what is left are the old blanks and then something else.
  rw [parse?, hlength, readValue?_append hvalue (fun _ => hnumber)]
  simp [hskip]

/-- Blanks can stand in front of the written form of a value. -/
theorem parse?_blanks_append {blanks : List Char} (hblanks : ∀ c ∈ blanks, isSpace c = true)
    {j : Json} (hj : Valid j) : parse? (blanks ++ print j) = some j := by
  have hread : readValue? (2 * (blanks ++ print j).length + 2) (print j ++ []) = some (j, []) :=
    readValue?_print hj (by simp; omega) followsValue_nil
  rw [List.append_nil] at hread
  rw [parse?_eq_some_iff]
  refine ⟨[], ?_, rfl⟩
  rw [← hread, readValue?, readValue?, skipSpace_blanks_append hblanks]

/-- A text that begins with something else than a value, `c`, is not read. -/
theorem parse?_eq_none_of_start {cs tail : List Char} {c : Char} (hskip : skipSpace cs = c :: tail)
    (hstart : c ∉ "ntf\"[\x7b-".toList) (hdigit : c.isDigit = false) : parse? cs = none := by
  have hread : readValue? (2 * cs.length + 2) cs = none := by
    rw [readValue?, hskip]
    split
    case h_7 =>
      cases hnumber : readNumber? (c :: tail) with
      | none => rfl
      | some x =>
        obtain ⟨d, ds, heq, hd⟩ := exists_numberStart hnumber
        obtain ⟨rfl, -⟩ := List.cons.inj heq
        rcases hd with rfl | hd
        · exact absurd (by decide) hstart
        · rw [hdigit] at hd
          cases hd
    -- Every other value begins with one of the characters that are ruled out.
    all_goals
      rename_i heq
      rw [(List.cons.inj heq).1] at hstart
      exact absurd (by decide) hstart
  rw [parse?, hread]
  rfl

end MapperSweep.Json
