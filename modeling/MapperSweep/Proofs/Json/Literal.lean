import Mathlib.Data.Bool.AllAny
import Mathlib.Data.List.Forall2
import MapperSweep.Json.Parser
import MapperSweep.Json.Printer

/-!
# String literals of JSON

Every text is read back from its literal.  A literal is read in two steps, so the proof has two as
well: the pieces of a literal spell its text (`pieces?_escaped`), and pieces that spell a text are
put together to this text (`assemble?_of_spells`).  Numbers appear among these pieces for control
characters only, so no two of them are taken for a surrogate pair.

## Key results

- `readString?_stringLiteral`: a string is read back from its literal
- `le_of_mem_stringLiteral`: a literal has no control characters
-/

namespace MapperSweep.Json

/-- `Spells p c` says that the piece `p` stands for the character `c`: it is `c`, or the number of
    `c` if that is a control character. -/
inductive Spells : Piece → Char → Prop
  | char (c : Char) : Spells (.char c) c
  | number {c : Char} : c.toNat < 0x20 → Spells (.number c.toNat) c

/-! ## One character -/

/-- The three ways in which `escapeChar` writes a character: a letter after a backslash, the number
    of a control character, or the character itself. -/
theorem escapeChar_cases (c : Char) :
    (∃ e, e ∈ "\"\\nrtbf".toList ∧ shortEscape? e = some c ∧ escapeChar c = ['\\', e]) ∨
    (c.toNat < 0x20 ∧ escapeChar c = '\\' :: 'u' :: hexFour c.toNat) ∨
    (c ≠ '"' ∧ c ≠ '\\' ∧ ¬c.toNat < 0x20 ∧ escapeChar c = [c]) := by
  rw [escapeChar]
  split
  · exact .inl ⟨'"', by decide, by simp [*, shortEscape?], rfl⟩
  split
  · exact .inl ⟨'\\', by decide, by simp [*, shortEscape?], rfl⟩
  split
  · exact .inl ⟨'n', by decide, by simp [*, shortEscape?], rfl⟩
  split
  · exact .inl ⟨'r', by decide, by simp [*, shortEscape?], rfl⟩
  split
  · exact .inl ⟨'t', by decide, by simp [*, shortEscape?], rfl⟩
  split
  · exact .inl ⟨'b', by decide, by simp [*, shortEscape?], rfl⟩
  split
  · exact .inl ⟨'f', by decide, by simp [*, shortEscape?], rfl⟩
  split
  · exact .inr (.inl ⟨by assumption, rfl⟩)
  · exact .inr (.inr ⟨by assumption, by assumption, by assumption, rfl⟩)

private theorem hexValue?_digitChar : ∀ n < 16, hexValue? (Nat.digitChar n) = some n := by decide

/-- The four digits of the number of a control character: two zeros, and the two digits of `n`. -/
private theorem hexFour_of_lt :
    ∀ n < 0x20, hexFour n = ['0', '0', Nat.digitChar (n / 16), Nat.digitChar (n % 16)] := by
  decide +kernel

/-- `pieces?` takes a character that needs no escape as it is. -/
private theorem pieces?_plain {c : Char} (hquote : c ≠ '"') (hslash : c ≠ '\\')
    (hlow : ¬c.toNat < 0x20) (rest : List Char) :
    pieces? (c :: rest) = (pieces? rest).map fun p => (.char c :: p.1, p.2) := by
  rw [pieces?.eq_def]
  -- The other patterns start with a quote or a backslash.
  split
  · rename_i heq
    exact absurd (List.cons.inj heq).1 hquote
  · rename_i heq
    exact absurd (List.cons.inj heq).1 hslash
  · rename_i heq
    exact absurd (List.cons.inj heq).1 hslash
  · rename_i heq
    obtain ⟨rfl, rfl⟩ := List.cons.inj heq
    rw [if_neg (by simp only [hslash, hlow, or_self, not_false_eq_true])]
    cases pieces? rest <;> rfl
  · rename_i heq
    exact nomatch heq

/-- `pieces?` takes four digits after `\u` as a number. -/
private theorem pieces?_control {n : Nat} (h : n < 0x20) (rest : List Char) :
    pieces? ('\\' :: 'u' :: hexFour n ++ rest) =
      (pieces? rest).map fun p => (.number n :: p.1, p.2) := by
  -- The first two digits are zeros, and the other two make up the number.
  have hzero : hexValue? '0' = some 0 := by decide
  have hvalue : n / 16 * 16 + n % 16 = n := Nat.div_add_mod' n 16
  rw [hexFour_of_lt n h]
  simp only [List.cons_append, List.nil_append, pieces?, hzero,
    hexValue?_digitChar (n / 16) (by omega), hexValue?_digitChar (n % 16) (by omega)]
  cases pieces? rest <;> simp [hvalue]

/-- `pieces?` takes a letter after a backslash as what `shortEscape?` says. -/
private theorem pieces?_short {e c : Char} (hu : e ≠ 'u') (h : shortEscape? e = some c)
    (rest : List Char) :
    pieces? ('\\' :: e :: rest) = (pieces? rest).map fun p => (.char c :: p.1, p.2) := by
  rw [pieces?.eq_def]
  split
  · rename_i heq
    exact absurd (List.cons.inj heq).1 (by decide)
  · rename_i heq
    exact absurd (List.cons.inj (List.cons.inj heq).2).1 hu
  · rename_i heq
    obtain ⟨rfl, rfl⟩ := List.cons.inj (List.cons.inj heq).2
    rw [h]
    cases pieces? rest <;> rfl
  · rename_i hnot heq
    obtain ⟨rfl, rfl⟩ := List.cons.inj heq
    exact (hnot e rest rfl rfl).elim
  · rename_i heq
    exact nomatch heq

/-- `escapeChar c` is one piece, which spells `c`. -/
private theorem pieces?_escapeChar (c : Char) :
    ∃ p, Spells p c ∧
      ∀ rest, pieces? (escapeChar c ++ rest) = (pieces? rest).map fun q => (p :: q.1, q.2) := by
  rcases escapeChar_cases c with ⟨e, he, hshort, hc⟩ | ⟨hlow, hc⟩ | ⟨hquote, hslash, hlow, hc⟩
  · have hu : e ≠ 'u' := by
      rintro rfl
      exact absurd he (by decide)
    exact ⟨.char c, .char c, fun rest => by rw [hc]; exact pieces?_short hu hshort rest⟩
  · exact ⟨.number c.toNat, .number hlow, fun rest => by rw [hc]; exact pieces?_control hlow rest⟩
  · exact ⟨.char c, .char c, fun rest => by rw [hc]; exact pieces?_plain hquote hslash hlow rest⟩

private theorem le_of_mem_escapeChar {c d : Char} (h : d ∈ escapeChar c) : 0x20 ≤ d.toNat := by
  rcases escapeChar_cases c with ⟨e, he, _, hc⟩ | ⟨hlow, hc⟩ | ⟨_, _, hlow, hc⟩
  · have hletters : ∀ x ∈ '\\' :: "\"\\nrtbf".toList, 0x20 ≤ x.toNat :=
      List.all_iff_forall_prop.1 (by decide)
    rw [hc, List.mem_cons, List.mem_singleton] at h
    rcases h with rfl | rfl
    · exact hletters _ List.mem_cons_self
    · exact hletters _ (List.mem_cons_of_mem _ he)
  · have hdigits : ∀ n < 0x20, (('\\' :: 'u' :: hexFour n).all fun x => 0x20 ≤ x.toNat) = true := by
      decide +kernel
    rw [hc] at h
    exact List.all_iff_forall_prop.1 (hdigits _ hlow) _ h
  · rw [hc, List.mem_singleton] at h
    rw [h]
    omega

/-! ## Texts -/

/-- The pieces of a literal spell the text `cs` that was written. -/
theorem pieces?_escaped (cs rest : List Char) :
    ∃ ps, List.Forall₂ Spells ps cs ∧
      pieces? (cs.flatMap escapeChar ++ '"' :: rest) = some (ps, rest) := by
  induction cs with
  | nil => exact ⟨[], .nil, rfl⟩
  | cons c cs ih =>
    obtain ⟨p, hp, hread⟩ := pieces?_escapeChar c
    obtain ⟨ps, hps, hrest⟩ := ih
    refine ⟨p :: ps, .cons hp hps, ?_⟩
    rw [List.flatMap_cons, List.append_assoc, hread, hrest, Option.map_some]

/-- A number below the surrogates is put together by itself, whatever pieces `ps` follow. -/
private theorem assemble?_number {n : Nat} (h : n < 0xD800) (ps : List Piece) :
    assemble? (.number n :: ps) = (Char.ofNat n :: ·) <$> assemble? ps := by
  -- It is neither half of a surrogate pair.
  have hhigh : ¬(0xD800 ≤ n ∧ n < 0xDC00) := by omega
  have hlow : ¬(0xDC00 ≤ n ∧ n < 0xE000) := by omega
  have hnone : ¬(0xD800 ≤ n ∧ n < 0xE000) := by omega
  cases ps with
  | nil => simp only [assemble?, if_neg hnone]
  | cons p ps =>
    cases p with
    | char c => simp only [assemble?, if_neg hnone]
    | number m => rw [assemble?, if_neg hhigh, if_neg hlow]

/-- Pieces that spell `cs` are put together to `cs`. -/
theorem assemble?_of_spells {ps : List Piece} {cs : List Char} (h : List.Forall₂ Spells ps cs) :
    assemble? ps = some cs := by
  induction h with
  | nil => rfl
  | cons hp _ ih =>
    cases hp with
    | char c => rw [assemble?, ih, Option.map_eq_map, Option.map_some]
    | number hlow =>
      rw [assemble?_number (by omega), ih, Option.map_eq_map, Option.map_some, Char.ofNat_toNat]

/-- A string is read back from its `stringLiteral`, which has an opening quote. -/
theorem readString?_stringLiteral (s : Option String) (rest : List Char) :
    ∃ body, stringLiteral s ++ rest = '"' :: body ∧ readString? body = some (s, rest) := by
  cases s with
  | none =>
    -- A string that is no text is written as half of a surrogate pair, which reads as none.
    have hliteral : stringLiteral none = ['"', '\\', 'u', 'd', '8', '0', '0', '"'] := by decide
    have hnone : assemble? [.number 0xD800] = none := by simp [assemble?]
    have hread : pieces? ('\\' :: 'u' :: 'd' :: '8' :: '0' :: '0' :: '"' :: rest) =
        some ([.number 0xD800], rest) := by
      simp [pieces?, hexValue?]
    exact ⟨'\\' :: 'u' :: 'd' :: '8' :: '0' :: '0' :: '"' :: rest, by rw [hliteral]; rfl,
      by simp [readString?, hread, hnone]⟩
  | some s =>
    have hliteral : stringLiteral (some s) = '"' :: s.toList.flatMap escapeChar ++ ['"'] := rfl
    obtain ⟨ps, hps, hread⟩ := pieces?_escaped s.toList rest
    exact ⟨s.toList.flatMap escapeChar ++ '"' :: rest, by rw [hliteral]; simp,
      by simp [readString?, hread, assemble?_of_spells hps]⟩

/-- A `stringLiteral` has no control characters, and so no line feed. -/
theorem le_of_mem_stringLiteral {s : Option String} {c : Char} (h : c ∈ stringLiteral s) :
    0x20 ≤ c.toNat := by
  cases s with
  | none =>
    have hall : ∀ d ∈ stringLiteral none, 0x20 ≤ d.toNat := List.all_iff_forall_prop.1 (by decide)
    exact hall c h
  | some s =>
    have hliteral : stringLiteral (some s) = '"' :: s.toList.flatMap escapeChar ++ ['"'] := rfl
    rw [hliteral] at h
    simp only [List.cons_append, List.mem_cons, List.mem_append, List.mem_flatMap,
      List.not_mem_nil, or_false] at h
    rcases h with rfl | ⟨d, _, hmem⟩ | rfl
    · decide
    · exact le_of_mem_escapeChar hmem
    · decide

end MapperSweep.Json
