import MapperSweep.Proofs.Json.Literal
import MapperSweep.Proofs.Json.Number

/-!
# Reading back JSON values

Every value with numerals of JSON is read back from its written form.  The induction is on the
value: a value that is followed by nothing that could belong to it is read up to its end, and so are
the items and members that it consists of.  Every step of the reader costs one unit of fuel and at
least one character was written for it, so as much fuel as there are characters is enough.

## Key results

- `readValue?_print`: a value is read back from the front of a text
- `parse?_print`: a value is read back from its written form
- `le_of_mem_print`: the written form has no control characters
-/

namespace MapperSweep.Json

/-- `Valid j` holds if all numerals in `j` are such that JSON allows, see `Numeral.IsJson`. -/
inductive Valid : Json → Prop
  | null : Valid .null
  | bool (b : Bool) : Valid (.bool b)
  | number {n : Numeral} : n.IsJson → Valid (.number n)
  | string (s : Option String) : Valid (.string s)
  | array {items : List Json} : (∀ item ∈ items, Valid item) → Valid (.array items)
  | object {members : List (Option String × Json)} :
    (∀ m ∈ members, Valid m.2) → Valid (.object members)

/-- `ReadsBack j` says that `j` is read back from the front of a text, with any `fuel` that its
    length does not exceed. -/
private def ReadsBack (j : Json) : Prop :=
  ∀ fuel rest, (print j).length ≤ fuel → FollowsValue rest →
    readValue? fuel (print j ++ rest) = some (j, rest)

/-! ## First characters -/

theorem skipSpace_cons {c : Char} (h : isSpace c = false) (cs : List Char) :
    skipSpace (c :: cs) = c :: cs := by
  rw [skipSpace, List.dropWhile_cons_of_neg (by simp [h])]

/-- The first character of a number is no blank and begins no other value. -/
theorem not_mem_of_numberStart {c : Char} (h : c = '-' ∨ c.isDigit = true) :
    c ∉ " \t\r\nntf\"[\x7b]".toList := by
  have hall : ∀ x ∈ " \t\r\nntf\"[\x7b]".toList, x ≠ '-' ∧ x.isDigit = false :=
    List.all_iff_forall_prop.1 (by decide)
  intro hc
  obtain ⟨hminus, hdigit⟩ := hall c hc
  rcases h with rfl | h
  · exact hminus rfl
  · rw [hdigit] at h
    exact nomatch h

theorem isSpace_eq_false {c : Char} (h : c ∉ " \t\r\n".toList) : isSpace c = false := by
  rw [Bool.eq_false_iff]
  intro hspace
  simp only [isSpace, Bool.or_eq_true, beq_iff_eq] at hspace
  rcases hspace with ((rfl | rfl) | rfl) | rfl <;> exact h (by decide)

/-- The first character of `print j` is no blank, and it closes no array. -/
private theorem exists_print_eq_cons {j : Json} (hj : Valid j) :
    ∃ c cs, print j = c :: cs ∧ isSpace c = false ∧ c ≠ ']' := by
  cases hj with
  | null => exact ⟨'n', _, rfl, rfl, by decide⟩
  | bool b => cases b <;> exact ⟨_, _, rfl, rfl, by decide⟩
  | @number n hn =>
    obtain ⟨c, cs, htext, hc⟩ := exists_text_eq_cons hn
    have hnot := not_mem_of_numberStart hc
    refine ⟨c, cs, by rw [print, htext], isSpace_eq_false fun hmem => hnot ?_, ?_⟩
    · exact List.mem_append_left "ntf\"[\x7b]".toList hmem
    · rintro rfl
      exact hnot (by decide)
  | string s =>
    obtain ⟨body, hbody, _⟩ := readString?_stringLiteral s []
    rw [List.append_nil] at hbody
    exact ⟨'"', body, by rw [print, hbody], rfl, by decide⟩
  | array => exact ⟨'[', _, by rw [print], rfl, by decide⟩
  | object => exact ⟨'\x7b', _, by rw [print], rfl, by decide⟩

/-! ## Values without parts -/

/-- What starts like a number is read as one by `readValue?`. -/
theorem readValue?_of_numberStart {c : Char} (h : c = '-' ∨ c.isDigit = true) (fuel : Nat)
    (cs : List Char) :
    readValue? (fuel + 1) (c :: cs) =
      (readNumber? (c :: cs)).map fun p => (.number p.1, p.2) := by
  have hnot := not_mem_of_numberStart h
  have hskip : skipSpace (c :: cs) = c :: cs :=
    skipSpace_cons (isSpace_eq_false fun hmem =>
      hnot (List.mem_append_left "ntf\"[\x7b]".toList hmem)) cs
  rw [readValue?, hskip]
  split
  -- Every other value starts with a character that no number starts with.
  case h_7 => cases readNumber? (c :: cs) <;> rfl
  all_goals
    rename_i heq
    rw [(List.cons.inj heq).1] at hnot
    exact absurd (by decide) hnot

/-- For `ReadsBack j` it is enough to look at a positive amount of fuel, as `print j` has a
    character. -/
private theorem readsBack_of_succ {j : Json} (hj : Valid j)
    (h : ∀ fuel rest, (print j).length ≤ fuel + 1 → FollowsValue rest →
      readValue? (fuel + 1) (print j ++ rest) = some (j, rest)) : ReadsBack j := by
  intro fuel rest hfuel hrest
  obtain ⟨c, cs, hprint, _⟩ := exists_print_eq_cons hj
  cases fuel with
  | zero =>
    rw [hprint] at hfuel
    exact nomatch hfuel
  | succ fuel => exact h fuel rest hfuel hrest

private theorem readsBack_number {n : Numeral} (hn : n.IsJson) : ReadsBack (.number n) := by
  refine readsBack_of_succ (.number hn) fun fuel rest _ hrest => ?_
  obtain ⟨c, cs, htext, hc⟩ := exists_text_eq_cons hn
  have hread := readNumber?_text hn hrest
  rw [htext, List.cons_append] at hread
  rw [print, htext, List.cons_append, readValue?_of_numberStart hc, hread, Option.map_some]

private theorem readsBack_string (s : Option String) : ReadsBack (.string s) := by
  refine readsBack_of_succ (.string s) fun fuel rest _ _ => ?_
  obtain ⟨body, hbody, hread⟩ := readString?_stringLiteral s rest
  rw [print, hbody, readValue?, skipSpace_cons rfl]
  simp [hread]

/-! ## Arrays -/

/-- The last one of the items, with the bracket after it. -/
private theorem readItems?_last {item : Json} (h : ReadsBack item) {fuel : Nat}
    (hfuel : (print item).length ≤ fuel) (rest : List Char) :
    readItems? (fuel + 1) (print item ++ ']' :: rest) = some ([item], rest) := by
  have hskip : skipSpace (']' :: rest) = ']' :: rest := skipSpace_cons rfl rest
  rw [readItems?, h fuel _ hfuel (followsValue_cons (by decide) rest)]
  simp [hskip]

/-- An item with other ones after it. -/
private theorem readItems?_next {item : Json} (h : ReadsBack item) {fuel : Nat}
    (hfuel : (print item).length ≤ fuel) {items : List Json} {cs rest : List Char}
    (hitems : readItems? fuel cs = some (items, rest)) :
    readItems? (fuel + 1) (print item ++ ',' :: cs) = some (item :: items, rest) := by
  have hskip : skipSpace (',' :: cs) = ',' :: cs := skipSpace_cons rfl cs
  rw [readItems?, h fuel _ hfuel (followsValue_cons (by decide) cs)]
  simp [hskip, hitems]

/-- Items each of which `ReadsBack` are read back together. -/
private theorem readItems?_printItems {items : List Json} (hne : items ≠ [])
    (h : ∀ item ∈ items, ReadsBack item) {fuel : Nat} {rest : List Char}
    (hfuel : (printItems items).length ≤ fuel) :
    readItems? fuel (printItems items ++ rest) = some (items, rest) := by
  -- Every item takes one unit of fuel and has a character at least, so the length is enough.
  induction items generalizing fuel with
  | nil => exact absurd rfl hne
  | cons item items ih =>
    obtain ⟨hitem, hitems⟩ := List.forall_mem_cons.1 h
    cases items with
    | nil =>
      have hprint : printItems [item] = print item ++ [']'] := by rw [printItems]
      rw [hprint, List.length_append, List.length_singleton] at hfuel
      obtain ⟨fuel, rfl⟩ : ∃ k, fuel = k + 1 := ⟨fuel - 1, by omega⟩
      rw [hprint, List.append_assoc]
      exact readItems?_last hitem (by omega) rest
    | cons next items =>
      have hprint : printItems (item :: next :: items) =
          print item ++ ',' :: printItems (next :: items) := by
        rw [printItems]
        nofun
      rw [hprint, List.length_append, List.length_cons] at hfuel
      obtain ⟨fuel, rfl⟩ : ∃ k, fuel = k + 1 := ⟨fuel - 1, by omega⟩
      rw [hprint, List.append_assoc, List.cons_append]
      exact readItems?_next hitem (by omega) (ih (by simp) hitems (by omega))

private theorem readsBack_array {items : List Json} (hvalid : ∀ item ∈ items, Valid item)
    (h : ∀ item ∈ items, ReadsBack item) : ReadsBack (.array items) := by
  refine readsBack_of_succ (.array hvalid) fun fuel rest hfuel _ => ?_
  rw [print, List.length_cons] at hfuel
  rw [print, List.cons_append, readValue?, skipSpace_cons rfl]
  cases items with
  | nil => rfl
  | cons item items =>
    have hread :
        readItems? fuel (printItems (item :: items) ++ rest) = some (item :: items, rest) :=
      readItems?_printItems (by simp) h (by omega)
    -- The array is not empty: what comes first is not the closing bracket.
    obtain ⟨c, cs, hcons, hspace, hclose⟩ :
        ∃ c cs, printItems (item :: items) = c :: cs ∧ isSpace c = false ∧ c ≠ ']' := by
      obtain ⟨c, cs, hprint, hspace, hclose⟩ :=
        exists_print_eq_cons (hvalid item List.mem_cons_self)
      cases items with
      | nil => exact ⟨c, _, by rw [printItems, hprint, List.cons_append], hspace, hclose⟩
      | cons next items =>
        refine ⟨c, cs ++ ',' :: printItems (next :: items), ?_, hspace, hclose⟩
        rw [printItems, hprint, List.cons_append]
        nofun
    rw [hcons, List.cons_append] at hread ⊢
    simp only [skipSpace_cons hspace]
    split
    · rename_i heq
      exact absurd (List.cons.inj heq).1 hclose
    · simp [hread]

/-! ## Objects -/

/-- The last one of the members, with the brace after it. -/
private theorem readMembers?_last {value : Json} (h : ReadsBack value) {fuel : Nat}
    (hfuel : (print value).length ≤ fuel) (key : Option String) (rest : List Char) :
    readMembers? (fuel + 1) (stringLiteral key ++ ':' :: (print value ++ '\x7d' :: rest)) =
      some ([(key, value)], rest) := by
  have hcolon : ∀ cs, skipSpace (':' :: cs) = ':' :: cs := skipSpace_cons rfl
  have hbrace : skipSpace ('\x7d' :: rest) = '\x7d' :: rest := skipSpace_cons rfl rest
  have hvalue : readValue? fuel (print value ++ '\x7d' :: rest) = some (value, '\x7d' :: rest) :=
    h fuel _ hfuel (followsValue_cons (by decide) rest)
  obtain ⟨body, hbody, hkey⟩ :=
    readString?_stringLiteral key (':' :: (print value ++ '\x7d' :: rest))
  rw [hbody, readMembers?, skipSpace_cons rfl]
  simp [hkey, hcolon, hvalue, hbrace]

/-- A member with other ones after it. -/
private theorem readMembers?_next {value : Json} (h : ReadsBack value) {fuel : Nat}
    (hfuel : (print value).length ≤ fuel) (key : Option String)
    {members : List (Option String × Json)} {cs rest : List Char}
    (hmembers : readMembers? fuel cs = some (members, rest)) :
    readMembers? (fuel + 1) (stringLiteral key ++ ':' :: (print value ++ ',' :: cs)) =
      some ((key, value) :: members, rest) := by
  have hcolon : ∀ cs, skipSpace (':' :: cs) = ':' :: cs := skipSpace_cons rfl
  have hcomma : skipSpace (',' :: cs) = ',' :: cs := skipSpace_cons rfl cs
  have hvalue : readValue? fuel (print value ++ ',' :: cs) = some (value, ',' :: cs) :=
    h fuel _ hfuel (followsValue_cons (by decide) cs)
  obtain ⟨body, hbody, hkey⟩ := readString?_stringLiteral key (':' :: (print value ++ ',' :: cs))
  rw [hbody, readMembers?, skipSpace_cons rfl]
  simp [hkey, hcolon, hvalue, hcomma, hmembers]

/-- Members with values each of which `ReadsBack` are read back together. -/
private theorem readMembers?_printMembers {members : List (Option String × Json)}
    (hne : members ≠ []) (h : ∀ m ∈ members, ReadsBack m.2) {fuel : Nat} {rest : List Char}
    (hfuel : (printMembers members).length ≤ fuel) :
    readMembers? fuel (printMembers members ++ rest) = some (members, rest) := by
  induction members generalizing fuel with
  | nil => exact absurd rfl hne
  | cons m members ih =>
    obtain ⟨key, value⟩ := m
    have hvalue : ReadsBack value := h (key, value) List.mem_cons_self
    have hvalues : ∀ m ∈ members, ReadsBack m.2 := fun m hm => h m (List.mem_cons_of_mem _ hm)
    -- The last member is followed by a brace, and any other one by a comma.
    cases members with
    | nil =>
      have hprint : printMembers [(key, value)] =
          stringLiteral key ++ ':' :: (print value ++ ['\x7d']) := by
        rw [printMembers, List.append_assoc, List.cons_append]
      rw [hprint, List.length_append, List.length_cons, List.length_append] at hfuel
      obtain ⟨fuel, rfl⟩ : ∃ k, fuel = k + 1 := ⟨fuel - 1, by omega⟩
      rw [hprint, List.append_assoc, List.cons_append, List.append_assoc]
      exact readMembers?_last hvalue (by omega) key rest
    | cons next members =>
      have hprint : printMembers ((key, value) :: next :: members) =
          stringLiteral key ++ ':' :: (print value ++ ',' :: printMembers (next :: members)) := by
        rw [printMembers, List.append_assoc, List.cons_append]
        nofun
      rw [hprint, List.length_append, List.length_cons, List.length_append, List.length_cons]
        at hfuel
      obtain ⟨fuel, rfl⟩ : ∃ k, fuel = k + 1 := ⟨fuel - 1, by omega⟩
      rw [hprint, List.append_assoc, List.cons_append, List.append_assoc, List.cons_append]
      exact readMembers?_next hvalue (by omega) key (ih (by simp) hvalues (by omega))

private theorem readsBack_object {members : List (Option String × Json)}
    (hvalid : ∀ m ∈ members, Valid m.2) (h : ∀ m ∈ members, ReadsBack m.2) :
    ReadsBack (.object members) := by
  refine readsBack_of_succ (.object hvalid) fun fuel rest hfuel _ => ?_
  rw [print, List.length_cons] at hfuel
  rw [print, List.cons_append, readValue?, skipSpace_cons rfl]
  cases members with
  | nil => rfl
  | cons m members =>
    have hread : readMembers? fuel (printMembers (m :: members) ++ rest) =
        some (m :: members, rest) :=
      readMembers?_printMembers (by simp) h (by omega)
    -- The object is not empty: its first key has a quote.
    obtain ⟨cs, hcons⟩ : ∃ cs, printMembers (m :: members) = '"' :: cs := by
      obtain ⟨body, hbody, _⟩ := readString?_stringLiteral m.1 []
      rw [List.append_nil] at hbody
      cases members with
      | nil => exact ⟨_, by rw [printMembers, hbody, List.cons_append, List.cons_append]⟩
      | cons next members =>
        refine ⟨body ++ ':' :: print m.2 ++ ',' :: printMembers (next :: members), ?_⟩
        rw [printMembers, hbody, List.cons_append, List.cons_append]
        nofun
    rw [hcons, List.cons_append] at hread ⊢
    have hskip : skipSpace ('"' :: (cs ++ rest)) = '"' :: (cs ++ rest) := skipSpace_cons rfl _
    simp [hskip, hread]

/-! ## All values -/

private theorem readsBack_of_valid {j : Json} (hj : Valid j) : ReadsBack j := by
  induction hj with
  | null => exact readsBack_of_succ .null fun _ _ _ _ => rfl
  | bool b => cases b <;> exact readsBack_of_succ (.bool _) fun _ _ _ _ => rfl
  | number hn => exact readsBack_number hn
  | string s => exact readsBack_string s
  | array hvalid ih => exact readsBack_array hvalid ih
  | object hvalid ih => exact readsBack_object hvalid ih

/-- `j` is read back from the front of a text, if what follows does not belong to it. -/
theorem readValue?_print {j : Json} (hj : Valid j) {fuel : Nat} {rest : List Char}
    (hfuel : (print j).length ≤ fuel) (hrest : FollowsValue rest) :
    readValue? fuel (print j ++ rest) = some (j, rest) :=
  readsBack_of_valid hj fuel rest hfuel hrest

/-- `j` is read back from its written form `print j`. -/
theorem parse?_print {j : Json} (hj : Valid j) : parse? (print j) = some j := by
  -- There is more fuel than characters, and nothing follows.
  have hread : readValue? (2 * (print j).length + 2) (print j ++ []) = some (j, []) :=
    readValue?_print hj (by omega) followsValue_nil
  rw [List.append_nil] at hread
  rw [parse?, hread]
  rfl

/-! ## Characters -/

private theorem mem_printItems {items : List Json} {c : Char} (h : c ∈ printItems items) :
    c = ',' ∨ c = ']' ∨ ∃ item ∈ items, c ∈ print item := by
  induction items with
  | nil =>
    rw [printItems, List.mem_singleton] at h
    exact .inr (.inl h)
  | cons item items ih =>
    have hcases : c ∈ print item ∨ c = ',' ∨ c = ']' ∨ c ∈ printItems items := by
      cases items with
      | nil =>
        rw [printItems, List.mem_append, List.mem_singleton] at h
        exact h.imp_right fun hc => .inr (.inl hc)
      | cons next items =>
        rw [printItems, List.mem_append, List.mem_cons] at h
        · exact h.imp_right fun hc => hc.imp_right .inr
        · nofun
    rcases hcases with hc | rfl | rfl | hc
    · exact .inr (.inr ⟨item, List.mem_cons_self, hc⟩)
    · exact .inl rfl
    · exact .inr (.inl rfl)
    · exact (ih hc).imp_right fun hrest => hrest.imp_right fun ⟨j, hj, hmem⟩ =>
        ⟨j, List.mem_cons_of_mem item hj, hmem⟩

private theorem mem_printMembers {members : List (Option String × Json)} {c : Char}
    (h : c ∈ printMembers members) :
    c ∈ ":,\x7d".toList ∨ ∃ m ∈ members, c ∈ stringLiteral m.1 ∨ c ∈ print m.2 := by
  induction members with
  | nil =>
    rw [printMembers, List.mem_singleton] at h
    exact .inl (by rw [h]; decide)
  | cons m members ih =>
    -- Whether or not another member follows, the character is from this member or from the rest.
    have hcases : (c ∈ stringLiteral m.1 ∨ c ∈ print m.2) ∨ c ∈ ":,\x7d".toList ∨
        c ∈ printMembers members := by
      cases members with
      | nil =>
        rw [printMembers, List.mem_append, List.mem_append, List.mem_cons, List.mem_singleton] at h
        rcases h with (hkey | rfl | hvalue) | rfl
        · exact .inl (.inl hkey)
        · exact .inr (.inl (by decide))
        · exact .inl (.inr hvalue)
        · exact .inr (.inl (by decide))
      | cons next members =>
        rw [printMembers, List.mem_append, List.mem_append, List.mem_cons, List.mem_cons] at h
        · rcases h with (hkey | rfl | hvalue) | rfl | hrest
          · exact .inl (.inl hkey)
          · exact .inr (.inl (by decide))
          · exact .inl (.inr hvalue)
          · exact .inr (.inl (by decide))
          · exact .inr (.inr hrest)
        · nofun
    rcases hcases with hc | hc | hc
    · exact .inr ⟨m, List.mem_cons_self, hc⟩
    · exact .inl hc
    · exact (ih hc).imp_right fun ⟨k, hk, hmem⟩ => ⟨k, List.mem_cons_of_mem m hk, hmem⟩

/-- `print j` has no control characters, and so no line feed. -/
theorem le_of_mem_print {j : Json} (hj : Valid j) : ∀ c ∈ print j, 0x20 ≤ c.toNat := by
  intro c hc
  -- For the characters that do not depend on the value, it is decided.
  have hfixed : ∀ {cs : List Char}, (cs.all fun d => 0x20 ≤ d.toNat) = true → c ∈ cs →
      0x20 ≤ c.toNat :=
    fun hcs => List.all_iff_forall_prop.1 hcs c
  induction hj with
  | null => exact hfixed (by decide) hc
  | bool b => cases b <;> exact hfixed (by decide) hc
  | number hn =>
    rw [print] at hc
    exact le_of_mem_text hn hc
  | string s =>
    rw [print] at hc
    exact le_of_mem_stringLiteral hc
  | array _ ih =>
    rw [print, List.mem_cons] at hc
    rcases hc with rfl | hc
    · decide
    rcases mem_printItems hc with rfl | rfl | ⟨item, hitem, hmem⟩
    · decide
    · decide
    · exact ih item hitem hmem
  | object _ ih =>
    rw [print, List.mem_cons] at hc
    rcases hc with rfl | hc
    · decide
    rcases mem_printMembers hc with hc | ⟨m, hm, hkey | hvalue⟩
    · exact hfixed (by decide) hc
    · exact le_of_mem_stringLiteral hkey
    · exact ih m hm hvalue

end MapperSweep.Json
