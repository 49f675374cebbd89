import Mathlib.Data.List.DropRight
import Mathlib.Data.List.Infix
import MapperSweep.Text.Find
import MapperSweep.Text.Lines
import MapperSweep.Text.Whitespace

/-!
# Searching and splitting text

What the searches of a text find, said in terms of prefixes and infixes of lists, and how a text
that was put together from pieces or from lines is split again.

## Key results

- `contains_iff`: a piece is found exactly when it is an infix
- `infix_append_cons_iff`: a piece does not reach over a separator
- `upTo_eq_take`, `upTo_append_piece`: the text before the first occurrence of a piece
- `afterLast?_eq_some_iff`, `afterLast?_eq_rtakeWhile`: the text after the last copy of a character
- `map_splitOnChar_eq_iff`: the pieces of a text between the copies of a character
- `splitLines_flatMap`: the lines of a text that was put together from lines
- `splitLines_append`: the lines of a text that was put together after a line feed
- `getElem?_splitLines_of_ne`: the lines of a text in which a stretch of one line is exchanged
-/

namespace MapperSweep.Text

/-! ## Occurrences of a piece -/

/-- `stripStart?` has nothing to strip exactly when `piece` is no prefix. -/
theorem stripStart?_eq_none_iff {piece cs : List Char} :
    stripStart? piece cs = none ↔ ¬piece <+: cs := by
  rw [Option.eq_none_iff_forall_not_mem]
  constructor
  · rintro h ⟨rest, hrest⟩
    exact h rest (stripStart?_eq_some.2 hrest.symm)
  · intro h rest hrest
    exact h ⟨rest, (stripStart?_eq_some.1 hrest).symm⟩

/-- `splitAt?` finds no occurrence exactly when `piece` is no infix. -/
theorem splitAt?_eq_none_iff {piece cs : List Char} :
    splitAt? piece cs = none ↔ ¬piece <:+: cs := by
  induction cs with
  | nil =>
    rw [splitAt?, Option.map_eq_none_iff, stripStart?_eq_none_iff, List.prefix_nil, List.infix_nil]
  | cons c cs ih =>
    rw [splitAt?, List.infix_cons_iff, not_or]
    cases hstrip : stripStart? piece (c :: cs) with
    | some rest =>
      have hbegins : piece <+: c :: cs := ⟨rest, (stripStart?_eq_some.1 hstrip).symm⟩
      simp [hbegins]
    | none => simp [ih, stripStart?_eq_none_iff.1 hstrip]

/-- `contains` finds `piece` exactly when it is an infix. -/
theorem contains_iff {piece cs : List Char} : contains piece cs = true ↔ piece <:+: cs := by
  rw [contains, Option.isSome_iff_ne_none, ne_eq, splitAt?_eq_none_iff, not_not]

private theorem upTo_of_begins {piece cs : List Char} (h : piece <+: cs) : upTo piece cs = [] := by
  obtain ⟨rest, rfl⟩ := h
  have hstrip : stripStart? piece (piece ++ rest) = some rest := stripStart?_eq_some.2 rfl
  cases hcs : piece ++ rest with
  | nil =>
    rw [hcs] at hstrip
    simp [upTo, splitAt?, hstrip]
  | cons c cs =>
    rw [hcs] at hstrip
    simp [upTo, splitAt?, hstrip]

private theorem upTo_cons_of_not_begins {piece cs : List Char} {c : Char}
    (h : ¬piece <+: c :: cs) : upTo piece (c :: cs) = c :: upTo piece cs := by
  rw [upTo, splitAt?, stripStart?_eq_none_iff.2 h, upTo]
  cases splitAt? piece cs <;> rfl

/-- `upTo piece cs` ends where `piece` first begins, or is all of `cs`. -/
theorem upTo_eq_take (piece cs : List Char) :
    upTo piece cs = cs.take (cs.tails.findIdx fun tail => piece.isPrefixOf tail) := by
  induction cs with
  | nil => cases piece <;> simp [upTo, splitAt?, stripStart?]
  | cons c cs ih =>
    rw [List.tails_cons, List.findIdx_cons]
    by_cases hbegins : piece <+: c :: cs
    · rw [List.isPrefixOf_iff_prefix.2 hbegins, upTo_of_begins hbegins]
      rfl
    · have hfront : piece.isPrefixOf (c :: cs) = false := by
        rw [Bool.eq_false_iff, ne_eq, List.isPrefixOf_iff_prefix]
        exact hbegins
      rw [hfront, upTo_cons_of_not_begins hbegins, ih]
      rfl

/-- A piece whose first character `p` does not come again in it cannot begin before the place where
    it was put, and reach into it. -/
private theorem not_prefix_append_piece {p c : Char} {ps front rest : List Char} (hp : p ∉ ps)
    (hfront : ¬p :: ps <:+: c :: front) : ¬p :: ps <+: c :: front ++ (p :: ps ++ rest) := by
  rintro ⟨after, hafter⟩
  rcases List.append_eq_append_iff.1 hafter with ⟨between, hbetween, _⟩ | ⟨more, hmore, htail⟩
  · exact hfront ⟨[], between, by simp [hbetween]⟩
  · cases more with
    | nil => exact hfront ⟨[], [], by simpa using hmore⟩
    -- The copy that was put there would begin within the piece, after its first character.
    | cons d more =>
      simp only [List.cons_append, List.cons.injEq] at hmore htail
      exact hp (by simp [hmore.2, htail.1])

/-- A piece whose first character `p` does not come again in it first begins where it was put. -/
theorem upTo_append_piece {p : Char} {ps front rest : List Char} (hp : p ∉ ps)
    (hfront : ¬p :: ps <:+: front) : upTo (p :: ps) (front ++ (p :: ps ++ rest)) = front := by
  induction front with
  | nil => exact upTo_of_begins (List.prefix_append _ _)
  | cons c front ih =>
    have hrest := ih fun h => hfront (List.infix_cons_iff.2 (.inr h))
    have hnot : ¬p :: ps <+: c :: front ++ (p :: ps ++ rest) := not_prefix_append_piece hp hfront
    rw [List.cons_append] at hnot ⊢
    rw [upTo_cons_of_not_begins hnot, hrest]

/-- A piece without the separator `sep` lies on one side of it. -/
theorem infix_append_cons_iff {sep : Char} {piece as bs : List Char} (hsep : sep ∉ piece) :
    piece <:+: as ++ sep :: bs ↔ piece <:+: as ∨ piece <:+: bs := by
  constructor
  · rintro ⟨front, rest, h⟩
    rcases List.append_eq_append_iff.1 h with ⟨between, rfl, _⟩ | ⟨beyond, hbeyond, htail⟩
    · exact .inl ⟨front, between, rfl⟩
    · cases beyond with
      | nil => exact .inl ⟨front, [], by simpa using hbeyond⟩
      | cons c beyond =>
        simp only [List.cons_append, List.cons.injEq] at htail
        obtain ⟨rfl, rfl⟩ := htail
        -- The piece ends after the separator, so it has to begin after it too.
        rcases List.append_eq_append_iff.1 hbeyond with ⟨part, _, hpiece⟩ | ⟨skipped, _, hskipped⟩
        · exact absurd (by simp [hpiece]) hsep
        · cases skipped with
          | nil =>
            rw [List.nil_append] at hskipped
            exact absurd (hskipped ▸ List.mem_cons_self) hsep
          | cons d skipped =>
            simp only [List.cons_append, List.cons.injEq] at hskipped
            exact .inr ⟨skipped, rest, by simp [hskipped.2]⟩
  · rintro (h | h)
    · exact List.infix_append_of_infix_left h
    · exact List.infix_append_of_infix_right (List.infix_cons h)

/-! ## The last copy of a character -/

/-- `afterLast?` finds nothing exactly if `sep` does not occur. -/
theorem afterLast?_eq_none_iff {sep : Char} {cs : List Char} :
    afterLast? sep cs = none ↔ sep ∉ cs := by
  induction cs with
  | nil => simp [afterLast?]
  | cons c cs ih =>
    rw [afterLast?]
    cases hrest : afterLast? sep cs with
    | some rest =>
      have hmem : sep ∈ cs := by
        by_contra hnot
        rw [ih.2 hnot] at hrest
        exact nomatch hrest
      simp [hmem]
    | none =>
      have hnot : sep ∉ cs := ih.1 hrest
      by_cases hc : c = sep
      · simp [hc]
      · simp [hc, hnot, Ne.symm hc]

/-- What follows a copy of `sep` is found if it has no copy of it. -/
theorem afterLast?_append {sep : Char} (front : List Char) {rest : List Char} (h : sep ∉ rest) :
    afterLast? sep (front ++ sep :: rest) = some rest := by
  induction front with
  | nil => simp [afterLast?, afterLast?_eq_none_iff.2 h]
  | cons c front ih => simp [afterLast?, ih]

/-- `afterLast?` finds the text after a copy of `sep` that no other one follows. -/
theorem afterLast?_eq_some_iff {sep : Char} {cs rest : List Char} :
    afterLast? sep cs = some rest ↔ ∃ front, cs = front ++ sep :: rest ∧ sep ∉ rest := by
  constructor
  · intro h
    induction cs with
    | nil => simp [afterLast?] at h
    | cons c cs ih =>
      rw [afterLast?] at h
      cases hcs : afterLast? sep cs with
      | some found =>
        rw [hcs] at h
        obtain ⟨front, hfront, hrest⟩ := ih (hcs.trans h)
        exact ⟨c :: front, by rw [hfront, List.cons_append], hrest⟩
      | none =>
        simp only [hcs, Option.ite_none_right_eq_some, Option.some.injEq] at h
        obtain ⟨rfl, rfl⟩ := h
        exact ⟨[], rfl, afterLast?_eq_none_iff.1 hcs⟩
  · rintro ⟨front, rfl, hrest⟩
    exact afterLast?_append front hrest

/-- `afterLast?` is all at the back of the text that has no copy of `sep` in it. -/
theorem afterLast?_eq_rtakeWhile {sep : Char} {cs : List Char} (h : sep ∈ cs) :
    afterLast? sep cs = some (cs.rtakeWhile (· != sep)) := by
  -- The back of the text has no copy, and right before it there is one.
  have hback : sep ∉ cs.rtakeWhile (· != sep) := by
    intro hmem
    simpa using List.mem_rtakeWhile_imp hmem
  have hsplit : cs.rdropWhile (· != sep) ++ cs.rtakeWhile (· != sep) = cs :=
    List.rdropWhile_append_rtakeWhile
  have hfront : cs.rdropWhile (· != sep) ≠ [] := by
    rw [ne_eq, List.rdropWhile_eq_nil_iff]
    intro hall
    simpa using hall sep h
  have hlast : (cs.rdropWhile (· != sep)).getLast hfront = sep := by
    simpa using List.rdropWhile_last_not (fun c => c != sep) cs hfront
  have hwhole : cs = (cs.rdropWhile (· != sep)).dropLast ++ sep :: cs.rtakeWhile (· != sep) := by
    have hdrop := List.dropLast_append_getLast hfront
    rw [hlast] at hdrop
    rw [List.append_cons, hdrop, hsplit]
  exact (congrArg (afterLast? sep) hwhole).trans (afterLast?_append _ hback)

/-! ## Pieces between the copies of a character -/

/-- `splitOnChar` splits a text as `splitOn` splits any list. -/
theorem splitOnChar_eq_splitOn (sep : Char) (cs : List Char) :
    splitOnChar sep cs = cs.splitOn sep := by
  induction cs with
  | nil => rfl
  | cons c cs ih =>
    rw [splitOnChar, List.splitOn_cons_eq_if_modifyHead, ih]
    by_cases hc : c = sep
    · simp [hc]
    · cases hpieces : cs.splitOn sep with
      | nil => exact absurd hpieces (List.splitOn_ne_nil sep cs)
      | cons piece pieces => simp [hc]

/-- A text without the separator `sep` is one piece. -/
theorem splitOnChar_of_not_mem {sep : Char} {cs : List Char} (h : sep ∉ cs) :
    splitOnChar sep cs = [cs] := by
  rw [splitOnChar_eq_splitOn, List.splitOn_eq_singleton h]

/-- At a separator the pieces of `as` end and those of `bs` begin. -/
theorem splitOnChar_append (sep : Char) (as bs : List Char) :
    splitOnChar sep (as ++ sep :: bs) = splitOnChar sep as ++ splitOnChar sep bs := by
  simp only [splitOnChar_eq_splitOn, List.splitOn_append_cons_self]

/-- No piece of `splitOnChar sep cs` has a separator. -/
theorem not_mem_of_mem_splitOnChar {sep : Char} {cs piece : List Char}
    (h : piece ∈ splitOnChar sep cs) : sep ∉ piece := by
  rw [splitOnChar_eq_splitOn] at h
  induction cs generalizing piece with
  | nil => simp_all
  | cons c cs ih =>
    rw [List.splitOn_cons_eq_if_modifyHead] at h
    by_cases hc : c = sep
    · rw [if_pos (by simpa using hc), List.mem_cons] at h
      rcases h with rfl | h
      · simp
      · exact ih h
    · cases hpieces : cs.splitOn sep with
      | nil => exact absurd hpieces (List.splitOn_ne_nil sep cs)
      | cons first pieces =>
        rw [if_neg (by simpa using hc), hpieces, List.modifyHead_cons, List.mem_cons] at h
        rw [hpieces] at ih
        rcases h with rfl | h
        · rw [List.mem_cons, not_or]
          exact ⟨Ne.symm hc, ih List.mem_cons_self⟩
        · exact ih (List.mem_cons_of_mem first h)

/-- The pieces of `text` are those that it is put together from, with separators between them. -/
theorem map_splitOnChar_eq_iff {sep : Char} {s text : String} (hs : s.toList = [sep])
    {pieces : List String} :
    (splitOnChar sep text.toList).map String.ofList = pieces ↔
      pieces ≠ [] ∧ (∀ piece ∈ pieces, sep ∉ piece.toList) ∧ text = s.intercalate pieces := by
  constructor
  · rintro rfl
    refine ⟨?_, ?_, ?_⟩
    · rw [ne_eq, List.map_eq_nil_iff, splitOnChar_eq_splitOn]
      exact List.splitOn_ne_nil sep _
    · intro piece hpiece
      obtain ⟨cs, hcs, rfl⟩ := List.mem_map.1 hpiece
      rw [String.toList_ofList]
      exact not_mem_of_mem_splitOnChar hcs
    · rw [← String.toList_inj, String.toList_intercalate, hs, List.map_map, splitOnChar_eq_splitOn]
      simp [Function.comp_def, List.intercalate_splitOn]
  · rintro ⟨hne, hsep, rfl⟩
    have hpieces : ∀ cs ∈ pieces.map String.toList, sep ∉ cs := by
      intro cs hcs
      obtain ⟨piece, hpiece, rfl⟩ := List.mem_map.1 hcs
      exact hsep piece hpiece
    rw [String.toList_intercalate, hs, splitOnChar_eq_splitOn,
      List.splitOn_intercalate sep hpieces (by simpa using hne), List.map_map]
    simp [Function.comp_def]

/-! ## Characters at the end -/

/-- `dropTrailing` drops nothing from the end of a text that does not end with `c`. -/
theorem dropTrailing_of_getLast?_ne {c : Char} {cs : List Char} (h : cs.getLast? ≠ some c) :
    dropTrailing c cs = cs := by
  rw [dropTrailing]
  cases hreverse : cs.reverse with
  | nil => simpa using hreverse
  | cons d ds =>
    have hd : d ≠ c := by
      rintro rfl
      rw [← List.head?_reverse, hreverse] at h
      exact h rfl
    rw [List.dropWhile_cons_of_neg (by simpa using hd), ← hreverse, List.reverse_reverse]

/-! ## Blanks at the ends -/

/-- `trim` drops a blank at the front, and nothing else from a text without blanks. -/
theorem trim_blank_cons {c : Char} {cs : List Char} (hc : isBlank c = true)
    (hcs : ∀ d ∈ cs, isBlank d = false) : trim (c :: cs) = cs := by
  have hstart : trimStart (c :: cs) = cs := by
    rw [trimStart, List.dropWhile_cons_of_pos hc]
    cases cs with
    | nil => rfl
    | cons d ds => exact List.dropWhile_cons_of_neg (by simp [hcs d (by simp)])
  -- The end is trimmed at the front of the reversed text.
  have hend : trimEnd cs = cs := by
    rw [trimEnd]
    cases hrev : cs.reverse with
    | nil => simpa using hrev
    | cons d ds =>
      have hd : isBlank d = false := hcs d (by rw [← List.mem_reverse, hrev]; simp)
      rw [List.dropWhile_cons_of_neg (by simp [hd]), ← hrev, List.reverse_reverse]
  rw [trim, hstart, hend]

/-! ## Lines -/

section

variable {α : Type} [DecidableEq α] {feed ret : α}

/-- A stretch `as` without a line feed is read to the end of the current line. -/
private theorem splitLinesFrom_append {line as : List α} (bs : List α) (h : feed ∉ as) :
    splitLinesFrom feed ret line (as ++ bs) = splitLinesFrom feed ret (as.reverse ++ line) bs := by
  induction as generalizing line with
  | nil => rfl
  | cons a as ih =>
    have ha : a ≠ feed := fun heq => h (heq ▸ List.mem_cons_self)
    rw [List.cons_append, splitLinesFrom, if_neg ha, ih fun hmem => h (List.mem_cons_of_mem a hmem)]
    simp

/-- A text that was put together from lines is split into these lines again, each without the one
    `ret` that may stand at its end. -/
theorem splitLines_flatMap (lines : List (List α)) (h : ∀ line ∈ lines, feed ∉ line) :
    splitLines feed ret (lines.flatMap (· ++ [feed])) = lines.map (chopReturn ret) := by
  induction lines with
  | nil => rfl
  | cons line lines ih =>
    have hrest := ih fun l hl => h l (List.mem_cons_of_mem line hl)
    rw [splitLines] at hrest ⊢
    rw [List.flatMap_cons, List.append_assoc, splitLinesFrom_append _ (h line List.mem_cons_self)]
    simp [splitLinesFrom, hrest]

/-- A text `as` without a line feed is one line, if it is not empty. -/
theorem splitLines_of_not_mem {as : List α} (hne : as ≠ []) (h : feed ∉ as) :
    splitLines feed ret as = [as] := by
  have hfrom : splitLinesFrom feed ret [] (as ++ []) =
      splitLinesFrom feed ret (as.reverse ++ []) [] := splitLinesFrom_append [] h
  rw [List.append_nil, List.append_nil] at hfrom
  rw [splitLines, hfrom, splitLinesFrom]
  simp [hne]

/-- If `as` ends with a line feed, then `bs` begins a new line. -/
theorem splitLines_append {as : List α} (h : as = [] ∨ as.getLast? = some feed) (bs : List α) :
    splitLines feed ret (as ++ bs) = splitLines feed ret as ++ splitLines feed ret bs := by
  rcases h with rfl | hlast
  · rfl
  · obtain ⟨front, rfl⟩ := List.getLast?_eq_some_iff.1 hlast
    rw [List.append_assoc]
    exact splitLines_append_newline feed ret front bs

/-- What stands before the first line feed is the first line, without the `ret` at its end. -/
theorem splitLines_append_cons {as : List α} (h : feed ∉ as) (bs : List α) :
    splitLines feed ret (as ++ feed :: bs) = chopReturn ret as :: splitLines feed ret bs := by
  rw [splitLines, splitLinesFrom_append _ h, splitLinesFrom]
  simp [splitLines]

/-- What was already read of the current line is of no concern to the lines after it, see
    `splitLinesFrom`. -/
private theorem getElem?_splitLinesFrom {line line' cs : List α} {i : Nat} (hi : 0 < i) :
    (splitLinesFrom feed ret line cs)[i]? = (splitLinesFrom feed ret line' cs)[i]? := by
  induction cs generalizing line line' with
  | nil =>
    have hnone : ∀ line : List α, (splitLinesFrom feed ret line [])[i]? = none := by
      intro line
      rw [splitLinesFrom, List.getElem?_eq_none_iff]
      split
      · simp
      · exact hi
    rw [hnone, hnone]
  | cons c cs ih =>
    by_cases hc : c = feed
    · obtain ⟨j, rfl⟩ := Nat.exists_eq_succ_of_ne_zero hi.ne'
      simp [splitLinesFrom, hc]
    · simp only [splitLinesFrom, if_neg hc]
      exact ih

/-- If the stretch `as` within one line is changed to `bs`, this is of no concern to the other
    lines. -/
theorem getElem?_splitLines_of_ne {as bs : List α} (has : feed ∉ as) (hbs : feed ∉ bs)
    (before after : List α) {i : Nat} (hi : i ≠ before.count feed) :
    (splitLines feed ret (before ++ as ++ after))[i]? =
      (splitLines feed ret (before ++ bs ++ after))[i]? := by
  unfold splitLines
  generalize [] = line
  -- Every line feed before the stretch takes one line away.
  induction before generalizing line i with
  | nil =>
    rw [List.nil_append, List.nil_append, splitLinesFrom_append _ has, splitLinesFrom_append _ hbs]
    exact getElem?_splitLinesFrom (Nat.pos_of_ne_zero hi)
  | cons c before ih =>
    by_cases hc : c = feed
    · cases i with
      | zero => simp [splitLinesFrom, hc]
      | succ i =>
        rw [hc, List.count_cons_self] at hi
        simpa [splitLinesFrom, hc] using ih (by omega) []
    · rw [List.count_cons_of_ne hc] at hi
      simpa [splitLinesFrom, hc] using ih hi (c :: line)

/-- A line that does not end with `ret` is left as it is. -/
theorem chopReturn_of_getLast?_ne {line : List α} (h : line.getLast? ≠ some ret) :
    chopReturn ret line = line := if_neg h

/-- A line without the `ret` at its end is a prefix of the line. -/
theorem chopReturn_isPrefix (ret : α) (line : List α) : chopReturn ret line <+: line := by
  rw [chopReturn]
  split
  · exact List.dropLast_prefix line
  · exact List.prefix_rfl

end

end MapperSweep.Text
