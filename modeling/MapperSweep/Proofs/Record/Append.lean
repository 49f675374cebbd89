import MapperSweep.Proofs.Json.Framing
import MapperSweep.Proofs.Record.Store
import MapperSweep.Proofs.Workspace

/-!
# Adding records to a file

Records are added right at the end of a file.  What stands there after the last line feed and the
first new record become one line.  That line holds the record if blanks of JSON are all that stood
there, and otherwise it holds none: a record with something after it is no record, and neither is
one with another kind of blank in front.

## Key results

- `load_append`: what is loaded from a file after records were added to it, by its `unfinished` line
- `load_append_ne_of_unfinished`: a file that is spoilt by the next record
-/

namespace MapperSweep.Record

open Text

/-! ## Lines -/

/-- What follows the last line feed of a file with this `content`. -/
def unfinished (content : List UInt8) : List UInt8 := content.rtakeWhile (· != 0x0A)

/-- What stands in a file up to the last line feed; `unfinished` is the rest. -/
private def finished (content : List UInt8) : List UInt8 := content.rdropWhile (· != 0x0A)

private theorem finished_append_unfinished (content : List UInt8) :
    finished content ++ unfinished content = content := List.rdropWhile_append_rtakeWhile

private theorem feed_not_mem_unfinished (content : List UInt8) :
    (0x0A : UInt8) ∉ unfinished content := by
  intro hmem
  simpa using List.mem_rtakeWhile_imp hmem

private theorem getLast?_finished (content : List UInt8) :
    finished content = [] ∨ (finished content).getLast? = some 0x0A := by
  rw [finished]
  by_cases hne : content.rdropWhile (· != 0x0A) = []
  · exact .inl hne
  · have hlast := List.rdropWhile_last_not (fun b => b != 0x0A) content hne
    refine .inr ?_
    rw [List.getLast?_eq_some_getLast hne]
    simpa using hlast

/-- The lines `xs` and `ys` are loaded one after the other. -/
private theorem loadLines_append (xs ys : List (List UInt8)) :
    loadLines (xs ++ ys) = do
      let first ← loadLines xs
      let second ← loadLines ys
      return first ++ second := by
  induction xs with
  | nil =>
    rw [List.nil_append, loadLines]
    cases loadLines ys <;> rfl
  | cons bytes xs ih =>
    rw [List.cons_append, loadLines, ih, loadLines]
    cases loadLine bytes with
    | error e => rfl
    | ok r =>
      cases loadLines xs with
      | error e => rfl
      | ok first => cases loadLines ys <;> simp [bind, Except.bind, pure, Except.pure]

/-- What follows a line feed is loaded by itself, so `load` can be taken apart there. -/
private theorem load_append_of_finished {front : List UInt8}
    (h : front = [] ∨ front.getLast? = some 0x0A) (rest : List UInt8) :
    load (front ++ rest) = do
      let first ← load front
      let second ← load rest
      return first ++ second := by
  rw [load, byteLines, splitLines_append h, loadLines_append]
  rfl

/-- A file can be loaded only if its part `front` up to a line feed and its `rest` can. -/
private theorem exists_of_load_append {front rest : List UInt8} {rs : List Record}
    (h : front = [] ∨ front.getLast? = some 0x0A) (hload : load (front ++ rest) = .ok rs) :
    ∃ first second, load front = .ok first ∧ load rest = .ok second ∧ first ++ second = rs := by
  rw [load_append_of_finished h] at hload
  cases hfirst : load front with
  | error e =>
    rw [hfirst] at hload
    cases hload
  | ok first =>
    cases hsecond : load rest with
    | error e =>
      rw [hfirst, hsecond] at hload
      cases hload
    | ok second =>
      rw [hfirst, hsecond] at hload
      exact ⟨first, second, rfl, rfl, Except.ok.inj hload⟩

/-! ## A record behind an unfinished line -/

private theorem isBlank_of_isSpace {c : Char} (h : Json.isSpace c = true) : isBlank c = true := by
  simp only [Json.isSpace, Bool.or_eq_true, beq_iff_eq] at h
  rcases h with ((rfl | rfl) | rfl) | rfl <;> decide

/-- No value begins with a blank that `Json.skipSpace` does not skip. -/
private theorem parse?_of_isBlank {cs tail : List Char} {c : Char}
    (hskip : Json.skipSpace cs = c :: tail) (hc : isBlank c = true) : Json.parse? cs = none := by
  have hstarts : ∀ d ∈ "ntf\"[\x7b-".toList, isBlank d = false :=
    List.all_iff_forall_prop.1 (by decide)
  have hnumbers : ∀ d ∈ numberChars, isBlank d = false := List.all_iff_forall_prop.1 (by decide)
  refine Json.parse?_eq_none_of_start hskip (fun hmem => ?_) ?_
  · rw [hstarts c hmem] at hc
    cases hc
  · rw [Bool.eq_false_iff]
    intro hdigit
    rw [hnumbers c (mem_numberChars_of_isDigit hdigit)] at hc
    cases hc

/-- The text of a record begins with a brace, which is no blank of any kind. -/
private theorem print_toJson (r : Record) :
    ∃ tail, r.toJson.print = '\x7b' :: tail ∧ ∀ cs, isBlankText (cs ++ r.toJson.print) = false := by
  refine ⟨r.toJson.print.tail, rfl, fun cs => ?_⟩
  have hprint : r.toJson.print = '\x7b' :: r.toJson.print.tail := rfl
  rw [hprint, isBlankText, List.all_append, List.all_cons]
  simp [isBlank]

/-- What follows a line that could be loaded is read together with it.  The line holds the record
    `r` only if blanks of JSON are all that stood there. -/
private theorem parse?_append_print {cs : List Char} {r : Record}
    (h : isBlankText cs = true ∨ ∃ s, (Json.parse? cs).bind ofJson? = some s) :
    Json.parse? (cs ++ r.toJson.print) = if cs.all Json.isSpace then some r.toJson else none := by
  obtain ⟨tail, hprint, -⟩ := print_toJson r
  by_cases hspace : cs.all Json.isSpace = true
  · rw [if_pos hspace]
    exact Json.parse?_blanks_append (List.all_eq_true.1 hspace) r.valid_toJson
  · rw [if_neg hspace]
    rcases h with hblank | ⟨s, hs⟩
    -- The first blank that is not skipped begins no value.
    · cases hskip : Json.skipSpace cs with
      | nil => exact absurd (List.all_eq_true.2 (List.dropWhile_eq_nil_iff.1 hskip)) hspace
      | cons c rest =>
        have hc : c ∈ cs := by
          have hmem : c ∈ Json.skipSpace cs := by simp [hskip]
          exact List.dropWhile_subset _ hmem
        have hlonger : Json.skipSpace (cs ++ r.toJson.print) = c :: (rest ++ r.toJson.print) := by
          rw [Json.skipSpace, List.dropWhile_append, ← Json.skipSpace, hskip]
          rfl
        exact parse?_of_isBlank hlonger (List.all_eq_true.1 hblank c hc)
    -- A record is already there, and it is no number.
    · obtain ⟨j, hj, hrecord⟩ := Option.bind_eq_some_iff.1 hs
      rw [hprint]
      refine Json.parse?_append_eq_none hj ?_ rfl tail
      rintro n rfl
      cases hrecord

/-- What `loadLine` makes of a record `r` behind an unfinished line that could be loaded. -/
private theorem loadLine_append_print {bytes : List UInt8} {x : Option Record} {r s : Record}
    (hbytes : loadLine bytes = .ok x) (hr : ofJson? r.toJson = some s) :
    loadLine (bytes ++ Utf8.encode r.toJson.print) =
      if (Utf8.decode bytes).all Json.isSpace then .ok (some s) else .error .notRecord := by
  obtain ⟨-, -, hblank⟩ := print_toJson r
  unfold loadLine at hbytes
  split at hbytes
  · cases hbytes
  · rename_i cs hcs
    have hread : isBlankText cs = true ∨ ∃ s, (Json.parse? cs).bind ofJson? = some s := by
      split at hbytes
      · exact .inl ‹_›
      · split at hbytes
        · rename_i t ht
          exact .inr ⟨t, ht⟩
        · cases hbytes
    -- The bytes can be decoded by themselves, so what is added completes no character of theirs.
    rw [loadLine, Utf8.decode?_append hcs (Utf8.decode?_encode _), Utf8.decode_of_decode? hcs]
    simp only [hblank cs, Bool.false_eq_true, if_false, parse?_append_print hread]
    by_cases hspace : cs.all Json.isSpace = true
    · simp only [if_pos hspace, Option.bind_some, hr]
    · simp only [if_neg hspace, Option.bind_none]

/-- A line of blanks of JSON is loaded as no record. -/
private theorem loadLine_of_isSpace {bytes : List UInt8} {x : Option Record}
    (hbytes : loadLine bytes = .ok x) (hspace : (Utf8.decode bytes).all Json.isSpace = true) :
    x = none := by
  unfold loadLine at hbytes
  split at hbytes
  · cases hbytes
  · rename_i cs hcs
    rw [Utf8.decode_of_decode? hcs] at hspace
    have hblank : isBlankText cs = true :=
      List.all_eq_true.2 fun c hc => isBlank_of_isSpace (List.all_eq_true.1 hspace c hc)
    rw [if_pos hblank] at hbytes
    exact (Except.ok.inj hbytes).symm

/-! ## Records behind an unfinished line -/

/-- If records are loaded as they were stored, then so are the first one and the others. -/
private theorem of_load_store_cons {r : Record} {rs : List Record}
    (h : load (Utf8.encode (store (r :: rs))) = .ok (r :: rs)) :
    ofJson? r.toJson = some r ∧ load (Utf8.encode (store rs)) = .ok rs := by
  rw [load_encode_store, List.map_cons, loadLines, loadLine_toJson, ← load_encode_store] at h
  cases hr : ofJson? r.toJson with
  | none =>
    rw [hr] at h
    cases h
  | some s =>
    cases hrest : load (Utf8.encode (store rs)) with
    | error e =>
      rw [hr, hrest] at h
      cases h
    | ok ss =>
      rw [hr, hrest] at h
      obtain ⟨rfl, rfl⟩ := List.cons.inj (Except.ok.inj h)
      exact ⟨rfl, rfl⟩

/-- The line of the first record takes up the `tail` that stood behind the last line feed. -/
private theorem load_append_store {tail : List UInt8} (hfeed : (0x0A : UInt8) ∉ tail) (r : Record)
    (rs : List Record) :
    load (tail ++ Utf8.encode (store (r :: rs))) = do
      let first ← loadLine (tail ++ Utf8.encode r.toJson.print)
      let second ← load (Utf8.encode (store rs))
      return first.toList ++ second := by
  have hbytes : tail ++ Utf8.encode (store (r :: rs)) =
      [tail ++ Utf8.encode r.toJson.print].flatMap (· ++ [0x0A]) ++ Utf8.encode (store rs) := by
    have hcons : store (r :: rs) = r.toJson.print ++ ['\n'] ++ store rs := rfl
    have hnewline : Utf8.encode ['\n'] = [0x0A] := by decide
    rw [hcons, Utf8.encode_append, Utf8.encode_append, hnewline]
    simp
  have hline : ∀ line ∈ [tail ++ Utf8.encode r.toJson.print], (0x0A : UInt8) ∉ line := by
    rintro line hline hmem
    obtain rfl := List.mem_singleton.1 hline
    rcases List.mem_append.1 hmem with hmem | hmem
    · exact hfeed hmem
    · exact absurd (le_of_mem_encode_print hmem) (by decide)
  have hreturn : chopReturn 0x0D (tail ++ Utf8.encode r.toJson.print) =
      tail ++ Utf8.encode r.toJson.print := by
    obtain ⟨text, hprint, -⟩ := print_toJson r
    have hbrace : Utf8.encode r.toJson.print = 0x7B :: Utf8.encode text := by
      rw [hprint]
      rfl
    refine chopReturn_of_getLast?_ne fun hlast => ?_
    -- The last byte is one of the record, and that is no control character.
    rw [List.getLast?_append_of_ne_nil _ (by simp [hbrace])] at hlast
    exact absurd (le_of_mem_encode_print (List.mem_of_getLast? hlast)) (by decide)
  have hfirst : load ([tail ++ Utf8.encode r.toJson.print].flatMap (· ++ [0x0A])) =
      loadLines [tail ++ Utf8.encode r.toJson.print] := by
    rw [load, byteLines, splitLines_flatMap _ hline, List.map_singleton, hreturn]
  rw [hbytes, load_append_of_finished (.inr (by simp)), hfirst, loadLines]
  cases loadLine (tail ++ Utf8.encode r.toJson.print) with
  | error e => rfl
  | ok x =>
    cases load (Utf8.encode (store rs)) <;>
      simp [loadLines, bind, Except.bind, pure, Except.pure]

/-- An unfinished line is loaded as `loadLine` loads it. -/
private theorem loadLine_of_load {tail : List UInt8} {found : List Record}
    (hfeed : (0x0A : UInt8) ∉ tail) (h : load tail = .ok found) :
    ∃ x, loadLine tail = .ok x ∧ x.toList = found := by
  by_cases hne : tail = []
  · subst hne
    exact ⟨none, rfl, Except.ok.inj h⟩
  · rw [load, byteLines, splitLines_of_not_mem hne hfeed, loadLines] at h
    cases hx : loadLine tail with
    | error e =>
      rw [hx] at h
      cases h
    | ok x =>
      rw [hx] at h
      refine ⟨x, rfl, ?_⟩
      simpa [loadLines, bind, Except.bind, pure, Except.pure] using h

/-- What `load` makes of records behind an unfinished line: they are added to what was `found`, or
    the first one of them spoils the file. -/
private theorem load_unfinished_append {tail : List UInt8} {found : List Record} {r : Record}
    {rs : List Record} (hfeed : (0x0A : UInt8) ∉ tail) (htail : load tail = .ok found)
    (hrs : load (Utf8.encode (store (r :: rs))) = .ok (r :: rs)) :
    load (tail ++ Utf8.encode (store (r :: rs))) =
      if (Utf8.decode tail).all Json.isSpace then .ok (found ++ r :: rs)
      else .error .notRecord := by
  obtain ⟨hr, hrest⟩ := of_load_store_cons hrs
  obtain ⟨x, hx, rfl⟩ := loadLine_of_load hfeed htail
  rw [load_append_store hfeed, loadLine_append_print hx hr, hrest]
  by_cases hspace : (Utf8.decode tail).all Json.isSpace = true
  · rw [if_pos hspace, if_pos hspace, loadLine_of_isSpace hx hspace]
    rfl
  · rw [if_neg hspace, if_neg hspace]
    rfl

/-! ## Files -/

/-- Records can be added to every file that can be read.  If the file could be loaded as `old`, then
    afterwards it is loaded as the old records and the new ones after them, provided that its
    `unfinished` line is blank in the sense of JSON; otherwise the first new record spoils the
    file. -/
theorem load_append {w : Workspace} {path : String} {content : List UInt8} {old rs : List Record}
    (hread : w.read path = .ok content) (hold : load content = .ok old)
    (hrs : load (Utf8.encode (store rs)) = .ok rs) :
    ∃ w', w.append path (Utf8.encode (store rs)) = .ok w' ∧
      w'.read path = .ok (content ++ Utf8.encode (store rs)) ∧
      load (content ++ Utf8.encode (store rs)) =
        if rs = [] ∨ (Utf8.decode (unfinished content)).all Json.isSpace then .ok (old ++ rs)
        else .error .notRecord := by
  obtain ⟨w', happend⟩ := Workspace.exists_append_of_read hread (Utf8.encode (store rs))
  obtain ⟨loc, -, hwritten, -⟩ := Workspace.append_eq_ok happend
  have hcontent : w.contentOrEmpty path = content := by
    rw [Workspace.contentOrEmpty, hread]
    rfl
  rw [hcontent] at hwritten
  refine ⟨w', happend, hwritten, ?_⟩
  cases rs with
  | nil =>
    have hnothing : Utf8.encode (store []) = [] := rfl
    rw [hnothing, List.append_nil, List.append_nil, if_pos (.inl rfl), hold]
  | cons r rs =>
    -- Only the line that was left unfinished is loaded in another way than before.
    have hfinished := getLast?_finished content
    have hsplit : content ++ Utf8.encode (store (r :: rs)) =
        finished content ++ (unfinished content ++ Utf8.encode (store (r :: rs))) := by
      rw [← List.append_assoc, finished_append_unfinished]
    rw [← finished_append_unfinished content] at hold
    obtain ⟨first, second, hfirst, hsecond, rfl⟩ := exists_of_load_append hfinished hold
    rw [hsplit, load_append_of_finished hfinished, hfirst,
      load_unfinished_append (feed_not_mem_unfinished content) hsecond hrs]
    by_cases hspace : (Utf8.decode (unfinished content)).all Json.isSpace = true
    · rw [if_pos hspace, if_pos (.inr hspace), List.append_assoc]
      rfl
    · rw [if_neg hspace, if_neg (by simpa using hspace)]
      rfl

/-- A workspace whose only file is `r.jsonl`, with the given `content`. -/
def holding (content : List UInt8) : Workspace where
  home := []
  entries := [([], .directory), (["r.jsonl"], .file false content)]

private theorem read_holding (content : List UInt8) :
    (holding content).read "r.jsonl" = .ok content := by
  have hlocate : (holding content).locate "r.jsonl" = .ok ["r.jsonl"] := by
    have hpieces : PathText.pieces "r.jsonl" = ["r.jsonl"] := by decide
    have habsolute : PathText.isAbsolute "r.jsonl" = false := by decide
    simp [Workspace.locate, hpieces, habsolute, Workspace.follow, Workspace.get?, holding]
  exact Workspace.read_of_get? hlocate rfl

private theorem load_store_plain : load (Utf8.encode (store [plain])) = .ok [plain] := by
  have hloads : ∀ r ∈ [plain], r.Loads := by decide +kernel
  have hreloaded : [plain].map reloaded = [plain] := by decide +kernel
  rw [load_of_loads hloads, hreloaded]

/-- For a file that `load` can read, blank lines, carriage returns and blanks of JSON at the end do
    no harm. -/
theorem load_append_plain :
    let content := Utf8.encode ("\r\n".toList ++ plain.toJson.print ++ "\r\n\t ".toList)
    load content = .ok [plain] ∧
    ∃ w, (holding content).append "r.jsonl" (Utf8.encode (store [plain])) = .ok w ∧
      w.read "r.jsonl" = .ok (content ++ Utf8.encode (store [plain])) ∧
      load (content ++ Utf8.encode (store [plain])) = .ok [plain, plain] := by
  intro content
  have hold : load content = .ok [plain] := by decide +kernel
  have hspace : (Utf8.decode (unfinished content)).all Json.isSpace = true := by decide +kernel
  obtain ⟨w, happend, hread, hload⟩ := load_append (read_holding content) hold load_store_plain
  rw [if_pos (.inr hspace)] at hload
  exact ⟨hold, w, happend, hread, hload⟩

/-- If the last record has no line feed after it, the next one spoils the file for `load`. -/
theorem load_append_ne_of_unfinished :
    let content := Utf8.encode plain.toJson.print
    load content = .ok [plain] ∧ load (Utf8.encode (store [plain])) = .ok [plain] ∧
    ∃ w, (holding content).append "r.jsonl" (Utf8.encode (store [plain])) = .ok w ∧
      w.read "r.jsonl" = .ok (content ++ Utf8.encode (store [plain])) ∧
      load (content ++ Utf8.encode (store [plain])) = .error .notRecord := by
  intro content
  have hread := read_holding content
  obtain ⟨w, happend⟩ := Workspace.exists_append_of_read hread (Utf8.encode (store [plain]))
  obtain ⟨-, -, hwritten, -⟩ := Workspace.append_eq_ok happend
  rw [Workspace.contentOrEmpty, hread] at hwritten
  exact ⟨by decide +kernel, load_store_plain, w, happend, hwritten, by decide +kernel⟩

end MapperSweep.Record
