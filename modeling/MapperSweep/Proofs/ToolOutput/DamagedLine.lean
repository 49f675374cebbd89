import MapperSweep.Execution
import MapperSweep.Proofs.ToolOutput.OpenResult
import MapperSweep.Proofs.Utf8.Lines

/-!
# Damaged lines

The mapping tool prints bytes, and what it prints need not be a text.  Every line of the output is
decoded by itself, so bytes that are malformed or cut off change the text of the line that they
stand in, and of no other one.  What the other lines say is then the same too, and the damage does
not reach beyond the result that its line belongs to.

## Key results

- `refusal_iff`: which lines are refused, by their texts
- `afterLines_take_eq`, `afterLines_of_closes`: where two runs over lines meet again
- `parse_eq_of_readings`: an output is read by what its lines say
- `damage_stays_in_its_line`: what bytes in one line do to the others
-/

namespace MapperSweep

namespace ToolOutput

open Text.Utf8

/-! ## Readings of lines -/

/-- The error that the reply `r` comes with, if any. -/
def Reply.error? (r : Reply) : Option Error :=
  match r.answer.value with
  | .error e => some e
  | .ok _ => none

/-- Whether line `i` is refused, and with which error `e`, depends on its text and its number
    alone. -/
theorem refusal_iff {lead : List Char} {config : RunConfig} {lines : List (List Char)} {i : Nat}
    {e : Error} :
    ((feedAll lead config {} lines)[i]?).bind Reply.error? = some e ↔
      ∃ line, lines[i]? = some line ∧ Faulty lead line e.marker e.fault ∧ e.lineNo = i + 1 := by
  have herror : ∀ a line, (reply lead config a line).error? = some e ↔
      Faulty lead line e.marker e.fault ∧ e.lineNo = a.lineNo + 1 := by
    intro a line
    have hfeed := @Accumulator.feed_eq_error_iff lead line config a e
    simp only [reply, Reply.error?, ← hfeed]
    cases (a.feed lead config line).2.value <;> simp
  rw [getElem?_feedAll]
  cases hline : lines[i]? with
  | none => simp
  | some line =>
    have hlength : i < lines.length := (List.getElem?_eq_some_iff.1 hline).1
    simp [herror, Accumulator.lineNo_afterLines, hlength.le]

/-- If the first `k` lines leave the same and the lines after them are the same, then the first `i`
    lines leave the same. -/
theorem afterLines_take_eq {lead : List Char} {config : RunConfig} {a : Accumulator}
    {lines lines' : List (List Char)} {k i : Nat} (hk : k ≤ i)
    (hleft : a.afterLines lead config (lines.take k) = a.afterLines lead config (lines'.take k))
    (hlines : ∀ m, k ≤ m → m < i → lines[m]? = lines'[m]?) :
    a.afterLines lead config (lines.take i) = a.afterLines lead config (lines'.take i) := by
  induction i, hk using Nat.le_induction with
  | base => exact hleft
  | succ i hk ih =>
    have hbefore := ih fun m hm hmi => hlines m hm (by omega)
    rw [List.take_add_one, List.take_add_one, hlines i hk (by omega)]
    cases lines'[i]? with
    | none => simpa using hbefore
    | some line =>
      rw [Option.toList_some, Accumulator.afterLines_concat, Accumulator.afterLines_concat, hbefore]

/-- After line `j`, which closes a result, nothing is left but the count. -/
theorem afterLines_of_closes {lead : List Char} {config : RunConfig} {lines : List (List Char)}
    {j : Nat} {line : List Char} (hline : lines[j]? = some line)
    (hcloses : closes lead line = true) :
    Accumulator.afterLines lead config {} (lines.take (j + 1)) = { lineNo := j + 1 } := by
  -- No result is open, so only the count is left, and every line was counted.
  have hnothing :
      (Accumulator.afterLines lead config {} (lines.take (j + 1))).hasPending = false := by
    rw [List.take_add_one, hline, Option.toList_some, Accumulator.afterLines_concat,
      Accumulator.hasPending_feed, contributes_of_closes hcloses, hcloses]
    simp
  have hlength : (lines.take (j + 1)).length = j + 1 :=
    List.length_take_of_le (List.getElem?_eq_some_iff.1 hline).1
  rw [Accumulator.eq_of_not_pending hnothing, Accumulator.lineNo_afterLines, hlength, Nat.zero_add]

/-- `collect` depends on nothing but what `readLine` makes of the lines. -/
theorem collect_eq_of_readings {lead : List Char} {lines lines' : List (List Char)}
    (h : lines.map (readLine lead) = lines'.map (readLine lead)) (config : RunConfig)
    (a : Accumulator) : collect lead config a lines = collect lead config a lines' := by
  induction lines generalizing lines' a with
  | nil =>
    obtain rfl : lines' = [] := by simpa using h.symm
    rfl
  | cons line lines ih =>
    cases lines' with
    | nil => simp at h
    | cons line' lines' =>
      obtain ⟨hline, hlines⟩ := List.cons.inj h
      have hfeed : a.feed lead config line = a.feed lead config line' := by
        simp only [Accumulator.feed, hline]
      simp only [collect, hfeed, ih hlines]

/-- `parse` depends on nothing but what `readLine` makes of the lines. -/
theorem parse_eq_of_readings {inputDir output output' : String}
    (h : (Text.lines output.toList).map (readLine (lead inputDir)) =
      (Text.lines output'.toList).map (readLine (lead inputDir))) (config : RunConfig) :
    parse inputDir config output = parse inputDir config output' := by
  rw [parse, collect_eq_of_readings h, parse]

/-! ## Outputs that differ in one line -/

/-- The lines of the bytes `bs` that the tool printed. -/
def printedLines (bs : List UInt8) : List (List Char) := Text.lines (decode bs)

/-- `DifferWithin n bs bs'` says that two outputs differ in a stretch of line `n`, from 0, and
    nowhere else. -/
inductive DifferWithin : Nat → List UInt8 → List UInt8 → Prop
  | exchange (before after : List UInt8) {x y : List UInt8} (hx : 0x0A ∉ x) (hy : 0x0A ∉ y) :
      DifferWithin (before.count 0x0A) (before ++ x ++ after) (before ++ y ++ after)

/-- The lines other than `n` have the same texts. -/
theorem DifferWithin.printedLines_eq {n : Nat} {bs bs' : List UInt8} (h : DifferWithin n bs bs')
    {i : Nat} (hi : i ≠ n) : (printedLines bs)[i]? = (printedLines bs')[i]? := by
  cases h with
  | exchange before after hx hy =>
    simp only [printedLines, Text.lines_decode, List.getElem?_map, Text.byteLines,
      Text.getElem?_splitLines_of_ne hx hy before after hi]

/-- The replies to all lines of the bytes `bs` that the tool printed. -/
def printedReplies (inputDir : String) (config : RunConfig) (bs : List UInt8) : List Reply :=
  feedAll (lead inputDir) config {} (printedLines bs)

/-- The lines other than `n` are refused with the same errors, or not at all. -/
theorem DifferWithin.error?_eq {n : Nat} {bs bs' : List UInt8} (h : DifferWithin n bs bs')
    (inputDir : String) (config : RunConfig) {i : Nat} (hi : i ≠ n) :
    (printedReplies inputDir config bs)[i]?.bind Reply.error? =
      (printedReplies inputDir config bs')[i]?.bind Reply.error? := by
  refine Option.ext fun e => ?_
  rw [printedReplies, printedReplies, refusal_iff, refusal_iff, h.printedLines_eq hi]

/-- Line `i` gets the same reply if it stands before line `n`, or in a later result. -/
theorem DifferWithin.reply_eq {n : Nat} {bs bs' : List UInt8} (h : DifferWithin n bs bs')
    (inputDir : String) (config : RunConfig) {i : Nat}
    (hi : i < n ∨ ∃ j line, n < j ∧ j < i ∧ (printedLines bs)[j]? = some line ∧
      closes (lead inputDir) line = true) :
    (printedReplies inputDir config bs)[i]? = (printedReplies inputDir config bs')[i]? := by
  -- The lines before it leave the same: none of them differs, or all is forgotten in between.
  have hleft : Accumulator.afterLines (lead inputDir) config {} ((printedLines bs).take i) =
      Accumulator.afterLines (lead inputDir) config {} ((printedLines bs').take i) := by
    rcases hi with hi | ⟨j, line, hnj, hji, hline, hcloses⟩
    · exact afterLines_take_eq (Nat.zero_le i) rfl fun m _ hm => h.printedLines_eq (by omega)
    · have hline' : (printedLines bs')[j]? = some line :=
        (h.printedLines_eq hnj.ne').symm.trans hline
      refine afterLines_take_eq (k := j + 1) hji ?_ fun m hm _ => h.printedLines_eq (by omega)
      rw [afterLines_of_closes hline hcloses, afterLines_of_closes hline' hcloses]
  have hne : i ≠ n := by
    rcases hi with hi | ⟨j, _, hnj, hji, _⟩ <;> omega
  rw [printedReplies, printedReplies, getElem?_feedAll, getElem?_feedAll, hleft,
    h.printedLines_eq hne]

/-- If line `n` says the same, then a run that printed the bytes gives the same records. -/
theorem DifferWithin.records_eq {n : Nat} {bs bs' : List UInt8} (h : DifferWithin n bs bs')
    {inputDir : String}
    (hsame : (printedLines bs)[n]?.map (readLine (lead inputDir)) =
      (printedLines bs')[n]?.map (readLine (lead inputDir)))
    (config : RunConfig) (policy : MalformedOutput) (c : Course) :
    (Course.outcome { c with stdout := bs } (.code 0)).records policy inputDir config =
      (Course.outcome { c with stdout := bs' } (.code 0)).records policy inputDir config := by
  have hreadings : (printedLines bs).map (readLine (lead inputDir)) =
      (printedLines bs').map (readLine (lead inputDir)) := by
    apply List.ext_getElem?
    intro i
    rw [List.getElem?_map, List.getElem?_map]
    by_cases hi : i = n
    · rw [hi]
      exact hsame
    · rw [h.printedLines_eq hi]
  have hparse : parse inputDir config (String.ofList (decode bs)) =
      parse inputDir config (String.ofList (decode bs')) :=
    parse_eq_of_readings (by simpa [printedLines] using hreadings) config
  simp only [Course.outcome, Outcome.records, hparse]

/-- A line feed is decoded for itself, valid bytes are decoded to their text, and each longest
    malformed stretch is decoded to one replacement.  So every line of an output is decoded by
    itself.  If two outputs differ within one line only, whatever bytes stand there, then all other
    lines have the same texts, and are refused with the same errors or not at all.  The replies to
    the lines before it are the same, and so are those to the lines after the next record.  If the
    one line says the same in both outputs, then a run that printed them gives the same records. -/
theorem damage_stays_in_its_line (inputDir : String) (config : RunConfig) :
    (∀ as bs : List UInt8, decode (as ++ [0x0A] ++ bs) = decode as ++ ['\n'] ++ decode bs) ∧
      (∀ bs : List UInt8, ByteArray.IsValidUTF8 bs.toByteArray ↔ encode (decode bs) = bs) ∧
      (∀ bs cs, decode bs = cs ↔ DecodesTo bs cs) ∧
      (∀ bs, printedLines bs = (Text.byteLines bs).map decode) ∧
      ∀ n bs bs', DifferWithin n bs bs' →
        (∀ i ≠ n, (printedLines bs)[i]? = (printedLines bs')[i]? ∧
          (printedReplies inputDir config bs)[i]?.bind Reply.error? =
            (printedReplies inputDir config bs')[i]?.bind Reply.error?) ∧
        (∀ i, (i < n ∨ ∃ j line, n < j ∧ j < i ∧ (printedLines bs)[j]? = some line ∧
            closes (lead inputDir) line = true) →
          (printedReplies inputDir config bs)[i]? = (printedReplies inputDir config bs')[i]?) ∧
        ((printedLines bs)[n]?.map (readLine (lead inputDir)) =
            (printedLines bs')[n]?.map (readLine (lead inputDir)) →
          ∀ (c : Course) (policy : MalformedOutput),
            (Course.outcome { c with stdout := bs } (.code 0)).records policy inputDir config =
              (Course.outcome { c with stdout := bs' } (.code 0)).records policy inputDir
                config) := by
  refine ⟨?_, fun bs => isValidUTF8_iff_encode_decode, fun bs cs => decode_eq_iff_decodesTo,
    Text.lines_decode, ?_⟩
  · intro as bs
    have hfeed : decode (as ++ 0x0A :: bs) = decode as ++ '\n' :: decode bs :=
      decode_append_ascii (by decide) as bs
    simpa using hfeed
  · intro n bs bs' hdiffer
    refine ⟨?_, ?_, ?_⟩
    · intro i hi
      exact ⟨hdiffer.printedLines_eq hi, hdiffer.error?_eq inputDir config hi⟩
    · intro i hi
      exact hdiffer.reply_eq inputDir config hi
    · intro hsame c policy
      exact hdiffer.records_eq hsame config policy c

/-- The output of a tool that says how long it took, with `unit` behind it. -/
def timedOutput (unit : List UInt8) : List UInt8 :=
  encode "Mapping circuits/qft.qasm\ntook 3 ".toList ++ unit ++
    encode "\r\nnSwaps: 3\n* runtime: 5\n".toList

/-- In `timedOutput` the sign for micro is cut off after its first byte, and another character after
    its third one.  This leaves a line that says nothing, and the record is the same. -/
theorem records_of_timedOutput :
    printedLines (timedOutput [0xC2, 0xF0, 0x9F, 0x98]) =
        ["Mapping circuits/qft.qasm", "took 3 \uFFFD\uFFFD", "nSwaps: 3", "* runtime: 5"].map
          String.toList ∧
      ((Course.outcome { stdout := timedOutput [0xC2, 0xF0, 0x9F, 0x98], inputs := [] }
          (.code 0)).records .skipRun "circuits" sampleRun).value =
        .ok [.ofRun sampleRun "qft" { swaps := some 3, runtimeMs := some 5 }] := by
  obtain ⟨-, -, -, -, hdamage⟩ := damage_stays_in_its_line "circuits" sampleRun
  have hdiffer : DifferWithin 1 (timedOutput [0xC2, 0xF0, 0x9F, 0x98]) (timedOutput [0xC2, 0xB5]) :=
    .exchange (encode "Mapping circuits/qft.qasm\ntook 3 ".toList) _ (by decide) (by decide)
  obtain ⟨-, -, hrecords⟩ := hdamage 1 _ _ hdiffer
  refine ⟨by decide +kernel, ?_⟩
  rw [hrecords (by decide +kernel) { inputs := [] } .skipRun]
  decide +kernel

end ToolOutput

end MapperSweep
