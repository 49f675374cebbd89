import MapperSweep.Proofs.Text
import MapperSweep.ToolOutput.Parser

/-!
# Faulty lines

A line without the lead that has a marker has to hold a number after its last colon.  It is said
here which lines fail to do so, and with which complaint, without a word about how lines are read.
An output is refused exactly if it has such a line, and the complaint is about the first of them.

## Key results

- `readLine_eq_error_iff`: a line cannot be read exactly if it is faulty
- `feed_eq_error_iff`, `lineNo_feed`: a faulty line is refused by its number, and every line counts
- `collect_eq_error_iff`: the first faulty line of a sequence of lines
- `parse_reports_first_faulty_line`: the first faulty line of an output
-/

namespace MapperSweep.ToolOutput

/-! ## What is wrong with a line -/

/-- The kind of number that a marker calls for, as `readMarked` expects it. -/
def Marker.kind : Marker → NumberKind
  | .metric (.count _) => .integer
  | .metric (.measure _) => .float
  | .runtime => .integer

/-- `kind.Reads text` holds if `text` is a number of this kind. -/
def NumberKind.Reads : NumberKind → List Char → Prop
  | .integer, text => (readCount? text).isSome
  | .float, text => (Binary64.ofText? text).isSome

/-- `m` occurs in a line, and no marker that stands before it in the table does. -/
def Marker.IsFirstIn (line : List Char) (m : Marker) : Prop :=
  ∃ before after, Marker.all = before ++ m :: after ∧ m.text.toList <:+: line ∧
    ∀ n ∈ before, ¬n.text.toList <:+: line

/-- `Lacks kind line f` says that `line` should hold a number of the `kind` after its last colon,
    and what it lacks is `f`. -/
inductive Lacks (kind : NumberKind) (line : List Char) : Fault → Prop
  | separator (h : ':' ∉ line) : Lacks kind line (.missingSeparator (String.ofList line))
  | number (front rest : List Char) (hline : line = front ++ ':' :: rest) (hlast : ':' ∉ rest)
      (h : ¬kind.Reads (Text.trim rest)) :
      Lacks kind line (.malformedNumber (String.ofList (Text.trim rest)) kind)

/-- A line that names no benchmark has the marker `m`, but not the number that it calls for. -/
structure Faulty (lead line : List Char) (m : Marker) (f : Fault) : Prop where
  lead : ¬lead <+: line
  marker : m.IsFirstIn line
  value : Lacks m.kind line f

/-! ## Reading a faulty line -/

/-- A line lacks its number if the `rest` after its last colon is none. -/
private theorem lacks_iff_of_afterLast? {kind : NumberKind} {line rest : List Char} {f : Fault}
    (h : Text.afterLast? ':' line = some rest) :
    Lacks kind line f ↔ ¬kind.Reads (Text.trim rest) ∧
      f = .malformedNumber (String.ofList (Text.trim rest)) kind := by
  obtain ⟨front, hline, hlast⟩ := Text.afterLast?_eq_some_iff.1 h
  constructor
  · intro hlacks
    cases hlacks with
    | separator hcolon => simp [hline] at hcolon
    | number front' rest' hline' hlast' hnone =>
      have hsame := Text.afterLast?_eq_some_iff.2 ⟨front', hline', hlast'⟩
      obtain rfl : rest = rest' := Option.some.inj (h.symm.trans hsame)
      exact ⟨hnone, rfl⟩
  · rintro ⟨hnone, rfl⟩
    exact .number front rest hline hlast hnone

/-- `readValue` fails exactly if the line `Lacks` something. -/
theorem readValue_eq_error_iff {read : List Char → Option α} {kind : NumberKind}
    {line : List Char} {f : Fault} (hread : ∀ text, (read text).isSome = true ↔ kind.Reads text) :
    readValue read kind line = .error f ↔ Lacks kind line f := by
  unfold readValue
  cases hafter : Text.afterLast? ':' line with
  | none =>
    have hcolon : ':' ∉ line := Text.afterLast?_eq_none_iff.1 hafter
    simp only [Except.error.injEq]
    constructor
    · rintro rfl
      exact .separator hcolon
    · intro hlacks
      cases hlacks with
      | separator _ => rfl
      | number front rest hline _ _ => simp [hline] at hcolon
  | some rest =>
    rw [lacks_iff_of_afterLast? hafter, ← hread]
    cases hvalue : read (Text.trim rest) with
    | none => simp [hvalue, eq_comm]
    | some x => simp [hvalue]

private theorem map_eq_error_iff {g : α → β} {e : Except ε α} {x : ε} :
    e.map g = .error x ↔ e = .error x := by
  cases e <;> simp [Except.map]

theorem readMarked_eq_error_iff {line : List Char} {m : Marker} {f : Fault} :
    readMarked line m = .error f ↔ Lacks m.kind line f := by
  cases m with
  | runtime => exact map_eq_error_iff.trans (readValue_eq_error_iff fun _ => Iff.rfl)
  | metric m =>
    cases m with
    | count c => exact map_eq_error_iff.trans (readValue_eq_error_iff fun _ => Iff.rfl)
    | measure c => exact map_eq_error_iff.trans (readValue_eq_error_iff fun _ => Iff.rfl)

/-- The search for a marker finds the one that `IsFirstIn` the line. -/
theorem find?_marks_eq_some_iff {line : List Char} {m : Marker} :
    Marker.all.find? (·.marks line) = some m ↔ m.IsFirstIn line := by
  have hmarks : ∀ n : Marker, n.marks line = true ↔ n.text.toList <:+: line :=
    fun n => Text.contains_iff
  rw [List.find?_eq_some_iff_append]
  unfold Marker.IsFirstIn
  constructor
  · rintro ⟨hoccurs, before, after, hall, hbefore⟩
    refine ⟨before, after, hall, (hmarks m).1 hoccurs, ?_⟩
    intro n hn hoccurs'
    simpa [(hmarks n).2 hoccurs'] using hbefore n hn
  · rintro ⟨before, after, hall, hoccurs, hbefore⟩
    refine ⟨(hmarks m).2 hoccurs, before, after, hall, ?_⟩
    intro n hn
    simpa using mt (hmarks n).1 (hbefore n hn)

/-- `readLine` fails exactly if the line is `Faulty`. -/
theorem readLine_eq_error_iff {lead line : List Char} {m : Marker} {f : Fault} :
    readLine lead line = .error (m, f) ↔ Faulty lead line m f := by
  unfold readLine
  cases hstrip : Text.stripStart? lead line with
  | some path =>
    -- A line that names a benchmark is not looked at any further.
    have hlead : lead <+: line := ⟨path, (Text.stripStart?_eq_some.1 hstrip).symm⟩
    simp only [reduceCtorEq, false_iff]
    exact fun hfaulty => hfaulty.lead hlead
  | none =>
    have hlead : ¬lead <+: line := Text.stripStart?_eq_none_iff.1 hstrip
    cases hfind : Marker.all.find? (·.marks line) with
    | none =>
      simp only [reduceCtorEq, false_iff]
      intro hfaulty
      rw [find?_marks_eq_some_iff.2 hfaulty.marker] at hfind
      cases hfind
    | some n =>
      have hfirst : n.IsFirstIn line := find?_marks_eq_some_iff.1 hfind
      constructor
      · intro h
        cases hread : readMarked line n with
        | ok content => simp [hread, Except.mapError] at h
        | error fault =>
          simp only [hread, Except.mapError, Except.error.injEq, Prod.mk.injEq] at h
          obtain ⟨rfl, rfl⟩ := h
          exact ⟨hlead, hfirst, readMarked_eq_error_iff.1 hread⟩
      · intro hfaulty
        have hsame := find?_marks_eq_some_iff.2 hfaulty.marker
        obtain rfl : n = m := Option.some.inj (hfind.symm.trans hsame)
        simp only [readMarked_eq_error_iff.2 hfaulty.value, Except.mapError]

/-! ## Feeding a faulty line -/

namespace Accumulator

variable {lead line : List Char} {config : RunConfig} {a : Accumulator}

theorem lineNo_feed : (a.feed lead config line).1.lineNo = a.lineNo + 1 := by
  unfold feed
  cases readLine lead line with
  | error e => rfl
  | ok content => cases content <;> rfl

/-- `feed` refuses only lines that are `Faulty`, with their numbers. -/
theorem feed_eq_error_iff {e : Error} :
    (a.feed lead config line).2.value = .error e ↔
      Faulty lead line e.marker e.fault ∧ e.lineNo = a.lineNo + 1 := by
  rw [← readLine_eq_error_iff]
  unfold feed
  obtain ⟨lineNo, marker, fault⟩ := e
  cases readLine lead line with
  | error e =>
    obtain ⟨m, f⟩ := e
    simp only [Logged.value_pure, Except.error.injEq, Error.mk.injEq, Prod.mk.injEq]
    constructor
    · rintro ⟨rfl, rfl, rfl⟩
      exact ⟨⟨rfl, rfl⟩, rfl⟩
    · rintro ⟨⟨rfl, rfl⟩, rfl⟩
      exact ⟨rfl, rfl, rfl⟩
  | ok content => simp [Logged.value_map]

end Accumulator

/-! ## The first faulty line -/

/-- `e` is about the first faulty line of a sequence of lines, where `start` lines came before. -/
def IsFirstFault (lead : List Char) (start : Nat) (lines : List (List Char)) (e : Error) : Prop :=
  ∃ before line after, lines = before ++ line :: after ∧
    (∀ earlier ∈ before, ∀ m f, ¬Faulty lead earlier m f) ∧
    Faulty lead line e.marker e.fault ∧ e.lineNo = start + before.length + 1

/-- Either the first `line` is faulty, or the first faulty line is one of the others. -/
private theorem isFirstFault_cons {lead line : List Char} {start : Nat} {lines : List (List Char)}
    {e : Error} :
    IsFirstFault lead start (line :: lines) e ↔
      Faulty lead line e.marker e.fault ∧ e.lineNo = start + 1 ∨
        (∀ m f, ¬Faulty lead line m f) ∧ IsFirstFault lead (start + 1) lines e := by
  -- The lines before the first faulty one are none, or begin with `line`.
  constructor
  · rintro ⟨before, faulty, after, hlines, hearlier, hfaulty, hnumber⟩
    cases before with
    | nil =>
      obtain ⟨rfl, rfl⟩ := List.cons.inj hlines
      exact .inl ⟨hfaulty, hnumber⟩
    | cons first before =>
      obtain ⟨rfl, rfl⟩ := List.cons.inj hlines
      refine .inr ⟨hearlier line List.mem_cons_self, before, faulty, after, rfl, ?_, hfaulty, ?_⟩
      · exact fun earlier hmem => hearlier earlier (List.mem_cons_of_mem line hmem)
      · rw [hnumber, List.length_cons]
        omega
  · rintro (⟨hfaulty, hnumber⟩ | ⟨hline, before, faulty, after, rfl, hearlier, hfaulty, hnumber⟩)
    · exact ⟨[], line, lines, rfl, by simp, hfaulty, hnumber⟩
    · refine ⟨line :: before, faulty, after, rfl, ?_, hfaulty, ?_⟩
      · intro earlier hmem
        rcases List.mem_cons.1 hmem with rfl | hmem
        · exact hline
        · exact hearlier earlier hmem
      · rw [hnumber, List.length_cons]
        omega

/-- If any one of `lines` is faulty, then there is a first one. -/
theorem exists_isFirstFault {lead : List Char} {lines : List (List Char)} (start : Nat)
    (h : ∃ line ∈ lines, ∃ m f, Faulty lead line m f) : ∃ e, IsFirstFault lead start lines e := by
  induction lines generalizing start with
  | nil => simp at h
  | cons line lines ih =>
    by_cases hline : ∃ m f, Faulty lead line m f
    · obtain ⟨marker, fault, hfaulty⟩ := hline
      exact ⟨⟨start + 1, marker, fault⟩, isFirstFault_cons.2 (.inl ⟨hfaulty, rfl⟩)⟩
    · obtain ⟨faulty, hmem, hfaulty⟩ := h
      have hrest : faulty ∈ lines := by
        rcases List.mem_cons.1 hmem with rfl | hrest
        · exact absurd hfaulty hline
        · exact hrest
      obtain ⟨e, he⟩ := ih (start + 1) ⟨faulty, hrest, hfaulty⟩
      refine ⟨e, isFirstFault_cons.2 (.inr ⟨?_, he⟩)⟩
      exact fun m f hfaulty => hline ⟨m, f, hfaulty⟩

/-- `collect` fails because the first `line` is refused, or else one of the others. -/
theorem collect_cons_eq_error_iff {lead line : List Char} {config : RunConfig} {a : Accumulator}
    {lines : List (List Char)} {e : Error} :
    (collect lead config a (line :: lines)).value = .error e ↔
      (a.feed lead config line).2.value = .error e ∨
        (∀ e', (a.feed lead config line).2.value ≠ .error e') ∧
          (collect lead config (a.feed lead config line).1 lines).value = .error e := by
  simp only [collect, Logged.andThen]
  cases (a.feed lead config line).2.value with
  | error e' => simp
  | ok closed =>
    cases (collect lead config (a.feed lead config line).1 lines).value with
    | error e' => simp
    | ok result => simp

/-- `collect` fails because of the first faulty line. -/
theorem collect_eq_error_iff {lead : List Char} {config : RunConfig} {a : Accumulator}
    {lines : List (List Char)} {e : Error} :
    (collect lead config a lines).value = .error e ↔ IsFirstFault lead a.lineNo lines e := by
  -- The count of the accumulator is the number of lines that came before.
  induction lines generalizing a with
  | nil => simp [collect, IsFirstFault]
  | cons line lines ih =>
    have haccepted : (∀ e', (a.feed lead config line).2.value ≠ .error e') ↔
        ∀ m f, ¬Faulty lead line m f := by
      constructor
      · intro h m f hfaulty
        exact h ⟨a.lineNo + 1, m, f⟩ (Accumulator.feed_eq_error_iff.2 ⟨hfaulty, rfl⟩)
      · intro h e' he'
        exact h e'.marker e'.fault (Accumulator.feed_eq_error_iff.1 he').1
    rw [collect_cons_eq_error_iff, Accumulator.feed_eq_error_iff, haccepted, ih,
      Accumulator.lineNo_feed, isFirstFault_cons]

/-- `parse` fails because of the lines alone; what is pending at the end is no error. -/
theorem parse_eq_error_iff {inputDir : String} {config : RunConfig} {output : String} {e : Error} :
    (parse inputDir config output).value = .error e ↔
      (collect (lead inputDir) config {} (Text.lines output.toList)).value = .error e := by
  simp only [parse, Logged.andThen]
  cases (collect (lead inputDir) config {} (Text.lines output.toList)).value with
  | error e' => simp
  | ok result => simp

/-- `parse` refuses an output exactly if it has a line that is `Faulty`: one that does not start
    with the lead, has a marker, and has no colon, or no number of the kind that its first marker
    calls for after the last colon.  The error is about the first such line, by its number from 1,
    with the marker and with what is wrong. -/
theorem parse_reports_first_faulty_line (inputDir : String) (config : RunConfig)
    (output : String) :
    ((∃ e, (parse inputDir config output).value = .error e) ↔
        ∃ line ∈ Text.lines output.toList, ∃ m f, Faulty (lead inputDir) line m f) ∧
      ∀ e, (parse inputDir config output).value = .error e ↔
        ∃ before line after, Text.lines output.toList = before ++ line :: after ∧
          (∀ earlier ∈ before, ∀ m f, ¬Faulty (lead inputDir) earlier m f) ∧
          Faulty (lead inputDir) line e.marker e.fault ∧ e.lineNo = before.length + 1 := by
  have hfirst : ∀ e, (parse inputDir config output).value = .error e ↔
      IsFirstFault (lead inputDir) 0 (Text.lines output.toList) e :=
    fun e => parse_eq_error_iff.trans collect_eq_error_iff
  constructor
  · simp only [hfirst]
    constructor
    · rintro ⟨e, before, line, after, hlines, -, hfaulty, -⟩
      exact ⟨line, by simp [hlines], e.marker, e.fault, hfaulty⟩
    · exact exists_isFirstFault 0
  · intro e
    rw [hfirst]
    simp only [IsFirstFault, Nat.zero_add]

-- The first line names a benchmark, and what looks like a marker belongs to the name.  The value of
-- the second line follows its last colon.  The third line has two markers, and the one that comes
-- first in the table calls for a real number.
example (config : RunConfig) :
    (parse "circuits" config <|
        "Mapping circuits/nSwaps\nnSwaps: at: 4\n" ++
        "nMoves before totalFidelities: 3 of 4 \nnSwaps").value =
      .error ⟨3, .metric (.measure .fidelity), .malformedNumber "3 of 4" .float⟩ := by
  rfl

end MapperSweep.ToolOutput
