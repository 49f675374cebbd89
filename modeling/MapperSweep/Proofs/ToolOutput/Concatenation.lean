import MapperSweep.Proofs.ToolOutput.Faults
import MapperSweep.Proofs.ToolOutput.Segments

/-!
# Outputs one after the other

What is known about an output that ends with a complete line can be used when more output follows.
A faulty line in the first part is the first faulty line of the whole.  If the first part is not
faulty and leaves nothing pending, then the accumulator is as it was at the start except for its
count, so the second part is read as if it stood alone, and only the numbers of its lines are
larger.

## Key results

- `value_collect_append`: lines are collected in two parts as they are in one
- `Accumulator.eq_of_not_pending`: nothing pending means that only the count is left
- `value_collect_later`: the count matters for the numbers of faulty lines and for nothing else
- `parse_append`: the records and errors of outputs that are put together
-/

namespace MapperSweep

namespace ToolOutput

/-! ## Collecting in two parts -/

/-- The lines `ys` of the second part are collected from where the lines `xs` end. -/
theorem value_collect_append (lead : List Char) (config : RunConfig) (a : Accumulator)
    (xs ys : List (List Char)) :
    (collect lead config a (xs ++ ys)).value = do
      let (records, middle) ← (collect lead config a xs).value
      let (more, last) ← (collect lead config middle ys).value
      return (records ++ more, last) := by
  induction xs generalizing a with
  | nil =>
    have hnil : (collect lead config a []).value = .ok ([], a) := rfl
    simp only [List.nil_append, hnil, bind, Except.bind]
    cases (collect lead config a ys).value <;> rfl
  -- The first line is fed on both sides alike, and the rest of its part starts from there.
  | cons x xs ih =>
    simp only [List.cons_append, collect, Logged.andThen]
    cases (a.feed lead config x).2.value with
    | error e => rfl
    | ok closed =>
      simp only [ih]
      cases (collect lead config (a.feed lead config x).1 xs).value with
      | error e => rfl
      | ok result =>
        obtain ⟨records, middle⟩ := result
        simp only [bind, Except.bind, Logged.value_pure]
        cases (collect lead config middle ys).value with
        | error e => rfl
        | ok result => simp [pure, Except.pure]

/-! ## The accumulator after a part -/

namespace Accumulator

/-- The accumulator after all `lines`, of which some may have been refused. -/
def afterLines (lead : List Char) (config : RunConfig) (a : Accumulator)
    (lines : List (List Char)) : Accumulator :=
  lines.foldl (fun a line => (a.feed lead config line).1) a

/-- Every line counts for `lineNo`, whatever it says. -/
theorem lineNo_afterLines (lead : List Char) (config : RunConfig) (a : Accumulator)
    (lines : List (List Char)) :
    (a.afterLines lead config lines).lineNo = a.lineNo + lines.length := by
  induction lines generalizing a with
  | nil => rfl
  | cons line lines ih =>
    have hcons : a.afterLines lead config (line :: lines) =
        (a.feed lead config line).1.afterLines lead config lines := rfl
    rw [hcons, ih, lineNo_feed, List.length_cons]
    omega

/-- If nothing is pending in `a`, then it is as it was at the start, except for its count. -/
theorem eq_of_not_pending {a : Accumulator} (h : a.hasPending = false) :
    a = { lineNo := a.lineNo } := by
  simp only [hasPending, Metrics.isEmpty, Bool.or_eq_false_iff, Bool.not_eq_eq_eq_not,
    Bool.not_false, beq_iff_eq, Option.isSome_eq_false_iff, Option.isNone_iff_eq_none] at h
  obtain ⟨benchmark, metrics, lineNo⟩ := a
  obtain ⟨rfl, rfl⟩ := h
  rfl

end Accumulator

/-- Lines that `collect` accepts leave the accumulator that they leave when they are only fed. -/
theorem eq_afterLines_of_collect {lead : List Char} {config : RunConfig} {a last : Accumulator}
    {lines : List (List Char)} {records : List Record}
    (h : (collect lead config a lines).value = .ok (records, last)) :
    last = a.afterLines lead config lines := by
  induction lines generalizing a records with
  | nil =>
    cases h
    rfl
  | cons line lines ih =>
    simp only [collect, Logged.andThen] at h
    cases hfed : (a.feed lead config line).2.value with
    | error e => simp [hfed] at h
    | ok closed =>
      cases hrest : (collect lead config (a.feed lead config line).1 lines).value with
      | error e => simp [hfed, hrest] at h
      | ok result =>
        obtain ⟨more, stop⟩ := result
        simp only [hfed, hrest, Logged.value_pure, Except.ok.injEq, Prod.mk.injEq] at h
        obtain ⟨-, rfl⟩ := h
        exact ih hrest

/-! ## Counting from a later line -/

/-- The error `e`, if `n` more lines come before it. -/
def Error.later (n : Nat) (e : Error) : Error := { e with lineNo := e.lineNo + n }

/-- The accumulator `a`, if `n` more lines come before it. -/
def Accumulator.later (n : Nat) (a : Accumulator) : Accumulator := { a with lineNo := a.lineNo + n }

/-- `feed` for a line that comes later: the number in an error grows by `n`, and nothing else
    changes. -/
theorem Accumulator.feed_later (lead : List Char) (config : RunConfig) (a : Accumulator) (n : Nat)
    (line : List Char) :
    ((a.later n).feed lead config line).1 = (a.feed lead config line).1.later n ∧
      ((a.later n).feed lead config line).2.value =
        (a.feed lead config line).2.value.mapError (Error.later n) := by
  have hcount : a.lineNo + n + 1 = a.lineNo + 1 + n := by omega
  unfold feed later
  cases readLine lead line with
  | error e => exact ⟨by rw [hcount], by simp [Except.mapError, Error.later, hcount]⟩
  | ok content =>
    cases content with
    | runtime ms =>
      -- The number is also logged if no benchmark was named, but the record does not depend on it.
      refine ⟨by simp only [take, hcount], ?_⟩
      simp only [take, Logged.value_map]
      cases a.benchmark <;> rfl
    | benchmark name => exact ⟨by simp only [take, hcount], rfl⟩
    | reading r => exact ⟨by simp only [take, hcount], rfl⟩
    | noise => exact ⟨by simp only [take, hcount], rfl⟩

/-- `collect` for lines that come later: the number in an error grows by `n`, and the records are
    the same. -/
theorem value_collect_later (lead : List Char) (config : RunConfig) (a : Accumulator) (n : Nat)
    (lines : List (List Char)) :
    (collect lead config (a.later n) lines).value =
      ((collect lead config a lines).value.mapError (Error.later n)).map
        fun (records, last) => (records, last.later n) := by
  induction lines generalizing a with
  | nil => rfl
  | cons line lines ih =>
    obtain ⟨hnext, hfed⟩ := a.feed_later lead config n line
    simp only [collect, Logged.andThen, hnext, hfed, ih]
    cases (a.feed lead config line).2.value with
    | error e => rfl
    | ok closed => cases (collect lead config (a.feed lead config line).1 lines).value <;> rfl

/-! ## Outputs -/

/-- `parse` collects the lines of the output, and what is pending at the end does not count. -/
theorem value_parse (inputDir : String) (config : RunConfig) (output : String) :
    (parse inputDir config output).value =
      (collect (lead inputDir) config {} (Text.lines output.toList)).value.map Prod.fst := by
  simp only [parse, Logged.andThen]
  cases (collect (lead inputDir) config {} (Text.lines output.toList)).value <;> rfl

/-- An output `a` that is empty or ends with a line feed, followed by another one, `b`.  An error in
    `a` is the error of both.  If `a` has no error and leaves nothing pending, then the records of
    both follow each other, and an error in `b` is reported with its line number increased by the
    number of lines of `a`. -/
theorem parse_append (inputDir : String) (config : RunConfig) (a b : String)
    (ha : a = "" ∨ a.toList.getLast? = some '\n') :
    (∀ e, (parse inputDir config a).value = .error e →
        (parse inputDir config (a ++ b)).value = .error e) ∧
      ∀ ra, (parse inputDir config a).value = .ok ra →
        (Accumulator.afterLines (lead inputDir) config {} (Text.lines a.toList)).hasPending = false →
        (∀ rb, (parse inputDir config b).value = .ok rb →
          (parse inputDir config (a ++ b)).value = .ok (ra ++ rb)) ∧
        ∀ e, (parse inputDir config b).value = .error e →
          (parse inputDir config (a ++ b)).value =
            .error { e with lineNo := e.lineNo + (Text.lines a.toList).length } := by
  have hlines : Text.lines (a ++ b).toList = Text.lines a.toList ++ Text.lines b.toList := by
    rw [String.toList_append]
    exact Text.splitLines_append (ha.imp_left (by rintro rfl; rfl)) b.toList
  simp only [value_parse, hlines, value_collect_append]
  constructor
  · intro e he
    cases hfirst : (collect (lead inputDir) config {} (Text.lines a.toList)).value with
    | error e' =>
      rw [hfirst] at he
      exact he
    | ok result => simp [hfirst, Except.map] at he
  · intro ra hra hpending
    obtain ⟨⟨records, middle⟩, hfirst, rfl⟩ : ∃ result,
        (collect (lead inputDir) config {} (Text.lines a.toList)).value = .ok result ∧
          result.1 = ra := by
      cases hfirst : (collect (lead inputDir) config {} (Text.lines a.toList)).value with
      | error e => simp [hfirst, Except.map] at hra
      | ok result => exact ⟨result, rfl, by simpa [hfirst, Except.map] using hra⟩
    -- The second part starts from an accumulator that differs from the first one in its count only.
    have hmiddle : middle = Accumulator.later (Text.lines a.toList).length {} := by
      have hafter := eq_afterLines_of_collect hfirst
      rw [hafter, Accumulator.eq_of_not_pending hpending, Accumulator.lineNo_afterLines]
      rfl
    subst hmiddle
    simp only [hfirst, bind, Except.bind, value_collect_later]
    cases (collect (lead inputDir) config {} (Text.lines b.toList)).value with
    | error e =>
      constructor
      · intro rb hrb
        simp [Except.map] at hrb
      · intro e' he'
        cases he'
        rfl
    | ok result =>
      constructor
      · intro rb hrb
        cases hrb
        rfl
      · intro e he
        simp [Except.map] at he

/-- One result, with two kinds of line endings and an empty line in between. -/
def closedOutput : String :=
  "Mapping circuits/qft.qasm\r\nnSwaps: 3\r\n\n* runtime: 17\r\n"

/-- A result that is not named, in an output that does not end its last line. -/
def unnamedOutput : String := "totalIdleTime: 0.5\n* runtime: 18"

/-- An output with a fault in its second line. -/
def faultyOutput : String := "noise\nnMoves: few\n"

/-- Nothing of `closedOutput` is left in the record of `unnamedOutput`, and the fault of
    `faultyOutput` is found in the sixth line after four other lines, but in the second line if it
    comes first. -/
theorem parse_closedOutput_append :
    (parse "circuits" sampleRun (closedOutput ++ unnamedOutput)).value =
        .ok [.ofRun sampleRun "qft" { swaps := some 3, runtimeMs := some 17 },
          .ofRun sampleRun "<unnamed>"
            { idleTime := some (.ofDecimal false 5 (-1)), runtimeMs := some 18 }] ∧
      (parse "circuits" sampleRun (closedOutput ++ faultyOutput)).value =
        .error ⟨6, .metric (.count .moves), .malformedNumber "few" .integer⟩ ∧
      (parse "circuits" sampleRun (faultyOutput ++ closedOutput)).value =
        .error ⟨2, .metric (.count .moves), .malformedNumber "few" .integer⟩ := by
  have hclosed : (parse "circuits" sampleRun closedOutput).value =
      .ok [.ofRun sampleRun "qft" { swaps := some 3, runtimeMs := some 17 }] := by
    decide +kernel
  have hpending : (Accumulator.afterLines (lead "circuits") sampleRun {}
      (Text.lines closedOutput.toList)).hasPending = false := by
    decide +kernel
  have hunnamed : (parse "circuits" sampleRun unnamedOutput).value =
      .ok [.ofRun sampleRun "<unnamed>"
        { idleTime := some (.ofDecimal false 5 (-1)), runtimeMs := some 18 }] := by
    decide +kernel
  have hfaulty : (parse "circuits" sampleRun faultyOutput).value =
      .error ⟨2, .metric (.count .moves), .malformedNumber "few" .integer⟩ := by
    decide +kernel
  obtain ⟨hrecords, -⟩ :=
    (parse_append "circuits" sampleRun closedOutput unnamedOutput (by decide)).2 _ hclosed hpending
  obtain ⟨-, hshifted⟩ :=
    (parse_append "circuits" sampleRun closedOutput faultyOutput (by decide)).2 _ hclosed hpending
  exact ⟨hrecords _ hunnamed, hshifted _ hfaulty,
    (parse_append "circuits" sampleRun faultyOutput closedOutput (by decide)).1 _ hfaulty⟩

end ToolOutput

end MapperSweep
