import Mathlib.Data.List.Forall2
import MapperSweep.Proofs.ToolOutput.LineClass
import MapperSweep.ToolOutput.Parser

/-!
# Records by segments

The lines of an output are cut after each terminal line.  Every segment gives one record, which is
made from the lines of this segment alone: the last line of each class counts.  What follows the
last terminal line gives nothing.

The accumulator works line by line.  The invariant that ties it to segments is `Pending`: it holds
what the lines since the last terminal line say.

## Key results

- `Pending.take`: what one line does to the pending lines
- `Pending.describes`: the record that a terminal line closes
- `collect_segments`: the records of a sequence of lines, from any pending lines
- `parse_gives_record_per_segment`: the records of a whole output
-/

namespace MapperSweep

open ToolOutput

/-! ## Metrics by name -/

/-- The value of the count `c` in `m`. -/
def Metrics.count (m : Metrics) : Count → Option UInt64
  | .czCount => m.czCount
  | .bridges => m.bridges
  | .swaps => m.swaps
  | .moves => m.moves

/-- The value of the real number `c` in `m`. -/
def Metrics.measure (m : Metrics) : Measure → Option Binary64
  | .gateFidelity => m.gateFidelity
  | .executionTime => m.executionTime
  | .fidelity => m.fidelity
  | .idleTime => m.idleTime

theorem Metrics.count_set_count (m : Metrics) (c d : Count) (n : UInt64) :
    (m.set (.count c n)).count d = if c = d then some n else m.count d := by
  cases c <;> cases d <;> rfl

theorem Metrics.measure_set_measure (m : Metrics) (c d : Measure) (x : Binary64) :
    (m.set (.measure c x)).measure d = if c = d then some x else m.measure d := by
  cases c <;> cases d <;> rfl

@[simp] theorem Metrics.count_set_measure (m : Metrics) (c : Measure) (d : Count) (x : Binary64) :
    (m.set (.measure c x)).count d = m.count d := by
  cases c <;> cases d <;> rfl

@[simp] theorem Metrics.measure_set_count (m : Metrics) (c : Count) (d : Measure) (n : UInt64) :
    (m.set (.count c n)).measure d = m.measure d := by
  cases c <;> cases d <;> rfl

@[simp] theorem Metrics.runtimeMs_set (m : Metrics) (r : Reading) :
    (m.set r).runtimeMs = m.runtimeMs := by
  cases r with
  | count c n => cases c <;> rfl
  | measure c x => cases c <;> rfl

namespace ToolOutput

/-! ## Segments -/

/-- The lines of one result, its `body`, and the `terminal` line that closes it. -/
structure Segment where
  body : List (List Char)
  terminal : List Char

/-- All lines of the segment `s`. -/
def Segment.lines (s : Segment) : List (List Char) := s.body ++ [s.terminal]

/-- `Cut lead lines segments rest` says that `lines` are cut after each terminal line; `rest` are
    the lines after the last one. -/
structure Cut (lead : List Char) (lines : List (List Char)) (segments : List Segment)
    (rest : List (List Char)) : Prop where
  lines_eq : lines = segments.flatMap Segment.lines ++ rest
  terminal : ∀ s ∈ segments, classify lead s.terminal = .terminal
  body : ∀ s ∈ segments, ∀ line ∈ s.body, classify lead line ≠ .terminal
  rest : ∀ line ∈ rest, classify lead line ≠ .terminal

/-- The last one of `lines` with the class `k`. -/
def lastOf (lead : List Char) (k : LineClass) (lines : List (List Char)) : Option (List Char) :=
  (lines.filter fun line => classify lead line = k).getLast?

/-- The measurements `m` are those of the last line for each of them, and each of these lines has a
    number that can be read. -/
structure Measured (lead : List Char) (lines : List (List Char)) (m : Metrics) : Prop where
  counts : ∀ c, (m.count c).map some =
    (lastOf lead (.metric (.count c)) lines).map (numberOn readCount?)
  measures : ∀ c, (m.measure c).map some =
    (lastOf lead (.metric (.measure c)) lines).map (numberOn Binary64.ofText?)

/-- `r` is the record of the segment `s` in the output of the run `config`. -/
structure Describes (lead : List Char) (config : RunConfig) (s : Segment) (r : Record) : Prop where
  benchmark : r.benchmark = ((lastOf lead .mapping s.body).map (nameOn lead)).getD "<unnamed>"
  metrics : Measured lead s.body r.metrics
  runtime : ∃ ms, numberOn readCount? s.terminal = some ms ∧ r.metrics.runtimeMs = some ms
  architecture : r.architecture = config.architecture.kind
  coordinateMapping : r.coordinateMapping = config.coordinateMapping
  runIndex : r.runIndex = config.runIndex
  weights : r.weights = config.weights

/-- The accumulator `a` holds what `lines`, those since the last terminal line, say. -/
structure Pending (lead : List Char) (lines : List (List Char)) (a : Accumulator) : Prop where
  benchmark : a.benchmark = (lastOf lead .mapping lines).map (nameOn lead)
  metrics : Measured lead lines a.metrics
  runtime : a.metrics.runtimeMs = none
  body : ∀ line ∈ lines, classify lead line ≠ .terminal

/-! ## One more line -/

/-- The last `line` is the last of its class, and changes nothing for other classes. -/
theorem lastOf_concat (lead : List Char) (k : LineClass) (lines : List (List Char))
    (line : List Char) :
    lastOf lead k (lines ++ [line]) =
      if classify lead line = k then some line else lastOf lead k lines := by
  by_cases h : classify lead line = k
  · simp [lastOf, h]
  · simp [lastOf, h]

/-- A `line` of another class leaves the measurements as they are. -/
private theorem Measured.concat_of_not_metric {lead : List Char} {lines : List (List Char)}
    {m : Metrics} {line : List Char} (h : Measured lead lines m)
    (hline : ∀ k, classify lead line ≠ .metric k) : Measured lead (lines ++ [line]) m where
  counts c := by rw [lastOf_concat, if_neg (hline _), h.counts]
  measures c := by rw [lastOf_concat, if_neg (hline _), h.measures]

/-- A `line` with a measurement takes the place of earlier ones, as `Metrics.set` does. -/
private theorem Measured.concat_of_reading {lead : List Char} {lines : List (List Char)}
    {m : Metrics} {line : List Char} {r : Reading} (h : Measured lead lines m)
    (hline : (Line.reading r).Fits lead line) : Measured lead (lines ++ [line]) (m.set r) := by
  cases r with
  | count c n =>
    obtain ⟨hclass, hnumber⟩ := hline
    refine ⟨fun d => ?_, fun d => ?_⟩
    · rw [lastOf_concat, hclass, Metrics.count_set_count]
      by_cases hcd : c = d
      · simp [hcd, hnumber]
      · simp [hcd, h.counts]
    · rw [lastOf_concat, hclass, if_neg (by simp), Metrics.measure_set_count, h.measures]
  | measure c x =>
    obtain ⟨hclass, hnumber⟩ := hline
    refine ⟨fun d => ?_, fun d => ?_⟩
    · rw [lastOf_concat, hclass, if_neg (by simp), Metrics.count_set_measure, h.counts]
    · rw [lastOf_concat, hclass, Metrics.measure_set_measure]
      by_cases hcd : c = d
      · simp [hcd, hnumber]
      · simp [hcd, h.measures]

/-- At the start, and after each terminal line, nothing is pending. -/
theorem pending_nil (lead : List Char) (lineNo : Nat) : Pending lead [] { lineNo } where
  benchmark := rfl
  metrics := ⟨fun c => by cases c <;> rfl, fun c => by cases c <;> rfl⟩
  runtime := rfl
  body := by simp

/-- The number of lines that were fed is of no concern to `Pending`. -/
theorem Pending.with_lineNo {lead : List Char} {lines : List (List Char)} {a : Accumulator}
    (h : Pending lead lines a) (lineNo : Nat) : Pending lead lines { a with lineNo } :=
  ⟨h.benchmark, h.metrics, h.runtime, h.body⟩

/-- A `line` that closes no result is one more pending line. -/
theorem Pending.take {lead : List Char} {lines : List (List Char)} {a : Accumulator}
    {line : List Char} {content : Line} (h : Pending lead lines a) (hline : content.Fits lead line)
    (hopen : classify lead line ≠ .terminal) (config : RunConfig) :
    Pending lead (lines ++ [line]) (a.take config content).1 ∧
      (a.take config content).2.value = none := by
  have hbody : ∀ l ∈ lines ++ [line], classify lead l ≠ .terminal := by
    intro l hl
    rw [List.mem_append, List.mem_singleton] at hl
    rcases hl with hl | rfl
    · exact h.body l hl
    · exact hopen
  -- A benchmark changes the name, a reading changes one measurement, and noise changes nothing.
  cases content with
  | benchmark name =>
    obtain ⟨hclass, rfl⟩ := hline
    refine ⟨⟨?_, h.metrics.concat_of_not_metric (by simp [hclass]), h.runtime, hbody⟩, rfl⟩
    rw [lastOf_concat, if_pos hclass]
    rfl
  | reading r =>
    refine ⟨⟨?_, h.metrics.concat_of_reading hline, ?_, hbody⟩, rfl⟩
    · have hclass : classify lead line ≠ .mapping := by
        cases r <;> simp [hline.1]
      rw [lastOf_concat, if_neg hclass]
      exact h.benchmark
    · rw [← h.runtime]
      exact Metrics.runtimeMs_set a.metrics r
  | runtime ms => exact absurd hline.1 hopen
  | noise =>
    have hclass : classify lead line = .noise := hline
    refine ⟨⟨?_, h.metrics.concat_of_not_metric (by simp [hclass]), h.runtime, hbody⟩, rfl⟩
    rw [lastOf_concat, if_neg (by simp [hclass])]
    exact h.benchmark

/-- A terminal `line` closes the record that `Describes` the pending lines, and then nothing is
    pending. -/
theorem Pending.describes {lead : List Char} {lines : List (List Char)} {a : Accumulator}
    {line : List Char} {ms : UInt64} (h : Pending lead lines a)
    (hline : (Line.runtime ms).Fits lead line) (config : RunConfig) :
    (a.take config (.runtime ms)).1 = { lineNo := a.lineNo } ∧
      ∃ r, (a.take config (.runtime ms)).2.value = some r ∧
        Describes lead config ⟨lines, line⟩ r := by
  refine ⟨rfl, .ofRun config (a.benchmark.getD "<unnamed>")
    { a.metrics with runtimeMs := some ms }, ?_, ?_⟩
  · cases hbenchmark : a.benchmark with
    | none => simp [Accumulator.take, hbenchmark, unnamedBenchmark]
    | some name => simp [Accumulator.take, hbenchmark]
  · refine ⟨?_, ⟨?_, ?_⟩, ⟨ms, hline.2, rfl⟩, rfl, rfl, rfl, rfl⟩
    · rw [← h.benchmark]
      rfl
    · intro c
      rw [← h.metrics.counts c]
      cases c <;> rfl
    · intro c
      rw [← h.metrics.measures c]
      cases c <;> rfl

/-! ## All lines -/

/-- `collect` reads a line first, takes in what it says, and then the other lines follow. -/
theorem collect_cons_eq_ok {lead : List Char} {config : RunConfig} {a last : Accumulator}
    {line : List Char} {lines : List (List Char)} {records : List Record}
    (h : (collect lead config a (line :: lines)).value = .ok (records, last)) :
    ∃ content more, readLine lead line = .ok content ∧
      (collect lead config
        (Accumulator.take config { a with lineNo := a.lineNo + 1 } content).1 lines).value =
          .ok (more, last) ∧
      records =
        (Accumulator.take config { a with lineNo := a.lineNo + 1 } content).2.value.toList ++
          more := by
  simp only [collect, Accumulator.feed, Logged.andThen] at h
  -- A line that cannot be read ends everything with an error.
  cases hread : readLine lead line with
  | error e =>
    simp only [hread, Logged.value_pure] at h
    cases h
  | ok content =>
    simp only [hread, Logged.value_map] at h
    cases hmore : (collect lead config
        (Accumulator.take config { a with lineNo := a.lineNo + 1 } content).1 lines).value with
    | error e =>
      simp only [hmore, Logged.value_pure] at h
      cases h
    | ok result =>
      obtain ⟨more, last'⟩ := result
      simp only [hmore, Logged.value_pure, Except.ok.injEq, Prod.mk.injEq] at h
      obtain ⟨rfl, rfl⟩ := h
      exact ⟨content, more, rfl, hmore, rfl⟩

/-- `collect` gives the records of the segments of `lines`, where the `pending` lines belong to the
    first one. -/
theorem collect_segments {lead : List Char} {config : RunConfig} {a last : Accumulator}
    {pending lines : List (List Char)} {records : List Record} (hpending : Pending lead pending a)
    (h : (collect lead config a lines).value = .ok (records, last)) :
    ∃ segments rest, Cut lead (pending ++ lines) segments rest ∧
      List.Forall₂ (Describes lead config) segments records ∧ Pending lead rest last := by
  -- The pending lines grow with every line that closes nothing, so they are generalized too.
  induction lines generalizing a pending records with
  | nil =>
    simp only [collect, Logged.value_pure, Except.ok.injEq, Prod.mk.injEq] at h
    obtain ⟨rfl, rfl⟩ := h
    exact ⟨[], pending, ⟨by simp, by simp, by simp, hpending.body⟩, .nil, hpending⟩
  | cons line lines ih =>
    obtain ⟨content, more, hread, hmore, rfl⟩ := collect_cons_eq_ok h
    have hfits := readLine_eq_ok_iff.1 hread
    have hcounted := hpending.with_lineNo (a.lineNo + 1)
    by_cases hterminal : classify lead line = .terminal
    · -- The line closes a segment, and the next one begins with no pending lines.
      obtain ⟨ms, rfl⟩ : ∃ ms, content = .runtime ms := by
        cases content with
        | runtime ms => exact ⟨ms, rfl⟩
        | reading r => cases r <;> simp [Line.Fits, hterminal] at hfits
        | _ => simp [Line.Fits, hterminal] at hfits
      obtain ⟨hnext, r, hr, hdescribes⟩ := hcounted.describes hfits config
      rw [hnext] at hmore
      obtain ⟨segments, rest, hcut, hall, hlast⟩ := ih (pending_nil lead _) hmore
      rw [List.nil_append] at hcut
      refine ⟨⟨pending, line⟩ :: segments, rest, ⟨?_, ?_, ?_, hcut.rest⟩, ?_, hlast⟩
      · rw [hcut.lines_eq]
        simp [Segment.lines]
      · simpa [hterminal] using hcut.terminal
      · simpa [hpending.body] using ⟨hpending.body, hcut.body⟩
      · rw [hr]
        exact .cons hdescribes hall
    · obtain ⟨hnext, hnone⟩ := hcounted.take hfits hterminal config
      obtain ⟨segments, rest, hcut, hall, hlast⟩ := ih hnext hmore
      rw [List.append_assoc, List.singleton_append] at hcut
      refine ⟨segments, rest, hcut, ?_, hlast⟩
      rw [hnone]
      exact hall

/-- The records that `parse` gives are those that `collect` gives for the lines. -/
theorem collect_of_parse {inputDir : String} {config : RunConfig} {output : String}
    {records : List Record} (h : (parse inputDir config output).value = .ok records) :
    ∃ last, (collect (lead inputDir) config {} (Text.lines output.toList)).value =
      .ok (records, last) := by
  simp only [parse, Logged.andThen] at h
  cases hcollect : (collect (lead inputDir) config {} (Text.lines output.toList)).value with
  | error e =>
    simp only [hcollect, Logged.value_pure] at h
    cases h
  | ok result =>
    simp only [hcollect, Except.ok.injEq] at h
    exact ⟨result.2, by rw [← h]⟩

/-- If an output can be read, `parse` gives one record per terminal line, in order: the record of
    the segment that the line closes.  What follows the last terminal line contributes nothing. -/
theorem parse_gives_record_per_segment (inputDir : String) (config : RunConfig) (output : String)
    (records : List Record) (h : (parse inputDir config output).value = .ok records) :
    ∃ segments rest, Cut (lead inputDir) (Text.lines output.toList) segments rest ∧
      List.Forall₂ (Describes (lead inputDir) config) segments records := by
  simp only [parse, Logged.andThen] at h
  cases hcollect : (collect (lead inputDir) config {} (Text.lines output.toList)).value with
  | error e => simp only [hcollect, Logged.value_pure] at h; exact nomatch h
  | ok result =>
    obtain ⟨collected, last⟩ := result
    simp only [hcollect, Except.ok.injEq] at h
    subst h
    obtain ⟨segments, rest, hcut, hall, _⟩ := collect_segments (pending_nil _ 0) hcollect
    exact ⟨segments, rest, by simpa using hcut, hall⟩

/-- The run whose output `sampleOutput` is. -/
def sampleRun : RunConfig where
  runIndex := 4
  architecture := ⟨.hybrid, "hybrid.json"⟩
  coordinateMapping := .graph
  circuitMapping := "identity"
  weights := ⟨.ofNat 1, .ofNat 0⟩
  parameters := {}

/-- Two results, of which the first is named twice and measured twice, and the second is not named
    at all; the last lines are not closed. -/
def sampleOutput : String :=
  "Mapping circuits/qft.qasm\nnSwaps: 3\nMapping circuits/ghz\nlayer 2 nSwaps: at: 4 \n" ++
  "* runtime: 17\nnoise\ntotalIdleTime: 0.5\n* runtime: 18\nnMoves: 7\n"

/-- The records of the two results in `sampleOutput`. -/
def sampleRecords : List Record :=
  [.ofRun sampleRun "ghz" { swaps := some 4, runtimeMs := some 17 },
    .ofRun sampleRun "<unnamed>"
      { idleTime := some (.ofDecimal false 5 (-1)), runtimeMs := some 18 }]

/-- In `sampleOutput` nothing of the first result is left in the record of the second one. -/
theorem parse_sampleOutput :
    (parse "circuits/" sampleRun sampleOutput).value = .ok sampleRecords ∧
      ∃ segments rest, Cut (lead "circuits/") (Text.lines sampleOutput.toList) segments rest ∧
        List.Forall₂ (Describes (lead "circuits/") sampleRun) segments sampleRecords := by
  have hparse : (parse "circuits/" sampleRun sampleOutput).value = .ok sampleRecords := by
    decide +kernel
  exact ⟨hparse, parse_gives_record_per_segment _ _ _ _ hparse⟩

end ToolOutput

end MapperSweep
