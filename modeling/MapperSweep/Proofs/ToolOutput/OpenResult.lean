import MapperSweep.Proofs.ToolOutput.Concatenation
import MapperSweep.Proofs.ToolOutput.Feeding

/-!
# The open result

Between two lines the accumulator holds what was collected for the next result.  It is said here
from the lines alone when this is anything at all: one of the lines since the last one that closed a
result names a benchmark, or holds a measurement that can be read.  Refused lines may stand anywhere
in between.

## Key results

- `Metrics.isEmpty_eq_numEq`: a measurement that is not a number is still a measurement
- `Accumulator.hasPending_feed`, `Accumulator.runtimeMs_feed`: what one line does
- `getElem?_feedAll`, `hasPending_afterLines`: what all lines do
- `pending_iff_contribution_since_last_record`: when a result is open
-/

namespace MapperSweep

open ToolOutput

/-! ## Metrics without a value -/

/-- Compares two measurements, of which each may be missing, by their numbers.  What is not a number
    differs from everything, even from itself, see `Binary64.numEq`. -/
def Metrics.sameMeasure : Option Binary64 → Option Binary64 → Bool
  | some x, some y => x.numEq y
  | none, none => true
  | _, _ => false

/-- Compares all measurements of `m` and `n` by their numbers. -/
def Metrics.numEq (m n : Metrics) : Bool :=
  m.swaps == n.swaps && m.bridges == n.bridges && m.moves == n.moves && m.czCount == n.czCount &&
    sameMeasure m.executionTime n.executionTime && sameMeasure m.idleTime n.idleTime &&
    sameMeasure m.gateFidelity n.gateFidelity && sameMeasure m.fidelity n.fidelity &&
    m.runtimeMs == n.runtimeMs

/-- `isEmpty` is the same question for both comparisons: only missing measurements are compared with
    missing ones. -/
theorem Metrics.isEmpty_eq_numEq (m : Metrics) : m.isEmpty = m.numEq {} := by
  have hmissing : ∀ x : Option Binary64, sameMeasure x none = decide (x = none) := by
    intro x
    cases x <;> rfl
  obtain ⟨⟩ := m
  rw [Bool.eq_iff_iff]
  simp [isEmpty, numEq, hmissing, and_assoc]

/-- Whatever reading `r` is set is there afterwards. -/
theorem Metrics.isEmpty_set (m : Metrics) (r : Reading) : (m.set r).isEmpty = false := by
  cases r with
  | count c n => cases c <;> simp [isEmpty, set]
  | measure c x => cases c <;> simp [isEmpty, set]

namespace ToolOutput

/-! ## Lines that open and close a result -/

/-- `m.isReadOn line` holds if the number of the measurement can be read on `line`.  What is not a
    number can be read too. -/
def Metric.isReadOn (line : List Char) : Metric → Bool
  | .count _ => (numberOn readCount? line).isSome
  | .measure _ => (numberOn Binary64.ofText? line).isSome

/-- `contributes lead line` holds if the line adds to the open result: it names a benchmark, or
    holds a measurement. -/
def contributes (lead line : List Char) : Bool :=
  match classify lead line with
  | .mapping => true
  | .metric m => m.isReadOn line
  | .terminal => false
  | .noise => false

/-- `closes lead line` holds if the line closes the open result: it holds the runtime. -/
def closes (lead line : List Char) : Bool :=
  match classify lead line with
  | .terminal => (numberOn readCount? line).isSome
  | _ => false

/-- The lines since the last one that `closes` a result, or all lines if none does. -/
def sinceLastRecord (lead : List Char) (lines : List (List Char)) : List (List Char) :=
  lines.rtakeWhile fun line => !closes lead line

/-- The record that the reply `r` comes with, if any. -/
def Reply.record? (r : Reply) : Option Record :=
  match r.answer.value with
  | .ok closed => closed
  | .error _ => none

/-- `content.isEntry` holds if what a line says adds to the open result. -/
private def Line.isEntry : Line → Bool
  | .benchmark _ => true
  | .reading _ => true
  | .runtime _ => false
  | .noise => false

/-- `content.isRuntime` holds if what a line says closes the open result. -/
private def Line.isRuntime : Line → Bool
  | .runtime _ => true
  | _ => false

/-- Whether a line that can be read `contributes` or `closes` is known from its content. -/
private theorem contributes_of_fits {lead line : List Char} {content : Line}
    (h : content.Fits lead line) :
    contributes lead line = content.isEntry ∧ closes lead line = content.isRuntime := by
  cases content with
  | benchmark name => simp [contributes, closes, h.1, Line.isEntry, Line.isRuntime]
  | reading r =>
    cases r with
    | count c n =>
      simp [contributes, closes, h.1, h.2, Metric.isReadOn, Line.isEntry, Line.isRuntime]
    | measure c x =>
      simp [contributes, closes, h.1, h.2, Metric.isReadOn, Line.isEntry, Line.isRuntime]
  | runtime ms => simp [contributes, closes, h.1, h.2, Line.isEntry, Line.isRuntime]
  | noise =>
    have hclass : classify lead line = .noise := h
    simp [contributes, closes, hclass, Line.isEntry, Line.isRuntime]

/-- A line that cannot be read neither `contributes` to a result nor `closes` it. -/
private theorem contributes_of_error {lead line : List Char} {e : Marker × Fault}
    (h : readLine lead line = .error e) :
    contributes lead line = false ∧ closes lead line = false := by
  have hnone : ∀ content : Line, ¬content.Fits lead line := by
    intro content hfits
    rw [readLine_eq_ok_iff.2 hfits] at h
    cases h
  -- Of each class that calls for a number, one that stood on the line would fit.
  cases hclass : classify lead line with
  | mapping => exact absurd ⟨hclass, rfl⟩ (hnone (.benchmark (nameOn lead line)))
  | metric m =>
    refine ⟨?_, by simp [closes, hclass]⟩
    cases m with
    | count c =>
      cases hnumber : numberOn readCount? line with
      | none => simp [contributes, hclass, Metric.isReadOn, hnumber]
      | some n => exact absurd ⟨hclass, hnumber⟩ (hnone (.reading (.count c n)))
    | measure c =>
      cases hnumber : numberOn Binary64.ofText? line with
      | none => simp [contributes, hclass, Metric.isReadOn, hnumber]
      | some x => exact absurd ⟨hclass, hnumber⟩ (hnone (.reading (.measure c x)))
  | terminal =>
    refine ⟨by simp [contributes, hclass], ?_⟩
    cases hnumber : numberOn readCount? line with
    | none => simp [closes, hclass, hnumber]
    | some ms => exact absurd ⟨hclass, hnumber⟩ (hnone (.runtime ms))
  | noise => exact ⟨by simp [contributes, hclass], by simp [closes, hclass]⟩

/-! ## One line -/

namespace Accumulator

/-- A result is open after a line that `contributes` to it, and stays open until a line `closes`
    it. -/
theorem hasPending_feed (lead : List Char) (config : RunConfig) (a : Accumulator)
    (line : List Char) :
    (a.feed lead config line).1.hasPending =
      (contributes lead line || (a.hasPending && !closes lead line)) := by
  cases hread : readLine lead line with
  | error e =>
    obtain ⟨hcontributes, hcloses⟩ := contributes_of_error hread
    rw [feed_of_error hread, hcontributes, hcloses]
    simp [hasPending]
  | ok content =>
    obtain ⟨hcontributes, hcloses⟩ := contributes_of_fits (readLine_eq_ok_iff.1 hread)
    simp only [feed, hread, hcontributes, hcloses]
    cases content with
    | benchmark name => simp [take, hasPending, Line.isEntry]
    | reading r => simp [take, hasPending, Line.isEntry, Metrics.isEmpty_set]
    | runtime ms => simp [take, hasPending, Line.isEntry, Line.isRuntime, Metrics.isEmpty]
    | noise => simp [take, hasPending, Line.isEntry, Line.isRuntime]

/-- The runtime is given away with the record that it closes, so `feed` keeps none. -/
theorem runtimeMs_feed {a : Accumulator} (h : a.metrics.runtimeMs = none) (lead : List Char)
    (config : RunConfig) (line : List Char) :
    (a.feed lead config line).1.metrics.runtimeMs = none := by
  cases hread : readLine lead line with
  | error e => rw [feed_of_error hread, h]
  | ok content =>
    simp only [feed, hread]
    cases content with
    | reading r => simpa [take] using h
    | benchmark name => exact h
    | runtime ms => rfl
    | noise => exact h

/-- The last `line` is fed after all others. -/
theorem afterLines_concat (lead : List Char) (config : RunConfig) (a : Accumulator)
    (lines : List (List Char)) (line : List Char) :
    a.afterLines lead config (lines ++ [line]) =
      ((a.afterLines lead config lines).feed lead config line).1 := by
  simp [afterLines]

end Accumulator

/-- A reply comes with a record exactly if the line `closes` one.  Of the lines that name a
    benchmark or have the marker of a measurement, those that are not refused add to the open
    result. -/
theorem reply_by_line (lead : List Char) (config : RunConfig) (a : Accumulator)
    (line : List Char) :
    (reply lead config a line).record?.isSome = closes lead line ∧
      (contributes lead line = true ↔
        (classify lead line = .mapping ∨ ∃ m, classify lead line = .metric m) ∧
          (reply lead config a line).isRefusal = false) := by
  -- A line that is read is refused by nobody, so only its content counts.
  cases hread : readLine lead line with
  | error e =>
    obtain ⟨hcontributes, hcloses⟩ := contributes_of_error hread
    simp [reply, Accumulator.feed, hread, Reply.record?, Reply.isRefusal, hcontributes, hcloses]
  | ok content =>
    have hfits := readLine_eq_ok_iff.1 hread
    obtain ⟨hcontributes, hcloses⟩ := contributes_of_fits hfits
    simp only [reply, Accumulator.feed, hread, Reply.record?, Reply.isRefusal, hcontributes,
      hcloses, Logged.value_map]
    cases content with
    | benchmark name => simp [Accumulator.take, Line.isEntry, Line.isRuntime, hfits.1]
    | reading r =>
      have hclass : ∃ m, classify lead line = .metric m := by
        cases r with
        | count c n => exact ⟨_, hfits.1⟩
        | measure c x => exact ⟨_, hfits.1⟩
      simp [Accumulator.take, Line.isEntry, Line.isRuntime, hclass]
    | runtime ms =>
      have hclass : classify lead line = .terminal := hfits.1
      cases a.benchmark <;> simp [Accumulator.take, Line.isEntry, Line.isRuntime, hclass]
    | noise =>
      have hclass : classify lead line = .noise := hfits
      simp [Accumulator.take, Line.isEntry, Line.isRuntime, hclass]

/-! ## All lines -/

/-- No one of `lines` leaves a runtime behind. -/
theorem runtimeMs_afterLines (lead : List Char) (config : RunConfig) (lines : List (List Char)) :
    (Accumulator.afterLines lead config {} lines).metrics.runtimeMs = none := by
  induction lines using List.reverseRecOn with
  | nil => rfl
  | append_singleton lines line ih =>
    rw [Accumulator.afterLines_concat]
    exact Accumulator.runtimeMs_feed ih lead config line

/-- A line that `closes` a result is the last one that did. -/
private theorem sinceLastRecord_concat (lead : List Char) (lines : List (List Char))
    (line : List Char) :
    sinceLastRecord lead (lines ++ [line]) =
      if closes lead line then [] else sinceLastRecord lead lines ++ [line] := by
  unfold sinceLastRecord
  cases hcloses : closes lead line with
  | true => exact List.rtakeWhile_concat_neg _ lines line (by simp [hcloses])
  | false => exact List.rtakeWhile_concat_pos _ lines line (by simp [hcloses])

theorem contributes_of_closes {lead line : List Char} (h : closes lead line = true) :
    contributes lead line = false := by
  unfold closes at h
  cases hclass : classify lead line with
  | terminal => simp [contributes, hclass]
  | _ => simp [hclass] at h

/-- A result is open if one of the lines since the last closed one `contributes` to it. -/
theorem hasPending_afterLines (lead : List Char) (config : RunConfig) (lines : List (List Char)) :
    (Accumulator.afterLines lead config {} lines).hasPending =
      (sinceLastRecord lead lines).any (contributes lead) := by
  -- Both sides look at the last line first, so the induction is from the end.
  induction lines using List.reverseRecOn with
  | nil => rfl
  | append_singleton lines line ih =>
    rw [Accumulator.afterLines_concat, Accumulator.hasPending_feed, ih, sinceLastRecord_concat]
    cases hcloses : closes lead line with
    | true => simp [contributes_of_closes hcloses]
    | false => simp [Bool.or_comm]

/-- The reply to line `i` depends on the line and on what the lines before it left. -/
theorem getElem?_feedAll (lead : List Char) (config : RunConfig) (a : Accumulator)
    (lines : List (List Char)) (i : Nat) :
    (feedAll lead config a lines)[i]? =
      lines[i]?.map (reply lead config (a.afterLines lead config (lines.take i))) := by
  induction lines generalizing a i with
  | nil => rfl
  | cons line lines ih =>
    cases i with
    | zero => rfl
    | succ i => exact ih (reply lead config a line).left i

/-- Lines are fed one after the other, whether they are refused or not.  Afterwards a result is open
    exactly if one of the lines since the last record names a benchmark, or has the marker of a
    measurement and is not refused; it does not matter whether the measurement is a number.  The
    runtime of an open result is missing after every line.  Whether anything was measured may as
    well be found out by comparing numbers, where what is not a number differs from itself. -/
theorem pending_iff_contribution_since_last_record (lead : List Char) (config : RunConfig)
    (lines : List (List Char)) :
    ((Accumulator.afterLines lead config {} lines).hasPending = true ↔
        ∃ line ∈ sinceLastRecord lead lines, contributes lead line = true) ∧
      (∀ (i : Nat) line r, lines[i]? = some line → (feedAll lead config {} lines)[i]? = some r →
        r.record?.isSome = closes lead line ∧
          (contributes lead line = true ↔
            (classify lead line = .mapping ∨ ∃ m, classify lead line = .metric m) ∧
              r.isRefusal = false)) ∧
      (∀ n, (Accumulator.afterLines lead config {} (lines.take n)).metrics.runtimeMs = none) ∧
      ∀ a : Accumulator, a.hasPending = (a.benchmark.isSome || !a.metrics.numEq {}) := by
  refine ⟨?_, ?_, ?_, ?_⟩
  · rw [hasPending_afterLines, List.any_eq_true]
  · intro i line r hline hr
    rw [getElem?_feedAll, hline, Option.map_some, Option.some.injEq] at hr
    rw [← hr]
    exact reply_by_line lead config _ line
  · intro n
    exact runtimeMs_afterLines lead config (lines.take n)
  · intro a
    rw [Accumulator.hasPending, Metrics.isEmpty_eq_numEq]

/-- Two results are closed, then a fidelity is read that is not a number, and two lines are
    refused. -/
def undefinedLines : List (List Char) :=
  ["nSwaps: 3", "* runtime: 5", "* runtime: 6", "totalFidelities: NaN", "nMoves: few",
    "* runtime: soon"].map String.toList

/-- In `undefinedLines` the fidelity opens a result, and the refused lines leave it open. -/
theorem open_after_undefinedLines :
    sinceLastRecord (lead "circuits") undefinedLines = undefinedLines.drop 3 ∧
      (Accumulator.afterLines (lead "circuits") sampleRun {} undefinedLines).hasPending = true ∧
      ∃ r, (feedAll (lead "circuits") sampleRun {} undefinedLines)[2]? = some r ∧
        r.record?.isSome = true := by
  obtain ⟨hpending, hreplies, -, -⟩ :=
    pending_iff_contribution_since_last_record (lead "circuits") sampleRun undefinedLines
  refine ⟨by decide +kernel, hpending.2 ?_, _, rfl, ?_⟩
  · exact ⟨"totalFidelities: NaN".toList, by decide +kernel, by decide +kernel⟩
  · rw [(hreplies 2 _ _ rfl rfl).1]
    decide +kernel

end ToolOutput

end MapperSweep
