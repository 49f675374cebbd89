import MapperSweep.Proofs.Text
import MapperSweep.ToolOutput.Line

/-!
# Classes of lines

The rule by which a line of tool output is read, as a classification by the first match, and the
value that a line of each class holds.  `readLine_eq_ok_iff` says that reading a line does exactly
this, so nothing else has to look into how lines are searched.
-/

namespace MapperSweep.ToolOutput

/-- What a line is, before its value is looked at, see `classify`. -/
inductive LineClass where
  /-- It starts with the lead of lines that name a benchmark. -/
  | mapping
  | metric (m : Metric)
  | terminal
  | noise
deriving DecidableEq

/-- The class of `line`, by the first match: the `lead`, then the markers of the metrics in the
    order of `Metric.all`, then the marker of the runtime. -/
def classify (lead line : List Char) : LineClass :=
  if lead <+: line then .mapping
  else match Metric.all.find? fun m => m.marker.toList <:+: line with
    | some m => .metric m
    | none => if Marker.runtime.text.toList <:+: line then .terminal else .noise

/-- The benchmark that `line` names: what follows the `lead`, up to the first extension of circuit
    files, or all of it. -/
def nameOn (lead line : List Char) : String :=
  let path := line.drop lead.length
  String.ofList (path.take (path.tails.findIdx fun tail => ".qasm".toList.isPrefixOf tail))

/-- The number on `line`: what `read` makes of the text after the last colon, without the blanks
    around it. -/
def numberOn (read : List Char → Option α) (line : List Char) : Option α :=
  if ':' ∈ line then read (Text.trim (line.rtakeWhile (· != ':'))) else none

/-- `content.Fits lead line` says that the content is what the class of `line` calls for. -/
def Line.Fits (lead line : List Char) : Line → Prop
  | .benchmark name => classify lead line = .mapping ∧ name = nameOn lead line
  | .reading (.count c n) =>
    classify lead line = .metric (.count c) ∧ numberOn readCount? line = some n
  | .reading (.measure m x) =>
    classify lead line = .metric (.measure m) ∧ numberOn Binary64.ofText? line = some x
  | .runtime ms => classify lead line = .terminal ∧ numberOn readCount? line = some ms
  | .noise => classify lead line = .noise

/-! ## Reading by class -/

/-- `readValue` gives a value exactly when there is a number after the last colon, see
    `numberOn`. -/
theorem readValue_eq_ok_iff {read : List Char → Option α} {expected : NumberKind}
    {line : List Char} {x : α} :
    readValue read expected line = .ok x ↔ numberOn read line = some x := by
  by_cases hcolon : ':' ∈ line
  · simp only [readValue, Text.afterLast?_eq_rtakeWhile hcolon, numberOn, if_pos hcolon]
    cases read (Text.trim (line.rtakeWhile (· != ':'))) <;> simp
  · simp [readValue, Text.afterLast?_eq_none_iff.2 hcolon, numberOn, hcolon]

private theorem mapError_eq_ok_iff {f : ε → ε'} {e : Except ε α} {x : α} :
    e.mapError f = .ok x ↔ e = .ok x := by
  cases e <;> simp [Except.mapError]

private theorem map_eq_ok_iff {f : α → β} {e : Except ε α} {y : β} :
    e.map f = .ok y ↔ ∃ x, e = .ok x ∧ f x = y := by
  cases e <;> simp [Except.map]

/-- The class of a line that a search for the markers calls for, if it found the given one. -/
private def classOf : Option Marker → LineClass
  | some (.metric m) => .metric m
  | some .runtime => .terminal
  | none => .noise

/-- A line without the `lead` has the class of the first marker in it. -/
private theorem classify_without_lead {lead line : List Char} (h : ¬lead <+: line) :
    classify lead line = classOf (Marker.all.find? (·.marks line)) := by
  have hmarks : ∀ m : Marker, m.marks line = decide (m.text.toList <:+: line) := by
    intro m
    rw [Bool.eq_iff_iff, Marker.marks, Text.contains_iff, decide_eq_true_iff]
  rw [classify, if_neg h, Marker.all, List.find?_append, List.find?_map]
  simp only [Function.comp_def, hmarks]
  have htext : ∀ m, (Marker.metric m).text = m.marker := fun _ => rfl
  simp only [htext]
  cases Metric.all.find? fun m => decide (m.marker.toList <:+: line) with
  | some m => rfl
  | none =>
    by_cases hterminal : Marker.runtime.text.toList <:+: line
    · simp [hterminal, classOf]
    · simp [hterminal, classOf]

/-- `readLine` gives exactly the content that `Fits` the line. -/
theorem readLine_eq_ok_iff {lead line : List Char} {content : Line} :
    readLine lead line = .ok content ↔ content.Fits lead line := by
  by_cases hlead : lead <+: line
  · -- The line names a benchmark, whatever else is in it.
    obtain ⟨path, rfl⟩ := hlead
    have hclass : classify lead (lead ++ path) = .mapping := by
      rw [classify, if_pos (List.prefix_append lead path)]
    have hname : benchmarkName path = nameOn lead (lead ++ path) := by
      rw [benchmarkName, Text.upTo_eq_take, nameOn, List.drop_left]
    simp only [readLine, Text.stripStart?_eq_some.2 rfl, hname, Except.ok.injEq]
    cases content with
    | benchmark name => simp [Line.Fits, hclass, eq_comm]
    | reading r => cases r <;> simp [Line.Fits, hclass]
    | runtime ms => simp [Line.Fits, hclass]
    | noise => simp [Line.Fits, hclass]
  -- Otherwise the first marker decides.
  · have hclass := classify_without_lead hlead
    simp only [readLine, Text.stripStart?_eq_none_iff.2 hlead]
    cases hfind : Marker.all.find? (·.marks line) with
    | none =>
      rw [hfind] at hclass
      cases content with
      | reading r => cases r <;> simp [Line.Fits, hclass, classOf]
      | _ => simp [Line.Fits, hclass, classOf]
    | some m =>
      rw [hfind] at hclass
      simp only [mapError_eq_ok_iff]
      -- The marker decides which number is read, and so which content can fit.
      cases m with
      | runtime =>
        simp only [readMarked, map_eq_ok_iff, readValue_eq_ok_iff]
        cases content with
        | reading r => cases r <;> simp [Line.Fits, hclass, classOf]
        | _ => simp [Line.Fits, hclass, classOf]
      | metric m =>
        cases m with
        | count c =>
          simp only [readMarked, map_eq_ok_iff, readValue_eq_ok_iff]
          cases content with
          | reading r => cases r <;> simp [Line.Fits, hclass, classOf, and_comm]
          | _ => simp [Line.Fits, hclass, classOf]
        | measure m =>
          simp only [readMarked, map_eq_ok_iff, readValue_eq_ok_iff]
          cases content with
          | reading r => cases r <;> simp [Line.Fits, hclass, classOf, and_comm]
          | _ => simp [Line.Fits, hclass, classOf]

end MapperSweep.ToolOutput
