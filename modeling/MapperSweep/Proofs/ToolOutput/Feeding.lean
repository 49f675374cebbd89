import MapperSweep.Proofs.ToolOutput.Faults

/-!
# Going on after faulty lines

An accumulator can be fed further after it has refused a line.  A refused line is counted and has no
other effect, so everything goes on as if an empty line had been fed in its place.  To say this, two
runs are compared: one over the lines as they are, and one over the same lines where some of those
that were refused are left empty.

## Key results

- `Accumulator.feed_of_refused`, `Accumulator.feed_nil`: a refused line, and an empty one
- `reply_nil_of_isRefusal`: one line of the two runs
- `feedAll_blankRefused`: the replies in the two runs
- `refused_lines_pass_as_empty`: refused lines have no effect on the others
-/

namespace MapperSweep.ToolOutput

/-! ## One line -/

namespace Accumulator

/-- A line that `feed` refuses is counted, and nothing else changes. -/
theorem feed_of_refused {lead line : List Char} {config : RunConfig} {a : Accumulator} {e : Error}
    (h : (a.feed lead config line).2.value = .error e) :
    a.feed lead config line = ({ a with lineNo := a.lineNo + 1 }, pure (.error e)) := by
  -- Only a line that cannot be read is refused.
  have hread : readLine lead line = .error (e.marker, e.fault) :=
    readLine_eq_error_iff.2 (feed_eq_error_iff.1 h).1
  refine Prod.ext (feed_of_error hread) ?_
  simp only [feed, hread, Logged.value_pure] at h ⊢
  rw [h]

/-- An empty line is counted by `feed`, and says nothing: every lead and every marker is longer. -/
theorem feed_nil (inputDir : String) (config : RunConfig) (a : Accumulator) :
    a.feed (lead inputDir) config [] = ({ a with lineNo := a.lineNo + 1 }, pure (.ok none)) := by
  have hne : lead inputDir ≠ [] := List.append_ne_nil_of_right_ne_nil _ (List.cons_ne_nil _ _)
  have hlead : Text.stripStart? (lead inputDir) [] = none :=
    Text.stripStart?_eq_none_iff.2 (mt List.prefix_nil.1 hne)
  have hmarker : Marker.all.find? (·.marks []) = none := by decide
  have hread : readLine (lead inputDir) [] = .ok .noise := by
    simp only [readLine, hlead, hmarker]
  simp only [feed, hread]
  rfl

end Accumulator

/-! ## All lines -/

/-- What an accumulator answers to a line, and how it is `left`. -/
structure Reply where
  answer : Logged (Except Error (Option Record))
  left : Accumulator

namespace Reply

/-- `r.isRefusal` holds if the line is refused. -/
def isRefusal (r : Reply) : Bool :=
  match r.answer.value with
  | .error _ => true
  | .ok _ => false

/-- The reply `r` as it would be to an empty line that leaves the accumulator in the same way. -/
def blanked (r : Reply) : Reply := { r with answer := pure (.ok none) }

end Reply

/-- The reply of the accumulator `a` to one `line`. -/
def reply (lead : List Char) (config : RunConfig) (a : Accumulator) (line : List Char) : Reply :=
  let (left, answer) := a.feed lead config line
  { answer, left }

/-- The replies to all lines, each by the accumulator that the one before has `left`.  A refused
    line does not end anything. -/
def feedAll (lead : List Char) (config : RunConfig) (a : Accumulator) :
    List (List Char) → List Reply
  | [] => []
  | line :: lines =>
    let r := reply lead config a line
    r :: feedAll lead config r.left lines

theorem length_feedAll (lead : List Char) (config : RunConfig) (a : Accumulator)
    (lines : List (List Char)) : (feedAll lead config a lines).length = lines.length := by
  induction lines generalizing a with
  | nil => rfl
  | cons line lines ih => exact congrArg (· + 1) (ih _)

/-- The `lines`, of which each `chosen` one is left empty if the reply to it is a refusal. -/
def blankRefused (chosen : Nat → Bool) (lines : List (List Char)) (replies : List Reply) :
    List (List Char) :=
  lines.mapIdx fun i line => if chosen i && replies[i]?.any Reply.isRefusal then [] else line

/-- `blankRefused` decides of each line on its own whether it is left empty. -/
theorem blankRefused_cons (chosen : Nat → Bool) (line : List Char) (lines : List (List Char))
    (r : Reply) (replies : List Reply) :
    blankRefused chosen (line :: lines) (r :: replies) =
      (if chosen 0 && r.isRefusal then [] else line) ::
        blankRefused (fun i => chosen (i + 1)) lines replies := by
  simp [blankRefused, List.mapIdx_cons]

/-- A line that was refused leaves the accumulator as an empty line does, see `feed_nil`. -/
theorem reply_nil_of_isRefusal {inputDir : String} {config : RunConfig} {a : Accumulator}
    {line : List Char} (h : (reply (lead inputDir) config a line).isRefusal = true) :
    reply (lead inputDir) config a [] = (reply (lead inputDir) config a line).blanked := by
  cases hanswer : (a.feed (lead inputDir) config line).2.value with
  | error e =>
    unfold reply Reply.blanked
    rw [Accumulator.feed_nil, Accumulator.feed_of_refused hanswer]
  | ok closed => simp [Reply.isRefusal, reply, hanswer] at h

/-- If refused lines are left empty by `blankRefused`, then all others get the replies that they got
    before. -/
theorem feedAll_blankRefused (inputDir : String) (config : RunConfig) (a : Accumulator)
    (lines : List (List Char)) (chosen : Nat → Bool) :
    feedAll (lead inputDir) config a
        (blankRefused chosen lines (feedAll (lead inputDir) config a lines)) =
      (feedAll (lead inputDir) config a lines).mapIdx fun i r =>
        if chosen i && r.isRefusal then r.blanked else r := by
  -- Both runs have the same accumulator before each line, so it is generalized.
  induction lines generalizing a chosen with
  | nil => rfl
  | cons line lines ih =>
    let r := reply (lead inputDir) config a line
    have hcons : feedAll (lead inputDir) config a (line :: lines) =
        r :: feedAll (lead inputDir) config r.left lines := rfl
    rw [hcons, blankRefused_cons, List.mapIdx_cons, feedAll]
    by_cases hblank : (chosen 0 && r.isRefusal) = true
    · have hrefusal : r.isRefusal = true := (Bool.and_eq_true_iff.1 hblank).2
      rw [if_pos hblank, if_pos hblank, reply_nil_of_isRefusal hrefusal]
      exact congrArg _ (ih r.left fun i => chosen (i + 1))
    · rw [if_neg hblank, if_neg hblank]
      exact congrArg _ (ih r.left fun i => chosen (i + 1))

/-- A refused line leaves what is pending as it was, and is only counted.  So whichever of the
    refused lines are left empty by `blankRefused`, every other line is answered as before, be it
    with a record or with an error and its number, and after every line the accumulator is as it was
    before, with the same result pending or none. -/
theorem refused_lines_pass_as_empty (inputDir : String) (config : RunConfig) (a : Accumulator)
    (lines : List (List Char)) (chosen : Nat → Bool) :
    (∀ (b : Accumulator) (line : List Char) (e : Error),
        (b.feed (lead inputDir) config line).2.value = .error e →
        (b.feed (lead inputDir) config line).1 = { b with lineNo := b.lineNo + 1 }) ∧
      (feedAll (lead inputDir) config a
        (blankRefused chosen lines (feedAll (lead inputDir) config a lines))).length =
          lines.length ∧
      ∀ i r, (feedAll (lead inputDir) config a lines)[i]? = some r →
        ∃ r', (feedAll (lead inputDir) config a
            (blankRefused chosen lines (feedAll (lead inputDir) config a lines)))[i]? = some r' ∧
          r'.left = r.left ∧
          r'.answer = if chosen i && r.isRefusal then pure (.ok none) else r.answer := by
  refine ⟨?_, ?_, ?_⟩
  · intro b line e hrefused
    rw [Accumulator.feed_of_refused hrefused]
  · rw [feedAll_blankRefused, List.length_mapIdx, length_feedAll]
  · intro i r hr
    rw [feedAll_blankRefused, List.getElem?_mapIdx, hr]
    refine ⟨if chosen i && r.isRefusal then r.blanked else r, rfl, ?_⟩
    by_cases hblank : (chosen i && r.isRefusal) = true
    · rw [if_pos hblank, if_pos hblank]
      exact ⟨rfl, rfl⟩
    · rw [if_neg hblank, if_neg hblank]
      exact ⟨rfl, rfl⟩

-- The second line has no number, so it closes nothing, and the third line closes what was pending.
example (config : RunConfig) :
    (feedAll (lead "circuits") config {}
        ["nSwaps: 3".toList, "* runtime: soon".toList, "* runtime: 5".toList]).map
      (fun r => (r.answer.value, r.left.hasPending)) =
      [(.ok none, true), (.error ⟨2, .runtime, .malformedNumber "soon" .integer⟩, true),
        (.ok (some (.ofRun config "<unnamed>" { swaps := some 3, runtimeMs := some 5 })), false)] :=
  rfl

end MapperSweep.ToolOutput
