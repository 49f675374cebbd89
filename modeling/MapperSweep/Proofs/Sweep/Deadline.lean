import MapperSweep.Proofs.Definition
import MapperSweep.Proofs.Sweep.Failure
import MapperSweep.Proofs.Sweep.Simulation

/-!
# Deadlines that the clock does not reach

The settings of a sweep are checked before its first run, and the deadline of a run is computed
after the tool was started.  The check refuses a time limit of zero and no other, but the clock
counts seconds in 63 bits.  So there are limits that are accepted and with which a run breaks down.
All runs have the same limit, but the clock is read anew for each of them: the first run may be
completed, and a later one break down.

## Key results

- `deadlineFits_limits`: the time limits that the clock reaches
- `build_withTimeLimit`: every time limit but zero is accepted
- `attempt_eq_overflow_iff`: the runs that break down
- `run_overflows_iff`: the sweeps that break down
-/

namespace MapperSweep

/-! ## The time limits that are accepted -/

/-- The sweep `d` with a time limit of `n` seconds on its command line. -/
def Definition.withTimeLimit (d : Definition) (n : UInt64) : Definition :=
  { d with commandLine.timeout := some n }

/-- Settings with another time limit `n` pass `validate` as well, unless it is zero. -/
theorem Settings.validate_timeout {s : Settings} (h : s.validate = .ok ()) {n : UInt64}
    (hn : n ≠ 0) : { s with timeout := n }.validate = .ok () := by
  unfold validate at h ⊢
  split at h
  · cases h
  split at h
  · cases h
  split at h
  · cases h
  rename_i harchitectures hmappings hweights
  simp [harchitectures, hmappings, hweights, hn]

/-- The time limit of the command line is the one of the sweep, and nothing else is changed by
    `withTimeLimit`. -/
theorem Definition.complete_withTimeLimit (d : Definition) (n : UInt64) (timestamp : String)
    (start : Settings) :
    (d.withTimeLimit n).complete timestamp start =
      { d.complete timestamp start with timeout := n } := by
  -- Whether a time stamp is used does not depend on the limit.
  by_cases hstamped : ((d.commandLine.apply start).resultsPath.isNone && d.timestamped) = true
  · have hbefore : d.complete timestamp start = { d.commandLine.apply start with
        resultsPath := some (timestampedPath d.name timestamp) } := if_pos hstamped
    rw [hbefore]
    exact if_pos hstamped
  · have hbefore : d.complete timestamp start = d.commandLine.apply start := if_neg hstamped
    rw [hbefore]
    exact if_neg hstamped

/-- Every time limit `n` but zero is accepted by `build`. -/
theorem Definition.build_withTimeLimit {d : Definition}
    {readText : String → Except FileError (List Char)} {timestamp : String} {s : Settings}
    (h : (d.build readText timestamp).value = .ok s) {n : UInt64} (hn : n ≠ 0) :
    ((d.withTimeLimit n).build readText timestamp).value = .ok { s with timeout := n } := by
  obtain ⟨start, hbase, rfl, hvalid⟩ := build_eq_ok_iff.1 h
  apply build_eq_ok_iff.2
  exact ⟨start, hbase, (complete_withTimeLimit d n timestamp start).symm,
    Settings.validate_timeout hvalid hn⟩

namespace Sweep

variable {env : Environment} {d : Definition} {s : Settings} {tool : String}

/-! ## Runs that break down -/

/-- The `clock` reaches the deadline exactly if the sum of what it shows and of the time limit is
    below `2 ^ 63` seconds. -/
theorem deadlineFits_limits (s : Settings) (clock : Duration) :
    (limits s).deadlineFits clock = true ↔
      clock.nanoseconds + s.timeout.toNat * Duration.second <
        0x8000000000000000 * Duration.second := by
  rw [Limits.deadlineFits, decide_eq_true_eq]
  rfl

/-- A run that has begun breaks down with `.deadlineOverflow` exactly if the clock does not reach
    its deadline. -/
theorem attempt_eq_overflow_iff {c : RunConfig} :
    (attempt env s tool c).value = .deadlineOverflow ↔
      toolStart env s tool c = .ok () ∧ (limits s).deadlineFits (env.clock c) = false := by
  show executed env s tool c (env.clock c) (env.course c (invocation s tool c)) = _ ↔ _
  cases hstart : toolStart env s tool c with
  | error e => simp [executed_of_error hstart]
  | ok u =>
    cases hdeadline : (limits s).deadlineFits (env.clock c) with
    | false => simp [executed_of_overflow hstart hdeadline]
    | true =>
      rw [executed_of_start hstart hdeadline]
      simp only [Course.execution, reduceCtorEq, and_false, iff_false]
      split <;> exact fun h => by cases h

/-- Of all the ways of `RunFailure`, only one is that the run breaks down. -/
private theorem runFailure_overflow_iff {policy : MalformedOutput} {inputDir : String}
    {c : RunConfig} {x : Execution} :
    RunFailure policy inputDir c x .deadlineOverflow ↔ x = .deadlineOverflow := by
  constructor
  · intro h
    cases h
    rfl
  · rintro rfl
    exact .deadlineOverflow

/-! ## Sweeps that break down -/

/-- A sweep with accepted settings `s` breaks down exactly if it gets to a run for which the tool
    can be started and whose deadline the clock does not reach.  What the tool does in this run
    makes no difference.  All time limits but zero are accepted, those that the clock does not reach
    too. -/
theorem run_overflows_iff
    (hbuild : (d.build env.workspace.readText env.timestamp).value = .ok s) :
    ((run env d).value.result = .error .deadlineOverflow ↔
      ∃ tool i c,
        (ToolLookup.toolPath env.workspace env.toolVariable env.searchPath s.binary).value =
          .ok tool ∧
        (runs s)[i]? = some c ∧
        Begins (fun c => (attempt env s tool c).value) (stopped env s tool) s.malformedOutput
          s.inputDir env.stopRequested (runs s) i ∧
        toolStart env s tool c = .ok () ∧
        0x8000000000000000 * Duration.second ≤
          (env.clock c).nanoseconds + s.timeout.toNat * Duration.second) ∧
    ∀ n : UInt64, n ≠ 0 →
      ((d.withTimeLimit n).build env.workspace.readText env.timestamp).value =
        .ok { s with timeout := n } := by
  have hlate (c : RunConfig) : (limits s).deadlineFits (env.clock c) = false ↔
      0x8000000000000000 * Duration.second ≤
        (env.clock c).nanoseconds + s.timeout.toNat * Duration.second := by
    rw [Bool.eq_false_iff, Ne, deadlineFits_limits, Nat.not_lt]
  refine ⟨⟨?_, ?_⟩, fun n hn => Definition.build_withTimeLimit hbuild hn⟩
  · intro h
    cases failure_of_result h with
    | @run s' tool i c _ hbuild' htool hget hbegins hfails =>
      obtain rfl : s = s' := Except.ok.inj (hbuild.symm.trans hbuild')
      obtain ⟨hstart, hdeadline⟩ := attempt_eq_overflow_iff.1 (runFailure_overflow_iff.1 hfails)
      exact ⟨tool, i, c, htool, hget, hbegins, hstart, (hlate c).1 hdeadline⟩
  · rintro ⟨tool, i, c, htool, hget, hbegins, hstart, hdeadline⟩
    have hattempt := attempt_eq_overflow_iff.2 ⟨hstart, (hlate c).2 hdeadline⟩
    exact (run_value_of_failure
      (.run hbuild htool hget hbegins (runFailure_overflow_iff.2 hattempt))).1

/-- The `rehearsal` with a settings file.  The clock shows `start` seconds at the first run, and ten
    seconds more at every run that follows. -/
def rehearsalFrom (start : Nat) : Environment where
  workspace :=
    { rehearsal.workspace with
      entries := rehearsal.workspace.entries ++
        [(["limits"], .file false (Text.Utf8.encode
          "binary = \"./tool\"\ntimeout_s = 9223372036854775807\n".toList))] }
  clock c := .ofSeconds (start + 10 * c.runIndex.toNat)
  course := rehearsal.course

/-- What the first run of the `rehearsal` prints. -/
def rehearsalOutput : String := "Mapping circuits/qft.qasm\nnSwaps: 3\n* runtime: 17\n"

/-- The `rehearsalSettings` with the time limit `n`, in seconds. -/
def rehearsalLimited (n : UInt64) : Settings := { rehearsalSettings with timeout := n }

/-- In `rehearsalFrom 100000`, there is a time limit with which no run breaks down, and a longer one
    with which the first run is completed and the second one breaks down. -/
theorem run_overflows_from_limit :
    (run (rehearsalFrom 100000)
      (rehearsalDefinition.withTimeLimit 9223372036854675757)).value.result ≠
        .error .deadlineOverflow ∧
    (attempt (rehearsalFrom 100000) (rehearsalLimited 9223372036854675803) "./tool" .plain).value =
      .done (.success rehearsalOutput) ∧
    (run (rehearsalFrom 100000)
      (rehearsalDefinition.withTimeLimit 9223372036854675803)).value.result =
        .error .deadlineOverflow := by
  have hbuild : (rehearsalDefinition.build (rehearsalFrom 100000).workspace.readText
      (rehearsalFrom 100000).timestamp).value = .ok rehearsalSettings := by decide +kernel
  have haccepted : ∀ n : UInt64, n ≠ 0 →
      ((rehearsalDefinition.withTimeLimit n).build (rehearsalFrom 100000).workspace.readText
        (rehearsalFrom 100000).timestamp).value = .ok (rehearsalLimited n) :=
    (run_overflows_iff hbuild).2
  have hfirst : (attempt (rehearsalFrom 100000) (rehearsalLimited 9223372036854675803) "./tool"
      .plain).value = .done (.success rehearsalOutput) := by decide +kernel
  refine ⟨fun h => ?_, hfirst, ?_⟩
  · obtain ⟨tool, i, c, -, hget, -, -, hlate⟩ :=
      (run_overflows_iff (haccepted 9223372036854675757 (by decide))).1.1 h
    -- Even at the last run the clock reaches the deadline.
    have hreached : ∀ c ∈ runs (rehearsalLimited 9223372036854675757),
        ((rehearsalFrom 100000).clock c).nanoseconds +
            (rehearsalLimited 9223372036854675757).timeout.toNat * Duration.second <
          0x8000000000000000 * Duration.second := by decide +kernel
    exact absurd (hreached c (List.mem_of_getElem? hget)) (Nat.not_lt.2 hlate)
  -- The second run begins ten seconds later, which is too late.
  · apply (run_overflows_iff (haccepted 9223372036854675803 (by decide))).1.2
    refine ⟨"./tool", 1, (runs (rehearsalLimited 9223372036854675803)).getD 1 .plain,
      by decide +kernel, by decide +kernel, ⟨?_, ?_⟩, by decide +kernel, by decide +kernel⟩
    · have hruns : (runs (rehearsalLimited 9223372036854675803)).take 1 = [.plain] := by
        decide +kernel
      intro c hc
      obtain rfl := List.mem_singleton.1 (hruns ▸ hc)
      exact ⟨.success rehearsalOutput, [rehearsalRecord], hfirst, by decide +kernel⟩
    · have hgoesOn : ∀ j < 2, stopsBefore (rehearsalFrom 100000).stopRequested
          (stopped (rehearsalFrom 100000) (rehearsalLimited 9223372036854675803) "./tool")
          (runs (rehearsalLimited 9223372036854675803)) j = false := by decide +kernel
      exact fun j hj => hgoesOn j (Nat.lt_succ_of_le hj)

/-- A time limit that is accepted makes the sweep end with `.deadlineOverflow`, wherever it comes
    from: the command line, the program that defines the sweep or the settings file. -/
theorem run_overflows_with_accepted_limit :
    let longest : UInt64 := 18446744073709551615
    let env := rehearsalFrom 1
    let breaksDown (d : Definition) : Prop :=
      (d.build env.workspace.readText env.timestamp).value.isOk = true ∧
        (run env d).value.result = .error .deadlineOverflow
    breaksDown (rehearsalDefinition.withTimeLimit longest) ∧
    (∃ d, rehearsalDefinition.choose (.timeout (.ofSeconds longest.toNat)) = some d ∧
      breaksDown d) ∧
    breaksDown { rehearsalDefinition with commandLine.config := some "limits" } := by
  intro longest env breaksDown
  have hseconds : (Duration.ofSeconds longest.toNat).wholeSeconds? = some longest := by
    decide +kernel
  have hchoose : rehearsalDefinition.choose (.timeout (.ofSeconds longest.toNat)) =
      some { rehearsalDefinition with settings.timeout := longest } := by
    rw [Definition.choose, hseconds]
    rfl
  refine ⟨⟨?_, ?_⟩, ⟨_, hchoose, ?_, ?_⟩, ?_, ?_⟩ <;> decide +kernel

end Sweep

end MapperSweep
