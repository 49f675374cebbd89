import MapperSweep.Proofs.Sweep

/-!
# Sweeps that fail

A sweep can fail while it is being defined, for want of its tool, at any of its runs, and at the
very end, when its results file cannot be opened.  Here is the list of all causes.  Whichever it is,
the sweep has printed no summary and all files are as they were.  All that it may have printed is
the notice that it was asked to stop.

## Key results

- `runAll_eq_error_iff`: at which run the loop over the runs gives up, and why
- `run_value_of_failure`, `failure_of_result`: the causes of all errors of a sweep
- `concludes_of_result`: without any of them a sweep gets to its conclusion
- `run_error_leaves_no_trace`: a sweep that fails leaves nothing behind
-/

namespace MapperSweep

/-- `records` refuses only malformed output, and only if the sweep is to be aborted for it. -/
theorem Outcome.records_eq_error_iff {policy : MalformedOutput} {inputDir : String} {c : RunConfig}
    {o : Outcome} {e : ToolOutput.Error} :
    (o.records policy inputDir c).value = .error e ↔
      policy = .abortSweep ∧
        ∃ stdout, o = .success stdout ∧ (ToolOutput.parse inputDir c stdout).value = .error e := by
  cases o with
  | failed code stdout stderr => simp [records]
  | timedOut => simp [records]
  | success stdout =>
    simp only [records, Logged.andThen, Outcome.success.injEq, exists_eq_left']
    cases hparse : (ToolOutput.parse inputDir c stdout).value with
    | ok parsed => simp
    | error e' => cases policy <;> simp

namespace Sweep

/-! ## Failing runs -/

/-- The ways in which the run `c` makes the sweep fail, given what came of it. -/
inductive RunFailure (policy : MalformedOutput) (inputDir : String) (c : RunConfig) :
    Execution → SweepError → Prop where
  | notStarted (program : String) (cause : FileError) :
    RunFailure policy inputDir c (.notStarted program cause) (.notStarted c.runIndex program cause)
  | malformedOutput (stdout : String) (cause : ToolOutput.Error) (habort : policy = .abortSweep)
    (hparse : (ToolOutput.parse inputDir c stdout).value = .error cause) :
    RunFailure policy inputDir c (.done (.success stdout)) (.malformedOutput c.runIndex cause)
  | deadlineOverflow : RunFailure policy inputDir c .deadlineOverflow .deadlineOverflow
  | unfinished : RunFailure policy inputDir c .unfinished (.unfinished c.runIndex)

/-- The `verdict` on a run is an error in exactly the ways of `RunFailure`. -/
theorem verdict_eq_error_iff {policy : MalformedOutput} {inputDir : String} {c : RunConfig}
    {x : Execution} {e : SweepError} :
    verdict (fun o => (o.records policy inputDir c).value) c x = .error e ↔
      RunFailure policy inputDir c x e := by
  constructor
  · intro h
    cases x with
    | cancelled => cases h
    | notStarted program cause =>
      obtain rfl := Except.error.inj h
      exact .notStarted program cause
    | deadlineOverflow =>
      obtain rfl := Except.error.inj h
      exact .deadlineOverflow
    | unfinished =>
      obtain rfl := Except.error.inj h
      exact .unfinished
    | done o =>
      -- The verdict is an error if `records` is one, for which there is only one cause.
      cases hrecords : (o.records policy inputDir c).value with
      | ok records => simp [verdict, hrecords] at h
      | error cause =>
        simp only [verdict, hrecords, Except.error.injEq] at h
        obtain ⟨habort, stdout, rfl, hparse⟩ := Outcome.records_eq_error_iff.1 hrecords
        exact h ▸ .malformedOutput stdout cause habort hparse
  · intro h
    cases h with
    | notStarted program cause => rfl
    | deadlineOverflow => rfl
    | unfinished => rfl
    | malformedOutput stdout cause habort hparse =>
      have hrecords := Outcome.records_eq_error_iff.2 ⟨habort, stdout, rfl, hparse⟩
      simp only [verdict, hrecords]

/-- `Begins … i` says that a sweep gets to run `i`: nobody has asked it to stop by then, and all
    runs before were completed and their output was accepted. -/
structure Begins (attempt : RunConfig → Execution) (stopped : RunConfig → Bool)
    (policy : MalformedOutput) (inputDir : String) (stop : Bool) (cs : List RunConfig) (i : Nat) :
    Prop where
  accepted : ∀ c ∈ cs.take i, ∃ o rs, attempt c = .done o ∧
    (o.records policy inputDir c).value = .ok rs
  goesOn : ∀ j ≤ i, stopsBefore stop stopped cs j = false

section

variable {stopped : RunConfig → Bool} {policy : MalformedOutput} {inputDir : String} {stop : Bool}

/-- Every sweep `Begins` its first run unless it is asked to stop. -/
theorem begins_zero {attempt : RunConfig → Execution} {cs : List RunConfig} :
    Begins attempt stopped policy inputDir stop cs 0 ↔ stop = false := by
  refine ⟨fun h => h.goesOn 0 (Nat.le_refl 0), fun h => ⟨by simp, ?_⟩⟩
  intro j hj
  obtain rfl := Nat.le_zero.1 hj
  exact h

/-- A sweep `Begins` a later run after the first one was accepted. -/
private theorem begins_succ {attempt : RunConfig → Execution} {c : RunConfig} {cs : List RunConfig}
    {i : Nat} :
    Begins attempt stopped policy inputDir stop (c :: cs) (i + 1) ↔
      stop = false ∧ (∃ o rs, attempt c = .done o ∧ (o.records policy inputDir c).value = .ok rs) ∧
        Begins attempt stopped policy inputDir (stopped c) cs i := by
  constructor
  · intro h
    refine ⟨h.goesOn 0 (Nat.zero_le _), h.accepted c (by simp), ?_, ?_⟩
    · intro d hd
      exact h.accepted d (by simp [hd])
    · intro j hj
      have hlater := h.goesOn (j + 1) (Nat.succ_le_succ hj)
      rwa [stopsBefore_cons_succ] at hlater
  · rintro ⟨hstop, hc, h⟩
    refine ⟨?_, ?_⟩
    · rw [List.take_succ_cons]
      exact List.forall_mem_cons.2 ⟨hc, h.accepted⟩
    · intro j hj
      cases j with
      | zero => exact hstop
      | succ j => rw [stopsBefore_cons_succ]; exact h.goesOn j (Nat.le_of_succ_le_succ hj)

private theorem map_eq_error_iff {α β ε : Type} {f : α → β} {x : Except ε α} {e : ε} :
    x.map f = .error e ↔ x = .error e := by
  cases x <;> simp [Except.map]

/-- `runAll` fails at the first run that it `Begins` and that is a `RunFailure`. -/
theorem runAll_eq_error_iff {attempt : RunConfig → Logged Execution} {cs : List RunConfig}
    {e : SweepError} :
    (runAll attempt stopped (fun c o => o.records policy inputDir c) stop cs).value.result =
        .error e ↔
      ∃ i c, cs[i]? = some c ∧
        Begins (fun c => (attempt c).value) stopped policy inputDir stop cs i ∧
        RunFailure policy inputDir c (attempt c).value e := by
  induction cs generalizing stop with
  | nil => simp [runAll]
  | cons c cs ih =>
    cases stop with
    | true =>
      -- A sweep that is asked to stop gets to no run.
      constructor
      · intro h
        simp [runAll] at h
      · rintro ⟨i, d, -, hbegins, -⟩
        have hstop := hbegins.goesOn 0 (Nat.zero_le i)
        simp [stopsBefore] at hstop
    | false =>
      rw [runAll_cons_value]
      constructor
      · intro h
        cases hverdict :
            verdict (fun o => (o.records policy inputDir c).value) c (attempt c).value with
        | error e' =>
          simp only [hverdict, carryOn, Except.error.injEq] at h
          exact ⟨0, c, rfl, begins_zero.2 rfl, verdict_eq_error_iff.1 (h ▸ hverdict)⟩
        | ok taken =>
          cases taken with
          | none => simp [hverdict, carryOn] at h
          | some first =>
            obtain ⟨o, hdone, hfirst⟩ := verdict_eq_some_iff.1 hverdict
            simp only [hverdict, carryOn, Tour.prepend, map_eq_error_iff] at h
            obtain ⟨i, d, hd, hbegins, hfails⟩ := ih.1 h
            exact ⟨i + 1, d, hd, begins_succ.2 ⟨rfl, ⟨o, first, hdone, hfirst⟩, hbegins⟩, hfails⟩
      · rintro ⟨i, d, hd, hbegins, hfails⟩
        cases i with
        | zero =>
          obtain rfl := Option.some.inj hd
          rw [verdict_eq_error_iff.2 hfails, carryOn]
        | succ i =>
          obtain ⟨-, ⟨o, rs, hdone, hrs⟩, hrest⟩ := begins_succ.1 hbegins
          rw [verdict_eq_some_iff.2 ⟨o, hdone, hrs⟩]
          exact map_eq_error_iff.2 (ih.2 ⟨i, d, hd, hrest, hfails⟩)

end

/-! ## Failing sweeps -/

/-- The causes of the errors of a sweep: `Failure env d e` says that `d` fails with `e` in `env`. -/
inductive Failure (env : Environment) (d : Definition) : SweepError → Prop where
  /-- The settings file cannot be read or is not understood, or the settings are useless. -/
  | definition {e : Definition.Error}
    (hbuild : (d.build env.workspace.readText env.timestamp).value = .error e) :
    Failure env d (.definition e)
  /-- The tool is not found. -/
  | tool {s : Settings} {e : ToolLookup.Error}
    (hbuild : (d.build env.workspace.readText env.timestamp).value = .ok s)
    (htool : (ToolLookup.toolPath env.workspace env.toolVariable env.searchPath s.binary).value =
      .error e) :
    Failure env d (.tool e)
  /-- The sweep gets to run `i`, and this run makes it fail. -/
  | run {s : Settings} {tool : String} {i : Nat} {c : RunConfig} {e : SweepError}
    (hbuild : (d.build env.workspace.readText env.timestamp).value = .ok s)
    (htool : (ToolLookup.toolPath env.workspace env.toolVariable env.searchPath s.binary).value =
      .ok tool)
    (hget : (runs s)[i]? = some c)
    (hbegins : Begins (fun c => (attempt env s tool c).value) (stopped env s tool)
      s.malformedOutput s.inputDir env.stopRequested (runs s) i)
    (hfails : RunFailure s.malformedOutput s.inputDir c (attempt env s tool c).value e) :
    Failure env d e
  /-- The records are there, but the results file cannot be opened. -/
  | results {s : Settings} {tool path : String} {records : List Record} {e : FileError}
    (hbuild : (d.build env.workspace.readText env.timestamp).value = .ok s)
    (htool : (ToolLookup.toolPath env.workspace env.toolVariable env.searchPath s.binary).value =
      .ok tool)
    (hcollect : (collect env s tool).value.result = .ok records)
    (hpath : s.resultsPath = some path)
    (happend : env.workspace.append path (Text.Utf8.encode (Record.store records)) = .error e) :
    Failure env d (.resultsNotWritten path e)

/-- `exportRecords` fails only because the results file cannot be opened. -/
private theorem exportRecords_eq_error_iff {w : Workspace} {s : Settings} {records : List Record}
    {e : SweepError} :
    (exportRecords w s records).value = .error e ↔
      ∃ path cause, s.resultsPath = some path ∧
        w.append path (Text.Utf8.encode (Record.store records)) = .error cause ∧
        e = .resultsNotWritten path cause := by
  simp only [exportRecords]
  cases s.resultsPath with
  | none => simp
  | some path =>
    by_cases hprints : w.printsTo path = true
    · -- The standard output can be opened.
      obtain ⟨w', happend⟩ :=
        Workspace.exists_append_of_printsTo hprints (Text.Utf8.encode (Record.store records))
      simp [hprints, happend]
    · simp only [hprints]
      cases happend : w.append path (Text.Utf8.encode (Record.store records)) with
      | error cause => simp [happend, eq_comm]
      | ok w' => simp [happend]

/-- If `exportRecords` fails, nothing is printed and nothing is changed. -/
private theorem conclude_of_error {w : Workspace} {s : Settings} {records : List Record}
    {e : SweepError} (h : (exportRecords w s records).value = .error e) :
    (conclude w s records).value = { result := .error e, workspace := w } := by
  simp only [conclude, Logged.value_bind, h, Logged.value_pure]

/-- `collect` fails at the first run that is a `RunFailure`. -/
private theorem collect_eq_error_iff {env : Environment} {s : Settings} {tool : String}
    {e : SweepError} :
    (collect env s tool).value.result = .error e ↔
      ∃ i c, (runs s)[i]? = some c ∧
        Begins (fun c => (attempt env s tool c).value) (stopped env s tool) s.malformedOutput
          s.inputDir env.stopRequested (runs s) i ∧
        RunFailure s.malformedOutput s.inputDir c (attempt env s tool c).value e := by
  rw [collect_value]
  exact runAll_eq_error_iff

/-- `Requested env d` says that the sweep gets as far as to its runs, and is asked to stop before it
    returns. -/
def Requested (env : Environment) (d : Definition) : Prop :=
  ∃ s tool, (d.build env.workspace.readText env.timestamp).value = .ok s ∧
    (ToolLookup.toolPath env.workspace env.toolVariable env.searchPath s.binary).value = .ok tool ∧
    ((collect env s tool).value.asked || env.requestedLate) = true

/-- If a sweep gets to its runs, then `Requested` is known from the loop over them. -/
theorem requested_iff {env : Environment} {d : Definition} {s : Settings} {tool : String}
    (hbuild : (d.build env.workspace.readText env.timestamp).value = .ok s)
    (htool : (ToolLookup.toolPath env.workspace env.toolVariable env.searchPath s.binary).value =
      .ok tool) :
    Requested env d ↔ ((collect env s tool).value.asked || env.requestedLate) = true := by
  constructor
  · rintro ⟨s', tool', hbuild', htool', hasked⟩
    obtain rfl : s = s' := Except.ok.inj (hbuild.symm.trans hbuild')
    obtain rfl : tool = tool' := Except.ok.inj (htool.symm.trans htool')
    exact hasked
  · exact fun hasked => ⟨s, tool, hbuild, htool, hasked⟩

/-- What a sweep is left with whose `ending` is an error: the notice if it was asked to stop, and
    the files as they were. -/
private theorem announced_of_ending {env : Environment} {d : Definition} {s : Settings}
    {tool : String} {e : SweepError}
    (hbuild : (d.build env.workspace.readText env.timestamp).value = .ok s)
    (htool : (ToolLookup.toolPath env.workspace env.toolVariable env.searchPath s.binary).value =
      .ok tool)
    (h : (ending env.workspace s (collect env s tool).value.result).value =
      { result := .error e, workspace := env.workspace }) :
    (run env d).value.result = .error e ∧ Announced (Requested env d) [] (run env d).value.stdout ∧
      (run env d).value.workspace = env.workspace := by
  rw [run_value_of_collect hbuild htool, h, announce_result, announce_workspace,
    requested_iff hbuild htool]
  exact ⟨rfl, announced_announce { result := .error e, workspace := env.workspace } _ _, rfl⟩

/-- Every cause `e` makes the sweep fail, with nothing printed but the notice and all files as they
    were. -/
theorem run_value_of_failure {env : Environment} {d : Definition} {e : SweepError}
    (h : Failure env d e) :
    (run env d).value.result = .error e ∧ Announced (Requested env d) [] (run env d).value.stdout ∧
      (run env d).value.workspace = env.workspace := by
  cases h with
  | @definition e hbuild =>
    -- The sweep does not get to its runs, so nobody waits for a request.
    have hvalue : (run env d).value =
        { result := .error (.definition e), workspace := env.workspace } := by
      simp only [run, Logged.value_bind, hbuild, Logged.value_pure]
    have hnot : ¬Requested env d := by
      rintro ⟨s, tool, hbuild', -⟩
      rw [hbuild] at hbuild'
      cases hbuild'
    rw [hvalue]
    exact ⟨rfl, ⟨fun h => absurd h hnot, fun _ => rfl⟩, rfl⟩
  | @tool s e hbuild htool =>
    have hvalue :
        (run env d).value = { result := .error (.tool e), workspace := env.workspace } := by
      simp only [run, Logged.value_bind, hbuild, htool, Logged.value_pure]
    have hnot : ¬Requested env d := by
      rintro ⟨s', tool, hbuild', htool', -⟩
      obtain rfl : s = s' := Except.ok.inj (hbuild.symm.trans hbuild')
      rw [htool] at htool'
      cases htool'
    rw [hvalue]
    exact ⟨rfl, ⟨fun h => absurd h hnot, fun _ => rfl⟩, rfl⟩
  | run hbuild htool hget hbegins hfails =>
    refine announced_of_ending hbuild htool ?_
    rw [collect_eq_error_iff.2 ⟨_, _, hget, hbegins, hfails⟩]
    rfl
  | results hbuild htool hcollect hpath happend =>
    refine announced_of_ending hbuild htool ?_
    rw [hcollect]
    exact conclude_of_error (exportRecords_eq_error_iff.2 ⟨_, _, hpath, happend, rfl⟩)

/-- There are no causes but those of `Failure`. -/
theorem failure_of_result {env : Environment} {d : Definition} {e : SweepError}
    (h : (run env d).value.result = .error e) : Failure env d e := by
  -- What fails first is a cause, and the sweep returns the error of this cause.
  suffices hcause : ∃ e', Failure env d e' by
    obtain ⟨e', hfailure⟩ := hcause
    obtain rfl : e' = e := Except.error.inj ((run_value_of_failure hfailure).1.symm.trans h)
    exact hfailure
  cases hbuild : (d.build env.workspace.readText env.timestamp).value with
  | error e' => exact ⟨_, .definition hbuild⟩
  | ok s =>
    cases htool :
        (ToolLookup.toolPath env.workspace env.toolVariable env.searchPath s.binary).value with
    | error e' => exact ⟨_, .tool hbuild htool⟩
    | ok tool =>
      cases hcollect : (collect env s tool).value.result with
      | error e' =>
        obtain ⟨i, c, hget, hbegins, hfails⟩ := collect_eq_error_iff.1 hcollect
        exact ⟨_, .run hbuild htool hget hbegins hfails⟩
      | ok records =>
        cases hexport : (exportRecords env.workspace s records).value with
        | ok exported =>
          rw [run_value_of_collect hbuild htool, announce_result, hcollect] at h
          simp [ending, conclude, hexport] at h
        | error e' =>
          obtain ⟨path, cause, hpath, happend, rfl⟩ := exportRecords_eq_error_iff.1 hexport
          exact ⟨_, .results hbuild htool hcollect hpath happend⟩

/-- A sweep that ends well got to `conclude` with some records. -/
theorem concludes_of_result {env : Environment} {d : Definition} {groups : List Group}
    (h : (run env d).value.result = .ok groups) :
    ∃ s tool records, (d.build env.workspace.readText env.timestamp).value = .ok s ∧
      (ToolLookup.toolPath env.workspace env.toolVariable env.searchPath s.binary).value = .ok tool ∧
      (collect env s tool).value.result = .ok records ∧
      (conclude env.workspace s records).value.result = .ok groups ∧
      Announced (Requested env d) (conclude env.workspace s records).value.stdout
        (run env d).value.stdout ∧
      (run env d).value.workspace = (conclude env.workspace s records).value.workspace := by
  -- Any of the causes would make the sweep fail.
  have hnot : ∀ e, ¬Failure env d e := by
    intro e hfailure
    rw [(run_value_of_failure hfailure).1] at h
    cases h
  cases hbuild : (d.build env.workspace.readText env.timestamp).value with
  | error e => exact absurd (.definition hbuild) (hnot _)
  | ok s =>
    cases htool :
        (ToolLookup.toolPath env.workspace env.toolVariable env.searchPath s.binary).value with
    | error e => exact absurd (.tool hbuild htool) (hnot _)
    | ok tool =>
      have hvalue := run_value_of_collect hbuild htool
      cases hcollect : (collect env s tool).value.result with
      | error e =>
        rw [hvalue, announce_result, hcollect] at h
        cases h
      | ok records =>
        rw [hcollect] at hvalue
        rw [hvalue, announce_result] at h
        refine ⟨s, tool, records, rfl, htool, hcollect, h, ?_, ?_⟩
        · rw [hvalue, requested_iff hbuild htool]
          exact announced_announce ..
        · rw [hvalue, announce_workspace]
          rfl

/-- `reports` leaves the notice out, so it is that of the pieces. -/
theorem reports_of_announced {asked : Prop} {pieces : List Print} {c : Completion}
    (h : Announced asked pieces c.stdout) : c.reports = { c with stdout := pieces }.reports := by
  by_cases hasked : asked
  · obtain ⟨before, after, rfl, hstdout⟩ := h.1 hasked
    simp [Completion.reports, hstdout]
  · simp [Completion.reports, h.2 hasked]

/-- If a sweep fails with `e`, for whatever cause, then it has printed no report, and nothing else
    but the notice if it was asked to stop.  Every file is as it was before; a results file that was
    not there has not been created. -/
theorem run_error_leaves_no_trace (env : Environment) (d : Definition) (e : SweepError)
    (h : (run env d).value.result = .error e) :
    Failure env d e ∧ (run env d).value.reports = [] ∧
      Announced (Requested env d) [] (run env d).value.stdout ∧
      (run env d).value.workspace = env.workspace := by
  have hfailure := failure_of_result h
  obtain ⟨-, hstdout, hfiles⟩ := run_value_of_failure hfailure
  exact ⟨hfailure, reports_of_announced hstdout, hstdout, hfiles⟩

/-- The `rehearsal` as a sweep that is aborted for malformed output, and that exports to `path`. -/
def abortedRehearsal (path : String) : Definition where
  name := "rehearsal"
  settings := { rehearsalSettings with malformedOutput := .abortSweep, resultsPath := some path }

/-- The fourth run of the `rehearsal` prints malformed output.  If the sweep is aborted for it then
    the records of the first run are neither added to the old results file nor put into a new
    one. -/
theorem aborted_rehearsal_leaves_no_trace :
    let e : SweepError :=
      .malformedOutput 3 ⟨2, .metric (.count .swaps), .malformedNumber "many" .integer⟩
    (run rehearsal (abortedRehearsal "old")).value.result = .error e ∧
      (run rehearsal (abortedRehearsal "old")).value.reports = [] ∧
      (run rehearsal (abortedRehearsal "old")).value.workspace.read "old" = .ok [0x0A] ∧
      (run rehearsal (abortedRehearsal "new")).value.workspace.contains "new" = false := by
  intro e
  have hold : (run rehearsal (abortedRehearsal "old")).value.result = .error e := by decide +kernel
  have hnew : (run rehearsal (abortedRehearsal "new")).value.result = .error e := by decide +kernel
  obtain ⟨-, hreports, -, hfiles⟩ :=
    run_error_leaves_no_trace rehearsal (abortedRehearsal "old") e hold
  obtain ⟨-, -, -, hfiles'⟩ := run_error_leaves_no_trace rehearsal (abortedRehearsal "new") e hnew
  refine ⟨hold, hreports, ?_, ?_⟩
  · rw [hfiles]
    decide +kernel
  · rw [hfiles']
    decide +kernel

end Sweep

end MapperSweep
