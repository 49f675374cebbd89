import Mathlib.Data.List.Nodup
import MapperSweep.Proofs.Sweep.Simulation

/-!
# Requests to stop at any time

Whenever requests to stop come, and whichever of several events a supervisor takes first, a sweep
starts its runs in the order of the grid, soon stops to start any, and accounts for all that it has
started.

## Key results

- `Heeding.step`: runs are started or not according to the requests that have come
- `Accounted.step`: every run that was started is in progress, completed or cancelled
- `runs_and_records_of_interleaving`: the order of the runs, the effect of a request, and what a
  sweep leaves behind
-/

namespace MapperSweep.Sweep

variable {env : Environment} {s : Settings} {tool : String}

/-! ## The numbers of the runs -/

/-- The runs have their places in `runs s` as numbers. -/
theorem map_runIndex_runs (s : Settings) :
    (runs s).map (·.runIndex) = (List.range (runs s).length).map UInt64.ofNat := by
  refine List.ext_getElem (by simp) ?_
  intro i h₁ h₂
  simp [runs, Grid.configs, Grid.config]

/-- No run occurs twice in `runs s`, unless there are more than can be numbered. -/
theorem nodup_runs (h : (runs s).length ≤ UInt64.size) : (runs s).Nodup := by
  refine List.Nodup.of_map (·.runIndex) ?_
  rw [map_runIndex_runs]
  refine List.Nodup.map_on ?_ List.nodup_range
  intro i hi j hj hij
  rw [List.mem_range] at hi hj
  have hnat := congrArg UInt64.toNat hij
  rwa [UInt64.toNat_ofNat_of_lt' (by omega), UInt64.toNat_ofNat_of_lt' (by omega)] at hnat

/-! ## Heeding requests -/

/-- `FirstRequest h before after` takes the history `h` apart: `before` the first request, and
    `after` it. -/
def FirstRequest (h before after : List Happening) : Prop :=
  h = before ++ .requested :: after ∧ .requested ∉ before

/-- One more happening `x` comes after the first request, or is itself the first. -/
private theorem firstRequest_concat {h before after : List Happening} {x : Happening}
    (hfirst : FirstRequest (h ++ [x]) before after) :
    (∃ since, after = since ++ [x] ∧ FirstRequest h before since) ∨
      (x = .requested ∧ before = h ∧ after = []) := by
  obtain ⟨heq, hnot⟩ := hfirst
  rcases List.eq_nil_or_concat after with rfl | ⟨since, y, rfl⟩
  · obtain ⟨rfl, hx⟩ := List.append_inj' heq rfl
    exact .inr ⟨List.head_eq_of_cons_eq hx, rfl, rfl⟩
  · rw [List.concat_eq_append, ← List.cons_append, ← List.append_assoc] at heq
    obtain ⟨rfl, hx⟩ := List.append_inj' heq rfl
    obtain rfl := List.head_eq_of_cons_eq hx
    exact .inl ⟨since, List.concat_eq_append, rfl, hnot⟩

/-- `Heeded h` says that at most one run is started after the first request, and none if it came
    during a run. -/
def Heeded (h : List Happening) : Prop :=
  ∀ before after, FirstRequest h before after →
    (started after).length ≤ 1 ∧ (inProgress before = true → started after = [])

/-- `MayStart h` says that no run has been started after the first request, but one still may be, as
    the request did not come during a run. -/
def MayStart (h : List Happening) : Prop :=
  ∀ before after, FirstRequest h before after → started after = [] ∧ inProgress before = false

theorem mayStart_of_not_mem {h : List Happening} (hnot : .requested ∉ h) : MayStart h := by
  intro before after hfirst
  exact absurd (hfirst.1 ▸ by simp) hnot

theorem MayStart.heeded {h : List Happening} (hmay : MayStart h) : Heeded h := by
  intro before after hfirst
  obtain ⟨hnone, -⟩ := hmay before after hfirst
  exact ⟨by simp [hnone], fun _ => hnone⟩

theorem MayStart.requested {h : List Happening} (hmay : MayStart h) (hidle : inProgress h = false) :
    MayStart (h ++ [.requested]) := by
  intro before after hfirst
  rcases firstRequest_concat hfirst with ⟨since, rfl, hearlier⟩ | ⟨-, rfl, rfl⟩
  · simpa using hmay before since hearlier
  · exact ⟨rfl, hidle⟩

theorem MayStart.started {h : List Happening} {c : RunConfig} (hmay : MayStart h) :
    Heeded (h ++ [.started c]) := by
  intro before after hfirst
  rcases firstRequest_concat hfirst with ⟨since, rfl, hearlier⟩ | ⟨hx, -, -⟩
  · obtain ⟨hnone, hidle⟩ := hmay before since hearlier
    simp [hnone, hidle]
  · exact nomatch hx

theorem Heeded.requested {h : List Happening} (hheeded : Heeded h) :
    Heeded (h ++ [.requested]) := by
  intro before after hfirst
  rcases firstRequest_concat hfirst with ⟨since, rfl, hearlier⟩ | ⟨-, rfl, rfl⟩
  · simpa using hheeded before since hearlier
  · simp

theorem Heeded.ended {h : List Happening} {c : RunConfig} {x : Execution} (hheeded : Heeded h) :
    Heeded (h ++ [.ended c x]) := by
  intro before after hfirst
  rcases firstRequest_concat hfirst with ⟨since, rfl, hearlier⟩ | ⟨hx, -, -⟩
  · simpa using hheeded before since hearlier
  · exact nomatch hx

/-- `p.isRunning` holds if a run is in progress. -/
def Position.isRunning : Position → Bool
  | .running .. => true
  | _ => false

/-- `p.isCommitted` holds if the driver has looked at the switch, and a run will be started without
    another look. -/
def Position.isCommitted : Position → Bool
  | .calling | .starting _ => true
  | _ => false

/-- After `settle` no run is in progress and none will be started without a look. -/
private theorem settle_position (w : Workspace) (st : State) (c : RunConfig) (x : Execution) :
    (st.settle w s c x).position.isRunning = false ∧
      (st.settle w s c x).position.isCommitted = false := by
  unfold State.settle
  split <;> exact ⟨rfl, rfl⟩

/-- The history knows whether a run is in progress.  A request is `Heeded`, and no run has been
    started after it while one still may be. -/
structure Heeding (st : State) : Prop where
  inProgress : inProgress st.history = st.position.isRunning
  heeded : Heeded st.history
  mayStart : st.position.isCommitted = true → MayStart st.history

theorem heeding_start : Heeding (.start s) where
  inProgress := rfl
  heeded := (mayStart_of_not_mem (List.not_mem_nil)).heeded
  mayStart h := nomatch h

/-- `settle` leaves requests heeded, if the run has ended or was not even started. -/
private theorem Heeding.settle {w : Workspace} {st : State} {c : RunConfig} {x : Execution}
    (hidle : Sweep.inProgress st.history = false) (hheeded : Heeded st.history) :
    Heeding (st.settle w s c x) := by
  obtain ⟨hrunning, hcommitted⟩ := settle_position w st c x
  refine ⟨?_, ?_, ?_⟩
  · rw [settle_history, hidle, hrunning]
  · rwa [settle_history]
  · intro h
    rw [hcommitted] at h
    exact nomatch h

theorem Heeding.step {st st' : State} (hstep : Step env s tool st st') (hwired : Wired st)
    (h : Heeding st) : Heeding st' := by
  obtain ⟨hprogress, hheeded, hmay⟩ := h
  cases hstep with
  | request =>
    refine ⟨by simpa using hprogress, hheeded.requested, ?_⟩
    intro hcommitted
    -- Between the look and the start no run is in progress.
    have hidle : Sweep.inProgress st.history = false := by
      rw [hprogress]
      cases hposition : st.position <;> simp_all [Position.isCommitted, Position.isRunning]
    exact (hmay hcommitted).requested hidle
  | announce => exact ⟨hprogress, hheeded, hmay⟩
  | goOn hposition _ hlook =>
    rw [hposition] at hprogress
    -- The driver goes on only if the switch is not pressed, so no request has come yet.
    rw [hwired.poll_zero, Shutdown.Answer.polled.injEq, decide_eq_false_iff_not] at hlook
    exact ⟨hprogress, hheeded, fun _ => mayStart_of_not_mem hlook⟩
  | listen hposition =>
    rw [hposition] at hprogress hmay
    exact ⟨hprogress, hheeded, fun _ => hmay rfl⟩
  | notStarted hposition =>
    rw [hposition] at hprogress
    exact .settle hprogress hheeded
  | overflow _ hposition =>
    rw [hposition] at hmay
    exact .settle (inProgress_ended _ _ _) (hmay rfl).started.ended
  | start _ hposition =>
    rw [hposition] at hmay
    exact ⟨inProgress_started _ _, (hmay rfl).started, fun h => nomatch h⟩
  | finish hposition => exact .settle (inProgress_ended _ _ _) hheeded.ended
  | leave hposition | input hposition | conclude hposition | print hposition | close hposition =>
    rw [hposition] at hprogress
    exact ⟨hprogress, hheeded, fun h => nomatch h⟩

/-! ## Accounting for the runs -/

/-- The runs of the history `h`: those that are `finished`, which were completed and accepted, with
    their outcomes, then the `others`, which are in progress or `cancelled`. -/
structure Account (s : Settings) (h : List Happening) (finished : List (RunConfig × Outcome))
    (others cancelled : List RunConfig) : Prop where
  started : started h = finished.map (·.1) ++ others
  ended : ended h = finished.map (fun p => (p.1, .done p.2)) ++ cancelled.map (·, .cancelled)
  accepted : ∀ p ∈ finished, (p.2.records s.malformedOutput s.inputDir p.1).value =
    .ok (p.2.contribution s.inputDir p.1)

/-- The records that the `finished` runs contribute, in order. -/
def contributed (s : Settings) (finished : List (RunConfig × Outcome)) : List Record :=
  finished.flatMap fun p => p.2.contribution s.inputDir p.1

/-- A request leaves the `Account` as it is. -/
private theorem Account.requested {h : List Happening} {finished : List (RunConfig × Outcome)}
    {others cancelled : List RunConfig} (account : Account s h finished others cancelled) :
    Account s (h ++ [.requested]) finished others cancelled :=
  ⟨by simpa using account.started, by simpa using account.ended, account.accepted⟩

/-- `Balanced s st` says that no run is in progress any more: all that were started were completed,
    except that the last may have been cancelled, and the records are those that the completed runs
    contribute. -/
def Balanced (s : Settings) (st : State) : Prop :=
  ∃ finished cancelled, cancelled.length ≤ 1 ∧
    Account s st.history finished cancelled cancelled ∧ st.records = contributed s finished

/-- What is known about the runs of a sweep, by the position of `st`. -/
def Account.At (w : Workspace) (s : Settings) (st : State) : Prop :=
  match st.position with
  | .looking | .calling | .starting _ =>
    ∃ finished, Account s st.history finished [] [] ∧ st.records = contributed s finished
  | .running c _ _ =>
    ∃ finished, Account s st.history finished [c] [] ∧ st.records = contributed s finished
  | .concluding => Balanced s st
  | .printing _ e =>
    ∀ groups, e.result = .ok groups → e = (conclude w s st.records).value ∧ Balanced s st
  | .closed completion =>
    ∀ groups, completion.result = .ok groups →
      completion = { (conclude w s st.records).value with stdout := completion.stdout } ∧
      Announced (.requested ∈ st.history) (conclude w s st.records).value.stdout
        completion.stdout ∧ Balanced s st

/-- Every run has been started or is still to come, and all that were started have an `Account`. -/
structure Accounted (w : Workspace) (s : Settings) (st : State) : Prop where
  runs : started st.history ++ st.rest = runs s
  account : Account.At w s st

theorem accounted_start (w : Workspace) : Accounted w s (.start s) where
  runs := rfl
  account := ⟨[], ⟨rfl, rfl, by simp⟩, rfl⟩

/-- `settle` puts the run `c` that has just ended into the account. -/
private theorem Account.settle {w : Workspace} {st : State} {c : RunConfig} {x : Execution}
    {finished : List (RunConfig × Outcome)} (account : Account s st.history finished [c] [])
    (hrecords : st.records = contributed s finished) :
    Account.At w s (State.settle w s { st with history := st.history ++ [.ended c x] } c x) := by
  unfold State.settle
  -- The verdict is an error, the end of the loop, or the records of the run.
  split
  case h_1 e _ =>
    intro groups h
    exact nomatch h
  case h_2 hverdict =>
    obtain rfl := verdict_eq_none_iff.1 hverdict
    refine ⟨finished, [c], Nat.le_refl 1, ⟨?_, ?_, account.accepted⟩, hrecords⟩
    · simpa using account.started
    · simpa using account.ended
  case h_3 records hverdict =>
    obtain ⟨o, rfl, ho⟩ := verdict_eq_some_iff.1 hverdict
    obtain rfl := (Outcome.records_eq_ok ho).1
    refine ⟨finished ++ [(c, o)], ⟨?_, ?_, ?_⟩, ?_⟩
    · simpa using account.started
    · simpa using account.ended
    · intro p hp
      rcases List.mem_append.1 hp with hp | hp
      · exact account.accepted p hp
      · obtain rfl := List.mem_singleton.1 hp
        exact ho
    · simp [hrecords, contributed]

/-- A run that makes the sweep fail needs no account, as `Account.At` says nothing about an
    error. -/
private theorem Account.settle_error {w : Workspace} {st : State} {c : RunConfig} {x : Execution}
    {e : SweepError} (h : verdictOn s c x = .error e) :
    Account.At w s (st.settle w s c x) := by
  rw [settle_of_error h]
  intro groups hgroups
  exact nomatch hgroups

/-- `Account.At` stays as it is when a sweep that has not returned is asked to stop. -/
private theorem Account.At.request {w : Workspace} {st : State} (board : Shutdown.Board)
    (hopen : st.position.isOpen = true) (h : Account.At w s st) :
    Account.At w s { st with board, history := st.history ++ [.requested] } := by
  have hbalanced : Balanced s st →
      Balanced s { st with board, history := st.history ++ [.requested] } := by
    rintro ⟨finished, cancelled, hle, account, hrecords⟩
    exact ⟨finished, cancelled, hle, account.requested, hrecords⟩
  revert h
  cases hposition : st.position with
  | looking | calling | starting _ | running _ _ _ =>
    simp only [Account.At, hposition]
    rintro ⟨finished, account, hrecords⟩
    exact ⟨finished, account.requested, hrecords⟩
  | concluding =>
    simp only [Account.At, hposition]
    exact hbalanced
  | printing left e =>
    simp only [Account.At, hposition]
    intro hended groups hgroups
    exact (hended groups hgroups).imp_right hbalanced
  | closed completion =>
    rw [hposition] at hopen
    exact nomatch hopen

theorem Accounted.step {st st' : State} (hstep : Step env s tool st st') (hspoken : Spoken st)
    (h : Accounted env.workspace s st) : Accounted env.workspace s st' := by
  obtain ⟨hruns, haccount⟩ := h
  cases hstep with
  | request _ hopen => exact ⟨by simpa using hruns, haccount.request _ hopen⟩
  | announce => exact ⟨hruns, haccount⟩
  | leave hposition =>
    simp only [Account.At, hposition] at haccount
    obtain ⟨finished, account, hrecords⟩ := haccount
    exact ⟨hruns, finished, [], Nat.zero_le 1, account, hrecords⟩
  | goOn hposition | listen hposition | input hposition | print hposition =>
    simp only [Account.At, hposition] at haccount
    exact ⟨hruns, haccount⟩
  | notStarted =>
    -- The run was not started, so it stays among those to come.
    exact ⟨by simpa using hruns, Account.settle_error rfl⟩
  | overflow _ _ hrest =>
    rw [hrest] at hruns
    refine ⟨?_, Account.settle_error rfl⟩
    rw [settle_history, settle_rest, started_ended, started_started, List.append_assoc]
    exact hruns
  | start _ hposition hrest =>
    simp only [Account.At, hposition] at haccount
    rw [hrest] at hruns
    obtain ⟨finished, account, hrecords⟩ := haccount
    refine ⟨by simpa using hruns, finished, ⟨?_, ?_, account.accepted⟩, hrecords⟩
    · simpa using account.started
    · simpa using account.ended
  | finish hposition =>
    -- The run in progress is put among the completed runs, or it is the cancelled one.
    simp only [Account.At, hposition] at haccount
    obtain ⟨finished, account, hrecords⟩ := haccount
    exact ⟨by simpa using hruns, account.settle hrecords⟩
  | conclude hposition =>
    simp only [Account.At, hposition] at haccount
    exact ⟨hruns, fun _ _ => ⟨rfl, haccount⟩⟩
  | close hposition hannounced =>
    have hprinted := hspoken.announced hposition hannounced
    simp only [Account.At, hposition] at haccount
    refine ⟨hruns, fun groups hgroups => ?_⟩
    obtain ⟨rfl, hbalanced⟩ := haccount groups hgroups
    exact ⟨rfl, hprinted, hbalanced⟩

/-! ## All interleavings -/

/-- However requests to stop and the events of a run are interleaved:

    * the runs that were started are the first ones of the grid, in order, and none twice;
    * at most one run is started after the first request, and none if it came during a run;
    * if the sweep ends well, all runs that were started were completed, except that the last may
      have been cancelled, and what is returned, printed and exported are the records that the
      completed runs contribute, in order.  Exactly if there was a request, the notice is printed
      too, once, and before or after the summary.

    What the sweep leaves behind is always what `run` leaves behind, with the same files and some
    tool, clock and requests. -/
theorem runs_and_records_of_interleaving (env : Environment) (d : Definition) (s : Settings)
    (tool : String) (st : State)
    (hbuild : (d.build env.workspace.readText env.timestamp).value = .ok s)
    (htool : (ToolLookup.toolPath env.workspace env.toolVariable env.searchPath s.binary).value =
      .ok tool)
    (hreach : Reaches env s tool (.start s) st) :
    (∃ n ≤ (runs s).length, started st.history = (runs s).take n ∧
      (started st.history).map (·.runIndex) = (List.range n).map UInt64.ofNat) ∧
    ((runs s).length ≤ UInt64.size → (started st.history).Nodup) ∧
    (∀ before after, FirstRequest st.history before after →
      (started after).length ≤ 1 ∧ (inProgress before = true → started after = [])) ∧
    ∀ completion, st.position = .closed completion →
      ((runs s).length ≤ UInt64.size →
        ∃ stop late place clock course,
          (run { env with stopRequested := stop, requestedLate := late, noticePlace := place, clock,
                          course } d).value = completion) ∧
      ∀ groups, completion.result = .ok groups →
        ∃ finished cancelled, cancelled.length ≤ 1 ∧
          Account s st.history finished cancelled cancelled ∧
          let records := contributed s finished
          groups = rank records ∧
          Announced (.requested ∈ st.history) (printout env.workspace s records)
            completion.stdout ∧
          Exported s.resultsPath env.workspace completion.workspace (Record.store records) := by
  -- The steps of `Heeding` and `Accounted` use `Wired` and `Spoken`, so all four go together.
  have hall : (Wired st ∧ Spoken st) ∧ Heeding st ∧ Accounted env.workspace s st :=
    hreach.induction
      (P := fun st => (Wired st ∧ Spoken st) ∧ Heeding st ∧ Accounted env.workspace s st)
      ⟨⟨wired_start, spoken_start⟩, heeding_start, accounted_start env.workspace⟩ fun hstep h =>
        ⟨⟨h.1.1.step hstep, h.1.2.step hstep⟩, h.2.1.step hstep h.1.1, h.2.2.step hstep h.1.2⟩
  obtain ⟨-, hheeding, haccounted⟩ := hall
  have htake : started st.history = (runs s).take (started st.history).length := by
    rw [← haccounted.runs, List.take_left]
  have hle : (started st.history).length ≤ (runs s).length := by
    rw [← haccounted.runs, List.length_append]
    omega
  refine ⟨⟨_, hle, htake, ?_⟩, ?_, hheeding.heeded, ?_⟩
  · rw [htake, List.map_take, map_runIndex_runs, ← List.map_take, List.take_range]
    simp [hle]
  · intro hsize
    rw [htake]
    exact (nodup_runs hsize).sublist (List.take_sublist _ _)
  · intro completion hposition
    refine ⟨?_, ?_⟩
    · intro hsize
      exact exists_run_of_reaches hbuild htool (nodup_runs hsize) hreach hposition
    -- The account of a sweep that has returned is that of its conclusion.
    · intro groups hgroups
      have haccount := haccounted.account
      simp only [Account.At, hposition] at haccount
      obtain ⟨hcompletion, hannounced, finished, cancelled, hcancelled, account, hrecords⟩ :=
        haccount groups hgroups
      refine ⟨finished, cancelled, hcancelled, account, ?_⟩
      rw [hcompletion] at hgroups
      obtain ⟨hranked, hstdout, hexported⟩ := conclude_eq_ok hgroups
      rw [hstdout] at hannounced
      rw [← hrecords]
      refine ⟨hranked, hannounced, ?_⟩
      rw [hcompletion]
      exact hexported

/-- One run `c` can indeed be started after the first request: this comes too late if the driver has
    just looked at the switch.  The records of the run are kept if its end is noticed first. -/
private theorem reaches_late_request (env : Environment) (s : Settings) (tool : String)
    (c : RunConfig) (rest : List RunConfig) (clock : Duration) (course : Course)
    (r : Supervisor.Result) (first : List Record) (place : Nat) (hruns : runs s = c :: rest)
    (hstart : toolStart env s tool c = .ok ())
    (hdeadline : (limits s).deadlineFits clock = true) (hphase : phase s c course = .over r)
    (hverdict : verdictOn s c (course.execution (.over r)) = .ok (some first)) :
    ∃ st, Reaches env s tool (.start s) st ∧
      st.position = .closed ((ending env.workspace s (.ok first)).value.announce true place) ∧
      st.history = [.requested, .started c, .ended c (course.execution (.over r))] := by
  let begun : State :=
    { board := .wired true 1
      position := .running c 1 { stdout := course.stdout, stderr := course.stderr, inputs := [] }
      rest, history := [.requested, .started c] }
  have hbegun : Reaches env s tool (.start s) begun := by
    refine .head (.goOn rfl (by simp [State.start, hruns]) rfl) ?_
    refine .head (.listen rfl rfl) ?_
    refine .head (.request 1 rfl rfl) ?_
    exact .single (.start clock rfl hruns hstart hdeadline course.stdout course.stderr)
  -- The listener of the supervisor is ready all the time.
  obtain ⟨position, hfinish⟩ := reaches_finish env s tool begun rfl (fun _ => rfl) hphase
  rw [settle_of_some hverdict] at hfinish
  have hended := ((hbegun.trans hfinish).tail (.leave rfl (.inr rfl))).tail (.conclude rfl)
  have hrequested : .requested ∈
      [Happening.requested, .started c, .ended c (course.execution (.over r))] ↔ true = true := by
    simp
  obtain ⟨st, hclosed, hposition, hhistory⟩ := reaches_closed env s tool
    { begun with
      position := .ofEnding (ending env.workspace s (.ok first)).value
      records := first
      history := [.requested, .started c, .ended c (course.execution (.over r))] }
    place rfl rfl (notice_not_mem_ending _ _ _) hrequested
  exact ⟨st, hended.trans hclosed, hposition, hhistory⟩

/-- What the tool does in the first run of the `rehearsal`. -/
def rehearsalCourse : Course where
  stdout := (rehearsalScripts.getD 0 {}).stdout
  inputs := [.exited (.code 0), .ended .stdout, .ended .stderr]

/-- In the `rehearsal`, a request between the look at the switch and the start of the first run does
    not keep this run from being completed.  Its record is kept, no other run is started, and the
    notice may still come after the summary. -/
theorem late_request_keeps_record :
    ∃ st completion, Reaches rehearsal rehearsalSettings "./tool" (.start rehearsalSettings) st ∧
      st.position = .closed completion ∧ completion.result = .ok [⟨"qft", [rehearsalRecord]⟩] ∧
      started st.history = (runs rehearsalSettings).take 1 ∧
      (∃ after, FirstRequest st.history [] after ∧ (started after).length = 1) ∧
      (∃ stop late place clock course,
        (run { rehearsal with stopRequested := stop, requestedLate := late, noticePlace := place,
                              clock, course } rehearsalDefinition).value = completion) ∧
      ∃ finished cancelled, Account rehearsalSettings st.history finished cancelled cancelled ∧
        rank (contributed rehearsalSettings finished) = [⟨"qft", [rehearsalRecord]⟩] ∧
        Announced True
          (printout rehearsal.workspace rehearsalSettings (contributed rehearsalSettings finished))
          completion.stdout ∧
        completion.stdout.getLast? = some .notice ∧
        Exported (some "old") rehearsal.workspace completion.workspace
          (Record.store (contributed rehearsalSettings finished)) := by
  obtain ⟨st, hreach, hposition, hhistory⟩ := reaches_late_request rehearsal rehearsalSettings
    "./tool" .plain (runs rehearsalSettings).tail (.ofSeconds 0) rehearsalCourse
    (.completed (.code 0)) [rehearsalRecord] 1 (by decide +kernel) (by decide +kernel)
    (by decide +kernel) (by decide +kernel) (by decide +kernel)
  obtain ⟨-, -, -, hover⟩ := runs_and_records_of_interleaving rehearsal rehearsalDefinition
    rehearsalSettings "./tool" st (by decide +kernel) (by decide +kernel) hreach
  obtain ⟨hrun, hwell⟩ := hover _ hposition
  have hresult : ((ending rehearsal.workspace rehearsalSettings
      (.ok [rehearsalRecord])).value.announce true 1).result = .ok [⟨"qft", [rehearsalRecord]⟩] := by
    decide +kernel
  obtain ⟨finished, cancelled, -, account, hgroups, hannounced, hexported⟩ := hwell _ hresult
  have hrequested : (.requested ∈ st.history) = True := by simp [hhistory]
  rw [hrequested] at hannounced
  refine ⟨st, _, hreach, hposition, hresult, ?_, ?_, hrun (by decide +kernel), finished, cancelled,
    account, hgroups.symm, hannounced, by decide +kernel, hexported⟩
  · rw [hhistory]
    decide +kernel
  · exact ⟨_, ⟨hhistory, List.not_mem_nil⟩, rfl⟩

end MapperSweep.Sweep
