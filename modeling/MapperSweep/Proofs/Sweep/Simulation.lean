import Mathlib.Data.List.Nodup
import MapperSweep.Proofs.Supervisor
import MapperSweep.Proofs.Sweep.Driver

/-!
# The steps of a sweep and the sweep as a whole

A sweep that is cut into steps leaves behind what a sweep leaves behind.  In one direction, whatever
the steps have led to so far is what the loop over the runs returns for some tool; this is kept by
every step.  In the other, every sweep whose runs come to an end can be gone through step by step.

## Key results

- `Simulated.step`, `exists_run_of_reaches`: the steps lead to nothing that no sweep does
- `exists_reaches_run`: the steps lead to all that a sweep does
-/

namespace MapperSweep.Sweep

variable {env : Environment} {s : Settings} {tool : String}

/-! ## The loop over the runs -/

/-- What is open about each run: what the clock shows at its start and what the tool does. -/
structure Future where
  clock : RunConfig → Duration
  course : RunConfig → Invocation → Course

/-- The surroundings `env` with another `future`, and with or without a request before the first
    run. -/
def Environment.withTool (env : Environment) (stop : Bool) (future : Future) : Environment :=
  { env with stopRequested := stop, clock := future.clock, course := future.course }

/-- The loop over the runs `cs`, without its log. -/
def loop (env : Environment) (s : Settings) (tool : String) (stop : Bool) (cs : List RunConfig) :
    Tour :=
  (runAll (attempt env s tool) (stopped env s tool)
    (fun c o => o.records s.malformedOutput s.inputDir c) stop cs).value

/-- A sweep with settings `s` and a `tool` is the `loop` over all runs, the `ending` and the
    notice. -/
theorem run_value_eq_ending {d : Definition}
    (hbuild : (d.build env.workspace.readText env.timestamp).value = .ok s)
    (htool : (ToolLookup.toolPath env.workspace env.toolVariable env.searchPath s.binary).value =
      .ok tool) :
    (run env d).value =
      (ending env.workspace s (loop env s tool env.stopRequested (runs s)).result).value.announce
        ((loop env s tool env.stopRequested (runs s)).asked || env.requestedLate)
        env.noticePlace := by
  rw [run_value_of_collect hbuild htool, collect_value]
  rfl

/-- What comes of the run `c` if the tool takes the given `course` and `clock` is what the clock
    shows. -/
def executed (env : Environment) (s : Settings) (tool : String) (c : RunConfig) (clock : Duration)
    (course : Course) : Execution :=
  (execute (limits s) clock env.workspace c.runIndex (invocation s tool c) course).value

section

variable {c : RunConfig} {clock : Duration} {course : Course}

theorem executed_of_error {e : FileError} (h : toolStart env s tool c = .error e) :
    executed env s tool c clock course = .notStarted (invocation s tool c).program e := by
  rw [toolStart] at h
  rw [executed, execute_value, h]

theorem executed_of_overflow (h : toolStart env s tool c = .ok ())
    (hdeadline : (limits s).deadlineFits clock = false) :
    executed env s tool c clock course = .deadlineOverflow := by
  rw [toolStart] at h
  simp [executed, execute_value, h, hdeadline]

theorem executed_of_start (h : toolStart env s tool c = .ok ())
    (hdeadline : (limits s).deadlineFits clock = true) :
    executed env s tool c clock course = course.execution (phase s c course) := by
  rw [toolStart] at h
  simp [executed, execute_value, h, hdeadline, phase]

/-- A run is `.cancelled` only if its supervisor is told of a request. -/
theorem stopRequested_mem_of_execution (h : course.execution (phase s c course) = .cancelled) :
    .stopRequested ∈ course.inputs := by
  have hphase := Course.execution_eq_cancelled_iff.1 h
  exact Supervisor.stopRequested_mem_of_cancelled (by simp [Supervisor.Phase.start,
    Supervisor.Phase.stop?]) (congrArg Supervisor.Phase.stop? hphase)

theorem stopRequested_mem_of_executed
    (h : executed env s tool c clock course = .cancelled) : .stopRequested ∈ course.inputs := by
  obtain ⟨-, -, hx⟩ := execution_of_execute h (.inr rfl)
  exact stopRequested_mem_of_execution hx

end

/-- One turn of the `loop`. -/
theorem loop_cons (env : Environment) (s : Settings) (tool : String) (c : RunConfig)
    (cs : List RunConfig) :
    loop env s tool false (c :: cs) =
      carryOn
        (verdictOn s c (executed env s tool c (env.clock c) (env.course c (invocation s tool c))))
        (stopped env s tool c) (loop env s tool (stopped env s tool c) cs) :=
  runAll_cons_value c cs

/-- The `loop` does not go on if there are no runs, or if the sweep shall stop. -/
theorem loop_of_leave {stop : Bool} {cs : List RunConfig} (h : cs = [] ∨ stop = true) :
    loop env s tool stop cs = { result := .ok [], asked := stop } := by
  match stop, cs, h with
  | _, [], _ => simp [loop, runAll]
  | true, _ :: _, _ => simp [loop, runAll]

@[simp] theorem prepend_nil (t : Tour) : t.prepend [] = t := by
  obtain ⟨result, asked⟩ := t
  cases result <;> rfl

@[simp] theorem prepend_prepend (first more : List Record) (t : Tour) :
    (t.prepend more).prepend first = t.prepend (first ++ more) := by
  obtain ⟨result, asked⟩ := t
  cases result <;> simp [Tour.prepend, Except.map]

/-! ## Every step is simulated -/

/-- Whatever the `future` of the remaining runs, there is a sweep with this future that has
    contributed `records` before. -/
structure Simulable (env : Environment) (s : Settings) (tool : String) (records : List Record)
    (rest : List RunConfig) : Prop where
  nodup : rest.Nodup
  simulate : ∀ (stop : Bool) (future : Future), ∃ early whole,
    (∀ c ∈ rest, whole.clock c = future.clock c ∧ whole.course c = future.course c) ∧
      loop (env.withTool early whole) s tool early (runs s) =
        (loop (env.withTool early whole) s tool stop rest).prepend records

private theorem simulable_start (h : (runs s).Nodup) : Simulable env s tool [] (runs s) where
  nodup := h
  simulate stop future := ⟨stop, future, fun _ _ => ⟨rfl, rfl⟩, (prepend_nil _).symm⟩

/-- There is a sweep whose `loop` returns `r`, and which was asked to stop only if `requested`. -/
def Toured (env : Environment) (s : Settings) (tool : String) (requested : Prop)
    (r : Except SweepError (List Record)) : Prop :=
  ∃ early future, (loop (env.withTool early future) s tool early (runs s)).result = r ∧
    ((loop (env.withTool early future) s tool early (runs s)).asked = true → requested)

section

variable {requested : Prop} {records : List Record} {c : RunConfig} {rest : List RunConfig}
  {x : Execution} {clock : Duration} {course : Course}

/-- The sweep ends before the runs `rest`. -/
private theorem Simulable.stop [Decidable requested] (h : Simulable env s tool records rest)
    (hleave : rest = [] ∨ requested) : Toured env s tool requested (.ok records) := by
  obtain ⟨early, future, -, hloop⟩ := h.simulate (decide requested)
    { clock := env.clock, course := env.course }
  rw [loop_of_leave (hleave.imp_right decide_eq_true)] at hloop
  refine ⟨early, future, ?_, ?_⟩
  · simp [hloop, Tour.prepend, Except.map]
  · simp [hloop, Tour.prepend]

/-- The next run `c` takes the given `course`, and the sweep is asked to stop afterwards or not. -/
private theorem Simulable.next (h : Simulable env s tool records (c :: rest))
    (hx : ∀ stop, executed env s tool c clock { course with stopRequested := stop } = x)
    (stop : Bool) (future : Future) :
    ∃ early later,
      (∀ d ∈ rest, later.clock d = future.clock d ∧ later.course d = future.course d) ∧
      loop (env.withTool early later) s tool early (runs s) =
        (carryOn (verdictOn s c x) stop
          (loop (env.withTool early later) s tool stop rest)).prepend records := by
  obtain ⟨early, later, hagree, hloop⟩ := h.simulate false
    { clock := fun d => if d = c then clock else future.clock d
      course := fun d i =>
        if d = c then { course with stopRequested := stop } else future.course d i }
  obtain ⟨hclock, hcourse⟩ := hagree c (List.mem_cons_self ..)
  simp only [if_true] at hclock hcourse
  refine ⟨early, later, ?_, ?_⟩
  · -- The run does not occur a second time, so the others take their course as before.
    intro d hd
    have hne : d ≠ c := fun heq => (List.nodup_cons.1 h.nodup).1 (heq ▸ hd)
    simpa [hne] using hagree d (List.mem_cons_of_mem c hd)
  · have hstopped : stopped (env.withTool early later) s tool c = stop := by
      simp only [stopped, Environment.withTool, hcourse]
    have hexecuted : executed (env.withTool early later) s tool c
        ((env.withTool early later).clock c)
        ((env.withTool early later).course c (invocation s tool c)) = x := by
      simp only [Environment.withTool, hclock, hcourse]
      exact hx stop
    rw [hloop, loop_cons, hexecuted, hstopped]

/-- The run `c` makes the sweep fail with `e`. -/
private theorem Simulable.fail {e : SweepError} (h : Simulable env s tool records (c :: rest))
    (hx : ∀ stop, executed env s tool c clock { course with stopRequested := stop } = x)
    (hverdict : verdictOn s c x = .error e) : Toured env s tool requested (.error e) := by
  obtain ⟨early, later, -, hloop⟩ := h.next hx false { clock := env.clock, course := env.course }
  rw [hverdict] at hloop
  refine ⟨early, later, by rw [hloop]; rfl, fun hasked => ?_⟩
  rw [hloop] at hasked
  exact nomatch hasked

/-- The run `c` is cancelled, after a request. -/
private theorem Simulable.cancel (h : Simulable env s tool records (c :: rest))
    (hx : ∀ stop, executed env s tool c clock { course with stopRequested := stop } = x)
    (hverdict : verdictOn s c x = .ok none) (hrequested : requested) :
    Toured env s tool requested (.ok records) := by
  obtain ⟨early, later, -, hloop⟩ := h.next hx false { clock := env.clock, course := env.course }
  rw [hverdict] at hloop
  exact ⟨early, later, by simp [hloop, carryOn, Tour.prepend, Except.map], fun _ => hrequested⟩

/-- The run `c` contributes its records, `first`, and the sweep is `Simulable` from there on. -/
private theorem Simulable.accept {first : List Record}
    (h : Simulable env s tool records (c :: rest))
    (hx : ∀ stop, executed env s tool c clock { course with stopRequested := stop } = x)
    (hverdict : verdictOn s c x = .ok (some first)) :
    Simulable env s tool (records ++ first) rest where
  nodup := (List.nodup_cons.1 h.nodup).2
  simulate stop future := by
    obtain ⟨early, later, hagree, hloop⟩ := h.next hx stop future
    rw [hverdict] at hloop
    exact ⟨early, later, hagree, hloop.trans (prepend_prepend ..)⟩

end

/-- `Simulated env s tool st` says that what has happened up to `st` is what some sweep does. -/
def Simulated (env : Environment) (s : Settings) (tool : String) (st : State) : Prop :=
  match st.position with
  | .looking | .calling | .starting _ => Simulable env s tool st.records st.rest
  | .running c _ course =>
    Simulable env s tool st.records (c :: st.rest) ∧
      (.stopRequested ∈ course.inputs → .requested ∈ st.history) ∧
      ∃ clock, ∀ inputs stop,
        executed env s tool c clock { course with inputs, stopRequested := stop } =
          course.execution (phase s c { course with inputs })
  | .concluding => Toured env s tool (.requested ∈ st.history) (.ok st.records)
  | .printing _ e =>
    ∃ r, Toured env s tool (.requested ∈ st.history) r ∧ e = (ending env.workspace s r).value
  | .closed completion =>
    ∃ early late place future,
      let tour := loop (env.withTool early future) s tool early (runs s)
      completion = (ending env.workspace s tour.result).value.announce (tour.asked || late) place

theorem simulated_start (h : (runs s).Nodup) : Simulated env s tool (.start s) :=
  simulable_start h

private theorem Toured.mono {requested requested' : Prop} {r : Except SweepError (List Record)}
    (h : Toured env s tool requested r) (himp : requested → requested') :
    Toured env s tool requested' r := by
  obtain ⟨early, future, hresult, hasked⟩ := h
  exact ⟨early, future, hresult, fun h => himp (hasked h)⟩

/-- `Simulated` is kept when a sweep that has not returned is asked to stop. -/
private theorem Simulated.request {st : State} (board : Shutdown.Board)
    (hopen : st.position.isOpen = true) (h : Simulated env s tool st) :
    Simulated env s tool { st with board, history := st.history ++ [.requested] } := by
  have himp : .requested ∈ st.history → .requested ∈ st.history ++ [.requested] :=
    List.mem_append_left _
  -- `Simulated` is decided by the position, which does not change; the history only grows.
  revert h
  cases hposition : st.position with
  | looking | calling | starting _ =>
    simp only [Simulated, hposition]
    exact id
  | running c l course =>
    simp only [Simulated, hposition]
    rintro ⟨hsimulable, hinputs, hexecuted⟩
    exact ⟨hsimulable, fun h => himp (hinputs h), hexecuted⟩
  | concluding =>
    simp only [Simulated, hposition]
    exact fun h => h.mono himp
  | printing left e =>
    simp only [Simulated, hposition]
    rintro ⟨r, htoured, he⟩
    exact ⟨r, htoured.mono himp, he⟩
  | closed completion =>
    rw [hposition] at hopen
    exact nomatch hopen

/-- `settle` after a run that makes the sweep fail with `e`. -/
private theorem Simulated.settle_error {st : State} {c : RunConfig} {rest : List RunConfig}
    {x : Execution} {e : SweepError} {records : List Record} (clock : Duration) (course : Course)
    (h : Simulable env s tool records (c :: rest))
    (hx : ∀ stop, executed env s tool c clock { course with stopRequested := stop } = x)
    (hverdict : verdictOn s c x = .error e) :
    Simulated env s tool (st.settle env.workspace s c x) := by
  rw [settle_of_error hverdict]
  exact ⟨_, h.fail hx hverdict, rfl⟩

/-- The notice among the pieces of `e` is there as if it had been put there in the end. -/
theorem Announced.exists_announce {e : Completion} {asked : Bool} {stdout : List Print}
    (h : Announced (asked = true) e.stdout stdout) :
    ∃ place, { e with stdout } = e.announce asked place := by
  cases asked with
  | false => exact ⟨0, by rw [h.2 Bool.false_ne_true]; rfl⟩
  | true =>
    obtain ⟨before, after, hpieces, rfl⟩ := h.1 rfl
    exact ⟨before.length, by simp [Completion.announce, hpieces]⟩

theorem Simulated.step {st st' : State} (hstep : Step env s tool st st') (hwired : Wired st)
    (hspoken : Spoken st) (h : Simulated env s tool st) : Simulated env s tool st' := by
  cases hstep with
  | request _ hopen => exact h.request _ hopen
  | announce => exact h
  | leave hposition hlook =>
    -- Only now is it known whether a request came after the last run; the simulation left it open.
    simp only [Simulated, hposition] at h
    rw [hwired.poll_zero, Shutdown.Answer.polled.injEq, decide_eq_true_iff] at hlook
    exact h.stop hlook
  | goOn hposition | listen hposition =>
    simp only [Simulated, hposition] at h
    exact h
  | notStarted hposition hrest hstart =>
    simp only [Simulated, hposition, hrest] at h
    exact settle_error (.ofSeconds 0) { inputs := [] } h (fun _ => executed_of_error hstart) rfl
  | overflow clock hposition hrest hstart hdeadline =>
    simp only [Simulated, hposition, hrest] at h
    exact settle_error clock { inputs := [] } h (fun _ => executed_of_overflow hstart hdeadline) rfl
  | start clock hposition hrest hstart hdeadline =>
    simp only [Simulated, hposition, hrest] at h
    exact ⟨h, (fun h => nomatch h), clock, fun _ _ => executed_of_start hstart hdeadline⟩
  | input hposition i hready =>
    have hpoll := hwired.poll_listener (by rw [hposition]; rfl)
    simp only [Simulated, hposition] at h
    obtain ⟨hsimulable, hinputs, hexecuted⟩ := h
    refine ⟨hsimulable, fun hmem => ?_, hexecuted⟩
    rcases List.mem_append.1 hmem with hmem | hmem
    · exact hinputs hmem
    · -- The listener is ready only if the switch is pressed.
      have hpressed := hready (List.mem_singleton.1 hmem).symm
      rw [hpoll, Shutdown.Answer.polled.injEq] at hpressed
      exact of_decide_eq_true hpressed
  | @finish c l course r hposition hover =>
    simp only [Simulated, hposition] at h
    obtain ⟨hsimulable, hinputs, clock, hexecuted⟩ := h
    have hx : ∀ stop, executed env s tool c clock { course with stopRequested := stop } =
        course.execution (.over r) := by
      intro stop
      rw [← hover]
      exact hexecuted course.inputs stop
    unfold State.settle
    split
    case h_1 e hverdict => exact ⟨_, hsimulable.fail hx hverdict, rfl⟩
    case h_2 hverdict =>
      have hcancelled := verdict_eq_none_iff.1 hverdict
      rw [← hover] at hcancelled
      exact hsimulable.cancel hx hverdict
        (List.mem_append_left _ (hinputs (stopRequested_mem_of_execution hcancelled)))
    case h_3 first hverdict => exact hsimulable.accept hx hverdict
  | conclude hposition =>
    simp only [Simulated, hposition] at h
    exact ⟨_, h, rfl⟩
  | print hposition =>
    simp only [Simulated, hposition] at h
    exact h
  | close hposition hannounced =>
    have hprinted := hspoken.announced hposition hannounced
    simp only [Simulated, hposition] at h
    obtain ⟨r, ⟨early, future, rfl, hasked⟩, rfl⟩ := h
    -- A request that the loop has not noticed came too late for it.
    have hsame : (.requested ∈ st.history) =
        (((loop (env.withTool early future) s tool early (runs s)).asked ||
          decide (.requested ∈ st.history)) = true) := by
      simpa using hasked
    rw [hsame] at hprinted
    obtain ⟨place, hcompletion⟩ := hprinted.exists_announce
    exact ⟨early, decide (.requested ∈ st.history), place, future, hcompletion⟩

/-- What a sweep step by step leaves behind is what `run` leaves behind with some tool, some clock
    and some requests. -/
theorem exists_run_of_reaches {d : Definition} {st : State} {completion : Completion}
    (hbuild : (d.build env.workspace.readText env.timestamp).value = .ok s)
    (htool : (ToolLookup.toolPath env.workspace env.toolVariable env.searchPath s.binary).value =
      .ok tool)
    (hnodup : (runs s).Nodup) (hreach : Reaches env s tool (.start s) st)
    (hposition : st.position = .closed completion) :
    ∃ stop late place clock course,
      (run { env with stopRequested := stop, requestedLate := late, noticePlace := place, clock,
                      course } d).value = completion := by
  have hall : Wired st ∧ Spoken st ∧ Simulated env s tool st :=
    hreach.induction (P := fun st => Wired st ∧ Spoken st ∧ Simulated env s tool st)
      ⟨wired_start, spoken_start, simulated_start hnodup⟩ fun hstep h =>
        ⟨h.1.step hstep, h.2.1.step hstep, h.2.2.step hstep h.1 h.2.1⟩
  have hsimulated := hall.2.2
  simp only [Simulated, hposition] at hsimulated
  obtain ⟨stop, late, place, future, rfl⟩ := hsimulated
  exact ⟨stop, late, place, future.clock, future.course, run_value_eq_ending hbuild htool⟩

/-! ## Every sweep, step by step -/

section

variable (env s tool)

/-- A request comes now, if `requested`, or none comes. -/
private theorem reaches_request (st : State) {p : Bool} {n : Nat}
    (hopen : st.position.isOpen = true) (hboard : st.board = .wired p n) (requested : Bool) :
    ∃ history, Reaches env s tool st
      { st with board := .wired (p || requested) n, history } := by
  obtain ⟨board, position, rest, records, history, printed⟩ := st
  obtain rfl := hboard
  cases requested with
  | false =>
    rw [Bool.or_false]
    exact ⟨history, .refl⟩
  | true =>
    rw [Bool.or_true]
    exact ⟨_, .single (.request 1 hopen Shutdown.Board.request_one_wired)⟩

/-- The supervisor takes the `inputs` one by one. -/
private theorem reaches_inputs (st : State) {c : RunConfig} {l : Nat} {course : Course}
    (inputs : List Supervisor.Input) (hposition : st.position = .running c l course)
    (hready : .stopRequested ∈ inputs → (st.board.step (.poll l)).2 = .polled true) :
    Reaches env s tool st
      { st with position := .running c l { course with inputs := course.inputs ++ inputs } } := by
  induction inputs generalizing st course with
  | nil =>
    rw [List.append_nil, ← hposition]
    exact .refl
  | cons i inputs ih =>
    have hi : i = .stopRequested → (st.board.step (.poll l)).2 = .polled true := by
      intro hi
      exact hready (by simp [hi])
    let next : State :=
      { st with position := .running c l { course with inputs := course.inputs ++ [i] } }
    have hstep : Step env s tool st next := .input hposition i hi
    have hrest := ih next rfl fun h => hready (List.mem_cons_of_mem i h)
    rw [List.append_assoc, List.singleton_append] at hrest
    exact .head hstep hrest

/-- A run that has just been started takes the `course` to its end. -/
theorem reaches_finish (st : State) {l : Nat} {c : RunConfig} {course : Course}
    {r : Supervisor.Result}
    (hposition : st.position =
      .running c l { stdout := course.stdout, stderr := course.stderr, inputs := [] })
    (hready : .stopRequested ∈ course.inputs → (st.board.step (.poll l)).2 = .polled true)
    (hphase : phase s c course = .over r) :
    ∃ position, Reaches env s tool st
      (State.settle env.workspace s
        { st with position, history := st.history ++ [.ended c (course.execution (.over r))] } c
        (course.execution (.over r))) := by
  have hinputs := reaches_inputs env s tool st course.inputs hposition hready
  -- What came of the run depends on what was printed and on the inputs alone.
  let seen : Course := { stdout := course.stdout, stderr := course.stderr, inputs := course.inputs }
  have hphase' : phase s c seen = .over r := hphase
  have hx : seen.execution (.over r) = course.execution (.over r) := rfl
  rw [← hx]
  exact ⟨_, hinputs.tail (.finish rfl hphase')⟩

/-- `Heard course` holds if the supervisor is told of a request only if there was one. -/
def Heard (course : Course) : Prop :=
  .stopRequested ∈ course.inputs → course.stopRequested = true

/-- The run `c` takes the course that `env` gives, and the driver comes to its verdict. -/
private theorem reaches_verdict (st : State) {n : Nat} {c : RunConfig} {rest : List RunConfig}
    {x : Execution} (hheard : ∀ i, Heard (env.course c i))
    (hx : executed env s tool c (env.clock c) (env.course c (invocation s tool c)) = x)
    (hover : x ≠ .unfinished) (hboard : st.board = .wired false n)
    (hposition : st.position = .starting n) (hrest : st.rest = c :: rest) :
    ∃ before : State, Reaches env s tool st (before.settle env.workspace s c x) ∧
      before.records = st.records ∧ before.printed = st.printed ∧
      before.board = .wired (stopped env s tool c) n ∧
      ∀ taken, verdictOn s c x = .ok taken → before.rest = rest := by
  -- A request that comes during the run may as well come right before the start: the supervisor
  -- learns of it when the course says so.
  obtain ⟨history, hrequest⟩ := reaches_request env s tool st (by rw [hposition]; rfl) hboard
    (stopped env s tool c)
  let asked : State := { st with board := .wired (stopped env s tool c) n, history }
  have hasked : Reaches env s tool st asked := hrequest
  cases hstart : toolStart env s tool c with
  | error e =>
    obtain rfl := hx.symm.trans (executed_of_error hstart)
    exact ⟨asked, hasked.tail (.notStarted hposition hrest hstart), rfl, rfl, rfl,
      fun _ h => nomatch h⟩
  | ok _ =>
    cases hdeadline : (limits s).deadlineFits (env.clock c) with
    | false =>
      obtain rfl := hx.symm.trans (executed_of_overflow hstart hdeadline)
      exact ⟨_, hasked.tail (.overflow _ hposition hrest hstart hdeadline), rfl, rfl, rfl,
        fun _ h => nomatch h⟩
    | true =>
      rw [executed_of_start hstart hdeadline] at hx
      match hphase : phase s c (env.course c (invocation s tool c)) with
      | .over r =>
        rw [hphase] at hx
        obtain rfl := hx
        let course := env.course c (invocation s tool c)
        let begun : State :=
          { asked with
            position :=
              .running c n { stdout := course.stdout, stderr := course.stderr, inputs := [] }
            rest, history := history ++ [.started c] }
        have hcalled : asked.position = .starting n := hposition
        have hbegun : Step env s tool asked begun := .start _ hcalled hrest hstart hdeadline _ _
        have hready : .stopRequested ∈ course.inputs →
            ((Shutdown.Board.wired course.stopRequested n).step (.poll n)).2 = .polled true := by
          intro hmem
          rw [Shutdown.Board.poll_wired (Nat.le_refl n), hheard _ hmem]
        obtain ⟨position, hfinish⟩ := reaches_finish env s tool begun rfl hready hphase
        exact ⟨_, (hasked.tail hbegun).trans hfinish, rfl, rfl, rfl, fun _ _ => rfl⟩
      | .running _ | .draining _ _ | .terminating _ | .killing _ =>
        rw [hphase] at hx
        exact absurd hx.symm hover

/-- The `loop` over the remaining runs takes the course that `env` gives, up to the ending. -/
private theorem reaches_ending (st : State) {cs : List RunConfig} {stop : Bool} {n : Nat}
    (hheard : ∀ c i, Heard (env.course c i))
    (hover : ∀ index, (loop env s tool stop cs).result ≠ .error (.unfinished index))
    (hboard : st.board = .wired stop n) (hposition : st.position = .looking)
    (hrest : st.rest = cs) :
    ∃ st', Reaches env s tool st st' ∧
      st'.position = .ofEnding
        (ending env.workspace s ((loop env s tool stop cs).prepend st.records).result).value ∧
      st'.printed = st.printed ∧ ∃ n', st'.board = .wired (loop env s tool stop cs).asked n' := by
  -- Run by run, with one more listener for each.
  induction cs generalizing stop n st with
  | nil =>
    rw [loop_of_leave (.inl rfl)]
    refine ⟨_, .head (.leave hposition (.inl hrest)) (.single (.conclude rfl)), ?_, rfl, n, hboard⟩
    simp [Tour.prepend, Except.map]
  | cons c cs ih =>
    have hlook : (st.board.step (.poll 0)).2 = .polled stop := by
      rw [hboard, Shutdown.Board.poll_wired (Nat.zero_le n)]
    cases stop with
    | true =>
      rw [loop_of_leave (.inr rfl)]
      refine ⟨_, .head (.leave hposition (.inr hlook)) (.single (.conclude rfl)), ?_, rfl, n,
        hboard⟩
      simp [Tour.prepend, Except.map]
    | false =>
      have hlisten : st.board.step (.listen 2) = (.wired false (n + 1), .made (n + 1)) := by
        rw [hboard, Shutdown.Board.listen_wired]
      rw [loop_cons] at hover ⊢
      generalize hx : executed env s tool c (env.clock c) (env.course c (invocation s tool c)) = x
        at hover ⊢
      have hfinished : x ≠ .unfinished := by
        rintro rfl
        exact hover c.runIndex rfl
      obtain ⟨before, hsettled, hrecords, hprinted, hasked, hbefore⟩ := reaches_verdict env s tool
        { st with board := .wired false (n + 1), position := .starting (n + 1) }
        (hheard c) hx hfinished rfl rfl hrest
      have hreach := Relation.ReflTransGen.head (.goOn hposition (by simp [hrest]) hlook)
        (.head (.listen rfl hlisten) hsettled)
      cases hverdict : verdictOn s c x with
      | error e =>
        rw [settle_of_error hverdict] at hreach
        exact ⟨_, hreach, rfl, hprinted, n + 1, hasked⟩
      | ok taken =>
        rw [hverdict] at hover
        cases taken with
        | none =>
          -- The run was cancelled, so there was a request.
          have hstopped : stopped env s tool c = true :=
            hheard c _ (stopRequested_mem_of_executed (hx.trans (verdict_eq_none_iff.1 hverdict)))
          rw [settle_of_none hverdict] at hreach
          refine ⟨_, hreach.tail (.conclude rfl), ?_, hprinted, n + 1, hstopped ▸ hasked⟩
          simp [carryOn, Tour.prepend, Except.map, hrecords]
        | some first =>
          rw [settle_of_some hverdict] at hreach
          have hover' : ∀ index, (loop env s tool (stopped env s tool c) cs).result ≠
              .error (.unfinished index) := by
            intro index hloop
            exact hover index (by simp [carryOn, Tour.prepend, hloop, Except.map])
          obtain ⟨st', hmore, hposition', hprinted', hboard'⟩ := ih
            { before with position := .looking, records := before.records ++ first } hover' hasked
            rfl (hbefore _ hverdict)
          refine ⟨st', hreach.trans hmore, ?_, hprinted'.trans hprinted, hboard'⟩
          rw [hposition', hrecords, carryOn, prepend_prepend]

/-- The pieces `now` are printed. -/
private theorem reaches_print (st : State) (now later : List Print) {e : Completion}
    (hposition : st.position = .printing (now ++ later) e) :
    Reaches env s tool st
      { st with position := .printing later e, printed := st.printed ++ now } := by
  induction now generalizing st with
  | nil =>
    rw [List.append_nil, ← List.nil_append later, ← hposition]
    exact .refl
  | cons p now ih =>
    let next : State :=
      { st with position := .printing (now ++ later) e, printed := st.printed ++ [p] }
    have hrest := ih next rfl
    rw [List.append_assoc, List.singleton_append] at hrest
    exact .head (.print hposition) hrest

/-- A sweep that has come to its ending `e` prints it, with the notice in any place, and returns. -/
theorem reaches_closed (st : State) {e : Completion} {asked : Bool} (place : Nat)
    (hposition : st.position = .ofEnding e) (hprinted : st.printed = [])
    (hno : .notice ∉ e.stdout) (hasked : .requested ∈ st.history ↔ asked = true) :
    ∃ st', Reaches env s tool st st' ∧ st'.position = .closed (e.announce asked place) ∧
      st'.history = st.history := by
  obtain ⟨board, position, rest, records, history, printed⟩ := st
  obtain rfl := hprinted
  obtain rfl := hposition
  -- Without a request all pieces are printed at once, and with one the notice goes between them.
  cases asked with
  | false =>
    have hall := reaches_print env s tool
      { board, position := .ofEnding e, rest, records, history, printed := [] } e.stdout []
      (by rw [List.append_nil]; rfl)
    refine ⟨_, hall.tail (.close rfl ?_), rfl, rfl⟩
    intro hrequested
    exact nomatch hasked.1 hrequested
  | true =>
    have hrequested := hasked.2 rfl
    have hfirst := reaches_print env s tool
      { board, position := .ofEnding e, rest, records, history, printed := [] }
      (e.stdout.take place) (e.stdout.drop place) (by rw [List.take_append_drop]; rfl)
    have hnotYet : .notice ∉ e.stdout.take place := fun h => hno (List.mem_of_mem_take h)
    have hsaid := hfirst.tail (.announce rfl hrequested hnotYet)
    have hrest := hsaid.trans (reaches_print env s tool _ (e.stdout.drop place) []
      (by rw [List.append_nil]))
    refine ⟨_, hrest.tail (.close rfl (by simp)), ?_, rfl⟩
    simp [Completion.announce]

end

/-- Every sweep whose runs come to an end can be gone through step by step: what `run` leaves behind
    is reached. -/
theorem exists_reaches_run (env : Environment) (d : Definition) (s : Settings) (tool : String)
    (hbuild : (d.build env.workspace.readText env.timestamp).value = .ok s)
    (htool : (ToolLookup.toolPath env.workspace env.toolVariable env.searchPath s.binary).value =
      .ok tool)
    (hheard : ∀ c i, Heard (env.course c i))
    (hover : ∀ index, (run env d).value.result ≠ .error (.unfinished index)) :
    ∃ st, Reaches env s tool (.start s) st ∧ st.position = .closed (run env d).value := by
  rw [run_value_eq_ending hbuild htool] at hover ⊢
  rw [announce_result] at hover
  have hloop : ∀ index,
      (loop env s tool env.stopRequested (runs s)).result ≠ .error (.unfinished index) := by
    intro index hloop
    exact hover index (by rw [hloop]; rfl)
  have hboard : (State.start s).board = .wired false 0 := Shutdown.Board.ofSweep_eq
  -- The request before the first run, all runs, the request after the last one, and the printing.
  obtain ⟨early, hearly⟩ := reaches_request env s tool (.start s) rfl hboard env.stopRequested
  obtain ⟨st, hruns, hended, hprinted, n, hasked⟩ := reaches_ending env s tool
    { State.start s with board := .wired env.stopRequested 0, history := early } hheard hloop rfl
    rfl
    rfl
  have hposition : st.position =
      .ofEnding
        (ending env.workspace s (loop env s tool env.stopRequested (runs s)).result).value := by
    simpa only [State.start, prepend_nil] using hended
  obtain ⟨history, hlate⟩ := reaches_request env s tool st (by rw [hposition]; rfl) hasked
    env.requestedLate
  have hreach : Reaches env s tool (.start s) _ := (hearly.trans hruns).trans hlate
  obtain ⟨n', hwired, -⟩ := hreach.induction wired_start Wired.step
  have hrequested : .requested ∈ history ↔
      ((loop env s tool env.stopRequested (runs s)).asked || env.requestedLate) = true := by
    simp only [Shutdown.Board.wired, Shutdown.Board.mk.injEq, List.cons.injEq, and_true] at hwired
    rw [hwired.1, decide_eq_true_iff]
  obtain ⟨st', hclosed, hend, -⟩ := reaches_closed env s tool
    { st with
      board := .wired ((loop env s tool env.stopRequested (runs s)).asked || env.requestedLate) n
      history }
    env.noticePlace hposition hprinted (notice_not_mem_ending _ _ _) hrequested
  exact ⟨st', hreach.trans hclosed, hend⟩

end MapperSweep.Sweep
