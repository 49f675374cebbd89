import Mathlib.Logic.Relation
import MapperSweep.Proofs.Sweep
import MapperSweep.Shutdown

/-!
# A sweep, step by step

A request to stop can come at any moment: before the driver looks at the switch, between this look
and the start of the tool, during a run, or together with the end of the tool.  Here a sweep is cut
into steps small enough for a request to fall between any two of them.  What each step does is left
to the definitions that a sweep is made of: the switches, the supervisor, the verdict on a run and
the conclusion.

The one who waits for an interrupt presses the switch and then prints the notice.  This task ends
with the first interrupt, so there is one notice, and the sweep does not return before it is
printed.

## Key results

- `Step`: all that can happen next, and `Reaches`: all that can happen
- `Reaches.induction`: what holds at the start and is kept by every step holds always
- `Wired.step`: the switch shows whether a request has come
- `Spoken.step`: what has been printed so far, and what a sweep has printed when it returns
-/

namespace MapperSweep

/-! ## The switch of a sweep -/

namespace Shutdown.Board

/-- The switch of a sweep before its first run: the new handle, its copies for the one who waits for
    an interrupt and for the executor, and the listener of the driver. -/
def ofSweep : Board :=
  run {} [.newHandle, .copyHandle 0, .copyHandle 0, .listen 0]

/-- One switch with three handles and, beside the driver's, `n` listeners. -/
def wired (pressed : Bool) (n : Nat) : Board where
  pressed := [pressed]
  handles := [some 0, some 0, some 0]
  listeners := List.replicate (n + 1) (some 0)

theorem ofSweep_eq : ofSweep = wired false 0 := rfl

variable {p : Bool} {n : Nat}

theorem poll_wired {l : Nat} (h : l ≤ n) : ((wired p n).step (.poll l)).2 = .polled p := by
  have hl : (wired p n).listener? l = some 0 := by
    simp [listener?, wired, Nat.lt_succ_of_le h]
  simp only [step, hl]
  cases p <;> rfl

theorem listen_wired : (wired p n).step (.listen 2) = (wired p (n + 1), .made (n + 1)) := by
  have hlisteners : List.replicate (n + 1) (some 0) ++ [some 0] = List.replicate (n + 2) (some 0) :=
    List.replicate_succ'.symm
  simp [step, wired, handle?, hlisteners]

/-- Whichever handle `h` it comes through, a request is for the one switch of `wired p n`. -/
theorem request_wired {h : Nat} {b : Board} {log : List Event}
    (hstep : (wired p n).step (.request h) = (b, .requested log)) : b = wired true n := by
  cases hh : (wired p n).handle? h with
  | none => simp only [step, hh, Prod.mk.injEq, reduceCtorEq, and_false] at hstep
  | some k =>
    have hk : k = 0 := by
      match h, hh with
      | 0, hh => exact (Option.some.inj hh).symm
      | 1, hh => exact (Option.some.inj hh).symm
      | 2, hh => exact (Option.some.inj hh).symm
      | h + 3, hh => exact nomatch hh
    subst hk
    simp only [step, hh, Prod.mk.injEq] at hstep
    exact hstep.1.symm

/-- The one who waits for an interrupt has handle 1, and can always press the switch. -/
theorem request_one_wired :
    (wired p n).step (.request 1) =
      (wired true n, .requested (if p then [.shutdownRepeated] else [])) :=
  rfl

end Shutdown.Board

namespace Sweep

/-! ## What happens -/

/-- What happens during a sweep; a list of them is its `history`. -/
inductive Happening where
  | requested
  /-- The tool was started. -/
  | started (c : RunConfig)
  /-- The executor is through with a run that was started. -/
  | ended (c : RunConfig) (x : Execution)
deriving DecidableEq

/-- The runs that were started in the history `h`, in order. -/
def started (h : List Happening) : List RunConfig :=
  h.filterMap fun
    | .started c => some c
    | _ => none

/-- The runs that have ended in the history `h`, and what came of them. -/
def ended (h : List Happening) : List (RunConfig × Execution) :=
  h.filterMap fun
    | .ended c x => some (c, x)
    | _ => none

/-- `inProgress h` holds if a run was started and has not ended. -/
def inProgress (h : List Happening) : Bool :=
  h.foldl (fun before happening =>
    match happening with
    | .requested => before
    | .started _ => true
    | .ended _ _ => false) false

section

variable (h : List Happening) (c : RunConfig) (x : Execution)

@[simp] theorem started_nil : started [] = [] := rfl

@[simp] theorem started_requested : started (h ++ [.requested]) = started h := by
  simp [started, List.filterMap_append]

@[simp] theorem started_started : started (h ++ [.started c]) = started h ++ [c] := by
  simp [started, List.filterMap_append]

@[simp] theorem started_ended : started (h ++ [.ended c x]) = started h := by
  simp [started, List.filterMap_append]

@[simp] theorem ended_requested : ended (h ++ [.requested]) = ended h := by
  simp [ended, List.filterMap_append]

@[simp] theorem ended_started : ended (h ++ [.started c]) = ended h := by
  simp [ended, List.filterMap_append]

@[simp] theorem ended_ended : ended (h ++ [.ended c x]) = ended h ++ [(c, x)] := by
  simp [ended, List.filterMap_append]

@[simp] theorem inProgress_requested : inProgress (h ++ [.requested]) = inProgress h := by
  simp [inProgress, List.foldl_append]

@[simp] theorem inProgress_started : inProgress (h ++ [.started c]) = true := by
  simp [inProgress, List.foldl_append]

@[simp] theorem inProgress_ended : inProgress (h ++ [.ended c x]) = false := by
  simp [inProgress, List.foldl_append]

end

/-! ## States and steps -/

/-- Where a sweep is: what the driver does next, or what it waits for. -/
inductive Position where
  /-- The driver sees next whether there is another run, and whether it was asked to stop. -/
  | looking
  /-- The driver goes on with the next run and calls the executor. -/
  | calling
  /-- The executor has its listener and starts the tool next. -/
  | starting (listener : Nat)
  /-- The tool is watched; the course says what has happened to it so far. -/
  | running (c : RunConfig) (listener : Nat) (course : Course)
  | concluding
  /-- The sweep has come to its ending, of which the pieces `left` are still to be printed. -/
  | printing (left : List Print) (ending : Completion)
  | closed (completion : Completion)

/-- `p.isOpen` holds if the sweep has not returned yet. -/
def Position.isOpen : Position → Bool
  | .closed _ => false
  | _ => true

/-- The listener of the executor, if it has one in this position. -/
def Position.listener? : Position → Option Nat
  | .starting l | .running _ l _ => some l
  | _ => none

/-- The position of a sweep that has come to `ending` and has not begun to print. -/
def Position.ofEnding (ending : Completion) : Position := .printing ending.stdout ending

/-- A sweep under way: its switch, its `Position`, and all that it has done so far. -/
structure State where
  board : Shutdown.Board := .ofSweep
  position : Position := .looking
  /-- The runs that have not been started. -/
  rest : List RunConfig
  records : List Record := []
  history : List Happening := []
  printed : List Print := []

/-- A sweep with the settings `s` before its first run. -/
def State.start (s : Settings) : State where
  rest := runs s

/-- What comes of the attempt to start the `tool` for the run `c`. -/
def toolStart (env : Environment) (s : Settings) (tool : String) (c : RunConfig) :
    Except FileError Unit :=
  env.workspace.start (invocation s tool c).program (invocation s tool c).args

/-- How far the supervisor of the run `c` is, after the inputs of `course`. -/
def phase (s : Settings) (c : RunConfig) (course : Course) : Supervisor.Phase :=
  let watch : Supervisor.Watch :=
    { run := c.runIndex, timeout := (limits s).timeout, grace := (limits s).grace }
  (Supervisor.reactAll watch .start course.inputs).next

/-- The `verdict` on the run `c` under the settings of the sweep. -/
def verdictOn (s : Settings) (c : RunConfig) (x : Execution) :
    Except SweepError (Option (List Record)) :=
  verdict (fun o => (o.records s.malformedOutput s.inputDir c).value) c x

/-- The driver goes by `verdictOn` the run `c`: it comes to its ending, concludes, or looks for the
    next run. -/
def State.settle (w : Workspace) (s : Settings) (st : State) (c : RunConfig) (x : Execution) :
    State :=
  match verdictOn s c x with
  | .error e => { st with position := .ofEnding (ending w s (.error e)).value }
  | .ok none => { st with position := .concluding }
  | .ok (some records) => { st with position := .looking, records := st.records ++ records }

section

variable {s : Settings} {w : Workspace} {st : State} {c : RunConfig} {x : Execution}

theorem settle_of_error {e : SweepError} (h : verdictOn s c x = .error e) :
    st.settle w s c x = { st with position := .ofEnding (ending w s (.error e)).value } := by
  simp only [State.settle, h]

theorem settle_of_none (h : verdictOn s c x = .ok none) :
    st.settle w s c x = { st with position := .concluding } := by
  simp only [State.settle, h]

theorem settle_of_some {records : List Record} (h : verdictOn s c x = .ok (some records)) :
    st.settle w s c x = { st with position := .looking, records := st.records ++ records } := by
  simp only [State.settle, h]

variable (w st c x)

@[simp] theorem settle_board : (st.settle w s c x).board = st.board := by
  unfold State.settle
  split <;> rfl

@[simp] theorem settle_rest : (st.settle w s c x).rest = st.rest := by
  unfold State.settle
  split <;> rfl

@[simp] theorem settle_history : (st.settle w s c x).history = st.history := by
  unfold State.settle
  split <;> rfl

@[simp] theorem settle_printed : (st.settle w s c x).printed = st.printed := by
  unfold State.settle
  split <;> rfl

@[simp] theorem settle_listener? : (st.settle w s c x).position.listener? = none := by
  unfold State.settle
  split <;> rfl

end

/-- What can happen next.  The environment `env` gives the files; what the clock shows, what the
    tool does and when somebody asks for the end of the sweep is open. -/
inductive Step (env : Environment) (s : Settings) (tool : String) : State → State → Prop where
  /-- Somebody asks for the end of the sweep. -/
  | request {st : State} {board : Shutdown.Board} {log : List Event} (h : Nat)
    (hopen : st.position.isOpen = true)
    (hrequest : st.board.step (.request h) = (board, .requested log)) :
    Step env s tool st { st with board, history := st.history ++ [.requested] }
  /-- The notice of the first request is printed. -/
  | announce {st : State} (hopen : st.position.isOpen = true) (hrequested : .requested ∈ st.history)
    (hfirst : .notice ∉ st.printed) :
    Step env s tool st { st with printed := st.printed ++ [.notice] }
  /-- There are no more runs, or the driver finds that it shall stop. -/
  | leave {st : State} (hposition : st.position = .looking)
    (hlook : st.rest = [] ∨ (st.board.step (.poll 0)).2 = .polled true) :
    Step env s tool st { st with position := .concluding }
  | goOn {st : State} (hposition : st.position = .looking) (hrest : st.rest ≠ [])
    (hlook : (st.board.step (.poll 0)).2 = .polled false) :
    Step env s tool st { st with position := .calling }
  | listen {st : State} {board : Shutdown.Board} {l : Nat} (hposition : st.position = .calling)
    (hlisten : st.board.step (.listen 2) = (board, .made l)) :
    Step env s tool st { st with board, position := .starting l }
  | notStarted {st : State} {l : Nat} {c : RunConfig} {rest : List RunConfig} {e : FileError}
    (hposition : st.position = .starting l) (hrest : st.rest = c :: rest)
    (hstart : toolStart env s tool c = .error e) :
    Step env s tool st (st.settle env.workspace s c (.notStarted (invocation s tool c).program e))
  | overflow {st : State} {l : Nat} {c : RunConfig} {rest : List RunConfig} (clock : Duration)
    (hposition : st.position = .starting l) (hrest : st.rest = c :: rest)
    (hstart : toolStart env s tool c = .ok ())
    (hdeadline : (limits s).deadlineFits clock = false) :
    Step env s tool st
      (State.settle env.workspace s
        { st with rest, history := st.history ++ [.started c] ++ [.ended c .deadlineOverflow] }
        c .deadlineOverflow)
  | start {st : State} {l : Nat} {c : RunConfig} {rest : List RunConfig} (clock : Duration)
    (hposition : st.position = .starting l) (hrest : st.rest = c :: rest)
    (hstart : toolStart env s tool c = .ok ())
    (hdeadline : (limits s).deadlineFits clock = true) (stdout stderr : List UInt8) :
    Step env s tool st
      { st with
        position := .running c l { stdout, stderr, inputs := [] }
        rest, history := st.history ++ [.started c] }
  /-- The supervisor takes any input that is there, in any order.  It learns of a request only from
      its listener. -/
  | input {st : State} {c : RunConfig} {l : Nat} {course : Course}
    (hposition : st.position = .running c l course) (i : Supervisor.Input)
    (hready : i = .stopRequested → (st.board.step (.poll l)).2 = .polled true) :
    Step env s tool st
      { st with position := .running c l { course with inputs := course.inputs ++ [i] } }
  | finish {st : State} {c : RunConfig} {l : Nat} {course : Course} {r : Supervisor.Result}
    (hposition : st.position = .running c l course) (hover : phase s c course = .over r) :
    Step env s tool st
      (State.settle env.workspace s
        { st with history := st.history ++ [.ended c (course.execution (.over r))] }
        c (course.execution (.over r)))
  /-- The records are exported, and all that is to be printed is known. -/
  | conclude {st : State} (hposition : st.position = .concluding) :
    Step env s tool st
      { st with position := .ofEnding (ending env.workspace s (.ok st.records)).value }
  | print {st : State} {p : Print} {left : List Print} {e : Completion}
    (hposition : st.position = .printing (p :: left) e) :
    Step env s tool st { st with position := .printing left e, printed := st.printed ++ [p] }
  /-- The sweep returns when all is printed, with the notice if there was a request. -/
  | close {st : State} {e : Completion} (hposition : st.position = .printing [] e)
    (hannounced : .requested ∈ st.history → .notice ∈ st.printed) :
    Step env s tool st { st with position := .closed { e with stdout := st.printed } }

/-- `Reaches env s tool st st'` says that `st'` can follow `st`, step after step. -/
def Reaches (env : Environment) (s : Settings) (tool : String) : State → State → Prop :=
  Relation.ReflTransGen (Step env s tool)

/-- What holds at the start and is kept by every `Step` holds of every state that is reached. -/
theorem Reaches.induction {env : Environment} {s : Settings} {tool : String} {P : State → Prop}
    {st st' : State} (h : Reaches env s tool st st') (hstart : P st)
    (hstep : ∀ {a b : State}, Step env s tool a b → P a → P b) : P st' := by
  induction h with
  | refl => exact hstart
  | tail _ step ih => exact hstep step ih

variable {env : Environment} {s : Settings} {tool : String} {st st' : State}

/-! ## The switch shows requests -/

/-- `Wired st` says that the switch is pressed exactly if a request has come, and that all listeners
    are listeners of this switch. -/
def Wired (st : State) : Prop :=
  ∃ n, st.board = .wired (decide (.requested ∈ st.history)) n ∧
    ∀ l, st.position.listener? = some l → l ≤ n

theorem wired_start : Wired (.start s) :=
  ⟨0, Shutdown.Board.ofSweep_eq, fun _ h => nomatch h⟩

/-- Listener 0, that of the driver, finds whether a request has come. -/
theorem Wired.poll_zero (h : Wired st) :
    (st.board.step (.poll 0)).2 = .polled (decide (.requested ∈ st.history)) := by
  obtain ⟨n, hboard, -⟩ := h
  rw [hboard, Shutdown.Board.poll_wired (Nat.zero_le n)]

/-- The listener of the executor, `position.listener?`, finds whether a request has come. -/
theorem Wired.poll_listener (h : Wired st) {l : Nat} (hl : st.position.listener? = some l) :
    (st.board.step (.poll l)).2 = .polled (decide (.requested ∈ st.history)) := by
  obtain ⟨n, hboard, hlisteners⟩ := h
  rw [hboard, Shutdown.Board.poll_wired (hlisteners l hl)]

theorem Wired.step (hstep : Step env s tool st st') (h : Wired st) : Wired st' := by
  -- A step that is no request and adds no listener leaves the board as it is.
  obtain ⟨n, hboard, hlisteners⟩ := h
  cases hstep with
  | request _ _ hrequest =>
    rw [hboard] at hrequest
    obtain rfl := Shutdown.Board.request_wired hrequest
    exact ⟨n, by simp, hlisteners⟩
  | announce => exact ⟨n, hboard, hlisteners⟩
  | leave | goOn | conclude | print | close => exact ⟨n, hboard, fun _ h => nomatch h⟩
  | listen _ hlisten =>
    rw [hboard, Shutdown.Board.listen_wired, Prod.mk.injEq, Shutdown.Answer.made.injEq] at hlisten
    obtain ⟨rfl, rfl⟩ := hlisten
    refine ⟨n + 1, rfl, ?_⟩
    intro l hl
    exact Nat.le_of_eq (Option.some.inj hl).symm
  | notStarted | overflow | finish => exact ⟨n, by simpa using hboard, by simp⟩
  | start _ hposition =>
    rw [hposition] at hlisteners
    exact ⟨n, by simpa using hboard, hlisteners⟩
  | input hposition =>
    rw [hposition] at hlisteners
    exact ⟨n, hboard, hlisteners⟩

/-! ## What is printed -/

section

variable {asked asked' : Prop} {pieces stdout : List Print}

theorem announced_nil (h : ¬asked) : Announced asked [] [] :=
  ⟨fun hasked => absurd hasked h, fun _ => rfl⟩

/-- One more piece `p` is printed, before or after the notice. -/
theorem Announced.concat (h : Announced asked pieces stdout) (p : Print) :
    Announced asked (pieces ++ [p]) (stdout ++ [p]) := by
  refine ⟨fun hasked => ?_, fun hnot => by rw [h.2 hnot]⟩
  obtain ⟨before, after, rfl, rfl⟩ := h.1 hasked
  exact ⟨before, after ++ [p], by simp, by simp⟩

/-- The notice is printed after all `pieces` that were printed so far. -/
theorem Announced.notice (h : Announced asked pieces stdout) (hnot : ¬asked) (hnow : asked') :
    Announced asked' pieces (stdout ++ [.notice]) :=
  ⟨fun _ => ⟨pieces, [], by simp, by rw [h.2 hnot]⟩, fun h => absurd hnow h⟩

end

/-- The notice is not among the pieces of an `ending`. -/
theorem notice_not_mem_ending (w : Workspace) (s : Settings)
    (r : Except SweepError (List Record)) : .notice ∉ (ending w s r).value.stdout := by
  cases r with
  | error e => exact List.not_mem_nil
  | ok records =>
    cases hexport : (exportRecords w s records).value with
    | error e => simp [ending, conclude, hexport]
    | ok exported =>
      obtain ⟨workspace, printed⟩ := exported
      obtain ⟨rfl, -⟩ := exported_of_exportRecords hexport
      simp only [ending, conclude, Logged.value_bind, hexport, Logged.value_pure]
      split <;> simp

/-- All pieces of the ending that the sweep has come to. -/
def Position.pieces : Position → List Print
  | .printing _ e => e.stdout
  | _ => []

/-- The pieces of the ending that are still to be printed. -/
def Position.unprinted : Position → List Print
  | .printing left _ => left
  | _ => []

/-- `Spoken st` says that, as long as the sweep has not returned, all pieces of its ending are
    printed but those that are left, and with them at most the notice, which is printed only after a
    request. -/
structure Spoken (st : State) : Prop where
  noPiece : .notice ∉ st.position.pieces
  honest : .notice ∈ st.printed → .requested ∈ st.history
  printed : st.position.isOpen = true → ∃ done, st.position.pieces = done ++ st.position.unprinted ∧
    Announced (.notice ∈ st.printed) done st.printed

theorem spoken_start : Spoken (.start s) where
  noPiece := List.not_mem_nil
  honest h := nomatch h
  printed _ := ⟨[], rfl, announced_nil List.not_mem_nil⟩

/-- When a sweep returns with `e`, the notice is printed among the pieces of its ending exactly if a
    request has come. -/
theorem Spoken.announced {e : Completion} (h : Spoken st) (hposition : st.position = .printing [] e)
    (hannounced : .requested ∈ st.history → .notice ∈ st.printed) :
    Announced (.requested ∈ st.history) e.stdout st.printed := by
  obtain ⟨done, hdone, hprinted⟩ := h.printed (by rw [hposition]; rfl)
  rw [hposition] at hdone
  obtain rfl : e.stdout = done := hdone.trans (List.append_nil done)
  rwa [propext ⟨hannounced, h.honest⟩]

/-- `Spoken` is kept when the sweep goes on to a position in which nothing of the ending is
    printed. -/
private theorem Spoken.move {next : State} (h : Spoken st) (hopen : st.position.isOpen = true)
    (hpieces : st.position.pieces = []) (hnext : next.position.pieces = next.position.unprinted)
    (hno : .notice ∉ next.position.pieces)
    (hhistory : .requested ∈ st.history → .requested ∈ next.history)
    (hprinted : next.printed = st.printed) : Spoken next := by
  refine ⟨hno, fun hmem => hhistory (h.honest (hprinted ▸ hmem)), fun _ => ⟨[], hnext, ?_⟩⟩
  obtain ⟨done, hdone, hannounced⟩ := h.printed hopen
  rw [hpieces] at hdone
  obtain rfl := (List.append_eq_nil_iff.1 hdone.symm).1
  rwa [hprinted]

/-- After `settle` nothing of the ending is printed. -/
private theorem settle_pieces (w : Workspace) (st : State) (c : RunConfig) (x : Execution) :
    (st.settle w s c x).position.pieces = (st.settle w s c x).position.unprinted ∧
      .notice ∉ (st.settle w s c x).position.pieces := by
  unfold State.settle
  split
  case h_1 e _ => exact ⟨rfl, notice_not_mem_ending w s (.error e)⟩
  case h_2 | h_3 => exact ⟨rfl, List.not_mem_nil⟩

theorem Spoken.step (hstep : Step env s tool st st') (h : Spoken st) : Spoken st' := by
  cases hstep with
  | request =>
    exact ⟨h.noPiece, fun hmem => List.mem_append_left _ (h.honest hmem), h.printed⟩
  | announce hopen hrequested hfirst =>
    obtain ⟨done, hdone, hannounced⟩ := h.printed hopen
    exact ⟨h.noPiece, fun _ => hrequested,
      fun _ => ⟨done, hdone, hannounced.notice hfirst (by simp)⟩⟩
  | leave hposition | goOn hposition | listen hposition | start _ hposition | input hposition =>
    exact h.move (by rw [hposition]; rfl) (by rw [hposition]; rfl) rfl List.not_mem_nil (by simp)
      rfl
  | notStarted hposition | overflow _ hposition | finish hposition =>
    obtain ⟨hfresh, hno⟩ := settle_pieces (s := s) env.workspace _ _ _
    exact h.move (by rw [hposition]; rfl) (by rw [hposition]; rfl) hfresh hno (by simp) (by simp)
  | conclude hposition =>
    exact h.move (by rw [hposition]; rfl) (by rw [hposition]; rfl) rfl
      (notice_not_mem_ending env.workspace s _) id rfl
  | @print p left e hposition =>
    obtain ⟨done, hdone, hannounced⟩ := h.printed (by rw [hposition]; rfl)
    have hno := h.noPiece
    rw [hposition] at hdone hno
    have hpieces : e.stdout = done ++ p :: left := hdone
    -- The piece is not the notice.
    have hsame : (.notice ∈ st.printed ++ [p]) = (.notice ∈ st.printed) := by
      have hne : .notice ≠ p := by
        rintro rfl
        exact hno (by simp [Position.pieces, hpieces])
      simp [hne]
    refine ⟨hno, ?_, fun _ => ⟨done ++ [p], ?_, ?_⟩⟩
    · rw [hsame]
      exact h.honest
    · simp [Position.pieces, Position.unprinted, hpieces]
    · rw [hsame]
      exact hannounced.concat p
  | close => exact ⟨List.not_mem_nil, h.honest, fun h => nomatch h⟩

end Sweep

end MapperSweep
