import Mathlib.Data.List.Induction
import Mathlib.Logic.Relation
import MapperSweep.Execution

/-!
# One run and what happens around it

The tool can end, its streams can be closed by whoever holds them last, the deadline and the grace
period can pass and a request to stop can come, in any order.  The supervisor takes notice of these
things in any order too, as far as they have happened and it waits for them.  Here all this is cut
into steps, and it is shown what no order of them can bring about.

What the supervisor does is left to its own reactions.  Signals are sent in steps of their own, so
that the tool can end between the decision to send one and the sending.

## Key results

- `transition_of_react`: all that a reaction can be
- `Lawful`: when a signal may be sent
- `Sound.step`: what is known about a run by its phase, and `Sound.of_reaches`
- `execute_of_interleaving`: signals, result and the reaping of the tool
-/

namespace MapperSweep.Supervisor

/-! ## Reactions -/

/-- The reactions of the supervisor, `Transition p i p' actions`: in the phase `p` the input `i`
    leads to the phase `p'`, and `actions` are done. -/
inductive Transition : Phase → Input → Phase → List Action → Prop where
  | exited (e : Ended) (status : ExitStatus) :
    Transition (.running e) (.exited status) (.settle status e) []
  | read (e : Ended) (s : Stream) : Transition (.running e) (.ended s) (.running (e.add s)) []
  | timedOut (e : Ended) :
    Transition (.running e) .deadline (.terminating .timedOut) [.terminate]
  | cancelled (e : Ended) :
    Transition (.running e) .stopRequested (.terminating .cancelled) [.terminate]
  | drained (status : ExitStatus) (e : Ended) (s : Stream) :
    Transition (.draining status e) (.ended s) (.settle status (e.add s)) []
  | givenUp (status : ExitStatus) (e : Ended) :
    Transition (.draining status e) .deadline (.over (.stopped .timedOut)) []
  | obeyed (why : Stop) (status : ExitStatus) :
    Transition (.terminating why) (.exited status) (.over (.stopped why)) []
  | survived (why : Stop) : Transition (.terminating why) .graceOver (.killing why) [.kill]
  | refused (why : Stop) (cause : String) :
    Transition (.terminating why) (.termRefused cause) (.killing why) [.kill]
  | killed (why : Stop) (status : ExitStatus) :
    Transition (.killing why) (.exited status) (.over (.stopped why)) []

/-- `Awaits w p i` holds if the supervisor waits for the input `i` in the phase `p`: it does
    something about it. -/
def Awaits (w : Watch) (p : Phase) (i : Input) : Prop := react w p i ≠ { next := p }

instance (w : Watch) (p : Phase) (i : Input) : Decidable (Awaits w p i) :=
  inferInstanceAs (Decidable (react w p i ≠ { next := p }))

/-- `Transition` is all that a reaction can be. -/
theorem transition_of_react {w : Watch} {p : Phase} {i : Input} (h : Awaits w p i) :
    Transition p i (react w p i).next (react w p i).actions := by
  match p, i with
  | .running e, .exited status => exact .exited e status
  | .running e, .ended s => exact .read e s
  | .running e, .deadline => exact .timedOut e
  | .running e, .stopRequested => exact .cancelled e
  | .running _, .termRefused _ | .running _, .graceOver => exact absurd rfl h
  | .draining status e, .ended s => exact .drained status e s
  | .draining status e, .deadline => exact .givenUp status e
  | .draining .., .exited _ | .draining .., .stopRequested | .draining .., .termRefused _
  | .draining .., .graceOver => exact absurd rfl h
  | .terminating why, .exited status => exact .obeyed why status
  | .terminating why, .graceOver => exact .survived why
  | .terminating why, .termRefused cause => exact .refused why cause
  | .terminating _, .ended _ | .terminating _, .deadline | .terminating _, .stopRequested =>
    exact absurd rfl h
  | .killing why, .exited status => exact .killed why status
  | .killing _, .ended _ | .killing _, .deadline | .killing _, .stopRequested
  | .killing _, .termRefused _ | .killing _, .graceOver => exact absurd rfl h
  | .over r, i => exact absurd (react_over w r i) h

/-! ## Cancelled runs -/

/-- Why the tool was told to end, if it was, by the phase of its supervisor. -/
def Phase.stop? : Phase → Option Stop
  | .terminating why | .killing why | .over (.stopped why) => some why
  | _ => none

/-- Only `.stopRequested` makes the supervisor cancel a run. -/
private theorem react_cancelled {w : Watch} {p : Phase} {i : Input}
    (h : (react w p i).next.stop? = some .cancelled) :
    p.stop? = some .cancelled ∨ i = .stopRequested := by
  by_cases hawaits : Awaits w p i
  · cases transition_of_react hawaits with
    | exited e | drained _ e => simp only [react, Phase.settle] at h; split at h <;> exact nomatch h
    | read | timedOut | givenUp => exact nomatch h
    | cancelled => exact .inr rfl
    | obeyed | survived | refused | killed => exact .inl h
  · rw [not_not.1 hawaits] at h
    exact .inl h

theorem stopRequested_mem_of_cancelled {w : Watch} {p : Phase} {inputs : List Input}
    (hp : p.stop? ≠ some .cancelled)
    (h : (reactAll w p inputs).next.stop? = some .cancelled) : .stopRequested ∈ inputs := by
  induction inputs generalizing p with
  | nil => exact absurd h hp
  | cons i inputs ih =>
    by_cases hi : i = .stopRequested
    · exact hi ▸ List.mem_cons_self ..
    · have hnext : (react w p i).next.stop? ≠ some .cancelled := by
        intro hcancelled
        exact (react_cancelled hcancelled).elim hp hi
      exact List.mem_cons_of_mem i (ih hnext h)

/-! ## Scenes -/

/-- How far the tool is, and whether the supervisor has noticed its end. -/
inductive Child where
  | running
  /-- It has ended, and nobody has taken notice of it. -/
  | exited (status : ExitStatus)
  | reaped (status : ExitStatus)
deriving DecidableEq

/-- What happens during a run; a list of them is its history, the `trace` of a `Scene`. -/
inductive Moment where
  | exited (status : ExitStatus)
  | printed (s : Stream) (bytes : List UInt8)
  | ended (s : Stream)
  | deadlinePassed
  | stopRequested
  | graceEnded
  /-- The supervisor takes notice of something. -/
  | took (i : Input)
  | sent (a : Action)
  /-- The tool could not be told to end. -/
  | refused
deriving DecidableEq

/-- `e.has s` holds if the stream `s` is at its end. -/
def Ended.has (e : Ended) : Stream → Bool
  | .stdout => e.stdout
  | .stderr => e.stderr

/-- A run and what is around it: the tool, its streams, the clock, and what the supervisor knows and
    does. -/
structure Scene where
  child : Child := .running
  /-- The streams that nobody holds open. -/
  closed : Ended := {}
  deadlinePassed : Bool := false
  stopRequested : Bool := false
  graceEnded : Bool := false
  /-- What was printed, and what the supervisor has taken notice of. -/
  course : Course := { inputs := [] }
  /-- What the supervisor has yet to do to the tool. -/
  orders : List Action := []
  /-- All that has happened. -/
  trace : List Moment := []

namespace Scene

/-- How far the supervisor is: the phase to which the inputs of the course have led. -/
def phase (w : Watch) (sc : Scene) : Phase := (reactAll w .start sc.course.inputs).next

/-- The scene after `m` has happened as well. -/
def note (sc : Scene) (m : Moment) : Scene := { sc with trace := sc.trace ++ [m] }

/-- The scene after the tool has printed `bytes` to the stream `s`. -/
def print (sc : Scene) (s : Stream) (bytes : List UInt8) : Scene :=
  match s with
  | .stdout => { sc with course.stdout := sc.course.stdout ++ bytes }
  | .stderr => { sc with course.stderr := sc.course.stderr ++ bytes }

/-- The tool after the supervisor has taken notice of an input, which makes an end `.reaped`. -/
def childAfter (sc : Scene) : Input → Child
  | .exited status => .reaped status
  | _ => sc.child

/-- The scene after the supervisor has taken notice of the input `i`: `react` says what it is about
    to do. -/
def take (w : Watch) (sc : Scene) (i : Input) : Scene where
  child := sc.childAfter i
  closed := sc.closed
  deadlinePassed := sc.deadlinePassed
  stopRequested := sc.stopRequested
  graceEnded := sc.graceEnded
  course := { sc.course with inputs := sc.course.inputs ++ [i] }
  orders := sc.orders ++ (react w (sc.phase w) i).actions
  trace := sc.trace ++ [.took i]

/-- `sc.Ready i` holds if the supervisor can take notice of the input `i`.  At the end of the grace
    period it looks at the tool first, so an end that has come by then is not overlooked. -/
def Ready (sc : Scene) : Input → Prop
  | .exited status => sc.child = .exited status
  | .ended s => sc.closed.has s = true
  | .deadline => sc.deadlinePassed = true
  | .stopRequested => sc.stopRequested = true
  | .graceOver => sc.graceEnded = true ∧ ∀ status, sc.child ≠ .exited status
  | .termRefused _ => False

/-- What can happen next: `Step w` relates a scene to all that can follow it. -/
inductive Step (w : Watch) : Scene → Scene → Prop where
  | exit {sc : Scene} (status : ExitStatus) (hchild : sc.child = .running) :
    Step w sc (Scene.note { sc with child := .exited status } (.exited status))
  /-- The tool, or something that it has started, prints to a stream. -/
  | print {sc : Scene} (s : Stream) (bytes : List UInt8) (hopen : sc.closed.has s = false) :
    Step w sc ((sc.print s bytes).note (.printed s bytes))
  /-- Nobody holds a stream open any more. -/
  | close {sc : Scene} (s : Stream) (hopen : sc.closed.has s = false) :
    Step w sc (Scene.note { sc with closed := sc.closed.add s } (.ended s))
  | deadline {sc : Scene} (hclock : sc.deadlinePassed = false) :
    Step w sc (Scene.note { sc with deadlinePassed := true } .deadlinePassed)
  | request {sc : Scene} : Step w sc (Scene.note { sc with stopRequested := true } .stopRequested)
  /-- The grace period begins when the tool is told to end. -/
  | grace {sc : Scene} (htold : .sent .terminate ∈ sc.trace) (hclock : sc.graceEnded = false) :
    Step w sc (Scene.note { sc with graceEnded := true } .graceEnded)
  /-- The supervisor takes any of the things that are there and that it waits for. -/
  | take {sc : Scene} (i : Input) (hidle : sc.orders = []) (hawaits : Awaits w (sc.phase w) i)
    (hready : sc.Ready i) : Step w sc (sc.take w i)
  | send {sc : Scene} {a : Action} {rest : List Action} (horders : sc.orders = a :: rest) :
    Step w sc (Scene.note { sc with orders := rest } (.sent a))
  /-- The tool cannot be told to end, and the supervisor learns of it at once. -/
  | refuse {sc : Scene} {rest : List Action} (cause : String)
    (horders : sc.orders = .terminate :: rest) :
    Step w sc ((Scene.note { sc with orders := rest } .refused).take w (.termRefused cause))

/-- `Reaches w sc` says that `sc` can come about, step after step, once the tool was started. -/
def Reaches (w : Watch) (sc : Scene) : Prop := Relation.ReflTransGen (Step w) {} sc

/-- What holds at the start and is kept by every `Step` holds of every scene that can come about. -/
theorem Reaches.induction {w : Watch} {P : Scene → Prop} {sc : Scene} (h : Reaches w sc)
    (hstart : P {}) (hstep : ∀ {a b : Scene}, Step w a b → P a → P b) : P sc := by
  induction h with
  | refl => exact hstart
  | tail _ step ih => exact hstep step ih

theorem phase_take (w : Watch) (sc : Scene) (i : Input) :
    (sc.take w i).phase w = (react w (sc.phase w) i).next := by
  simp [phase, take, reactAll_append, reactAll]

end Scene

/-! ## What may be done when -/

/-- The signals that were sent in the history `t`, in order. -/
def signals (t : List Moment) : List Action :=
  t.filterMap fun
    | .sent a => some a
    | _ => none

/-- `Branched t` holds if the supervisor has gone by the deadline or by a request to stop. -/
def Branched (t : List Moment) : Prop := .took .deadline ∈ t ∨ .took .stopRequested ∈ t

/-- `MayKill t` holds if the tool was told to end and had not done so when the grace period ended,
    or it could not even be told. -/
def MayKill (t : List Moment) : Prop :=
  (.sent .terminate ∈ t ∧
    ∃ earlier later, t = earlier ++ .graceEnded :: later ∧ ∀ status, .exited status ∉ earlier) ∨
  .refused ∈ t

/-- `Lawful before m` says when the moment `m` may be the sending of a signal, given all that has
    happened `before`. -/
def Lawful (before : List Moment) : Moment → Prop
  | .sent .terminate =>
    signals before = [] ∧ (.deadlinePassed ∈ before ∨ .stopRequested ∈ before)
  | .sent .kill => MayKill before
  | _ => True

/-- `AllLawful t` holds if all signals of `t` were sent lawfully. -/
def AllLawful (t : List Moment) : Prop :=
  ∀ before m after, t = before ++ m :: after → Lawful before m

section

variable {t : List Moment} {m : Moment}

theorem signals_of_ne (hm : ∀ a, m ≠ .sent a) : signals (t ++ [m]) = signals t := by
  cases m with
  | sent a => exact absurd rfl (hm a)
  | _ => simp [signals]

theorem MayKill.concat (h : MayKill t) (m : Moment) : MayKill (t ++ [m]) := by
  rcases h with ⟨htold, earlier, later, rfl, hexit⟩ | hrefused
  · exact .inl ⟨List.mem_append_left _ htold, earlier, later ++ [m], by simp, hexit⟩
  · exact .inr (List.mem_append_left _ hrefused)

/-- Whether the moment `m` is lawful is settled when it comes. -/
theorem allLawful_concat : AllLawful (t ++ [m]) ↔ AllLawful t ∧ Lawful t m := by
  constructor
  · intro h
    refine ⟨?_, h t m [] rfl⟩
    rintro before first after rfl
    exact h before first (after ++ [m]) (by simp)
  · rintro ⟨h, hm⟩ before first after heq
    rcases List.eq_nil_or_concat after with rfl | ⟨since, last, rfl⟩
    · obtain ⟨rfl, hlast⟩ := List.append_inj' heq rfl
      obtain rfl := List.head_eq_of_cons_eq hlast
      exact hm
    · rw [List.concat_eq_append, ← List.cons_append, ← List.append_assoc] at heq
      exact h before first since (List.append_inj' heq rfl).1

end

/-! ## What is known in each phase -/

/-- The state of the tool and of the clock is on record in the `trace`. -/
structure Recorded (sc : Scene) : Prop where
  running : sc.child = .running → ∀ status, .exited status ∉ sc.trace
  exited : ∀ status, sc.child = .exited status → .exited status ∈ sc.trace
  reaped : ∀ status, sc.child = .reaped status → .exited status ∈ sc.trace
  deadline : sc.deadlinePassed = true → .deadlinePassed ∈ sc.trace
  stop : sc.stopRequested = true → .stopRequested ∈ sc.trace
  grace : sc.graceEnded = true → .graceEnded ∈ sc.trace ∧ .sent .terminate ∈ sc.trace

/-- Nothing was done to the tool or is about to be done, and the supervisor has not `Branched`. -/
structure Untouched (sc : Scene) : Prop where
  orders : sc.orders = []
  signals : signals sc.trace = []
  branched : ¬Branched sc.trace

/-- `child.isReaped` holds if the supervisor has taken notice of the tool's end. -/
def Child.isReaped : Child → Bool
  | .reaped _ => true
  | _ => false

/-- The moment that is on record if a run is stopped for this reason. -/
def Stop.cause : Stop → Moment
  | .timedOut => .deadlinePassed
  | .cancelled => .stopRequested

/-- `Known sc p` is what is known about a run when its supervisor is in the phase `p`. -/
def Known (sc : Scene) : Phase → Prop
  | .running e =>
    sc.child.isReaped = false ∧ Untouched sc ∧ ∀ s, e.has s = true → sc.closed.has s = true
  | .draining status e =>
    sc.child = .reaped status ∧ Untouched sc ∧ ∀ s, e.has s = true → sc.closed.has s = true
  | .terminating why =>
    sc.child.isReaped = false ∧ why.cause ∈ sc.trace ∧
      ((sc.orders = [.terminate] ∧ signals sc.trace = []) ∨ sc.orders = [])
  | .killing _ =>
    sc.child.isReaped = false ∧ ((sc.orders = [.kill] ∧ MayKill sc.trace) ∨ sc.orders = [])
  | .over (.completed status) =>
    sc.child = .reaped status ∧ Untouched sc ∧ ∀ s, sc.closed.has s = true
  | .over (.stopped _) => (∃ status, sc.child = .reaped status) ∧ sc.orders = []

/-- A run is as its history and its phase say: the invariant of `Reaches`. -/
structure Sound (w : Watch) (sc : Scene) : Prop where
  recorded : Recorded sc
  lawful : AllLawful sc.trace
  known : Known sc (sc.phase w)

/-- `m.isOutside` holds of a moment that the supervisor has no part in. -/
def Moment.isOutside : Moment → Bool
  | .took _ | .sent _ | .refused => false
  | _ => true

theorem Untouched.outside {sc sc' : Scene} {m : Moment} (h : Untouched sc)
    (hm : m.isOutside = true) (htrace : sc'.trace = sc.trace ++ [m])
    (horders : sc'.orders = sc.orders) : Untouched sc' := by
  refine ⟨horders.trans h.orders, ?_, ?_⟩
  · rw [htrace, signals_of_ne, h.signals]
    rintro a rfl
    exact nomatch hm
  · rw [htrace]
    intro hbranched
    have hm_took : ∀ i, m ≠ .took i := by
      rintro i rfl
      exact nomatch hm
    simp only [Branched, List.mem_append, List.mem_singleton, (hm_took _).symm, or_false]
      at hbranched
    exact h.branched hbranched

/-- What happens outside keeps what is `Known`, as long as no stream is opened again and the tool,
    if anything, ends. -/
theorem Known.outside {sc sc' : Scene} {p : Phase} {m : Moment} (h : Known sc p)
    (hm : m.isOutside = true) (htrace : sc'.trace = sc.trace ++ [m])
    (horders : sc'.orders = sc.orders)
    (hclosed : ∀ s, sc.closed.has s = true → sc'.closed.has s = true)
    (hchild : sc'.child = sc.child ∨ (sc.child = .running ∧ sc'.child.isReaped = false)) :
    Known sc' p := by
  -- What `Known` says of the tool and of the history is kept: a reaped tool stays as it is, and
  -- nothing outside reaps it.
  have hreaped : ∀ status, sc.child = .reaped status → sc'.child = .reaped status := by
    intro status hstatus
    rcases hchild with hsame | ⟨hrunning, -⟩
    · exact hsame.trans hstatus
    · rw [hstatus] at hrunning
      exact nomatch hrunning
  have hnot : sc.child.isReaped = false → sc'.child.isReaped = false := by
    intro hnot
    rcases hchild with hsame | ⟨-, hnot'⟩
    · rwa [hsame]
    · exact hnot'
  have hmem : ∀ {x : Moment}, x ∈ sc.trace → x ∈ sc'.trace := by
    intro x hx
    rw [htrace]
    exact List.mem_append_left _ hx
  match p, h with
  | .running e, ⟨hrunning, huntouched, hread⟩ =>
    exact ⟨hnot hrunning, huntouched.outside hm htrace horders, fun s hs => hclosed s (hread s hs)⟩
  | .draining status e, ⟨hstatus, huntouched, hread⟩ =>
    exact ⟨hreaped status hstatus, huntouched.outside hm htrace horders,
      fun s hs => hclosed s (hread s hs)⟩
  | .terminating why, ⟨hrunning, hcause, hsent⟩ =>
    refine ⟨hnot hrunning, hmem hcause, ?_⟩
    rw [horders]
    -- The signal is still to be sent, and what happens outside is none.
    rcases hsent with ⟨hpending, hnone⟩ | hdone
    · refine .inl ⟨hpending, ?_⟩
      rw [htrace, signals_of_ne, hnone]
      rintro a rfl
      exact nomatch hm
    · exact .inr hdone
  | .killing why, ⟨hrunning, hsent⟩ =>
    refine ⟨hnot hrunning, ?_⟩
    rw [horders, htrace]
    rcases hsent with ⟨hpending, hmay⟩ | hdone
    · exact .inl ⟨hpending, hmay.concat m⟩
    · exact .inr hdone
  | .over (.completed status), ⟨hstatus, huntouched, hall⟩ =>
    exact ⟨hreaped status hstatus, huntouched.outside hm htrace horders,
      fun s => hclosed s (hall s)⟩
  | .over (.stopped why), ⟨⟨status, hstatus⟩, hdone⟩ =>
    exact ⟨⟨status, hreaped status hstatus⟩, horders.trans hdone⟩

theorem Ended.has_add (e : Ended) (s s' : Stream) :
    (e.add s).has s' = (decide (s = s') || e.has s') := by
  cases s <;> cases s' <;> simp [add, has]

theorem Ended.all_iff (e : Ended) : e.all = true ↔ ∀ s, e.has s = true := by
  simp only [all, Bool.and_eq_true]
  constructor
  · rintro ⟨hout, herr⟩ (_ | _)
    · exact hout
    · exact herr
  · intro h
    exact ⟨h .stdout, h .stderr⟩

/-- If `closed` has all streams of `e` and the stream `s`, then it has all of `e.add s`. -/
theorem Ended.closed_of_add {e closed : Ended} {s : Stream}
    (hread : ∀ s, e.has s = true → closed.has s = true) (hs : closed.has s = true) :
    ∀ s', (e.add s).has s' = true → closed.has s' = true := by
  intro s' hs'
  rw [has_add, Bool.or_eq_true, decide_eq_true_iff] at hs'
  rcases hs' with rfl | hs'
  · exact hs
  · exact hread s' hs'

/-- A moment that is not the sending of a signal is `Lawful`. -/
theorem lawful_of_ne {t : List Moment} {m : Moment} (hm : ∀ a, m ≠ .sent a) : Lawful t m := by
  cases m with
  | sent a => exact absurd rfl (hm a)
  | _ => trivial

/-! ## Steps of the supervisor -/

/-- Taking notice of an input that calls for no branch and no action leaves the tool `Untouched`. -/
theorem Untouched.take {w : Watch} {sc : Scene} {i : Input} (h : Untouched sc)
    (hactions : (react w (sc.phase w) i).actions = []) (hdeadline : i ≠ .deadline)
    (hstop : i ≠ .stopRequested) : Untouched (sc.take w i) := by
  refine ⟨?_, ?_, ?_⟩
  · show sc.orders ++ (react w (sc.phase w) i).actions = []
    rw [h.orders, hactions, List.append_nil]
  · exact (signals_of_ne (by simp)).trans h.signals
  · intro hbranched
    simp only [Branched, Scene.take, List.mem_append, List.mem_singleton, Moment.took.injEq,
      hdeadline.symm, hstop.symm, or_false] at hbranched
    exact h.branched hbranched

/-- What is `Known` after the end of the tool, with its output awaited if need be. -/
theorem known_settle {sc : Scene} {status : ExitStatus} {e : Ended}
    (hchild : sc.child = .reaped status) (huntouched : Untouched sc)
    (hread : ∀ s, e.has s = true → sc.closed.has s = true) : Known sc (.settle status e) := by
  unfold Phase.settle
  split
  · rename_i hall
    exact ⟨hchild, huntouched, fun s => hread s (e.all_iff.1 hall s)⟩
  · exact ⟨hchild, huntouched, hread⟩

/-- If the grace period is over and the tool, when looked at, has not ended, then it had not ended
    when the grace period did; so `MayKill` holds. -/
theorem Recorded.mayKill {sc : Scene} (h : Recorded sc) (hrunning : sc.child.isReaped = false)
    (hready : sc.Ready .graceOver) : MayKill sc.trace := by
  obtain ⟨hended, hnot⟩ := hready
  obtain ⟨hgrace, htold⟩ := h.grace hended
  have hchild : sc.child = .running := by
    cases hc : sc.child with
    | running => rfl
    | exited status => exact absurd hc (hnot status)
    | reaped status => rw [hc] at hrunning; exact nomatch hrunning
  obtain ⟨earlier, later, htrace⟩ := List.append_of_mem hgrace
  refine .inl ⟨htold, earlier, later, htrace, ?_⟩
  intro status hexit
  exact h.running hchild status (htrace ▸ List.mem_append_left _ hexit)

/-- What is `Known` after the supervisor has taken notice of an input that is there, by the
    `Transition` that it makes. -/
theorem Known.take {w : Watch} {sc : Scene} {i : Input} {p p' : Phase} {actions : List Action}
    (h : Known sc p) (hrecorded : Recorded sc) (hidle : sc.orders = []) (hready : sc.Ready i)
    (ht : Transition p i p' actions) (hactions : (react w (sc.phase w) i).actions = actions) :
    Known (sc.take w i) p' := by
  have horders : (sc.take w i).orders = actions := by
    show sc.orders ++ (react w (sc.phase w) i).actions = actions
    rw [hidle, hactions, List.nil_append]
  have hmem : ∀ {x : Moment}, x ∈ sc.trace → x ∈ (sc.take w i).trace :=
    fun hx => List.mem_append_left _ hx
  cases ht with
  | exited e status =>
    obtain ⟨-, huntouched, hread⟩ := h
    exact known_settle rfl (huntouched.take hactions nofun nofun) hread
  | read e s =>
    obtain ⟨hrunning, huntouched, hread⟩ := h
    exact ⟨hrunning, huntouched.take hactions nofun nofun, Ended.closed_of_add hread hready⟩
  | timedOut e =>
    -- The deadline was there to be taken, so it is on record.
    obtain ⟨hrunning, huntouched, -⟩ := h
    refine ⟨hrunning, hmem (hrecorded.deadline hready), .inl ⟨horders, ?_⟩⟩
    exact (signals_of_ne (by simp)).trans huntouched.signals
  | cancelled e =>
    obtain ⟨hrunning, huntouched, -⟩ := h
    refine ⟨hrunning, hmem (hrecorded.stop hready), .inl ⟨horders, ?_⟩⟩
    exact (signals_of_ne (by simp)).trans huntouched.signals
  | drained status e s =>
    obtain ⟨hchild, huntouched, hread⟩ := h
    exact known_settle hchild (huntouched.take hactions nofun nofun)
      (Ended.closed_of_add hread hready)
  | givenUp status e =>
    -- The tool has ended already, so there is nobody left to be told.
    obtain ⟨hchild, -, -⟩ := h
    exact ⟨⟨status, hchild⟩, horders⟩
  | obeyed why status => exact ⟨⟨status, rfl⟩, horders⟩
  | survived why =>
    obtain ⟨hrunning, -, -⟩ := h
    exact ⟨hrunning, .inl ⟨horders, (hrecorded.mayKill hrunning hready).concat _⟩⟩
  -- A refusal is not taken like this: it comes with the attempt to tell the tool.
  | refused why cause => exact hready.elim
  | killed why status => exact ⟨⟨status, rfl⟩, horders⟩

/-- What is on record stays there when the supervisor takes notice of the input `i`. -/
theorem Recorded.take {w : Watch} {sc : Scene} {i : Input} (h : Recorded sc)
    (hready : ∀ status, i = .exited status → sc.child = .exited status) :
    Recorded (sc.take w i) := by
  have hmem : ∀ {x : Moment}, x ∈ sc.trace → x ∈ (sc.take w i).trace :=
    fun hx => List.mem_append_left _ hx
  -- Only the end of the tool changes what is known of it, and that end is on record.
  have hsame : (∃ status, i = .exited status ∧ (sc.take w i).child = .reaped status) ∨
      (sc.take w i).child = sc.child := by
    cases i with
    | exited status => exact .inl ⟨status, rfl, rfl⟩
    | _ => exact .inr rfl
  refine ⟨?_, ?_, ?_, fun hd => hmem (h.deadline hd), fun hs => hmem (h.stop hs),
    fun hg => ⟨hmem (h.grace hg).1, hmem (h.grace hg).2⟩⟩
  · intro hrunning status hexit
    rcases hsame with ⟨status', -, hreaped⟩ | hsame
    · rw [hreaped] at hrunning
      exact nomatch hrunning
    · rcases List.mem_append.1 hexit with hexit | hlast
      · exact h.running (hsame ▸ hrunning) status hexit
      · exact nomatch List.mem_singleton.1 hlast
  · intro status hexited
    rcases hsame with ⟨status', -, hreaped⟩ | hsame
    · rw [hreaped] at hexited
      exact nomatch hexited
    · exact hmem (h.exited status (hsame ▸ hexited))
  · intro status hreaped
    rcases hsame with ⟨status', rfl, hreaped'⟩ | hsame
    · obtain rfl : status' = status := Child.reaped.inj (hreaped'.symm.trans hreaped)
      exact hmem (h.exited status' (hready status' rfl))
    · exact hmem (h.reaped status (hsame ▸ hreaped))

/-- What is on record stays there when `m` happens, which is not an end of the tool. -/
theorem Recorded.note {sc : Scene} {m : Moment} (h : Recorded sc)
    (hm : ∀ status, m ≠ .exited status) : Recorded (sc.note m) where
  running hrunning status := by
    simpa [Scene.note, (hm status).symm] using h.running hrunning status
  exited status hexited := List.mem_append_left _ (h.exited status hexited)
  reaped status hreaped := List.mem_append_left _ (h.reaped status hreaped)
  deadline hd := List.mem_append_left _ (h.deadline hd)
  stop hs := List.mem_append_left _ (h.stop hs)
  grace hg := ⟨List.mem_append_left _ (h.grace hg).1, List.mem_append_left _ (h.grace hg).2⟩

/-- What is on record says nothing about the output and the orders, so `Recorded` can be carried
    over. -/
theorem Recorded.of_eq {sc sc' : Scene} (h : Recorded sc) (hchild : sc'.child = sc.child)
    (hdeadline : sc'.deadlinePassed = sc.deadlinePassed)
    (hstop : sc'.stopRequested = sc.stopRequested) (hgrace : sc'.graceEnded = sc.graceEnded)
    (htrace : sc'.trace = sc.trace) : Recorded sc' := by
  obtain ⟨hrunning, hexited, hreaped, hpassed, hasked, hended⟩ := h
  constructor <;> rw [htrace]
  · rwa [hchild]
  · rwa [hchild]
  · rwa [hchild]
  · rwa [hdeadline]
  · rwa [hstop]
  · rwa [hgrace]

/-- Only a run that is to be stopped has orders: one signal, which is lawful. -/
theorem Known.of_orders {sc : Scene} {p : Phase} {a : Action} {rest : List Action} (h : Known sc p)
    (horders : sc.orders = a :: rest) :
    rest = [] ∧ sc.child.isReaped = false ∧
      ((a = .terminate ∧ signals sc.trace = [] ∧
          ∃ why, p = .terminating why ∧ why.cause ∈ sc.trace) ∨
        (a = .kill ∧ MayKill sc.trace ∧ ∃ why, p = .killing why)) := by
  match p, h with
  | .running e, ⟨_, huntouched, _⟩ => exact nomatch huntouched.orders.symm.trans horders
  | .draining status e, ⟨_, huntouched, _⟩ => exact nomatch huntouched.orders.symm.trans horders
  | .terminating why, ⟨hrunning, hcause, hsent⟩ =>
    rcases hsent with ⟨hpending, hnone⟩ | hdone
    · obtain ⟨rfl, rfl⟩ := List.cons.inj (hpending.symm.trans horders)
      exact ⟨rfl, hrunning, .inl ⟨rfl, hnone, why, rfl, hcause⟩⟩
    · exact nomatch hdone.symm.trans horders
  | .killing why, ⟨hrunning, hsent⟩ =>
    rcases hsent with ⟨hpending, hmay⟩ | hdone
    · obtain ⟨rfl, rfl⟩ := List.cons.inj (hpending.symm.trans horders)
      exact ⟨rfl, hrunning, .inr ⟨rfl, hmay, why, rfl⟩⟩
    · exact nomatch hdone.symm.trans horders
  | .over (.completed status), ⟨_, huntouched, _⟩ =>
    exact nomatch huntouched.orders.symm.trans horders
  | .over (.stopped why), ⟨_, hdone⟩ => exact nomatch hdone.symm.trans horders

/-- What happens outside keeps a run `Sound`, if it is put on record. -/
theorem Sound.outside {w : Watch} {sc sc' : Scene} {m : Moment} (h : Sound w sc)
    (hrecorded : Recorded sc') (hm : m.isOutside = true) (htrace : sc'.trace = sc.trace ++ [m])
    (hinputs : sc'.course.inputs = sc.course.inputs) (horders : sc'.orders = sc.orders)
    (hclosed : ∀ s, sc.closed.has s = true → sc'.closed.has s = true)
    (hchild : sc'.child = sc.child ∨ (sc.child = .running ∧ sc'.child.isReaped = false)) :
    Sound w sc' := by
  have hphase : sc'.phase w = sc.phase w := by rw [Scene.phase, Scene.phase, hinputs]
  refine ⟨hrecorded, ?_, ?_⟩
  · rw [htrace, allLawful_concat]
    refine ⟨h.lawful, lawful_of_ne ?_⟩
    rintro a rfl
    exact nomatch hm
  · rw [hphase]
    exact h.known.outside hm htrace horders hclosed hchild

/-- Every `Step` keeps a run `Sound`. -/
theorem Sound.step {w : Watch} {sc sc' : Scene} (hstep : Scene.Step w sc sc') (h : Sound w sc) :
    Sound w sc' := by
  have hrecorded := h.recorded
  cases hstep with
  | exit status hchild =>
    -- The tool was running, so it was not reaped, and its end is noted as it comes.
    refine h.outside ⟨nofun, ?_, nofun, ?_, ?_, ?_⟩ rfl rfl rfl rfl (fun _ hs => hs)
      (.inr ⟨hchild, rfl⟩)
    · intro status' hstatus
      obtain rfl := Child.exited.inj hstatus
      exact List.mem_append_right _ (List.mem_singleton_self _)
    · exact fun hd => List.mem_append_left _ (hrecorded.deadline hd)
    · exact fun hs => List.mem_append_left _ (hrecorded.stop hs)
    · exact fun hg => ⟨List.mem_append_left _ (hrecorded.grace hg).1,
        List.mem_append_left _ (hrecorded.grace hg).2⟩
  | print s bytes hopen =>
    have hnote := hrecorded.note (m := .printed s bytes) nofun
    cases s with
    | stdout =>
      exact h.outside (hnote.of_eq rfl rfl rfl rfl rfl) rfl rfl rfl rfl (fun _ hs => hs) (.inl rfl)
    | stderr =>
      exact h.outside (hnote.of_eq rfl rfl rfl rfl rfl) rfl rfl rfl rfl (fun _ hs => hs) (.inl rfl)
  | close s hopen =>
    have hnote := hrecorded.note (m := .ended s) nofun
    refine h.outside (hnote.of_eq rfl rfl rfl rfl rfl) rfl rfl rfl rfl ?_ (.inl rfl)
    intro s' hs'
    show (sc.closed.add s).has s' = true
    rw [Ended.has_add, hs', Bool.or_true]
  | deadline hclock =>
    have hnote := hrecorded.note (m := .deadlinePassed) nofun
    exact h.outside
      ⟨hnote.running, hnote.exited, hnote.reaped, fun _ => by simp [Scene.note], hnote.stop,
        hnote.grace⟩
      rfl rfl rfl rfl (fun _ hs => hs) (.inl rfl)
  | request =>
    have hnote := hrecorded.note (m := .stopRequested) nofun
    exact h.outside
      ⟨hnote.running, hnote.exited, hnote.reaped, hnote.deadline, fun _ => by simp [Scene.note],
        hnote.grace⟩
      rfl rfl rfl rfl (fun _ hs => hs) (.inl rfl)
  | grace htold hclock =>
    have hnote := hrecorded.note (m := .graceEnded) nofun
    exact h.outside
      ⟨hnote.running, hnote.exited, hnote.reaped, hnote.deadline, hnote.stop,
        fun _ => ⟨by simp [Scene.note], List.mem_append_left _ htold⟩⟩
      rfl rfl rfl rfl (fun _ hs => hs) (.inl rfl)
  | take i hidle hawaits hready =>
    refine ⟨hrecorded.take ?_, allLawful_concat.2 ⟨h.lawful, trivial⟩, ?_⟩
    · rintro status rfl
      exact hready
    · rw [Scene.phase_take]
      exact h.known.take hrecorded hidle hready (transition_of_react hawaits) rfl
  | @send a rest horders =>
    have hnote := hrecorded.note (m := .sent a) nofun
    -- By the phase there is one order only, and what makes it lawful is known.
    obtain ⟨rfl, hrunning, hsent⟩ := h.known.of_orders horders
    refine ⟨hnote.of_eq rfl rfl rfl rfl rfl, allLawful_concat.2 ⟨h.lawful, ?_⟩, ?_⟩
    · rcases hsent with ⟨rfl, hnone, why, -, hcause⟩ | ⟨rfl, hmay, -⟩
      · refine ⟨hnone, ?_⟩
        cases why with
        | timedOut => exact .inl hcause
        | cancelled => exact .inr hcause
      · exact hmay
    · show Known _ (sc.phase w)
      rcases hsent with ⟨-, -, why, hphase, hcause⟩ | ⟨-, -, why, hphase⟩
      · rw [hphase]
        exact ⟨hrunning, List.mem_append_left _ hcause, .inr rfl⟩
      · rw [hphase]
        exact ⟨hrunning, .inr rfl⟩
  | @refuse rest cause horders =>
    have hnote := hrecorded.note (m := .refused) nofun
    obtain ⟨rfl, hrunning, hsent⟩ := h.known.of_orders horders
    obtain ⟨why, hphase⟩ : ∃ why, sc.phase w = .terminating why := by
      rcases hsent with ⟨-, -, why, hphase, -⟩ | ⟨hkill, -⟩
      · exact ⟨why, hphase⟩
      · exact nomatch hkill
    -- The refusal is noted before the supervisor hears of it.
    have hnoted : (Scene.note { sc with orders := [] } .refused).phase w = .terminating why :=
      hphase
    have hrefused : Recorded (Scene.note { sc with orders := [] } .refused) :=
      hnote.of_eq rfl rfl rfl rfl rfl
    refine ⟨hrefused.take nofun, ?_, ?_⟩
    · exact allLawful_concat.2 ⟨allLawful_concat.2 ⟨h.lawful, trivial⟩, trivial⟩
    · rw [Scene.phase_take, hnoted]
      refine ⟨hrunning, .inl ⟨?_, .inr ?_⟩⟩
      · show [] ++ (react w ((Scene.note { sc with orders := [] } .refused).phase w)
          (.termRefused cause)).actions = [.kill]
        rw [hnoted]
        rfl
      · simp [Scene.take, Scene.note]

end MapperSweep.Supervisor

namespace MapperSweep

/-! ## Results -/

namespace Course

variable {c : Course} {p : Supervisor.Phase}

theorem execution_eq_cancelled_iff :
    c.execution p = .cancelled ↔ p = .over (.stopped .cancelled) := by
  match p with
  | .over (.completed status) => simp [execution]
  | .over (.stopped .timedOut) => simp [execution]
  | .over (.stopped .cancelled) => simp [execution]
  | .running _ | .draining .. | .terminating _ | .killing _ => simp [execution]

end Course

/-- What comes of `execute`, without its log. -/
theorem execute_value (limits : Limits) (clock : Duration) (ws : Workspace) (run : UInt64)
    (i : Invocation) (c : Course) :
    (execute limits clock ws run i c).value =
      match ws.start i.program i.args with
      | .error e => .notStarted i.program e
      | .ok () =>
        if limits.deadlineFits clock then
          c.execution (Supervisor.reactAll
            { run, timeout := limits.timeout, grace := limits.grace } .start c.inputs).next
        else .deadlineOverflow := by
  simp only [execute, Logged.value_bind]
  cases ws.start i.program i.args with
  | error e => rfl
  | ok u =>
    dsimp only
    split <;> rfl

open Supervisor

section

variable {limits : Limits} {clock : Duration} {ws : Workspace} {run : UInt64} {i : Invocation}
  {c : Course} {x : Execution}

/-- A run that has an outcome, or was cancelled, was started, its deadline is one that the clock
    reaches, and it is over. -/
theorem execution_of_execute (hx : (execute limits clock ws run i c).value = x)
    (hover : (∃ o, x = .done o) ∨ x = .cancelled) :
    ws.start i.program i.args = .ok () ∧ limits.deadlineFits clock = true ∧
      c.execution (reactAll { run, timeout := limits.timeout, grace := limits.grace } .start
        c.inputs).next = x := by
  rw [execute_value] at hx
  cases hstart : ws.start i.program i.args with
  | error e =>
    simp only [hstart] at hx
    subst hx
    simp at hover
  | ok u =>
    simp only [hstart] at hx
    by_cases hfits : limits.deadlineFits clock = true
    · rw [if_pos hfits] at hx
      exact ⟨rfl, hfits, hx⟩
    · rw [if_neg hfits] at hx
      subst hx
      simp at hover

end

end MapperSweep
