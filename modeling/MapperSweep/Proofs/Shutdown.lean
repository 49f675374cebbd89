import Mathlib.Data.List.GetD
import Mathlib.Data.List.Induction
import MapperSweep.Shutdown

/-!
# Switches and the descent of their handles

Handles and listeners know nothing of each other, but those that descend from the same new handle
share a switch.  Here their descent is read off the operations alone, without a look at the board.
Whatever was done, in whatever order, an entry shows that the end was requested exactly if somebody
requested it through a handle of the same descent.

## Key results

- `descends_concat`, `switch?_step`: one more operation, for the descent of entries and for the
  board
- `Reflects.step`, `reflects_run`: the board tells who descends from whom, and what was requested
- `wait_run_eq_closed_iff`: when a listener waits for something that cannot come any more
- `entries_show_related_requests`: what every entry shows, answers and logs
-/

namespace MapperSweep.Shutdown

/-! ## Descent -/

/-- A handle or a listener, by the number that it got when it was made. -/
inductive Entry where
  | handle (h : Nat)
  | listener (l : Nat)
deriving DecidableEq

namespace Operation

/-- `op.makesHandle` holds if the operation makes a handle, new or copied. -/
def makesHandle : Operation → Bool
  | newHandle | copyHandle _ => true
  | _ => false

/-- `op.makesListener` holds if the operation makes a listener, from a handle or from another
    listener. -/
def makesListener : Operation → Bool
  | listen _ | copyListener _ => true
  | _ => false

/-- The entry that an operation is applied to.  `newHandle` is applied to none. -/
def subject? : Operation → Option Entry
  | newHandle => none
  | copyHandle h | listen h | request h | dropHandle h => some (.handle h)
  | copyListener l | poll l => some (.listener l)

end Operation

/-- How many handles `ops` made, so the number that the next one gets. -/
def handlesMade (ops : List Operation) : Nat := ops.countP Operation.makesHandle

/-- How many listeners `ops` made, so the number that the next one gets. -/
def listenersMade (ops : List Operation) : Nat := ops.countP Operation.makesListener

/-- How many of the handles that `ops` made were new ones. -/
def newHandles (ops : List Operation) : Nat := ops.count .newHandle

/-- `Descends ops e k` says that after `ops` the entry `e` is there, and descends from the new
    handle number `k`.  New handles are counted from zero. -/
inductive Descends : List Operation → Entry → Nat → Prop where
  | newHandle (ops : List Operation) :
    Descends (ops ++ [.newHandle]) (.handle (handlesMade ops)) (newHandles ops)
  | copyHandle {ops : List Operation} {h k : Nat} (hsource : Descends ops (.handle h) k) :
    Descends (ops ++ [.copyHandle h]) (.handle (handlesMade ops)) k
  | listen {ops : List Operation} {h k : Nat} (hsource : Descends ops (.handle h) k) :
    Descends (ops ++ [.listen h]) (.listener (listenersMade ops)) k
  | copyListener {ops : List Operation} {l k : Nat} (hsource : Descends ops (.listener l) k) :
    Descends (ops ++ [.copyListener l]) (.listener (listenersMade ops)) k
  /-- An entry stays unless it is dropped. -/
  | stay {ops : List Operation} {e : Entry} {k : Nat} (hthere : Descends ops e k) (op : Operation)
    (hkept : ∀ h, op = .dropHandle h → e ≠ .handle h) : Descends (ops ++ [op]) e k

/-- `Requested ops k` says that somebody has requested the end through a handle that descends from
    the new handle number `k`. -/
def Requested (ops : List Operation) (k : Nat) : Prop :=
  ∃ before h after, ops = before ++ .request h :: after ∧ Descends before (.handle h) k

/-- An operation makes the entry `e`, which belongs to `k`.  So far there are so many handles,
    listeners and new handles, and `origin` tells what their entries belong to. -/
def Makes (handles listeners new : Nat) (origin : Entry → Nat → Prop) (e : Entry) (k : Nat) :
    Operation → Prop
  | .newHandle => e = .handle handles ∧ new = k
  | .copyHandle h => e = .handle handles ∧ origin (.handle h) k
  | .listen h => e = .listener listeners ∧ origin (.handle h) k
  | .copyListener l => e = .listener listeners ∧ origin (.listener l) k
  | _ => False

section

variable {ops : List Operation} {op : Operation} {e : Entry} {k : Nat}

/-- An entry was made by the last operation `op`, or it was there before and was not dropped. -/
theorem descends_concat :
    Descends (ops ++ [op]) e k ↔
      Makes (handlesMade ops) (listenersMade ops) (newHandles ops) (Descends ops) e k op ∨
        (Descends ops e k ∧ ∀ h, op = .dropHandle h → e ≠ .handle h) := by
  constructor
  · intro h
    -- In each case the last operation is the one that the constructor ends with.
    generalize hall : ops ++ [op] = all at h
    cases h with
    | newHandle before =>
      obtain ⟨rfl, hop⟩ := List.append_inj' hall rfl
      obtain rfl := List.head_eq_of_cons_eq hop
      exact .inl ⟨rfl, rfl⟩
    | copyHandle hsource | listen hsource | copyListener hsource =>
      obtain ⟨rfl, hop⟩ := List.append_inj' hall rfl
      obtain rfl := List.head_eq_of_cons_eq hop
      exact .inl ⟨rfl, hsource⟩
    | stay hthere last hkept =>
      obtain ⟨rfl, hop⟩ := List.append_inj' hall rfl
      obtain rfl := List.head_eq_of_cons_eq hop
      exact .inr ⟨hthere, hkept⟩
  · rintro (hmade | ⟨hthere, hkept⟩)
    · cases op with
      | newHandle => obtain ⟨rfl, rfl⟩ := hmade; exact .newHandle ops
      | copyHandle h => obtain ⟨rfl, hsource⟩ := hmade; exact .copyHandle hsource
      | listen h => obtain ⟨rfl, hsource⟩ := hmade; exact .listen hsource
      | copyListener l => obtain ⟨rfl, hsource⟩ := hmade; exact .copyListener hsource
      | request h | dropHandle h | poll l => exact hmade.elim
    · exact .stay hthere op hkept

/-- A request is among the earlier operations `ops`, or it is the last one. -/
theorem requested_concat :
    Requested (ops ++ [op]) k ↔
      Requested ops k ∨ ∃ h, op = .request h ∧ Descends ops (.handle h) k := by
  constructor
  · rintro ⟨before, h, after, heq, hh⟩
    rcases List.eq_nil_or_concat after with rfl | ⟨since, last, rfl⟩
    · obtain ⟨rfl, hop⟩ := List.append_inj' heq rfl
      exact .inr ⟨h, List.head_eq_of_cons_eq hop, hh⟩
    · rw [List.concat_eq_append, ← List.cons_append, ← List.append_assoc] at heq
      exact .inl ⟨before, h, since, (List.append_inj' heq rfl).1, hh⟩
  · rintro (⟨before, h, after, rfl, hh⟩ | ⟨h, rfl, hh⟩)
    · exact ⟨before, h, after ++ [op], by simp, hh⟩
    · exact ⟨ops, h, [], rfl, hh⟩

/-- All entries descend from new handles that `ops` made. -/
theorem Descends.lt_newHandles (h : Descends ops e k) : k < newHandles ops := by
  induction h with
  | newHandle ops => simp [newHandles]
  | copyHandle _ ih | listen _ ih | copyListener _ ih =>
    rw [newHandles, List.count_append]
    exact Nat.lt_add_right _ ih
  | stay _ op _ ih =>
    rw [newHandles, List.count_append]
    exact Nat.lt_add_right _ ih

end

/-! ## One operation on the board -/

namespace Board

/-- The switch of an entry of the board `b`. -/
def switch? (b : Board) : Entry → Option Nat
  | .handle h => b.handle? h
  | .listener l => b.listener? l

/-- What an entry of the board `b` shows, if it is there. -/
def shown (b : Board) : Entry → Option Bool
  | .handle h => (b.handleStates[h]?).join
  | .listener l => (b.listenerStates[l]?).join

theorem shown_eq (b : Board) (e : Entry) : b.shown e = (b.switch? e).map b.isPressed := by
  cases e with
  | handle h =>
    simp only [shown, handleStates, switch?, handle?, List.getElem?_map]
    cases b.handles[h]? <;> rfl
  | listener l =>
    simp only [shown, listenerStates, switch?, listener?, List.getElem?_map]
    cases b.listeners[l]? <;> rfl

/-- A list of entries with `x` at its end. -/
private theorem join_getElem?_concat (xs : List (Option Nat)) (x : Option Nat) (i k : Nat) :
    ((xs ++ [x])[i]?).join = some k ↔ (i = xs.length ∧ x = some k) ∨ (xs[i]?).join = some k := by
  rcases Nat.lt_trichotomy i xs.length with hlt | rfl | hgt
  · rw [List.getElem?_append_left hlt]
    have hne : i ≠ xs.length := by omega
    simp [hne]
  · simp
  · have hne : i ≠ xs.length := by omega
    have hshort : xs.length ≤ i := by omega
    have hshort' : (xs ++ [x]).length ≤ i := by
      rw [List.length_append, List.length_singleton]
      omega
    rw [List.getElem?_eq_none hshort, List.getElem?_eq_none hshort']
    simp [hne]

/-- A list of entries from which the one in place `j` was taken. -/
private theorem join_getElem?_set_none (xs : List (Option Nat)) (j i k : Nat) :
    ((xs.set j none)[i]?).join = some k ↔ (xs[i]?).join = some k ∧ i ≠ j := by
  by_cases h : i = j
  · subst h
    by_cases hi : i < xs.length
    · simp [List.getElem?_set_self hi]
    · rw [List.set_eq_of_length_le (by omega)]
      simp [List.getElem?_eq_none (show xs.length ≤ i by omega)]
  · rw [List.getElem?_set_ne (Ne.symm h)]
    simp [h]

variable (b : Board) (op : Operation)

/-- `b.step op` makes an entry, and leaves all others with their switches unless it drops one. -/
theorem switch?_step (e : Entry) (k : Nat) :
    (b.step op).1.switch? e = some k ↔
      Makes b.handles.length b.listeners.length b.pressed.length
          (fun e k => b.switch? e = some k) e k op ∨
        (b.switch? e = some k ∧ ∀ h, op = .dropHandle h → e ≠ .handle h) := by
  cases op with
  | newHandle =>
    cases e with
    | handle i => simp [step, switch?, handle?, Makes, join_getElem?_concat]
    | listener i => simp [step, switch?, listener?, Makes]
  | copyHandle h =>
    cases e with
    | handle i => simp [step, switch?, handle?, Makes, join_getElem?_concat]
    | listener i => simp [step, switch?, listener?, Makes]
  | listen h =>
    cases e with
    | handle i => simp [step, switch?, handle?, Makes]
    | listener i => simp [step, switch?, listener?, handle?, Makes, join_getElem?_concat]
  | copyListener l =>
    cases e with
    | handle i => simp [step, switch?, handle?, Makes]
    | listener i => simp [step, switch?, listener?, Makes, join_getElem?_concat]
  | request h =>
    -- A request changes the switch and not the entries.
    have hsame : (b.step (.request h)).1.switch? e = b.switch? e := by
      simp only [step]
      cases b.handle? h <;> cases e <;> rfl
    simp [hsame, Makes]
  | dropHandle h =>
    cases e with
    | handle i => simp [step, switch?, handle?, Makes, join_getElem?_set_none]
    | listener i => simp [step, switch?, listener?, Makes]
  | poll l =>
    have hsame : (b.step (.poll l)).1 = b := by
      simp only [step]
      cases b.listener? l <;> rfl
    simp [hsame, Makes]

/-- A switch stays pressed, and `b.step op` presses it only by a request through one of its
    handles. -/
theorem isPressed_step (k : Nat) :
    (b.step op).1.isPressed k = true ↔
      b.isPressed k = true ∨
        ∃ h, op = .request h ∧ b.handle? h = some k ∧ k < b.pressed.length := by
  cases op with
  | newHandle =>
    -- The new switch is at the end and not pressed, which is the default for what is not there.
    simp only [step, isPressed, reduceCtorEq, false_and, exists_false, or_false]
    rcases Nat.lt_trichotomy k b.pressed.length with hlt | rfl | hgt
    · rw [List.getD_append _ _ _ _ hlt]
    · simp
    · rw [List.getD_eq_default _ _ (by simp; omega), List.getD_eq_default _ _ (by omega)]
  | request h =>
    simp only [step, Operation.request.injEq, exists_eq_left']
    cases hh : b.handle? h with
    | none => simp
    | some s =>
      simp only [Option.some.injEq, isPressed, List.getD_eq_getElem?_getD, List.getElem?_set]
      by_cases hs : s = k
      · subst hs
        by_cases hlt : s < b.pressed.length <;> simp [hlt]
      · simp [hs]
  | poll l =>
    have hsame : (b.step (.poll l)).1 = b := by
      simp only [step]
      cases b.listener? l <;> rfl
    simp [hsame]
  | copyHandle h | listen h | copyListener l | dropHandle h => simp [step, isPressed]

/-- The numbers of handles, listeners and switches grow with what `op` makes. -/
theorem length_step :
    (b.step op).1.handles.length = b.handles.length + (if op.makesHandle then 1 else 0) ∧
      (b.step op).1.listeners.length = b.listeners.length + (if op.makesListener then 1 else 0) ∧
      (b.step op).1.pressed.length = b.pressed.length + (if op = .newHandle then 1 else 0) := by
  cases op with
  | request h =>
    simp only [step]
    cases b.handle? h <;> simp [Operation.makesHandle, Operation.makesListener]
  | poll l =>
    simp only [step]
    cases b.listener? l <;> simp [Operation.makesHandle, Operation.makesListener]
  | _ => simp [step, Operation.makesHandle, Operation.makesListener]

theorem run_append (ops more : List Operation) : b.run (ops ++ more) = (b.run ops).run more :=
  List.foldl_append

/-- A request ends `wait`, whether or not there are handles left. -/
theorem wait_eq_requested_iff (k : Nat) : b.wait k = .requested ↔ b.isPressed k = true := by
  unfold wait
  split
  · simp_all
  · split <;> simp_all

/-- `wait` without a request is in vain if there are no handles left. -/
theorem wait_eq_closed_iff (k : Nat) :
    b.wait k = .closed ↔ b.isPressed k = false ∧ ∀ h, b.handle? h ≠ some k := by
  have hhandles : b.handles.contains (some k) = true ↔ ∃ h, b.handle? h = some k := by
    simp only [List.contains_iff_mem, List.mem_iff_getElem?, handle?, Option.join_eq_some_iff]
  unfold wait
  split
  · simp_all
  · split <;> simp_all

end Board

/-! ## All operations -/

/-- `Reflects ops b` says that the board `b` tells who descends from whom after `ops`, and what was
    requested. -/
structure Reflects (ops : List Operation) (b : Board) : Prop where
  handles : b.handles.length = handlesMade ops
  listeners : b.listeners.length = listenersMade ops
  switches : b.pressed.length = newHandles ops
  switch? : ∀ e k, b.switch? e = some k ↔ Descends ops e k
  isPressed : ∀ k, b.isPressed k = true ↔ Requested ops k

theorem reflects_nil : Reflects [] {} where
  handles := rfl
  listeners := rfl
  switches := rfl
  switch? e k := by
    have hnone : ¬Descends [] e k := fun h => Nat.not_lt_zero k h.lt_newHandles
    cases e <;> simpa [Board.switch?, Board.handle?, Board.listener?] using hnone
  isPressed k := by simp [Board.isPressed, Requested]

/-- The step of `reflects_run`: one more operation, for the board and for the descent of its
    entries. -/
theorem Reflects.step {ops : List Operation} {b : Board} (h : Reflects ops b) (op : Operation) :
    Reflects (ops ++ [op]) (b.step op).1 := by
  obtain ⟨hhandles, hlisteners, hpressed⟩ := b.length_step op
  refine ⟨?_, ?_, ?_, ?_, ?_⟩
  · rw [hhandles, h.handles, handlesMade, handlesMade, List.countP_append, List.countP_singleton]
  · rw [hlisteners, h.listeners, listenersMade, listenersMade, List.countP_append,
      List.countP_singleton]
  · rw [hpressed, h.switches, newHandles, newHandles, List.count_append, List.count_singleton]
    simp
  · intro e k
    -- Both sides make the same entries from the same ones.
    have horigin : (fun e k => b.switch? e = some k) = Descends ops := by
      funext e k
      exact propext (h.switch? e k)
    rw [b.switch?_step, descends_concat, h.handles, h.listeners, h.switches, horigin, h.switch?]
  · intro k
    rw [b.isPressed_step, requested_concat, h.isPressed]
    refine or_congr_right (exists_congr fun i => and_congr_right fun _ => ?_)
    have hhandle : b.handle? i = some k ↔ Descends ops (.handle i) k := h.switch? (.handle i) k
    rw [hhandle, h.switches]
    exact and_iff_left_of_imp Descends.lt_newHandles

/-- Whatever operations `ops` were done, the board tells who descends from whom. -/
theorem reflects_run (ops : List Operation) : Reflects ops (Board.run {} ops) := by
  induction ops using List.reverseRecOn with
  | nil => exact reflects_nil
  | append_singleton ops op ih =>
    rw [Board.run_append]
    exact ih.step op

instance (ops : List Operation) (e : Entry) (k : Nat) : Decidable (Descends ops e k) :=
  decidable_of_iff _ ((reflects_run ops).switch? e k)

instance (ops : List Operation) (k : Nat) : Decidable (Requested ops k) :=
  decidable_of_iff _ ((reflects_run ops).isPressed k)

section

variable {ops : List Operation} {k : Nat}

theorem isPressed_run : (Board.run {} ops).isPressed k = decide (Requested ops k) := by
  rw [Bool.eq_iff_iff, decide_eq_true_iff]
  exact (reflects_run ops).isPressed k

/-- A listener of the descent `k` waits in vain once all handles of it are gone, if none of them was
    used. -/
theorem wait_run_eq_closed_iff :
    (Board.run {} ops).wait k = .closed ↔
      ¬Requested ops k ∧ ∀ h, ¬Descends ops (.handle h) k := by
  rw [Board.wait_eq_closed_iff, isPressed_run, decide_eq_false_iff_not]
  exact and_congr_right fun _ => forall_congr' fun h =>
    not_congr ((reflects_run ops).switch? (.handle h) k)

/-! ## What cannot come any more -/

/-- A listener is there whatever `more` is done. -/
theorem Descends.append_of_listener {l : Nat} (h : Descends ops (.listener l) k)
    (more : List Operation) : Descends (ops ++ more) (.listener l) k := by
  induction more using List.reverseRecOn with
  | nil => rwa [List.append_nil]
  | append_singleton more op ih =>
    rw [← List.append_assoc]
    exact .stay ih op fun _ _ => by simp

/-- Handles are made from handles, so a descent `k` without handles stays without. -/
theorem not_descends_handle_append (hk : k < newHandles ops)
    (hnone : ∀ h, ¬Descends ops (.handle h) k) (more : List Operation) :
    k < newHandles (ops ++ more) ∧ ∀ h, ¬Descends (ops ++ more) (.handle h) k := by
  induction more using List.reverseRecOn with
  | nil => rw [List.append_nil]; exact ⟨hk, hnone⟩
  | append_singleton more op ih =>
    rw [← List.append_assoc]
    obtain ⟨hk, hnone⟩ := ih
    refine ⟨?_, ?_⟩
    · rw [newHandles, List.count_append]
      exact Nat.lt_add_right _ hk
    · intro h hh
      rcases descends_concat.1 hh with hmade | ⟨hthere, _⟩
      · cases op with
        | newHandle =>
          obtain ⟨-, rfl⟩ := hmade
          exact Nat.lt_irrefl _ hk
        | copyHandle i => exact hnone i hmade.2
        | listen i | copyListener i => exact Entry.noConfusion hmade.1
        | request i | dropHandle i | poll i => exact hmade
      · exact hnone h hthere

/-- In a descent `k` without handles there will be no request. -/
theorem not_requested_append (hk : k < newHandles ops) (hnone : ∀ h, ¬Descends ops (.handle h) k)
    (hnot : ¬Requested ops k) (more : List Operation) : ¬Requested (ops ++ more) k := by
  induction more using List.reverseRecOn with
  | nil => rwa [List.append_nil]
  | append_singleton more op ih =>
    rw [← List.append_assoc, requested_concat]
    rintro (hearlier | ⟨h, -, hh⟩)
    · exact ih hearlier
    · exact (not_descends_handle_append hk hnone more).2 h hh

/-! ## Others -/

/-- `Unrelated ops more k` says that none of the operations `more` is applied to an entry that
    descends from the new handle number `k`. -/
def Unrelated (ops more : List Operation) (k : Nat) : Prop :=
  ∀ before op after, more = before ++ op :: after →
    ∀ e, op.subject? = some e → ¬Descends (ops ++ before) e k

theorem Unrelated.of_concat {more : List Operation} {op : Operation}
    (h : Unrelated ops (more ++ [op]) k) :
    Unrelated ops more k ∧ ∀ e, op.subject? = some e → ¬Descends (ops ++ more) e k := by
  refine ⟨?_, h more op [] rfl⟩
  rintro before first after rfl
  exact h before first (after ++ [op]) (by simp)

/-- What is done to entries that are `Unrelated` takes no entry away and requests nothing of it. -/
theorem Unrelated.keeps {more : List Operation} {e : Entry} (he : Descends ops e k)
    (h : Unrelated ops more k) :
    Descends (ops ++ more) e k ∧ (Requested (ops ++ more) k ↔ Requested ops k) := by
  induction more using List.reverseRecOn with
  | nil => simpa using he
  | append_singleton more op ih =>
    obtain ⟨hmore, hop⟩ := h.of_concat
    obtain ⟨hthere, hrequested⟩ := ih hmore
    rw [← List.append_assoc]
    refine ⟨.stay hthere op ?_, ?_⟩
    · -- An entry that is dropped is the one that the operation is applied to.
      rintro i rfl rfl
      exact hop (.handle i) rfl hthere
    · rw [requested_concat, hrequested, or_iff_left]
      rintro ⟨i, rfl, hi⟩
      exact hop (.handle i) rfl hi

end

/-! ## Entries -/

theorem shown_run {ops : List Operation} {e : Entry} {k : Nat} (h : Descends ops e k) :
    (Board.run {} ops).shown e = some (decide (Requested ops k)) := by
  rw [Board.shown_eq, ((reflects_run ops).switch? e k).2 h, Option.map_some, isPressed_run]

theorem poll_run {ops : List Operation} {l k : Nat} (h : Descends ops (.listener l) k) :
    ((Board.run {} ops).step (.poll l)).2 = .polled (decide (Requested ops k)) := by
  have hl : (Board.run {} ops).listener? l = some k :=
    ((reflects_run ops).switch? (.listener l) k).2 h
  have hwait : ((Board.run {} ops).wait k == .requested) = decide (Requested ops k) := by
    rw [Bool.eq_iff_iff, beq_iff_eq, Board.wait_eq_requested_iff, isPressed_run]
  simp only [Board.step, hl, hwait]

theorem request_run {ops : List Operation} {h k : Nat} (hh : Descends ops (.handle h) k) :
    ((Board.run {} ops).step (.request h)).2 =
      .requested (if Requested ops k then [.shutdownRepeated] else []) := by
  have hhandle : (Board.run {} ops).handle? h = some k :=
    ((reflects_run ops).switch? (.handle h) k).2 hh
  simp only [Board.step, hhandle, isPressed_run, decide_eq_true_eq]

/-- After any operations, with two entries called related if they descend from the same new handle:

    * the entries that are there are those with a descent, which is unique;
    * each of them shows whether there was a request through a related handle, be there handles left
      or not;
    * a listener that waits is ready exactly then, and if all related handles were dropped without a
      request, it will never be, whatever is done;
    * a request is logged as a repeated one exactly if there was a related one before;
    * what is done to others changes nothing. -/
theorem entries_show_related_requests (ops : List Operation) :
    let b := Board.run {} ops
    (∀ e, b.shown e ≠ none ↔ ∃! k, Descends ops e k) ∧
    (∀ e k, Descends ops e k → b.shown e = some (decide (Requested ops k))) ∧
    (∀ l k, Descends ops (.listener l) k →
      (b.step (.poll l)).2 = .polled (decide (Requested ops k)) ∧
      (¬Requested ops k → (∀ h, ¬Descends ops (.handle h) k) →
        ∀ more, ((b.run more).step (.poll l)).2 = .polled false)) ∧
    (∀ h k, Descends ops (.handle h) k →
      (b.step (.request h)).2 =
        .requested (if Requested ops k then [.shutdownRepeated] else [])) ∧
    (∀ e k more, Descends ops e k → Unrelated ops more k →
      Descends (ops ++ more) e k ∧ (b.run more).shown e = b.shown e) := by
  refine ⟨?_, fun e k => shown_run, ?_, fun h k => request_run, ?_⟩
  -- The board has at most one switch for each entry, so the descent is unique.
  · intro e
    have hswitch := (reflects_run ops).switch? e
    rw [Board.shown_eq]
    cases hk : (Board.run {} ops).switch? e with
    | none =>
      simp only [hk, reduceCtorEq, false_iff] at hswitch
      simp [hswitch, ExistsUnique]
    | some s =>
      simp only [hk, Option.some.injEq] at hswitch
      simp [← hswitch]
  · intro l k hl
    refine ⟨poll_run hl, ?_⟩
    intro hnot hnone more
    have hnever := not_requested_append hl.lt_newHandles hnone hnot more
    rw [← Board.run_append, poll_run (hl.append_of_listener more), decide_eq_false hnever]
  · intro e k more he hunrelated
    obtain ⟨hthere, hrequested⟩ := hunrelated.keeps he
    refine ⟨hthere, ?_⟩
    rw [← Board.run_append, shown_run hthere, shown_run he, Option.some.injEq,
      decide_eq_decide]
    exact hrequested

/-- Two switches.  The first one is pressed through a copy of its handle, the second one is not, and
    then all handles are dropped. -/
def twoSwitches : List Operation :=
  [.newHandle, .newHandle, .copyHandle 0, .listen 2, .copyListener 0, .listen 1, .request 2,
    .dropHandle 0, .dropHandle 2, .dropHandle 1]

/-- In `twoSwitches` the copied listener of the first switch still shows the request.  The listener
    of the second switch waits for ever, and a handle that is new after all this presses neither of
    them. -/
theorem entries_show_of_twoSwitches :
    Descends twoSwitches (.listener 1) 0 ∧ Requested twoSwitches 0 ∧
      Descends twoSwitches (.listener 2) 1 ∧ ¬Requested twoSwitches 1 ∧
      (Board.run {} twoSwitches).shown (.listener 1) = some true ∧
      (∀ more, (((Board.run {} twoSwitches).run more).step (.poll 2)).2 = .polled false) ∧
      ((Board.run {} twoSwitches).run [.newHandle, .request 3]).shown (.listener 2) =
        some false := by
  obtain ⟨-, hshown, hpoll, -, hothers⟩ := entries_show_related_requests twoSwitches
  have hfirst : Descends twoSwitches (.listener 1) 0 := by decide
  have hsecond : Descends twoSwitches (.listener 2) 1 := by decide
  have hrequested : Requested twoSwitches 0 := by decide
  have hnot : ¬Requested twoSwitches 1 := by decide
  have hnone : ∀ h, ¬Descends twoSwitches (.handle h) 1 :=
    (wait_run_eq_closed_iff.1 (by decide)).2
  -- Handle 3 is the new one, so it descends from new handle number 2.
  have hunrelated : Unrelated twoSwitches [.newHandle, .request 3] 1 := by
    intro before op after heq e he
    match before, heq with
    | [], heq =>
      obtain rfl : .newHandle = op := List.head_eq_of_cons_eq heq
      exact nomatch he
    | [_], heq =>
      obtain ⟨rfl, hop⟩ := List.cons.inj heq
      obtain rfl : .request 3 = op := List.head_eq_of_cons_eq hop
      obtain rfl : .handle 3 = e := Option.some.inj he
      decide
    | [_, _], heq => simp at heq
    | _ :: _ :: _ :: _, heq => simp at heq
  refine ⟨hfirst, hrequested, hsecond, hnot, ?_, (hpoll 2 1 hsecond).2 hnot hnone, ?_⟩
  · rw [hshown _ _ hfirst, decide_eq_true hrequested]
  · rw [(hothers _ _ _ hsecond hunrelated).2, hshown _ _ hsecond, decide_eq_false hnot]

end MapperSweep.Shutdown
