import MapperSweep.Log

/-!
# Shutdown switches

A switch that tells a sweep to stop.  It is pressed through a handle and watched through a listener.
Handles and listeners can be copied, and those that descend from the same new handle belong to the
same switch.  A switch stays pressed, and it outlives its handles.  Who waits for a switch without
handles that was not pressed waits for ever.
-/

namespace MapperSweep.Shutdown

/-- All switches, handles and listeners.  A handle or listener holds the number of its switch; it
    holds none if it was dropped, or was made from one that is not there. -/
structure Board where
  pressed : List Bool := []
  handles : List (Option Nat) := []
  listeners : List (Option Nat) := []

/-- What can be done with switches. -/
inductive Operation where
  | newHandle
  | copyHandle (h : Nat)
  | listen (h : Nat)
  | copyListener (l : Nat)
  | request (h : Nat)
  | dropHandle (h : Nat)
  | poll (l : Nat)
deriving DecidableEq

/-- What an operation answers. -/
inductive Answer where
  /-- The number of a new handle or listener. -/
  | made (index : Nat)
  | requested (log : List Event)
  | dropped (wasThere : Bool)
  | polled (ready : Bool)
  /-- There is no such handle or listener. -/
  | absent
deriving DecidableEq

/-- What is found by waiting for a switch to be pressed. -/
inductive Wait where
  | requested
  | pending
  /-- There is no handle left that could press the switch. -/
  | closed
deriving DecidableEq

namespace Board

/-- The switch of the handle `h`, if there is one. -/
def handle? (b : Board) (h : Nat) : Option Nat := (b.handles[h]?).join

/-- The switch of the listener `l`, if there is one. -/
def listener? (b : Board) (l : Nat) : Option Nat := (b.listeners[l]?).join

/-- Whether the switch `s` is pressed. -/
def isPressed (b : Board) (s : Nat) : Bool := b.pressed.getD s false

/-- Waits for the switch `s` to be pressed.  That it is pressed counts even if its handles are
    gone. -/
def wait (b : Board) (s : Nat) : Wait :=
  if b.isPressed s then .requested
  else if b.handles.contains (some s) then .pending
  else .closed

/-- What each handle of the board `b` shows. -/
def handleStates (b : Board) : List (Option Bool) := b.handles.map (·.map b.isPressed)

/-- What each listener of the board `b` shows. -/
def listenerStates (b : Board) : List (Option Bool) := b.listeners.map (·.map b.isPressed)

/-- Carries out an operation on the board `b`. -/
def step (b : Board) : Operation → Board × Answer
  | .newHandle =>
    ({ b with pressed := b.pressed ++ [false], handles := b.handles ++ [some b.pressed.length] },
      .made b.handles.length)
  | .copyHandle h => ({ b with handles := b.handles ++ [b.handle? h] }, .made b.handles.length)
  | .listen h => ({ b with listeners := b.listeners ++ [b.handle? h] }, .made b.listeners.length)
  | .copyListener l =>
    ({ b with listeners := b.listeners ++ [b.listener? l] }, .made b.listeners.length)
  | .request h =>
    match b.handle? h with
    | none => (b, .absent)
    | some s =>
      ({ b with pressed := b.pressed.set s true },
        .requested (if b.isPressed s then [.shutdownRepeated] else []))
  | .dropHandle h =>
    ({ b with handles := b.handles.set h none }, .dropped (b.handle? h).isSome)
  | .poll l =>
    match b.listener? l with
    | none => (b, .absent)
    | some s => (b, .polled (b.wait s == .requested))

/-- The board after the operations `ops`, one after the other. -/
def run (b : Board) (ops : List Operation) : Board := ops.foldl (fun b op => (b.step op).1) b

end Board

end MapperSweep.Shutdown
