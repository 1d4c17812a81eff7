import TurnPool.Priority
import TurnPool.Text.Shown

/-!
# Contexts

A context is whoever may run events: a worker of the pool, or a caller that runs one event on its
own thread. It either runs, and then its thread has or is about to have the core lock while an
event is served, or is paused on exactly one token.

A context can be sent *wakes*. They do not add up: one wake, or none, waits to be taken. A wake
that an event leaves behind is dropped when the next event of the context begins.

## Main definitions

* `ThreadName`: the name of a thread.
* `Context`: a context.
* `Context.beginEvent`: an event begins on it.
* `Context.markPaused`, `Context.markResumed`: it pauses on a token, and runs again.
* `Context.wake`, `Context.takeWake`: a wake is sent, and taken.
-/

namespace TurnPool

open Text

/-- The name of a thread. -/
inductive ThreadName where
  /-- The worker of a slot. -/
  | worker (slot : Nat)
  /-- A thread that is no worker of the pool. -/
  | caller (name : String)
deriving DecidableEq, Repr

namespace ThreadName

/-- The name as a text. -/
def text : ThreadName → String
  | worker slot => "core-" ++ toString slot
  | caller name => name

/-- The name where it does not matter which of the workers it is. -/
def label : ThreadName → String
  | worker _ => "core"
  | caller name => name

end ThreadName

/-- Whoever may run events. -/
structure Context where
  /-- The name of its thread. -/
  name : ThreadName
  /-- Whether it is a worker of the pool. -/
  pooled : Bool
  /-- Whether it is not paused. -/
  running : Bool
  /-- The priority of its event. -/
  priority : Priority
  /-- The token it is paused on. -/
  heldToken : Option Nat
  /-- Why its last pause was aborted, if it was. -/
  abortCause : Option String
  /-- The reason of its last pause. -/
  pauseReason : String
  /-- Whether a wake waits to be taken. -/
  woken : Bool
deriving DecidableEq, Repr

namespace Context

/-- A context that has not run an event. -/
def new (name : ThreadName) (pooled : Bool) : Context :=
  { name, pooled, running := true, priority := default, heldToken := none, abortCause := none,
    pauseReason := "", woken := false }

/-- An event of a priority begins. -/
def beginEvent (priority : Priority) (c : Context) : Context :=
  { c with priority, abortCause := none, woken := false }

/-- It pauses on a token. -/
def markPaused (token : Nat) (reason : String) (c : Context) : Context :=
  { c with running := false, heldToken := some token, pauseReason := reason }

/-- It runs again. -/
def markResumed (cause : Option String) (c : Context) : Context :=
  { c with running := true, abortCause := cause, heldToken := none }

/-- A wake is sent. -/
def wake (c : Context) : Context := { c with woken := true }

/-- The wake is taken. -/
def takeWake (c : Context) : Context := { c with woken := false }

/-- The diagnostic text. The identity of a context has no text of its own. -/
def shown (c : Context) : String :=
  Shown.openRecord "ExecutionContext"
    [("id", "ContextId(#)"), ("name", Shown.quoted c.name.text), ("running", Shown.flag c.running),
     ("priority", c.priority.variant), ("pause_reason", Shown.quoted c.pauseReason),
     ("abort_cause", Shown.option Shown.quoted c.abortCause)]

/-! ### Basic facts -/

/-- A second wake changes nothing. -/
@[simp] theorem wake_wake (c : Context) : c.wake.wake = c.wake := rfl

/-- An event begins without a wake. -/
@[simp] theorem woken_beginEvent (priority : Priority) (c : Context) :
    (c.beginEvent priority).woken = false := rfl

/-- Pausing keeps the wake. -/
@[simp] theorem woken_markPaused (token : Nat) (reason : String) (c : Context) :
    (c.markPaused token reason).woken = c.woken := rfl

/-- Resuming keeps the wake. -/
@[simp] theorem woken_markResumed (cause : Option String) (c : Context) :
    (c.markResumed cause).woken = c.woken := rfl

end Context

end TurnPool
