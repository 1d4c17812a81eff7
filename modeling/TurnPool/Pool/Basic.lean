import TurnPool.Config.Basic
import TurnPool.Pool.Context
import TurnPool.Queue
import TurnPool.Sizer
import TurnPool.Token.Ledger
import TurnPool.Token.Signal

/-!
# The pool

Everything the pool knows: its counters, its queue, the contexts, the tokens, and what was
reported as fatal. Which thread has the core lock is the business of those who drive the pool; each
operation here is done as a whole, without letting anybody else in between.

## Main definitions

* `Pool`: the pool.
* `Pool.check`: nothing may be open at the boundaries of events and pauses.
* `Pool.markToken`, `Pool.sendAbort`, `Pool.reclaim`: a token is reclaimed, in steps and as a whole.
* `Pool.countQuits`, `Pool.retire`: the pool shrinks.
-/

namespace TurnPool

open Text

/-- What a panic carries. -/
inductive Panic where
  /-- A text. -/
  | text (s : String)
  /-- Anything else. -/
  | other
deriving DecidableEq, Repr

/-- The text under which a panic is reported. -/
def Panic.message : Panic → String
  | .text s => s
  | .other => "non-string panic payload"

/-- What is known about a paused context. -/
structure PausedContext where
  /-- The number of the context. -/
  context : Nat
  /-- The name of its thread. -/
  thread : ThreadName
  /-- The category of its token. -/
  category : Category
  /-- The number of its token. -/
  token : Nat
  /-- The reason given for the token. -/
  tokenReason : String
  /-- The reason given for the pause. -/
  reason : String
  /-- The priority of its event. -/
  priority : Priority
deriving DecidableEq, Repr

/-- A pool whose queue holds events of type `ω`. -/
structure Pool (ω : Type) where
  /-- Its settings. -/
  config : ThreadConfig
  /-- Its counters. -/
  sizer : Sizer
  /-- Its queue. -/
  queue : Queue (Work ω)
  /-- Every context there ever was, by its number. -/
  contexts : Array Context
  /-- The paused contexts, ascending by their numbers. -/
  paused : List PausedContext
  /-- Its tokens. -/
  ledger : Ledger
  /-- The signals of all pauses there ever were, by their numbers. -/
  signals : Array Signal
  /-- What is open, by its description, if anything is. -/
  opened : Option String
  /-- What was reported as fatal, oldest first: where it was found, and what it is. -/
  reports : List (String × String)
  /-- Whether the pool was started. -/
  started : Bool
  /-- Whether somebody listens to how the pool shrinks. -/
  listening : Bool
  /-- What the listener was told, oldest first. -/
  shrinks : List Nat

namespace Pool

variable {ω : Type}

/-! ### Reports -/

/-- Report something as fatal. -/
def report (origin message : String) (p : Pool ω) : Pool ω :=
  { p with reports := p.reports ++ [(origin, message)] }

/-- Make sure that nothing is open. What is open at the boundary of an event or a pause is reported
as fatal. -/
def check (origin : String) (p : Pool ω) : Except Fault Unit × Pool ω :=
  match p.opened with
  | none => (.ok (), p)
  | some what =>
    let message := origin ++ " with open resources: " ++ what
    (.error (.invariantViolation message), p.report origin message)

/-! ### Contexts -/

/-- Add a context. -/
def addContext (name : ThreadName) (pooled : Bool) (p : Pool ω) : Nat × Pool ω :=
  (p.contexts.size, { p with contexts := p.contexts.push (.new name pooled) })

/-- Change a context. -/
def modifyContext (id : Nat) (f : Context → Context) (p : Pool ω) : Pool ω :=
  { p with contexts := p.contexts.modify id f }

/-- The context of a number; a fresh one if there is none. -/
def context (p : Pool ω) (id : Nat) : Context :=
  p.contexts[id]?.getD (.new (.caller "") false)

/-- The signal of a number; a fresh one if there is none. -/
def signal (p : Pool ω) (id : Nat) : Signal :=
  p.signals[id]?.getD .fresh

/-- Change a signal. -/
def modifySignal (id : Nat) (f : Signal → Signal) (p : Pool ω) : Pool ω :=
  { p with signals := p.signals.modify id f }

/-! ### Reclaiming tokens -/

/-- Mark a token as reclaimed. The answer holds the contexts to abort; there is none if the token
was marked before. -/
def markToken (id : Nat) (p : Pool ω) : Option (List Holder) × Pool ω :=
  let (holders, ledger) := p.ledger.mark id
  (holders, { p with ledger })

/-- Send one of the holders of a token the cause. -/
def sendAbort (token : Nat) (h : Holder) (p : Pool ω) : Pool ω :=
  p.modifySignal h.signal (Signal.send (p.ledger.token token).abortCause)

/-- Release the slot of a token, and rouse those who wait for one. -/
def releaseToken (id : Nat) (p : Pool ω) : Pool ω :=
  { p with ledger := (p.ledger.release id).notify }

/-- Reclaim a token: mark it, send each of its holders the cause, and release its slot. A token that
was marked before is left as it is. -/
def reclaim (id : Nat) (p : Pool ω) : Pool ω :=
  match p.markToken id with
  | (none, p') => p'
  | (some holders, p') => (holders.foldl (fun p h => p.sendAbort id h) p').releaseToken id

/-- Let a category issue no more tokens, and rouse those who wait for one. -/
def shutdown (c : Category) (p : Pool ω) : Pool ω :=
  { p with ledger := (p.ledger.close c).notify }

/-! ### Workers -/

/-- An event is over: count the quits to push. -/
def countQuits (p : Pool ω) : Nat × Pool ω :=
  let (quits, sizer) := p.sizer.requestShrink
  (quits, { p with sizer })

/-- Push one quit. It is delivered after the delay of the settings. -/
def pushQuit (now : Nat) (p : Pool ω) : Pool ω :=
  { p with queue := p.queue.pushQuit now (millis p.config.shrinkDelayMs) }

/-- Tell the listener how many quits were pushed. -/
def tellShrink (quits : Nat) (p : Pool ω) : Pool ω :=
  if p.listening then { p with shrinks := p.shrinks ++ [quits] } else p

/-- Let somebody listen to how the pool shrinks. There is room for one. -/
def listen (p : Pool ω) : Except Fault Unit × Pool ω :=
  if p.listening then (.error .listenerAlreadySet, p) else (.ok (), { p with listening := true })

/-- The worker of a slot takes a quit. The answer tells whether it leaves. -/
def retire (slot : Nat) (p : Pool ω) : Bool × Pool ω :=
  let (leaves, sizer) := p.sizer.tryRetire slot
  (leaves, { p with sizer })

end Pool

end TurnPool
