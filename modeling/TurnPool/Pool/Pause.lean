import TurnPool.Pool.Basic

/-!
# Pauses

An event that has to block pauses on a token. Its context gives up the core lock and, if it is a
worker, its place among the active workers; then the pool may grow. When the pause is over the
context takes the lock back and the books are restored, however the pause ended.

## Main definitions

* `Pool.beginPause`: a context pauses, or is refused.
* `Pool.endPause`: the context runs again.
* `Ending`, `settle`: how the paused work ended, and what the event gets to see.
-/

namespace TurnPool

/-- How the work of a pause ended. -/
inductive Ending (α : Type) where
  /-- With a value. -/
  | value (a : α)
  /-- It ran out of time. -/
  | timedOut
  /-- It panicked. -/
  | panicked (p : Panic)

/-- What an event gets to see of a pause. -/
inductive Settled (α : Type) where
  /-- A result. -/
  | result (r : Except Fault α)
  /-- A panic, which goes on through the event. -/
  | panic (p : Panic)

/-- What an event gets to see of a pause. A panic of the work comes first, then something that was
open when the context resumed, then an abort, and only then the end of the work itself. -/
def settle {α : Type} (ending : Ending α) (resumed : Except Fault Unit) (cause : Option String) :
    Settled α :=
  match ending, resumed, cause with
  | .panicked p, _, _ => .panic p
  | _, .error e, _ => .result (.error e)
  | _, .ok _, some cause => .result (.error (.aborted cause))
  | .value a, .ok _, none => .result (.ok a)
  | .timedOut, .ok _, none => .result (.error .timeout)

/-- A panic of the work is what the event sees, whatever else happened. -/
@[simp] theorem settle_panicked {α : Type} (p : Panic) (resumed : Except Fault Unit)
    (cause : Option String) : settle (.panicked p : Ending α) resumed cause = .panic p := rfl

/-- The value of the work is what the event sees if nothing went wrong. -/
@[simp] theorem settle_value {α : Type} (a : α) :
    settle (.value a) (.ok ()) none = .result (.ok a) := rfl

/-- A cause is what the event sees in place of the value. -/
@[simp] theorem settle_aborted {α : Type} (a : α) (cause : String) :
    settle (.value a) (.ok ()) (some cause) = .result (.error (.aborted cause)) := rfl

/-- A pause that has begun. -/
structure Pause where
  /-- The number of its signal. -/
  signal : Nat
  /-- The slot of the worker to add, if the pool grows. -/
  newSlot : Option Nat
deriving DecidableEq, Repr

namespace Pool

variable {ω : Type}

/-- Note a paused context, in its place by number. -/
def notePaused (info : PausedContext) (infos : List PausedContext) : List PausedContext :=
  insertBy (fun i j => decide (i.context < j.context))
    (fun i j => i.context == j.context) info infos

/-- A context pauses on a token. It is refused, and nothing changes but for the report, if something
is open; it is refused too if the token was reclaimed. -/
def beginPause (ctx token : Nat) (reason : String) (p : Pool ω) :
    Except Fault Pause × Pool ω :=
  match p.check "pause" with
  | (.error e, p') => (.error e, p')
  | (.ok _, p) =>
    let c := p.context ctx
    if !c.running then
      let message := "ctx-" ++ toString ctx ++ " paused while not running"
      (.error (.invariantViolation message), p.report "pause" message)
    else
      let signal := p.signals.size
      match p.ledger.attach token ⟨ctx, signal⟩ with
      | .error e => (.error e, p)
      | .ok ledger =>
        let t := p.ledger.token token
        let info : PausedContext :=
          { context := ctx, thread := c.name, category := t.category, token,
            tokenReason := t.reason, reason, priority := c.priority }
        let (newSlot, sizer) := if c.pooled then p.sizer.enterPause else (none, p.sizer)
        (.ok ⟨signal, newSlot⟩,
          { p.modifyContext ctx (Context.markPaused token reason) with
            ledger
            signals := p.signals.push .fresh
            paused := notePaused info p.paused
            sizer })

/-- The context runs again, with the cause for which its pause was aborted, if it was. What is open
at this point is reported. -/
def endPause (ctx : Nat) (cause : Option String) (p : Pool ω) : Except Fault Unit × Pool ω :=
  let c := p.context ctx
  let p' : Pool ω :=
    { p with
      paused := p.paused.filter (·.context ≠ ctx)
      sizer := if c.pooled then p.sizer.leavePause else p.sizer
      ledger := match c.heldToken with
        | some token => p.ledger.detach token ctx
        | none => p.ledger }
  (p'.modifyContext ctx (Context.markResumed cause)).check "resume"

end Pool

end TurnPool
