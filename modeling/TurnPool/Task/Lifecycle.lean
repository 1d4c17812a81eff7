import TurnPool.Failure
import TurnPool.Task.State

/-!
# Outcomes and retry delays

What a request or the outcome of a run does to a task: to its state, to its retry delay, and to
its place in the queue. Both schedulers act on the same rules; they differ only in how they queue
a run.

The retry delay is zero after a success. Every failure that leads to a delayed retry doubles it,
within the bounds of the configuration.

## Main definitions

* `Outcome`: how a run ended.
* `Completion`: what a run has in hand to deliver its outcome, once.
* `Fate`: what its owner does with a completion.
* `Backoff`: the retry delay.
* `Lifecycle`: the state of a task with its retry delay.
* `Placement`: what becomes of the queued run of a task.
* `Lifecycle.request`, `deliver`: requests and outcomes.
-/

namespace TurnPool

/-- How a run of a task ended. -/
inductive Outcome where
  /-- It succeeded; `more` if there is more to do at once. -/
  | success (more : Bool)
  /-- It failed. -/
  | failure (e : Failure)
  /-- It panicked while it still owed its outcome. -/
  | panicked
deriving DecidableEq, Repr

/-- The outcome of a run that gave up its completion without using it. -/
def Outcome.dropped : Outcome :=
  .failure (.ofText "completion dropped without a result")

/-- What becomes of the completion of a run. -/
inductive Fate where
  /-- The run succeeded; `more` if there is more to do at once. -/
  | success (more : Bool)
  /-- The run failed. -/
  | fail (e : Failure)
  /-- The run ended with a result. -/
  | finish (r : Except Failure Bool)
  /-- The completion is dropped. -/
  | abandon

/-- The outcome that a completion delivers. -/
def Fate.outcome : Fate → Outcome
  | .success more | .finish (.ok more) => .success more
  | .fail e | .finish (.error e) => .failure e
  | .abandon => .dropped

/-- The completion of a run. Whoever has it may keep it beyond the run, and hand it on. -/
structure Completion where
  /-- The number of the task. -/
  task : Nat
  /-- Whether the outcome was not delivered yet. -/
  owed : Bool
deriving DecidableEq, Repr

namespace Completion

/-- The completion of a run that begins. -/
def fresh (task : Nat) : Completion := ⟨task, true⟩

/-- Deliver an outcome, if it is still owed. -/
def resolve (o : Outcome) (c : Completion) : Option Outcome × Completion :=
  (if c.owed then some o else none, { c with owed := false })

/-- A completion comes to its end. If the outcome is still owed the run counts as failed, or as
panicked if a panic is passing through the thread that had the completion. -/
def drop (unwinding : Bool) (c : Completion) : Option Outcome × Completion :=
  c.resolve (if unwinding then .panicked else .dropped)

/-- What a completion delivers, in order, when its owner does something with it. Whatever that is,
the completion comes to its end after it. -/
def spend (unwinding : Bool) (how : Fate) (c : Completion) : List Outcome :=
  match how with
  | .abandon => (c.drop unwinding).1.toList
  | how =>
    let (o, c') := c.resolve how.outcome
    o.toList ++ (c'.drop unwinding).1.toList

end Completion

/-- The retry delay of a task. -/
structure Backoff where
  /-- The delay of the last retry in milliseconds; zero if there was none since the last
  success. -/
  currentMs : Nat
deriving DecidableEq, Repr, Inhabited

/-- The next delay: twice the last one, but at least the minimum and at most the maximum. -/
def Backoff.grow (b : Backoff) (bounds : BackoffConfig) : Backoff :=
  ⟨min (max (b.currentMs * 2) bounds.minDelayMs) bounds.maxDelayMs⟩

/-- What becomes of the queued run of a task. -/
inductive Placement where
  /-- It stays as it is. -/
  | unchanged
  /-- A run is queued now, in the place of a queued one. -/
  | now
  /-- A run is queued after so many milliseconds, in the place of a queued one. -/
  | after (ms : Nat)
  /-- The queued run is dropped. -/
  | dropped
deriving DecidableEq, Repr

/-- The state of a task with its retry delay. -/
structure Lifecycle where
  /-- The state. -/
  state : TaskState
  /-- The retry delay. -/
  backoff : Backoff
deriving DecidableEq, Repr, Inhabited

namespace Lifecycle

/-- Change the state and carry out the move that goes with the change. -/
def enact (bounds : BackoffConfig) (l : Lifecycle) (change : TaskState × Move) :
    Lifecycle × Placement :=
  match change with
  | (s, .none) => ({ l with state := s }, .unchanged)
  | (s, .runNow) => ({ l with state := s }, .now)
  | (s, .runLater) =>
    let b := l.backoff.grow bounds
    (⟨s, b⟩, .after b.currentMs)
  | (s, .cancel) => ({ l with state := s }, .dropped)

/-- Something is asked of the task. -/
def request (bounds : BackoffConfig) (what : Request) (l : Lifecycle) : Lifecycle × Placement :=
  l.enact bounds (l.state.request what)

/-- The task is halted: stopped for good, whatever it was doing. -/
def halt (l : Lifecycle) : Lifecycle × Placement :=
  ({ l with state := .stopped }, .dropped)

/-- The queued run is claimed, if there is one. -/
def claim (l : Lifecycle) : Option Lifecycle :=
  l.state.beginRun.map fun s => { l with state := s }

/-- The retry delay is over. -/
def ripen (l : Lifecycle) : Lifecycle :=
  { l with state := l.state.ripen }

/-- The outcome of a run arrives. The text is that of a fatal failure, which is to be
reported; the task is halted by then, and so it is after a panic. -/
def deliver (bounds : BackoffConfig) (o : Outcome) (l : Lifecycle) :
    (Lifecycle × Placement) × Option String :=
  match o with
  | .success more =>
    let l' : Lifecycle := { l with backoff := ⟨0⟩ }
    (l'.enact bounds (l.state.succeed more), none)
  | .failure e =>
    if e.isFatal then (l.halt, some e.wording) else (l.enact bounds l.state.fail, none)
  | .panicked => (l.halt, none)

end Lifecycle

end TurnPool
