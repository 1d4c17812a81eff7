import TurnPool.Scenario.Step

/-!
# Playing a scenario

The operations of a scenario are performed one after the other. While one is performed the threads
take turns: a thread goes on until it has to wait, and then the one that has waited longest of
those that may go on. When none may, the clock moves to the next instant that somebody waits for,
and those who wait for the core lock at that moment are in line for it from then on.

An operation has been performed when its thread is done and the pool is quiet: no thread may go on,
and nobody is in the middle of something that ends by itself. A
deferred entry of the queue is no such thing, and neither is a thread that was asked to wait for a
token.

## Main definitions

* `turn`: one thread takes one step.
* `passTime`: time passes.
* `quiet`: turns are taken, and time passes, until nothing more happens.
* `perform`: one operation of a scenario, with what happened meanwhile.
* `play`: a whole scenario.
-/

namespace TurnPool.Scenario

variable {V : Type}

/-! ### Turns -/

/-- Whether a thread may go on. -/
def mayGo (w : Scene V) (t : Thread V) : Bool :=
  match t.mode with
  | .running _ => true
  | .waiting wait => ready t w wait
  | .over _ => false

/-- The threads that wait for a wake and may go on receive it, in order, before anything else
happens. So the first of several things that could end a pause is the one that ends it. -/
def receiveWakes (w : Scene V) : Scene V :=
  w.threads.foldl (fun w t =>
    match t.mode with
    | .waiting wait@(.wake _ _ _) =>
      if ready t w wait then
        let (t', w') := resume wait t w
        { w' with threads := w'.threads.filter (·.id ≠ t.id) ++ [t'] }
      else w
    | _ => w) w

/-- The first thread that may go on takes one step. If it may go on after that it stays in front,
otherwise it goes to the end. -/
def turn (w : Scene V) : Option (Scene V) :=
  (w.threads.find? (mayGo w)).map fun t =>
    let w : Scene V := { w with threads := w.threads.filter (·.id ≠ t.id) }
    let (t, w) := match t.mode with
      | .running f => step f t w
      | .waiting wait => resume wait t w
      | .over _ => (t, w)
    receiveWakes <|
      if t.isOver && t.role != .main then w
      else if mayGo w t then { w with threads := t :: w.threads }
      else { w with threads := w.threads ++ [t] }

/-! ### Time -/

/-- The next instant at which a thread may go on. -/
def nextInstant (w : Scene V) : Option Nat :=
  (w.threads.filterMap fun t =>
    match t.mode with
    | .waiting (.data d) => d
    | _ => t.deadline).min?

/-- Whether a thread waits for the core lock. -/
def wantsLock (t : Thread V) : Bool :=
  match t.mode with
  | .waiting (.core _) | .waiting (.look _) | .waiting (.unlocked _) => true
  | _ => false

/-- Time passes until an instant. -/
def passTime (instant : Nat) (w : Scene V) : Scene V :=
  let late := (w.threads.filter wantsLock).map Thread.id
  receiveWakes { w with
    now := max w.now instant
    line := w.line ++ late.filter fun id => !w.line.contains id }

/-- Whether a thread is in the middle of something that ends by itself. -/
def isBusy (t : Thread V) : Bool :=
  match t.role with
  | .main => !t.isOver
  | .worker _ | .helper => t.deadline.isSome
  | .waiter => false

/-- Take turns, and let time pass while somebody is busy. The first argument bounds the number of
turns. -/
def settleWithin : Nat → Scene V → Scene V
  | 0, w => w
  | n + 1, w =>
    match turn w with
    | some w' => settleWithin n w'
    | none =>
      if w.threads.any isBusy then
        match nextInstant w with
        | some instant => settleWithin n (passTime instant w)
        | none => w
      else w

/-- A number of turns that no operation of a scenario comes near to. -/
def turnLimit : Nat := 1000000

/-- Take turns, and let time pass while somebody is busy. -/
def quiet (w : Scene V) : Scene V := settleWithin turnLimit w

/-! ### Operations -/

/-- What there is to see where an agenda is worked off. -/
structure BenchView where
  /-- The tasks. -/
  tasks : List TaskView
  /-- The entries of the agenda: priority, delay as it is told, and whether the entry is live. -/
  entries : List (Priority × Nat × Bool)
  /-- The group, if the tasks share one. -/
  group : Option GroupStats

/-- The tasks and the agenda. -/
def Scene.benchView (w : Scene V) : BenchView :=
  { tasks := w.taskViews
    entries := match w.agenda with
      | some a => a.entries.map fun e => (e.priority, w.toldDelay e.delay, e.live)
      | none => []
    group := w.crew.group?.map Group.stats }

/-- An operation of a scenario and what happened while it was performed. -/
structure StepView (V : Type) where
  /-- Its answer. -/
  answer : Answer V
  /-- The events and the runs that began. -/
  ran : List String
  /-- What was noted, by label. -/
  trace : List (String × List (TraceEntry V))
  /-- The values that were written down. -/
  log : List V
  /-- What was reported as fatal. -/
  fatal : List (String × String)
  /-- What the listener was told. -/
  shrinks : List Nat
  /-- The tasks and the agenda, where an agenda is worked off. -/
  bench : Option BenchView

/-- Put what was noted under one label together. -/
def groupNotes {α : Type} : List (String × α) → List (String × List α)
  | [] => []
  | (k, a) :: rest =>
    let groups := groupNotes rest
    (k, a :: (groups.lookup k).getD []) :: groups.filter (·.1 ≠ k)

/-- Read the journal, and empty it. -/
def Scene.report (place : Place) (answer : Answer V) (w : Scene V) : StepView V × Scene V :=
  ({ answer
     ran := w.journal.ran
     trace := groupNotes w.journal.trace
     log := w.journal.log
     fatal := w.pool.reports
     shrinks := w.pool.shrinks
     bench := if place = .bench then some w.benchView else none },
    { w with
      journal := .empty
      pool := { w.pool with reports := [], shrinks := [] } })

/-- The thread that goes through a scenario. -/
def mainThread : Thread V := { id := 0, role := .main, frames := [], mode := .over (.ok none) }

/-- What the thread that goes through the scenario answers. -/
def mainAnswer (w : Scene V) : Except Panic (Answer V) :=
  match (w.threads.find? (·.role == .main)).map Thread.mode with
  | some (.over r) => r.map fun a => a.getD .null
  | _ => .ok .null

/-- Perform one operation. -/
def perform (place : Place) (op : Op V) (w : Scene V) : Except Panic (StepView V × Scene V) :=
  let w : Scene V := { w with threads := w.threads.filter (·.role != .main) }
  let (t, w) := beginOp place "" op mainThread w
  let w := quiet (receiveWakes { w with threads := t :: w.threads })
  (mainAnswer w).map fun a => w.report place a

/-- Perform operations one after the other. A panic that nobody catches ends it. -/
def play (place : Place) : List (Op V) → Scene V → Except Panic (List (StepView V))
  | [], _ => .ok []
  | op :: ops, w => do
    let (view, w') ← perform place op w
    let views ← play place ops w'
    .ok (view :: views)

end TurnPool.Scenario
