import TurnPool.Scenario.Operate

/-!
# Steps of a thread

A running thread takes a step when its top frame acts on what is in focus. A waiting thread resumes
when what it waits for is there.

A worker takes the core lock, takes an entry from the queue and serves it with the lock held; then
it gives the lock back, makes sure that nothing is open, takes the lock once more to count the
quits, and pushes them without it.

## Main definitions

* `step`: a running thread takes a step.
* `ready`, `resume`: a waiting thread goes on.
-/

namespace TurnPool.Scenario

variable {V : Type}

/-! ### Frames -/

/-- What happens at the end of an event, but for the counting of quits: nothing may be open. -/
def endEvent (w : Scene V) : Scene V :=
  (w.onPool (·.check "dispatch")).2

/-- Operations that are a run of a task do something with the completion, if they still have it. -/
def useCompletion (run : Option Completion) (unwinding : Bool) (how : Fate) (w : Scene V) :
    Scene V :=
  match run with
  | some c => w.spend unwinding how c
  | none => w

/-- A panic passes through a list of operations. If they are a run of a task it ends there: a
completion that the run still has is told of it, and then it is reported under the name of the
task. -/
def unwindOps (run : Option Completion) (p : Panic) (t : Thread V) (w : Scene V) :
    Thread V × Scene V :=
  match run with
  | none => (t.go (.unwind p), w)
  | some r =>
    let w := useCompletion run true .abandon w
    (t.go .next, w.modifyPool (·.report (w.crew.name r.task) p.message))

/-- The next of a list of operations begins, or the list is over. A completion that a run still has
at its end is dropped. -/
def stepOps (place : Place) (label : String) (rest : List (Op V)) (run : Option Completion)
    (below : List (Frame V)) (t : Thread V) (w : Scene V) : Thread V × Scene V :=
  match rest with
  | [] => (t.goOn below .next, useCompletion run false .abandon w)
  | op :: rest =>
    match run, op with
    | some r, .complete how =>
      (t.goOn (.ops place label none rest (some { r with owed := false }) :: below) .next,
        useCompletion run false how w)
    | some r, .park =>
      let t := t.goOn (.ops place label none rest (some { r with owed := false }) :: below) .next
      if r.owed then
        let completion := Text.Shown.record "Completion"
          [("task", toString (w.crew.ownNumber r.task)), ("resolved", "false")]
        (t, (w.park r).note label (.remark completion))
      else (t, w)
    | _, _ =>
      beginOp place label op
        { t with frames := .ops place label (some op.name) rest run :: below } w

/-- A job begins on a context. -/
def stepJob (ctx : Nat) (j : Job V) (t : Thread V) (w : Scene V) : Thread V × Scene V :=
  match j with
  | .event e => ((t.push [.ops (.event ctx) e.id none e.actions none]).go .next, w.noteRan e.id)
  | .errand e =>
    match w.arrive e with
    | (none, w) => (t.go .next, w)
    | (some task, w) =>
      let key := (w.scripts[task]?.map TaskScript.key).getD ""
      let (ops, w) := (w.noteRan key).nextRun task
      ((t.push [.ops (.event ctx) key none ops (some (.fresh task))]).go .next, w)

/-- A pause is over and the core lock is taken back. -/
def stepPausing (ctx token signal : Nat) (value : Option V) (ending : Ending Unit) (t : Thread V)
    (w : Scene V) : Thread V × Scene V :=
  let cause := (w.pool.signal signal).collect
  let (resumed, w) := w.onPool (·.endPause ctx cause)
  let w := w.unpin token
  match settle ending resumed cause, value with
  | .panic p, _ => (t.go (.unwind p), w)
  | .result r, none => (t.answer (.outcome r), w)
  | .result r, some v => (t.answer (.value (r.map fun _ => v)), w)

/-- How the work of a pause ended, by what is in focus then. -/
def ending : Focus V → Ending Unit
  | .unwind p => .panicked p
  | .late => .timedOut
  | _ => .value ()

/-- Push a number of quits, one by one. -/
def pushQuits : Nat → Scene V → Scene V
  | 0, w => w
  | n + 1, w =>
    let (now, w) := w.tick
    pushQuits n (w.modifyPool (·.pushQuit now))

/-- A worker looks whether an entry is ready, and waits for data if there is none. -/
def lookForData (t : Thread V) (w : Scene V) : Thread V × Scene V :=
  let (now, w) := w.tick
  let (there, w) := w.onQueue (·.look t.id now)
  (t.await (if there then .core .next else .data w.pool.queue.nextDue), w)

/-- A worker goes on in its loop. -/
def stepWorker (slot ctx : Nat) (phase : Phase) (f : Focus V) (t : Thread V) (w : Scene V) :
    Thread V × Scene V :=
  match phase with
  | .pick =>
    let again : Thread V := t.push [.worker slot ctx .pick]
    let (now, w) := w.tick
    let ((found, popped), w) := w.onQueue (·.dequeue now)
    let w := if popped then w.modifyPool fun p => { p with queue := p.queue.notifySpace } else w
    match found with
    | none => lookForData again w.unlock
    | some e =>
      match e.work with
      | .quit =>
        let (leaves, w) := w.onPool (·.retire slot)
        if leaves then ({ t with frames := [], mode := .over (.ok none) }, w.unlock)
        else (again.await (.core .next), w.unlock)
      | .event j =>
        ((t.push [.job ctx j, .worker slot ctx .serve]).go .next,
          w.modifyPool (·.modifyContext ctx (Context.beginEvent e.priority)))
  | .serve =>
    let w := w.unlock
    let w := match f with
      | .unwind p => w.modifyPool (·.report "event" p.message)
      | _ => w
    ((t.push [.worker slot ctx .tally]).await (.core .next), endEvent w)
  | .tally =>
    let (quits, w) := w.onPool Pool.countQuits
    let w := pushQuits quits w.unlock
    ((t.push [.worker slot ctx .pick]).await (.core .next),
      if quits = 0 then w else w.modifyPool (·.tellShrink quits))

/-- The top frame acts on what is in focus. -/
def stepFrame (fr : Frame V) (below : List (Frame V)) (f : Focus V) (t : Thread V)
    (w : Scene V) : Thread V × Scene V :=
  let t : Thread V := { t with frames := below }
  match fr with
  | .ops place label current rest run =>
    match f with
    | .unwind p => unwindOps run p t w
    | .give a =>
      let w := match current with
        | some name => w.note label (.action name a)
        | none => w
      stepOps place label rest run below t w
    | _ => stepOps place label rest run below t w
  | .batch rest answers =>
    match f with
    | .unwind p => (t.go (.unwind p), w.unlock)
    | f =>
      let answers := match f with
        | .give a => a :: answers
        | _ => answers
      match rest with
      | [] => (t.answer (.several answers.reverse), w.unlock)
      | op :: rest => beginOp .locked "" op (t.push [.batch rest answers]) w
  | .job ctx j => stepJob ctx j t w
  | .inline answer =>
    match f with
    | .unwind p => (t.answer (.panicked p), w.unlock)
    | _ => (t.answer answer, endEvent w.unlock)
  | .relock => (t.await (.core f), w)
  | .keep name =>
    match f with
    | .granted r =>
      let (r, w) := w.keepToken name r
      (t.answer (.outcome r), w)
    | f => (t.go f, w)
  | .pausing ctx token signal value => stepPausing ctx token signal value (ending f) t w
  | .worker slot ctx phase => stepWorker slot ctx phase f t w
  | .drain left count =>
    match f, left with
    | .unwind p, _ => (t.go (.unwind p), w)
    | _, 0 => (t.answer (.number count), w)
    | _, left + 1 =>
      match w.agenda.bind Agenda.takeFirst with
      | none => (t.answer (.number count), w)
      | taken => runEntry taken (t.push [.drain left (count + 1)]) w
  | .deposit name =>
    match f with
    | .granted r => (t.go .next, { w with deposits := rename name (some r) w.deposits })
    | f => (t.go f, w)

/-- What is left of a thread without frames. -/
def finish : Focus V → Except Panic (Option (Answer V))
  | .give a => .ok (some a)
  | .unwind p => .error p
  | _ => .ok none

/-- A running thread takes a step. -/
def step (f : Focus V) (t : Thread V) (w : Scene V) : Thread V × Scene V :=
  match t.frames with
  | [] => ({ t with mode := .over (finish f) }, w)
  | fr :: below => stepFrame fr below f t w

/-! ### Waiting -/

/-- Whether an instant has passed. -/
def passed (deadline : Option Nat) (w : Scene V) : Bool :=
  deadline.any (· ≤ w.now)

/-- Whether a thread may have the core lock. -/
def mayLock (t : Thread V) (w : Scene V) : Bool :=
  w.owner.isNone && w.line.head?.all (· == t.id)

/-- A thread leaves the line for the core lock. -/
def leaveLine (t : Thread V) (w : Scene V) : Scene V :=
  { w with line := w.line.filter (· ≠ t.id) }

/-- Whether what a thread waits for is there. -/
def ready (t : Thread V) (w : Scene V) : Wait V → Bool
  | .core _ | .look _ | .unlocked _ => mayLock t w
  | .room _ => w.pool.queue.producers.isRoused t.id
  | .slot _ _ _ _ d => w.pool.ledger.waiters.isRoused t.id || passed d w
  | .clock d _ => d ≤ w.now
  | .wake ctx signal d =>
    (w.pool.context ctx).woken || (w.pool.signal signal).hasNews || passed d w
  | .abort signal d => (w.pool.signal signal).poll.1 || passed d w
  | .data d => w.pool.queue.idle.isRoused t.id || passed d w
  | .join name => ((w.deposits.lookup name).getD none).isSome

/-- A thread goes on, since what it waits for is there. Of a wake and news on a signal the wake is
taken. -/
def resume (wait : Wait V) (t : Thread V) (w : Scene V) : Thread V × Scene V :=
  match wait with
  | .core f => (t.go f, { leaveLine t w with owner := some t.id })
  | .look op =>
    let (a, w) := (leaveLine t w).look op
    (t.answer a, w)
  | .unlocked f => (t.go f, leaveLine t w)
  | .room e => tryRoom e t w
  | .slot name c priority reason d => trySlot name c priority reason d t w
  | .clock _ f => (t.go f, w)
  | .wake ctx signal _ =>
    if (w.pool.context ctx).woken then
      (t.go .next, w.modifyPool (·.modifyContext ctx Context.takeWake))
    else if (w.pool.signal signal).hasNews then
      (t.go .next, w.modifyPool (·.modifySignal signal Signal.receive))
    else (t.go .late, w)
  | .abort signal _ =>
    let (b, s) := (w.pool.signal signal).poll
    (t.answer (.flag b), w.modifyPool (·.modifySignal signal fun _ => s))
  | .data _ => lookForData t w
  | .join name =>
    match (w.deposits.lookup name).getD none with
    | some r => (t.go (.granted r), { w with deposits := w.deposits.filter (·.1 ≠ name) })
    | none => (t.await wait, w)

end TurnPool.Scenario
