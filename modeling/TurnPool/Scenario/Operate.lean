import TurnPool.Pool.Kit
import TurnPool.Pool.Pause
import TurnPool.Scenario.Scene

/-!
# What the operations do

An operation answers at once, or it puts frames on the stack of its thread and may have the thread
wait. Which operations there are depends on the place: some make sense everywhere, some only
outside the pool or in the body of a pause, some only in an event, and some only where an agenda is
worked off. An operation out of place answers that it is absent.

## Main definitions

* `Scene.instant`: the operations that answer at once everywhere.
* `Scene.look`: the operations that need the core lock for a moment.
* `beginOp`: an operation begins.
-/

namespace TurnPool.Scenario

variable {V : Type}

namespace Scene

/-- The answer of an operation about something that has to exist. -/
def whenThere {α : Type} (a : Option α) (w : Scene V) (f : α → Answer V × Scene V) :
    Answer V × Scene V :=
  match a with
  | some a => f a
  | none => (.absent, w)

/-- An operation on the tasks answers at once. -/
def onTasks (op : Op V) (w : Scene V) : Option (Answer V × Scene V) :=
  match op with
  | .request what key => some (w.whenThere (w.task? key) fun i => (.null, w.request what i))
  | .resolve key how =>
    some (w.whenThere (w.task? key) fun i =>
      let (used, w') := w.resolve i how
      (.flag used, w'))
  | .taskStates => some (.tasks w.taskViews, w)
  | .taskDebug key =>
    some (w.whenThere (w.task? key) fun i => (.named (w.crew.name i) (w.crew.taskShown i), w))
  | .groupStats => some (w.whenThere w.crew.group? fun g => (.group g.stats, w))
  | .groupDebug => some (w.whenThere w.crew.group? fun g => (.text g.shown, w))
  | _ => none

/-- An operation that answers at once everywhere. -/
def instant (op : Op V) (w : Scene V) : Option (Answer V × Scene V) :=
  match op with
  | .enqueue e | .tryEnqueue e =>
    let (r, w') := w.enqueue e
    some (.outcome r, w')
  | .schedule ms e => some (.null, w.schedule ms e)
  | .cancel id => some (w.whenThere (w.handles.lookup id) fun n => w.cancelEntry n)
  | .pending =>
    let n := w.pool.queue.pending
    some (.pending n (n == 0) w.pool.queue.maxDepth, w)
  | .acquire name c priority reason none => 
    let (r, w) := w.issue name c priority reason
    let (r, w) := w.keepToken name r
    some (.outcome r, w)
  | .token name =>
    some (w.whenThere (w.tokens.lookup name) fun id => (.token (w.pool.ledger.token id), w))
  | .reclaim name =>
    some (w.whenThere (w.tokens.lookup name) fun id => (.null, w.modifyPool (·.reclaim id)))
  | .drop name =>
    let (was, w') := w.dropToken name
    some (.flag was, w')
  | .shutdown c => some (.null, w.modifyPool (·.shutdown c))
  | .slots c => some (.slots (w.pool.ledger.inUse c) (w.pool.ledger.limit c), w)
  | .tokenStats => some (.categories w.categoryViews, w)
  | .tokenDump => some (.lines w.tokenDump, w)
  | .tokenDebug => some (.text w.pool.tokensShown, w)
  | .wake waker =>
    some (w.whenThere (w.wakers.lookup waker) fun ctx =>
      (.null, w.modifyPool (·.modifyContext ctx Context.wake)))
  | .openResource what =>
    some (.null, if w.tracked then w.modifyPool fun p => { p with opened := some what } else w)
  | .closeResource => some (.null, w.modifyPool fun p => { p with opened := none })
  | .isStarted => some (.flag w.pool.started, w)
  | .listener =>
    let (r, w') := w.onPool Pool.listen
    some (.outcome r, w')
  | op => w.onTasks op

/-- Whether the host of a scenario can create the thread of a worker. No host has room for a stack
of `2 ^ 50` bytes. -/
def canSpawn (w : Scene V) : Bool :=
  w.pool.config.stackSize.all (· < Nat.pow 2 50)

/-- An operation that needs the core lock for a moment, done by somebody who has it. -/
def look (op : Op V) (w : Scene V) : Answer V × Scene V :=
  match op with
  | .stats => (.pool w.poolView, w)
  | .statsKeys => (.lines PoolStats.keys, w)
  | .dump => (.lines w.dump, w)
  | .state => (.integer w.state, w)
  | .start =>
    match w.onPool (Pool.start w.canSpawn) with
    | (.ok slot, w') => (.outcome (.ok ()), w'.spawnWorker slot)
    | (.error f, w') => (.outcome (.error f), w')
  | _ => (.absent, w)

end Scene

/-! ### Waiting for room and for slots -/

/-- A thread tries to queue an event, and waits for room otherwise. -/
def tryRoom (e : Event V) (t : Thread V) (w : Scene V) : Thread V × Scene V :=
  match w.onQueue (·.offer t.id e.priority (.event (.event e))) with
  | (some number, w') => (t.answer .null, w'.keepHandle e.id number)
  | (none, w') => (t.await (.room e), w')

/-- A thread tries to get a token, and waits for a slot otherwise. Once time is up it tries for the
last time. -/
def trySlot (name : String) (c : Category) (priority : Priority) (reason : String)
    (deadline : Option Nat) (t : Thread V) (w : Scene V) : Thread V × Scene V :=
  if deadline.any (· ≤ w.now) then
    let (r, w) := w.onLedger (·.giveUp t.id c priority reason)
    (t.go (.granted r), w.label name r)
  else
    match w.onLedger (·.acquire t.id c priority reason) with
    | (some r, w') => (t.go (.granted r), w'.label name r)
    | (none, w') => (t.await (.slot name c priority reason deadline), w')

/-- A thread that waits is added, and tries at once. -/
def addWaiter (frames : List (Frame V)) (attempt : Thread V → Scene V → Thread V × Scene V)
    (w : Scene V) : Nat × Scene V :=
  let id := w.nextThread
  let (t, w') :=
    attempt { id, role := .waiter, frames, mode := .running .next } { w with nextThread := id + 1 }
  (id, { w' with threads := w'.threads ++ [t] })

/-! ### Operations by place -/

/-- A thread runs a job by itself, on a context of its own, and then has an answer. -/
def runInline (priority : Priority) (j : Job V) (answer : Answer V) (t : Thread V) (w : Scene V) :
    Thread V × Scene V :=
  let (ctx, w) := w.onPool (·.addContext t.role.threadName false)
  let w := w.modifyPool (·.modifyContext ctx (Context.beginEvent priority))
  ((t.push [.job ctx j, .inline answer]).await (.core .next), w)

/-- An operation outside the pool begins. In the body of a pause there is a signal to look at. -/
def beginGround (signal : Option Nat) (op : Op V) (t : Thread V) (w : Scene V) :
    Thread V × Scene V :=
  match op with
  | .run e => runInline e.priority (.event e) .done t w
  | .stats | .statsKeys | .dump | .state | .start => (t.await (.look op), w)
  | .debug => (t.answer (.text w.pool.shown), w)
  | .batch ops => ((t.push [.batch ops []]).await (.core .next), w)
  | .waiter name c priority reason limit =>
    let (deadline, w) := w.deadline? limit
    let w := { w with deposits := rename name none w.deposits }
    let (_, w) := addWaiter [.deposit name] (trySlot name c priority reason deadline) w
    (t.answer .null, w)
  | .waiterEnd name =>
    if (w.deposits.lookup name).isSome then ((t.push [.keep name]).await (.join name), w)
    else (t.answer .absent, w)
  | .producer e =>
    let (id, w) := addWaiter [] (tryRoom e) w
    (t.answer .null, { w with producers := rename e.id id w.producers })
  | .producerBlocked id =>
    let (a, w) := w.whenThere (w.producers.lookup id) fun n =>
      (.flag (w.threads.any fun t => t.id == n && !t.isOver), w)
    (t.answer a, w)
  | .aborted =>
    match signal with
    | none => (t.answer .null, w)
    | some n =>
      let (b, s) := (w.pool.signal n).poll
      (t.answer (.flag b), w.modifyPool (·.modifySignal n fun _ => s))
  | .wait limit =>
    match signal with
    | none => (t.answer .null, w)
    | some n =>
      let (deadline, w) := w.deadline? limit
      (t.await (.abort n deadline), w)
  | _ => (t.answer .absent, w)

/-- A pause begins, if there is such a token and nothing speaks against it. Then the core lock is
given up and the thread does what `enter` has it do, until the lock is taken back. What is to be
done meanwhile is done once the lock was given up, be it only at the end of the event. -/
def enterPause (ctx : Nat) (token reason : String) (meanwhile : List (Op V)) (value : Option V)
    (enter : (signal : Nat) → Thread V → Scene V → Thread V × Scene V) (t : Thread V)
    (w : Scene V) : Thread V × Scene V :=
  match w.tokens.lookup token with
  | none => (t.answer .noToken, w)
  | some id =>
    match w.onPool (·.beginPause ctx id reason) with
    | (.error f, w) => (t.answer (.outcome (.error f)), w.spawnHelper meanwhile)
    | (.ok pause, w) =>
      let w := match pause.newSlot with
        | some slot => w.spawnWorker slot
        | none => w
      enter pause.signal (t.push [.relock, .pausing ctx id pause.signal value])
        ((w.pin id).spawnHelper meanwhile).unlock

/-- A thread waits for a wake of its context, with or without a limit. -/
def awaitWake (ctx : Nat) (limit : Option Nat) (signal : Nat) (t : Thread V) (w : Scene V) :
    Thread V × Scene V :=
  let (deadline, w) := w.deadline? limit
  (t.await (.wake ctx signal deadline), w)

/-- What the state that the core lock guards becomes when something is added to it. It has one
signed word, and wraps around. -/
def addToState (state n : Int) : Int := Int.bmod (state + n) (Nat.pow 2 64)

/-- An operation of an event on a context begins. -/
def beginEvent (ctx : Nat) (label : String) (op : Op V) (t : Thread V) (w : Scene V) :
    Thread V × Scene V :=
  match op with
  | .log v => (t.go .next, w.noteLog v)
  | .add n =>
    let state := addToState w.state n
    (t.answer (.integer state), { w with state })
  | .info => (t.answer (.info (w.infoView ctx)), w)
  | .paused => (t.answer (.contexts w.contextViews), w)
  | .contextDebug => (t.answer (.text (w.pool.context ctx).shown), w)
  | .take name c reason limit meanwhile =>
    let priority := (w.pool.context ctx).priority
    match (w.spawnHelper meanwhile).issue name c priority reason with
    | (.error (.categoryFull _), w) =>
      let (deadline, w) := w.deadline? limit
      trySlot name c priority reason deadline (t.push [.relock, .keep name]) w.unlock
    | (r, w) =>
      let (r, w) := w.keepToken name r
      (t.answer (.outcome r), w)
  | .dispatchAcquire name c reason =>
    let (r, w) := w.issue name c (w.pool.context ctx).priority reason
    let (r, w) := w.keepToken name r
    (t.answer (.outcome r), w)
  | .saveWaker name => (t.go .next, { w with wakers := rename name ctx w.wakers })
  | .dispatchEnqueue e =>
    let (r, w) := w.enqueue e
    (t.answer (.outcome r), w)
  | .dispatchSchedule ms e => (t.go .next, w.schedule ms e)
  | .pause token reason meanwhile =>
    enterPause ctx token reason meanwhile none (awaitWake ctx none) t w
  | .pauseTimeout token ms reason meanwhile =>
    enterPause ctx token reason meanwhile none (awaitWake ctx (some ms)) t w
  | .hold token ms reason meanwhile =>
    enterPause ctx token reason meanwhile none
      (fun signal t w =>
        let (deadline, w) := w.deadline ms
        (t.await (.abort signal (some deadline)), w)) t w
  | .pseudoPause token reason body value meanwhile =>
    enterPause ctx token reason meanwhile (some value)
      (fun signal t w => ((t.push [.ops (.body signal) label none body none]).go .next, w)) t w
  | .blockOn token reason ms value meanwhile =>
    enterPause ctx token reason meanwhile (some value)
      (fun _ t w =>
        match ms with
        | none => (t.go .next, w)
        | some ms =>
          let (deadline, w) := w.deadline ms
          (t.await (.clock deadline .next), w)) t w
  | _ => (t.answer .absent, w)

/-- Run an entry of the agenda. Its delay is the answer. -/
def runEntry (taken : Option (AgendaEntry (Job V) × Agenda (Job V))) (t : Thread V) (w : Scene V) :
    Thread V × Scene V :=
  match taken with
  | none => (t.answer .nothing, w)
  | some (e, agenda) =>
    runInline e.priority e.work (.number (w.toldDelay e.delay)) t { w with agenda := some agenda }

/-- An operation by somebody who works off an agenda begins. -/
def beginBench (op : Op V) (t : Thread V) (w : Scene V) : Thread V × Scene V :=
  match op with
  | .runNext => runEntry (w.agenda.bind Agenda.takeFirst) t w
  | .runRaw i => runEntry (w.agenda.bind (Agenda.takeAt i)) t w
  | .drain limit => ((t.push [.drain limit 0]).go .next, w)
  | .register key name script => (t.answer .null, w.register key name script)
  | .sleep ms =>
    let (deadline, w) := w.deadline ms
    (t.await (.clock deadline (.give .null)), w)
  | op =>
    match w.onTasks op with
    | some (a, w') => (t.answer a, w')
    | none => (t.answer .absent, w)

/-- An operation begins that makes sense everywhere but may have the thread wait, or one that only
makes sense where it stands. -/
def beginHere (place : Place) (label : String) (op : Op V) (t : Thread V) (w : Scene V) :
    Thread V × Scene V :=
  match op with
  | .enqueueBlocking e => tryRoom e t w
  | .acquire name c priority reason (some limit) =>
    let (deadline, w) := w.deadline? limit
    trySlot name c priority reason deadline (t.push [.keep name]) w
  | .sleep ms =>
    let (deadline, w) := w.deadline ms
    (t.await (.clock deadline (.give .null)), w)
  | .panic p => (t.go (.unwind p), w)
  | op =>
    match place with
    | .ground => beginGround none op t w
    | .body signal => beginGround (some signal) op t w
    | .event ctx => beginEvent ctx label op t w
    | .locked | .bench => (t.answer .absent, w)

/-- An operation begins. -/
def beginOp (place : Place) (label : String) (op : Op V) (t : Thread V) (w : Scene V) :
    Thread V × Scene V :=
  match place with
  | .bench => beginBench op t w
  | _ =>
    match w.instant op with
    | some (a, w') => (t.answer a, w')
    | none => beginHere place label op t w

end TurnPool.Scenario
