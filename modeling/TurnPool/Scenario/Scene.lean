import TurnPool.Scenario.Thread
import TurnPool.Text.Basic

/-!
# The scene of a scenario

A simulated pool with a clock of its own, the threads that act on it, the names that the scenario
gave to things, and a journal of what happened. The clock moves when a thread waits for time to
pass, and by the least amount whenever it is read, so that no two readings are equal.

## Main definitions

* `Scene`: the scene.
* `Scene.tick`: the clock is read.
* `Scene.deliver`, `Scene.request`, `Scene.arrive`: what can happen to the tasks.
* `Scene.keepToken`, `Scene.dropToken`, `Scene.unpin`: tokens live as long as somebody has them.
* `Scene.poolView`, `Scene.dump` and others: what the operations that only look answer.
-/

namespace TurnPool.Scenario

open Text

variable {V : Type}

/-- Something noted in a trace. -/
inductive TraceEntry (V : Type) where
  /-- An operation and its answer. -/
  | action (name : String) (a : Answer V)
  /-- A text. -/
  | remark (s : String)

/-- What happened since the journal was last read, in order. -/
structure Journal (V : Type) where
  /-- The events and the runs that began. -/
  ran : List String
  /-- What was noted, each under its label. -/
  trace : List (String × TraceEntry V)
  /-- The values that were written down. -/
  log : List V

/-- An empty journal. -/
def Journal.empty : Journal V := ⟨[], [], []⟩

/-- What a scenario says about a task. -/
structure TaskScript (V : Type) where
  /-- Its key. -/
  key : String
  /-- What its next runs do. -/
  runs : List (List (Op V))
  /-- The completion of it that is parked. -/
  parked : Option Completion

/-- The scene of a scenario. -/
structure Scene (V : Type) where
  /-- The clock. -/
  now : Nat
  /-- The pool. -/
  pool : Pool (Job V)
  /-- Whether the pool gets to know what is open. -/
  tracked : Bool
  /-- The state that the core lock guards. -/
  state : Int
  /-- The settings of the schedulers. -/
  options : SchedulerOptions
  /-- The tasks. -/
  crew : Crew
  /-- What the scenario says about them. -/
  scripts : Array (TaskScript V)
  /-- The agenda that the schedulers use instead of the queue, if they do. -/
  agenda : Option (Agenda (Job V))
  /-- The tokens that have a name, by name. -/
  tokens : List (String × Nat)
  /-- The names that tokens were granted under, by token. -/
  labels : List (Nat × String)
  /-- The tokens that pauses are under way on, once for each pause. -/
  pins : List Nat
  /-- The contexts whose wakers were kept, by name. -/
  wakers : List (String × Nat)
  /-- The entries of the queue, by the names of their events. -/
  handles : List (String × Nat)
  /-- The threads that were asked to wait for tokens, by the names of the tokens, with the answer
  once it is there. -/
  deposits : List (String × Option (Except Fault Nat))
  /-- The threads that were asked to wait for room, by the names of their events. -/
  producers : List (String × Nat)
  /-- The journal. -/
  journal : Journal V
  /-- The thread that has the core lock. -/
  owner : Option Nat
  /-- The threads that have waited for the core lock while time passed, the longest waiting first.
  They are in line for it, and whoever else wants it comes after them. -/
  line : List Nat
  /-- The threads, in the order in which they are to be looked at. -/
  threads : List (Thread V)
  /-- The number of the next thread. -/
  nextThread : Nat

/-- Give a name to a thing, taking it from another one that has it. -/
def rename {α : Type} (name : String) (a : α) (names : List (String × α)) :
    List (String × α) :=
  (name, a) :: names.filter (·.1 ≠ name)

namespace Scene

/-! ### Clock and journal -/

/-- Read the clock. -/
def tick (w : Scene V) : Nat × Scene V :=
  (w.now + 1, { w with now := w.now + 1 })

/-- The instant after a number of milliseconds. -/
def deadline (ms : Nat) (w : Scene V) : Nat × Scene V :=
  let (now, w') := w.tick
  (now + millis ms, w')

/-- The instant after a number of milliseconds, if there is a limit. -/
def deadline? (ms : Option Nat) (w : Scene V) : Option Nat × Scene V :=
  match ms with
  | none => (none, w)
  | some ms =>
    let (d, w') := w.deadline ms
    (some d, w')

/-- The readings of an operation of a scheduler. -/
def readings (w : Scene V) : Readings × Scene V :=
  (⟨w.now + 1, w.now + 2, w.now + 3⟩, { w with now := w.now + 3 })

/-- Note that an event or a run began. -/
def noteRan (id : String) (w : Scene V) : Scene V :=
  { w with journal := { w.journal with ran := w.journal.ran ++ [id] } }

/-- Note something in a trace. -/
def note (label : String) (e : TraceEntry V) (w : Scene V) : Scene V :=
  { w with journal := { w.journal with trace := w.journal.trace ++ [(label, e)] } }

/-- Write a value down. -/
def noteLog (v : V) (w : Scene V) : Scene V :=
  { w with journal := { w.journal with log := w.journal.log ++ [v] } }

/-- Change the pool. -/
def onPool {α : Type} (f : Pool (Job V) → α × Pool (Job V)) (w : Scene V) : α × Scene V :=
  let (a, pool) := f w.pool
  (a, { w with pool })

/-- Change the pool. -/
def modifyPool (f : Pool (Job V) → Pool (Job V)) (w : Scene V) : Scene V :=
  { w with pool := f w.pool }

/-- Change the queue of the pool. -/
def onQueue {α : Type} (f : Queue (Work (Job V)) → α × Queue (Work (Job V))) (w : Scene V) :
    α × Scene V :=
  w.onPool fun p =>
    let (a, queue) := f p.queue
    (a, { p with queue })

/-! ### Threads -/

/-- Add a thread. -/
def spawn (role : Role) (frames : List (Frame V)) (mode : Mode V) (w : Scene V) :
    Nat × Scene V :=
  (w.nextThread,
    { w with
      threads := w.threads ++ [{ id := w.nextThread, role, frames, mode }]
      nextThread := w.nextThread + 1 })

/-- Add the worker of a slot. -/
def spawnWorker (slot : Nat) (w : Scene V) : Scene V :=
  let role := Role.worker slot
  let (ctx, w') := w.onPool (·.addContext role.threadName true)
  (w'.spawn role [.worker slot ctx .pick] (.waiting (.core .next))).2

/-- Let another thread do something as soon as nobody has the core lock. -/
def spawnHelper (ops : List (Op V)) (w : Scene V) : Scene V :=
  match ops with
  | [] => w
  | ops =>
    (w.spawn .helper [.ops .ground "meanwhile" none ops none] (.waiting (.unlocked .next))).2

/-- Give the core lock back. -/
def unlock (w : Scene V) : Scene V := { w with owner := none }

/-! ### Tasks -/

/-- Change the tasks together with the timetable that their schedulers use. -/
def onCrew {α : Type} (f : (Q : Type) → [Timetable Q (Job V)] → Crew × Q → α × (Crew × Q))
    (w : Scene V) : α × Scene V :=
  match w.agenda with
  | some agenda =>
    let (a, crew, agenda') := f _ (w.crew, agenda)
    (a, { w with crew, agenda := some agenda' })
  | none =>
    let (a, crew, queue) := f _ (w.crew, w.pool.queue)
    (a, { w with crew, pool := { w.pool with queue } })

/-- The number of the task of a key. Of several the one that joined last has it. -/
def task? (key : String) (w : Scene V) : Option Nat :=
  (List.range w.scripts.size).reverse.find? fun i => w.scripts[i]?.any (·.key == key)

/-- Something is asked of a task. -/
def request (what : Request) (task : Nat) (w : Scene V) : Scene V :=
  let (r, w) := w.readings
  (w.onCrew fun _ _ p => ((), Crew.request w.options Job.errand r what task p)).2

/-- An errand arrives. The answer is the task whose run it claims. -/
def arrive (e : Errand) (w : Scene V) : Option Nat × Scene V :=
  let (r, w) := w.readings
  w.onCrew fun _ _ p => Crew.arrive w.options Job.errand r e p

/-- The outcome of a run arrives. A fatal failure is reported under the name of the task. -/
def deliver (task : Nat) (o : Outcome) (w : Scene V) : Scene V :=
  let (r, w) := w.readings
  let (fatal, w) := w.onCrew fun _ _ p => Crew.deliver w.options Job.errand r task o p
  match fatal with
  | some message => w.modifyPool (·.report (w.crew.name task) message)
  | none => w

/-- Change what the scenario says about a task. -/
def modifyScript (task : Nat) (f : TaskScript V → TaskScript V) (w : Scene V) : Scene V :=
  { w with scripts := w.scripts.modify task f }

/-- A task joins. -/
def register (key name : String) (runs : List (List (Op V))) (w : Scene V) : Scene V :=
  { w with crew := w.crew.register name, scripts := w.scripts.push ⟨key, runs, none⟩ }

/-- What the next run of a task does. Beyond the end of its script it succeeds at once. -/
def nextRun (task : Nat) (w : Scene V) : List (Op V) × Scene V :=
  match w.scripts[task]?.map TaskScript.runs with
  | some (run :: runs) => (run, w.modifyScript task fun s => { s with runs })
  | _ => ([.complete (.success false)], w)

/-- Something is done with a completion, by a thread that a panic passes through or not. -/
def spend (unwinding : Bool) (how : Fate) (c : Completion) (w : Scene V) : Scene V :=
  (c.spend unwinding how).foldl (fun w o => w.deliver c.task o) w

/-- The completion of a task that is parked. -/
def parked? (task : Nat) (w : Scene V) : Option Completion :=
  w.scripts[task]?.bind TaskScript.parked

/-- Park a completion. One of the task that is parked already is dropped. -/
def park (c : Completion) (w : Scene V) : Scene V :=
  let w' := w.modifyScript c.task fun s => { s with parked := some c }
  match w.parked? c.task with
  | some old => w'.spend false .abandon old
  | none => w'

/-- Use the parked completion of a task, if there is one. -/
def resolve (task : Nat) (how : Fate) (w : Scene V) : Bool × Scene V :=
  match w.parked? task with
  | some c => (true, (w.modifyScript task fun s => { s with parked := none }).spend false how c)
  | none => (false, w)

/-- The tasks, each key once. -/
def taskViews (w : Scene V) : List TaskView :=
  (List.range w.scripts.size).filterMap fun i =>
    w.scripts[i]?.bind fun s =>
      if w.task? s.key = some i then some ⟨s.key, w.crew.life i⟩ else none

/-- A delay as it is told: in milliseconds, or in seconds rounded up if the tasks share a group. -/
def toldDelay (delay : Nat) (w : Scene V) : Nat :=
  match w.crew with
  | .apart _ => floorMillis delay
  | .together _ => ceilSeconds delay

/-! ### Tokens -/

/-- Whether somebody still has a token. -/
def isHeld (token : Nat) (w : Scene V) : Bool :=
  w.tokens.any (·.2 == token) || w.pins.contains token

/-- Reclaim a token that nobody has any more. -/
def letGo (token : Nat) (w : Scene V) : Scene V :=
  if w.isHeld token then w else w.modifyPool (·.reclaim token)

/-- Note under which name a token was granted. -/
def label (name : String) (r : Except Fault Nat) (w : Scene V) : Scene V :=
  match r with
  | .ok token => { w with labels := (token, name) :: w.labels }
  | .error _ => w

/-- The name that a token was granted under. -/
def labelOf (w : Scene V) (token : Nat) : String :=
  (w.labels.lookup token).getD ""

/-- Keep a token that was granted under a name. One that has the name already is let go. -/
def keepToken (name : String) (r : Except Fault Nat) (w : Scene V) :
    Except Fault Unit × Scene V :=
  match r with
  | .error e => (.error e, w)
  | .ok token =>
    let old := w.tokens.lookup name
    let w' := { w with tokens := rename name token w.tokens }
    (.ok (), match old with
      | some old => w'.letGo old
      | none => w')

/-- Change the tokens of the pool. -/
def onLedger {α : Type} (f : Ledger → α × Ledger) (w : Scene V) : α × Scene V :=
  w.onPool fun p =>
    let (a, ledger) := f p.ledger
    (a, { p with ledger })

/-- Ask once for a token that is to have a name. -/
def issue (name : String) (c : Category) (priority : Priority) (reason : String) (w : Scene V) :
    Except Fault Nat × Scene V :=
  let (r, w') := w.onLedger (·.issue c priority reason)
  (r, w'.label name r)

/-- Let go of the token of a name. The answer tells whether there was one. -/
def dropToken (name : String) (w : Scene V) : Bool × Scene V :=
  match w.tokens.lookup name with
  | some token =>
    (true, { w with tokens := w.tokens.filter (·.1 ≠ name) }.letGo token)
  | none => (false, w)

/-- A pause begins on a token. -/
def pin (token : Nat) (w : Scene V) : Scene V := { w with pins := token :: w.pins }

/-- A pause on a token is over. -/
def unpin (token : Nat) (w : Scene V) : Scene V :=
  { w with pins := w.pins.erase token }.letGo token

/-! ### Entries -/

/-- Keep the handle of an entry under the name of its event. -/
def keepHandle (id : String) (number : Nat) (w : Scene V) : Scene V :=
  { w with handles := rename id number w.handles }

/-- Queue an event if there is room. -/
def enqueue (e : Event V) (w : Scene V) : Except Fault Unit × Scene V :=
  match w.onQueue (·.tryEnqueue e.priority (.event (.event e))) with
  | (.ok number, w') => (.ok (), w'.keepHandle e.id number)
  | (.error f, w') => (.error f, w')

/-- Queue an event that becomes due after a delay. -/
def schedule (ms : Nat) (e : Event V) (w : Scene V) : Scene V :=
  let (now, w) := w.tick
  let (number, w) := w.onQueue (·.push now e.priority (millis ms) (.event (.event e)))
  w.keepHandle e.id number

/-- Call an entry off. The answer tells whether it was called off before, and is now. -/
def cancelEntry (number : Nat) (w : Scene V) : Answer V × Scene V :=
  let before := w.pool.queue.isCancelled number
  let w' := w.modifyPool fun p => { p with queue := p.queue.cancel number }
  (.cancelled before (w'.pool.queue.isCancelled number), w')

/-! ### Views -/

/-- A paused context. -/
def contextView (w : Scene V) (c : PausedContext) : ContextView :=
  { thread := c.thread.label, category := c.category, token := w.labelOf c.token,
    tokenReason := c.tokenReason, reason := c.reason, priority := c.priority }

/-- Every paused context; in the order of their texts once the pool was started. -/
def contextViews (w : Scene V) : List ContextView :=
  let cs := w.pool.paused.map w.contextView
  if w.pool.started then ContextView.sorted cs else cs

/-- The pool. -/
def poolView (w : Scene V) : PoolView :=
  let s := w.pool.stats
  { total := s.total, active := s.active, paused := s.paused, pendingQuits := s.pendingQuits,
    queued := s.queued, contexts := w.contextViews }

/-- The pool as lines. Those about contexts are in order once the pool was started. -/
def dump (w : Scene V) : List String :=
  let s := w.pool.stats
  let ls := (s.contexts.map PoolStats.contextLine).flatMap lines
  s.summary :: if w.pool.started then ls.mergeSort fun a b => decide (a ≤ b) else ls

/-- The live tokens of every category. -/
def categoryViews (w : Scene V) : List CategoryView :=
  w.pool.tokenStats.map fun s =>
    { category := s.category, limit := s.limit, inUse := s.inUse, shutdown := s.shutdown,
      tokens := s.tokens.map fun (id, t) => (w.labelOf id, t.priority, t.reason) }

/-- The live tokens as lines. -/
def tokenDump (w : Scene V) : List String :=
  (w.pool.tokenStats.flatMap (CategoryStats.lines w.labelOf)).flatMap lines

/-- What an event on a context knows of itself. -/
def infoView (ctx : Nat) (w : Scene V) : InfoView :=
  ⟨w.pool.context ctx, w.pool.paused.length, w.pool.started⟩

end Scene

end TurnPool.Scenario
