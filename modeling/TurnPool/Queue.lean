import TurnPool.Ascending
import TurnPool.Fault
import TurnPool.Priority
import TurnPool.Task.Timetable
import TurnPool.Waiters

/-!
# The event queue

Entries leave the queue by priority, and by the order in which they were pushed within a priority.
An entry may be deferred: it joins the ready ones once its time has come and somebody looks, and
then stands where its push puts it, not where its ripening does.

An entry that is called off stays where it is. It is discarded when it would leave the queue, when
it ripens, or when the ready entries are as many as the depth of the queue and the dead ones among
them are purged. Producers that find the queue full may wait for room. Workers that find no entry
ready wait for data: each push rouses the one that has waited longest, even if the entry is
deferred, since it may have to look earlier now.

## Main definitions

* `Queue`: the queue.
* `Queue.push`: an entry is added whatever the depth.
* `Queue.tryEnqueue`, `Queue.offer`: an entry is added if there is room; the second is one attempt
  of a producer that goes to sleep otherwise.
* `Queue.cancel`: an entry is called off.
* `Queue.promote`, `Queue.dequeue`: deferred entries ripen, the next entry leaves.
* `Queue.notifySpace`: a producer is roused.
* `Queue.look`: one attempt of a worker that waits for data.
* `Queue.pending`: the live entries.
-/

namespace TurnPool

/-- What a worker takes out of the queue. -/
inductive Work (ω : Type) where
  /-- An event to run. -/
  | event (e : ω)
  /-- A worker is asked to leave. -/
  | quit

/-- An entry of the queue. -/
structure QueueEntry (α : Type) where
  /-- Its priority. -/
  priority : Priority
  /-- How many entries were pushed before it. This is also its handle. -/
  number : Nat
  /-- What it is for. -/
  work : α

/-- Whether one entry leaves before another. -/
def QueueEntry.before {α : Type} (a b : QueueEntry α) : Bool :=
  b.priority.rank < a.priority.rank
    || (b.priority.rank == a.priority.rank && a.number < b.number)

/-- An entry that waits for its time. -/
structure Deferred (α : Type) where
  /-- When its time comes. -/
  due : Nat
  /-- The entry. -/
  entry : QueueEntry α

/-- Whether one deferred entry ripens before another. -/
def Deferred.before {α : Type} (a b : Deferred α) : Bool :=
  a.due < b.due || (a.due == b.due && a.entry.number < b.entry.number)

/-- The event queue. -/
structure Queue (α : Type) where
  /-- How many ready entries there may be for `tryEnqueue` and `offer` to add another. -/
  maxDepth : Nat
  /-- The ready entries in the order in which they leave. -/
  ready : List (QueueEntry α)
  /-- The deferred entries in the order in which they ripen. -/
  deferred : List (Deferred α)
  /-- The number of the next entry. -/
  nextNumber : Nat
  /-- The numbers of the entries that were called off. -/
  cancelled : List Nat
  /-- The producers that wait for room. -/
  producers : Waiters
  /-- The workers that wait for data. -/
  idle : Waiters

namespace Queue

variable {α ω : Type}

/-- The queue without entries. -/
def new (maxDepth : Nat) : Queue α :=
  { maxDepth, ready := [], deferred := [], nextNumber := 0, cancelled := [],
    producers := .empty, idle := .empty }

/-! ### Adding entries -/

/-- Put an entry among the ready ones. -/
def addReady (e : QueueEntry α) (q : Queue α) : Queue α :=
  { q with ready := insertBy QueueEntry.before (fun _ _ => false) e q.ready }

/-- Add an entry, deferred if it has a delay, and rouse a worker. The number is its handle. -/
def push (now : Nat) (priority : Priority) (delay : Nat) (work : α) (q : Queue α) :
    Nat × Queue α :=
  let e : QueueEntry α := { priority, number := q.nextNumber, work }
  let q' : Queue α := { q with nextNumber := q.nextNumber + 1, idle := q.idle.rouseOne }
  if delay = 0 then (e.number, q'.addReady e)
  else
    (e.number,
      { q' with
        deferred := insertBy Deferred.before (fun _ _ => false) ⟨now + delay, e⟩ q'.deferred })

/-- Whether an entry was called off. -/
def isCancelled (number : Nat) (q : Queue α) : Bool :=
  q.cancelled.contains number

/-- Call an entry off. -/
def cancel (number : Nat) (q : Queue α) : Queue α :=
  if q.isCancelled number then q else { q with cancelled := number :: q.cancelled }

/-- Whether an entry was not called off. -/
def isLive (q : Queue α) (e : QueueEntry α) : Bool :=
  !q.isCancelled e.number

/-- Drop the dead ones of the ready entries, if there are as many ready entries as the depth. -/
def purge (q : Queue α) : Queue α :=
  if q.maxDepth ≤ q.ready.length then { q with ready := q.ready.filter q.isLive } else q

/-- Add an entry that is ready at once if there is room; a full queue tells how many entries are
ready. -/
def tryEnqueue (priority : Priority) (work : α) (q : Queue α) : Except Fault Nat × Queue α :=
  let q' := q.purge
  if q'.maxDepth ≤ q'.ready.length then (.error (.queueFull q'.ready.length), q')
  else
    let (number, q'') := q'.push 0 priority 0 work
    (.ok number, q'')

/-- One attempt of a producer to add an entry that is ready at once. If there is no room the
producer goes to sleep. -/
def offer (producer : Nat) (priority : Priority) (work : α) (q : Queue α) :
    Option Nat × Queue α :=
  match q.tryEnqueue priority work with
  | (.ok number, q') => (some number, { q' with producers := q'.producers.leave producer })
  | (.error _, q') => (none, { q' with producers := q'.producers.sleep producer })

/-! ### Taking entries -/

/-- Let the deferred entries whose time has come join the ready ones. Those that were called off
are dropped. -/
def promote (now : Nat) (q : Queue α) : Queue α :=
  let (ripe, unripe) := q.deferred.span fun d => d.due ≤ now
  (ripe.filter fun d => q.isLive d.entry).foldl (fun q d => q.addReady d.entry)
    { q with deferred := unripe }

/-- Take the next live entry, after the ripe ones have joined the ready ones. The flag tells
whether any entry left, dead or alive; then a producer is to be notified. -/
def dequeue (now : Nat) (q : Queue α) : (Option (QueueEntry α) × Bool) × Queue α :=
  let q' := q.promote now
  let popped := !q'.ready.isEmpty
  match q'.ready.dropWhile fun e => !q'.isLive e with
  | [] => ((none, popped), { q' with ready := [] })
  | e :: es => ((some e, popped), { q' with ready := es })

/-- Rouse the producer that has waited longest. -/
def notifySpace (q : Queue α) : Queue α :=
  { q with producers := q.producers.rouseOne }

/-- When the next deferred entry ripens. -/
def nextDue (q : Queue α) : Option Nat :=
  q.deferred.head?.map Deferred.due

/-- One attempt of a worker to see an entry that is ready, after the ripe ones have joined the ready
ones. If there is none the worker goes to sleep. -/
def look (worker now : Nat) (q : Queue α) : Bool × Queue α :=
  let q' := q.promote now
  if q'.ready.isEmpty then (false, { q' with idle := q'.idle.sleep worker })
  else (true, { q' with idle := q'.idle.leave worker })

/-- The number of live entries. -/
def pending (q : Queue α) : Nat :=
  q.ready.countP q.isLive + q.deferred.countP fun d => q.isLive d.entry

/-- Work of the schedulers goes through the queue as events, whatever its depth. -/
instance : Timetable (Queue (Work ω)) ω where
  schedule now priority delay e q := q.push now priority delay (.event e)
  cancel := Queue.cancel

/-- Ask a worker to leave, after a delay. -/
def pushQuit (now delay : Nat) (q : Queue (Work ω)) : Queue (Work ω) :=
  (q.push now .low delay .quit).2

/-! ### Basic facts -/

/-- A new queue has no live entries. -/
@[simp] theorem pending_new (maxDepth : Nat) : (new maxDepth : Queue α).pending = 0 := rfl

/-- `addReady` adds one entry. -/
@[simp] theorem length_ready_addReady (e : QueueEntry α) (q : Queue α) :
    (q.addReady e).ready.length = q.ready.length + 1 :=
  (insertBy_perm fun _ _ => rfl).length_eq

/-- The number of an entry is how many were pushed before it. -/
@[simp] theorem push_fst (now : Nat) (priority : Priority) (delay : Nat) (work : α)
    (q : Queue α) : (q.push now priority delay work).1 = q.nextNumber := by
  rw [push]
  split <;> rfl

/-- `push` goes on to the next number. -/
@[simp] theorem nextNumber_push (now : Nat) (priority : Priority) (delay : Nat) (work : α)
    (q : Queue α) : (q.push now priority delay work).2.nextNumber = q.nextNumber + 1 := by
  rw [push]
  split <;> rfl

/-- After `cancel` the entry is cancelled. -/
@[simp] theorem isCancelled_cancel (number : Nat) (q : Queue α) :
    (q.cancel number).isCancelled number = true := by
  rw [cancel]
  split
  · assumption
  · simp [isCancelled]

end Queue

end TurnPool
