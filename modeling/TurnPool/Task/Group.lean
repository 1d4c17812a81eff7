import TurnPool.Ascending
import TurnPool.Task.Lifecycle
import TurnPool.Task.Timetable

/-!
# Many tasks with one entry

A scheduler that runs many tasks through one entry of the timetable. Runnable tasks wait in a
batch that is worked off from its front by a cursor; tasks that become runnable meanwhile are
collected for the next batch; tasks that wait out a retry delay are kept in the order of their
deadlines. While anything is runnable the entry is due at once, otherwise it is due at the earliest
deadline.

An operation reads the clock at up to three places, and the readings are given to it as
`Readings`.

## Main definitions

* `Group`: the scheduler.
* `Group.register`: a task joins.
* `Group.request`: something is asked of one of the tasks.
* `Group.nextReady`: the next run is claimed.
* `Group.rearm`: the entry is made to match the tasks.
* `Group.dispatch`: an entry arrives.
* `Group.deliver`: the outcome of a run arrives.
-/

namespace TurnPool

open Text

/-- What an operation of a group reads from the clock. -/
structure Readings where
  /-- Read when a deadline is set, or deadlines are compared. -/
  deadline : Nat
  /-- Read when the delay of the entry is measured. -/
  arm : Nat
  /-- Read when the entry is put into the timetable. -/
  entry : Nat
deriving DecidableEq, Repr

/-- A task of a group. -/
structure Member where
  /-- Its name. -/
  name : String
  /-- Its lifecycle. -/
  life : Lifecycle
  /-- When its retry delay is over, while it waits that out. -/
  deadline : Option Nat
deriving DecidableEq, Repr

/-- A task that waits out a retry delay. -/
structure Delayed where
  /-- When the delay is over. -/
  deadline : Nat
  /-- The number of the task. -/
  task : Nat
  /-- The name of the task. -/
  name : String
deriving DecidableEq, Repr

/-- Whether one waiting task stands before another: by deadline, then by number, then by name. -/
def Delayed.before (a b : Delayed) : Bool :=
  a.deadline < b.deadline || (a.deadline == b.deadline &&
    (a.task < b.task || (a.task == b.task && a.name < b.name)))

/-- The entry of a group in the timetable. -/
structure Armed where
  /-- Its handle. -/
  handle : Nat
  /-- When it is due; `none` for at once. -/
  due : Option Nat
  /-- The epoch it was made in. -/
  epoch : Nat
deriving DecidableEq, Repr

/-- A scheduler of many tasks, which are known by their numbers. -/
structure Group where
  /-- The tasks. -/
  members : Array Member
  /-- The batch that is worked off. -/
  active : List Nat
  /-- How many of the batch were taken. -/
  cursor : Nat
  /-- The next batch. -/
  scheduled : List Nat
  /-- The tasks that wait out a retry delay, earliest deadline first. -/
  delayed : List Delayed
  /-- The entry in the timetable. -/
  armed : Option Armed
  /-- The epoch of the last entry made. -/
  epoch : Nat

namespace Group

variable {Q ω : Type} [Timetable Q ω]

/-- The group without tasks. -/
def empty : Group :=
  { members := #[], active := [], cursor := 0, scheduled := [], delayed := [], armed := none,
    epoch := 0 }

/-- A task joins the group. Its number is the number of tasks there were. -/
def register (name : String) (g : Group) : Nat × Group :=
  (g.members.size,
    { g with members := g.members.push { name, life := default, deadline := none } })

/-- Change one task. -/
def modify (id : Nat) (f : Member → Member) (g : Group) : Group :=
  { g with members := g.members.modify id f }

/-- What is left of the batch. -/
def left (g : Group) : List Nat := g.active.drop g.cursor

/-- Whether a task is runnable. -/
def hasReady (g : Group) : Bool :=
  decide (g.cursor < g.active.length) || !g.scheduled.isEmpty

/-- What a task that waits out a delay is kept under. -/
def key? (id : Nat) (g : Group) : Option Delayed :=
  g.members[id]?.bind fun m => m.deadline.map fun d => ⟨d, id, m.name⟩

/-- Let a task not wait out a delay any more. -/
def unlinkDelayed (id : Nat) (g : Group) : Group :=
  match g.key? id with
  | some k =>
    { g.modify id fun m => { m with deadline := none } with delayed := g.delayed.erase k }
  | none => g

/-- Take a task out of the batches: wherever it stands in the next one, and from what is left of the
one that is worked off. -/
def unlinkReady (id : Nat) (g : Group) : Group :=
  { g with
    scheduled := g.scheduled.filter (· ≠ id)
    active := g.active.take g.cursor ++ g.left.erase id }

/-- Take a task out of whichever collection holds it. -/
def unlink (id : Nat) (g : Group) : Group :=
  (g.unlinkDelayed id).unlinkReady id

/-- Put a task into the next batch. -/
def pushReady (id : Nat) (g : Group) : Group :=
  { g with scheduled := g.scheduled ++ [id] }

/-- Let a task wait until an instant. -/
def pushDelayed (id deadline : Nat) (g : Group) : Group :=
  match g.members[id]? with
  | some m =>
    { g.modify id fun m => { m with deadline := some deadline } with
      delayed := insertBy Delayed.before (· == ·) ⟨deadline, id, m.name⟩ g.delayed }
  | none => g

/-- Give the queued run of a task its place. A delay counts from `now`. -/
def relocate (now id : Nat) (placement : Placement) (g : Group) : Group :=
  match placement with
  | .unchanged => g
  | .now => (g.unlink id).pushReady id
  | .after ms => (g.unlink id).pushDelayed id (now + millis ms)
  | .dropped => g.unlink id

/-! ### Claiming -/

/-- Move the tasks whose delay is over to the next batch, in the order of their deadlines. -/
def ripen (now : Nat) : List Delayed → Group → Group
  | [], g => { g with delayed := [] }
  | k :: ks, g =>
    if now < k.deadline then { g with delayed := k :: ks }
    else
      ripen now ks
        ((g.modify k.task fun m => { m with deadline := none, life := m.life.ripen }).pushReady
          k.task)

/-- Claim the first task of a list, which is what is left of the batch, that has a run queued. The
cursor moves past it and past those before it. A batch without such a task is cleared. -/
def claimFirst : List Nat → Group → Option Nat × Group
  | [], g => (none, { g with active := [], cursor := 0 })
  | id :: ids, g =>
    let g' : Group := { g with cursor := g.cursor + 1 }
    match g.members[id]?.bind fun m => m.life.claim with
    | some l => (some id, g'.modify id fun m => { m with life := l })
    | none => claimFirst ids g'

/-- The next batch becomes the one that is worked off. -/
def swap (g : Group) : Group :=
  { g with active := g.scheduled, cursor := 0, scheduled := [] }

/-- Claim the next run: from the batch, and once that is worked off from the next one, which the
tasks whose delay is over have joined by then. -/
def nextReady (now : Nat) (g : Group) : Option Nat × Group :=
  match claimFirst g.left g with
  | (some id, g') => (some id, g')
  | (none, g') =>
    let g'' := (ripen now g'.delayed g').swap
    claimFirst g''.left g''

/-! ### The entry -/

/-- When the entry should be due: at once, at an instant, or never. -/
def want (g : Group) : Option (Option Nat) :=
  if g.hasReady then some none else g.delayed.head?.map fun k => some k.deadline

/-- Call the entry off, if there is one. -/
def disarm (p : Group × Q) : Group × Q :=
  match p.1.armed with
  | some a => ({ p.1 with armed := none }, Timetable.cancel a.handle p.2)
  | none => p

/-- Make an entry that is due at once or at an instant, in a new epoch. `entry` is the work of an
entry of an epoch. -/
def arm (opts : SchedulerOptions) (entry : Nat → ω) (r : Readings) (due : Option Nat)
    (p : Group × Q) : Group × Q :=
  let (g, q) := p
  let epoch := g.epoch + 1
  let delay := match due with
    | none => 0
    | some at' => at' - r.arm
  let (h, q') := Timetable.schedule r.entry opts.priority delay (entry epoch) q
  ({ g with epoch, armed := some { handle := h, due, epoch } }, q')

/-- Make the entry match the tasks. An entry that is due when it should be is kept; any other is
called off, and a new one is made if one is wanted. -/
def rearm (opts : SchedulerOptions) (entry : Nat → ω) (r : Readings) (p : Group × Q) :
    Group × Q :=
  if p.1.armed.isSome ∧ p.1.armed.map Armed.due = p.1.want then p
  else
    match p.1.want with
    | none => disarm p
    | some due => arm opts entry r due (disarm p)

/-- Give the queued run of a task its place, and make the entry match. -/
def place (opts : SchedulerOptions) (entry : Nat → ω) (r : Readings) (id : Nat)
    (placement : Placement) (p : Group × Q) : Group × Q :=
  rearm opts entry r (p.1.relocate r.deadline id placement, p.2)

/-- Take over the changed lifecycle of a task. -/
def enact (opts : SchedulerOptions) (entry : Nat → ω) (r : Readings) (id : Nat)
    (change : Lifecycle × Placement) (p : Group × Q) : Group × Q :=
  place opts entry r id change.2 (p.1.modify id fun m => { m with life := change.1 }, p.2)

/-- The lifecycle of a task; that of a fresh one if there is no such task. -/
def life (g : Group) (id : Nat) : Lifecycle :=
  (g.members[id]?.map Member.life).getD default

/-- Something is asked of a task. -/
def request (opts : SchedulerOptions) (entry : Nat → ω) (r : Readings) (id : Nat)
    (what : Request) (p : Group × Q) : Group × Q :=
  enact opts entry r id ((p.1.life id).request opts.backoff what) p

/-- An entry of an epoch arrives. The answer is the task whose run it claimed; an entry of another
epoch than that of the entry in the timetable changes nothing. -/
def dispatch (opts : SchedulerOptions) (entry : Nat → ω) (r : Readings) (epoch : Nat)
    (p : Group × Q) : Option Nat × (Group × Q) :=
  let (g, q) := p
  if g.armed.map Armed.epoch = some epoch then
    let (claimed, g') := nextReady r.deadline { g with armed := none }
    (claimed, rearm opts entry r (g', q))
  else (none, p)

/-- The outcome of a run arrives. The text is that of a fatal failure, to be reported. -/
def deliver (opts : SchedulerOptions) (entry : Nat → ω) (r : Readings) (id : Nat) (o : Outcome)
    (p : Group × Q) : (Group × Q) × Option String :=
  let (change, fatal) := (p.1.life id).deliver opts.backoff o
  (enact opts entry r id change p, fatal)

/-! ### Diagnostics -/

/-- The diagnostic text of a group. -/
def shown (g : Group) : String :=
  Shown.openRecord "AsyncWorkGroupScheduler" [("tasks", toString g.members.size)]

/-- The diagnostic text of a handle to one of the tasks. -/
def handleShown (id : Nat) (name : String) : String :=
  Shown.openRecord "TaskHandle" [("id", toString id), ("name", Shown.quoted name)]

end Group

end TurnPool
