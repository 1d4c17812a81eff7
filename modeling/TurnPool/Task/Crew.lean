import TurnPool.Task.Group
import TurnPool.Task.Single

/-!
# Crews

The tasks of a program, which either have a scheduler each or share a group. A crew is asked for
runs, told of arriving entries and of outcomes, and looked at, in the same way in both cases.

## Main definitions

* `Crew`: the tasks.
* `Errand`: what an entry of a scheduler is for.
* `Crew.request`, `Crew.arrive`, `Crew.deliver`: what can happen to a crew.
-/

namespace TurnPool

open Text

/-- What an entry of a scheduler is for. -/
inductive Errand where
  /-- A run of a task that has a scheduler of its own, in an epoch of the scheduler. -/
  | run (task epoch : Nat)
  /-- The next run of a group, in an epoch of the group. -/
  | dispatch (epoch : Nat)
deriving DecidableEq, Repr

/-- The tasks of a program, known by their numbers. -/
inductive Crew where
  /-- Each task has a scheduler of its own. -/
  | apart (tasks : Array Single)
  /-- The tasks share a group. -/
  | together (group : Group)

/-- What a group tells about itself. -/
structure GroupStats where
  /-- The name and the lifecycle of every task. -/
  tasks : List (String × Lifecycle)
  /-- The tasks left in the batch that is worked off. -/
  active : Nat
  /-- The tasks in the next batch. -/
  scheduled : Nat
  /-- The tasks that wait out a retry delay. -/
  delayed : Nat
  /-- Whether the group has an entry in the timetable. -/
  armed : Bool

/-- What a group tells about itself. -/
def Group.stats (g : Group) : GroupStats :=
  { tasks := g.members.toList.map fun m => (m.name, m.life)
    active := g.active.length - g.cursor
    scheduled := g.scheduled.length
    delayed := g.delayed.length
    armed := g.armed.isSome }

namespace Crew

variable {Q ω : Type} [Timetable Q ω]

/-- A crew without tasks. -/
def empty (grouped : Bool) : Crew :=
  if grouped then .together .empty else .apart #[]

/-- A task joins. -/
def register (name : String) : Crew → Crew
  | .apart tasks => .apart (tasks.push (.new name))
  | .together g => .together (g.register name).2

/-- The group, if the tasks share one. -/
def group? : Crew → Option Group
  | .apart _ => none
  | .together g => some g

/-- The number of tasks. -/
def size : Crew → Nat
  | .apart tasks => tasks.size
  | .together g => g.members.size

/-- The name of a task. -/
def name (task : Nat) : Crew → String
  | .apart tasks => (tasks[task]?.map Single.name).getD ""
  | .together g => (g.members[task]?.map Member.name).getD ""

/-- The lifecycle of a task. -/
def life (task : Nat) : Crew → Lifecycle
  | .apart tasks => (tasks[task]?.map Single.life).getD default
  | .together g => g.life task

/-- The number of a task as its scheduler knows it. -/
def ownNumber (task : Nat) : Crew → Nat
  | .apart _ => 0
  | .together _ => task

/-- The diagnostic text of the scheduler of a task, or of its handle in the group. -/
def taskShown (task : Nat) : Crew → String
  | .apart tasks => (tasks[task]?.map Single.shown).getD ""
  | c@(.together _) => Group.handleShown task (c.name task)

/-- Change the scheduler of one task together with the timetable. -/
def onSingle {α : Type} (task : Nat) (tasks : Array Single) (q : Q) (other : α)
    (f : Single × Q → α × (Single × Q)) : α × (Crew × Q) :=
  match tasks[task]? with
  | some s =>
    let (a, s', q') := f (s, q)
    (a, .apart (tasks.setIfInBounds task s'), q')
  | none => (other, .apart tasks, q)

/-- Something is asked of a task. `job` is the work of an errand. -/
def request (opts : SchedulerOptions) (job : Errand → ω) (r : Readings) (what : Request)
    (task : Nat) (p : Crew × Q) : Crew × Q :=
  match p.1 with
  | .apart tasks =>
    let entry := fun epoch => job (.run task epoch)
    (onSingle task tasks p.2 () fun s => ((), Single.request opts entry r.entry what s)).2
  | .together g =>
    let entry := fun epoch => job (.dispatch epoch)
    let (g', q') := Group.request opts entry r task what (g, p.2)
    (.together g', q')

/-- An entry arrives. The answer is the task whose run it claims. -/
def arrive (opts : SchedulerOptions) (job : Errand → ω) (r : Readings) (e : Errand)
    (p : Crew × Q) : Option Nat × (Crew × Q) :=
  match e, p.1 with
  | .run task epoch, .apart tasks =>
    onSingle task tasks p.2 none fun (s, q) =>
      let (claimed, s') := s.claim epoch
      (if claimed then some task else none, s', q)
  | .dispatch epoch, .together g =>
    let (claimed, g', q') :=
      Group.dispatch opts (fun epoch => job (.dispatch epoch)) r epoch (g, p.2)
    (claimed, .together g', q')
  | _, _ => (none, p)

/-- The outcome of a run arrives. The text is that of a fatal failure, to be reported. -/
def deliver (opts : SchedulerOptions) (job : Errand → ω) (r : Readings) (task : Nat)
    (o : Outcome) (p : Crew × Q) : Option String × (Crew × Q) :=
  match p.1 with
  | .apart tasks =>
    onSingle task tasks p.2 none fun s =>
      let (s', fatal) := Single.deliver opts (fun epoch => job (.run task epoch)) r.entry o s
      (fatal, s')
  | .together g =>
    let ((g', q'), fatal) :=
      Group.deliver opts (fun epoch => job (.dispatch epoch)) r task o (g, p.2)
    (fatal, .together g', q')

end Crew

end TurnPool
