import TurnPool.Task.Lifecycle
import TurnPool.Task.Timetable

/-!
# One task with an entry of its own

A scheduler of a single task. While the task is scheduled it has one live entry in the timetable.
An entry carries the *epoch* in which it was made; whenever an entry is made or called off the
epoch moves on, so that an entry which is already out of the timetable when it is called off is
recognised as stale when it arrives.

## Main definitions

* `Single`: the scheduler.
* `Single.request`: something is asked of the task.
* `Single.claim`: an entry arrives.
* `Single.deliver`: the outcome of a run arrives.
-/

namespace TurnPool

open Text

/-- A scheduler of one task. -/
structure Single where
  /-- The name of the task. -/
  name : String
  /-- Its lifecycle. -/
  life : Lifecycle
  /-- The handle of its entry in the timetable. -/
  pending : Option Nat
  /-- The current epoch. -/
  epoch : Nat
deriving DecidableEq, Repr

namespace Single

variable {Q ω : Type} [Timetable Q ω]

/-- The scheduler of a task that was never asked for. -/
def new (name : String) : Single :=
  { name, life := default, pending := none, epoch := 0 }

/-- Call the entry off, if there is one, and begin a new epoch. -/
def disarm (p : Single × Q) : Single × Q :=
  let (s, q) := p
  let q' := match s.pending with
    | some h => Timetable.cancel h q
    | none => q
  ({ s with pending := none, epoch := s.epoch + 1 }, q')

/-- Make an entry in the place of the one there is. `entry` is the work of an entry of an
epoch. -/
def arm (opts : SchedulerOptions) (entry : Nat → ω) (now delay : Nat) (p : Single × Q) :
    Single × Q :=
  let (s, q) := disarm p
  let (h, q') := Timetable.schedule now opts.priority delay (entry s.epoch) q
  ({ s with pending := some h }, q')

/-- Give the queued run its place. -/
def place (opts : SchedulerOptions) (entry : Nat → ω) (now : Nat) (placement : Placement)
    (p : Single × Q) : Single × Q :=
  match placement with
  | .unchanged => p
  | .now => arm opts entry now 0 p
  | .after ms => arm opts entry now (millis ms) p
  | .dropped => disarm p

/-- Take over a changed lifecycle. -/
def enact (opts : SchedulerOptions) (entry : Nat → ω) (now : Nat) (change : Lifecycle × Placement)
    (p : Single × Q) : Single × Q :=
  place opts entry now change.2 ({ p.1 with life := change.1 }, p.2)

/-- Something is asked of the task. -/
def request (opts : SchedulerOptions) (entry : Nat → ω) (now : Nat) (what : Request)
    (p : Single × Q) : Single × Q :=
  enact opts entry now (p.1.life.request opts.backoff what) p

/-- An entry of an epoch arrives. The answer tells whether it claimed a run; an entry of another
epoch than the current one changes nothing. -/
def claim (epoch : Nat) (s : Single) : Bool × Single :=
  if s.epoch = epoch then
    match s.life.claim with
    | some l => (true, { s with pending := none, life := l })
    | none => (false, { s with pending := none })
  else (false, s)

/-- The outcome of a run arrives. The text is that of a fatal failure, to be reported. -/
def deliver (opts : SchedulerOptions) (entry : Nat → ω) (now : Nat) (o : Outcome)
    (p : Single × Q) : (Single × Q) × Option String :=
  let (change, fatal) := p.1.life.deliver opts.backoff o
  (enact opts entry now change p, fatal)

/-- The diagnostic text. -/
def shown (s : Single) : String :=
  Shown.openRecord "AsyncWorkScheduler"
    [("name", Shown.quoted s.name), ("state", s.life.state.shown)]

end Single

end TurnPool
