import TurnPool.Config.Basic
import TurnPool.Json.Decode
import TurnPool.Json.Plain
import TurnPool.Text.Shown

/-!
# The lifecycle of a task

A recurring task is idle, scheduled, in flight or stopped. Requests made while it is in flight are
remembered and served together by one further run; a task that is stopped ignores requests until
it is started again. Only legal combinations can be written down: no task is both stopped and
scheduled, and only a task in flight can have a rerun pending.

## Main definitions

* `TaskState`: the states.
* `Move`: what has to be done about the queued run after a change of state.
* `Request`: what can be asked of a task.
* `TaskState.request`, `beginRun`, `ripen`, `succeed`, `fail`: the changes.
-/

namespace TurnPool

open Text

/-- Where a task is in its lifecycle. -/
inductive TaskState where
  /-- Nothing to do until the next request. -/
  | idle
  /-- A run is queued; `delayed` while it waits out a retry delay. -/
  | scheduled (delayed : Bool)
  /-- A run is under way; `rerun` if a request came meanwhile. -/
  | inFlight (rerun : Bool)
  /-- Stopped while a run was under way; the run ends and counts for nothing. -/
  | inFlightStopped
  /-- Requests are ignored until the task is started. -/
  | stopped
deriving DecidableEq, Repr, Inhabited

/-- What has to be done about the queued run of a task after a change of its state. -/
inductive Move where
  /-- Nothing. -/
  | none
  /-- Queue a run now, in the place of a delayed one. -/
  | runNow
  /-- Queue a run after the retry delay. -/
  | runLater
  /-- Drop the queued run. -/
  | cancel
deriving DecidableEq, Repr

/-- What can be asked of a task. -/
inductive Request where
  /-- A run. -/
  | schedule
  /-- A run, also if the task is stopped. -/
  | start
  /-- No more runs. -/
  | stop
deriving DecidableEq, Repr

namespace TaskState

/-- Whether a run is under way. -/
def isInFlight : TaskState → Bool
  | .inFlight _ | .inFlightStopped => true
  | _ => false

/-- Whether the task was stopped. -/
def isStopped : TaskState → Bool
  | .stopped | .inFlightStopped => true
  | _ => false

/-- Whether a run is queued. -/
def isScheduled : TaskState → Bool
  | .scheduled _ => true
  | _ => false

/-- A run is requested. A fresh request wins over a retry delay. -/
def schedule : TaskState → TaskState × Move
  | .inFlight _ => (.inFlight true, .none)
  | .scheduled true | .idle => (.scheduled false, .runNow)
  | s => (s, .none)

/-- A run is requested, also of a task that was stopped. -/
def start : TaskState → TaskState × Move
  | .stopped => schedule .idle
  | .inFlightStopped => schedule (.inFlight false)
  | s => schedule s

/-- The task is stopped: a queued run is dropped, a run under way is left to end. -/
def stop : TaskState → TaskState × Move
  | .inFlight _ | .inFlightStopped => (.inFlightStopped, .none)
  | .scheduled _ => (.stopped, .cancel)
  | .idle | .stopped => (.stopped, .none)

/-- Something is asked of the task. -/
def request : Request → TaskState → TaskState × Move
  | .schedule => schedule
  | .start => start
  | .stop => stop

/-- The queued run is claimed; `none` if no run is queued. -/
def beginRun : TaskState → Option TaskState
  | .scheduled _ => some (.inFlight false)
  | _ => none

/-- The retry delay is over. -/
def ripen : TaskState → TaskState
  | .scheduled true => .scheduled false
  | s => s

/-- The run under way succeeded; `more` if there is more to do at once. -/
def succeed (more : Bool) : TaskState → TaskState × Move
  | .inFlightStopped => (.stopped, .none)
  | .inFlight rerun => if more || rerun then (.scheduled false, .runNow) else (.idle, .none)
  | s => (s, .none)

/-- The run under way failed and may be retried. -/
def fail : TaskState → TaskState × Move
  | .inFlightStopped => (.stopped, .none)
  | .inFlight true => (.scheduled false, .runNow)
  | .inFlight false => (.scheduled true, .runLater)
  | s => (s, .none)

/-! ### Written forms -/

/-- The name of a state used in data. -/
def name : TaskState → String
  | .idle => "idle"
  | .scheduled _ => "scheduled"
  | .inFlight _ => "in_flight"
  | .inFlightStopped => "in_flight_stopped"
  | .stopped => "stopped"

/-- The detail of a state that has one, with its name. -/
def detail? : TaskState → Option (String × Bool)
  | .scheduled delayed => some ("delayed", delayed)
  | .inFlight rerun => some ("rerun", rerun)
  | _ => none

/-- The diagnostic text. -/
def shown : TaskState → String
  | .idle => "Idle"
  | .scheduled delayed => Shown.record "Scheduled" [("delayed", Shown.flag delayed)]
  | .inFlight rerun => Shown.record "InFlight" [("rerun", Shown.flag rerun)]
  | .inFlightStopped => "InFlightStopped"
  | .stopped => "Stopped"

/-- A state as a JSON value. -/
def toJson (s : TaskState) : Json :=
  .ofFields (("state", .ofString s.name) :: s.detail?.toList.map fun d => (d.1, .bool d.2))

/-- The states of a name: one state, or one for each value of its detail. -/
inductive Shape where
  /-- The name says it all. -/
  | bare (s : TaskState)
  /-- The name leaves a detail open. -/
  | detailed (detail : String) (s : Bool → TaskState)

/-- What a name says about a state. -/
def shape? : String → Option Shape
  | "idle" => some (.bare .idle)
  | "scheduled" => some (.detailed "delayed" .scheduled)
  | "in_flight" => some (.detailed "rerun" .inFlight)
  | "in_flight_stopped" => some (.bare .inFlightStopped)
  | "stopped" => some (.bare .stopped)
  | _ => none

/-- The value of the only member with a key; `none` if there are several or none. -/
def onlyMember? (key : String) (ms : List (Option String × Json)) : Option Json :=
  match ms.filter fun m => m.1 == some key with
  | [(_, v)] => some v
  | _ => none

/-- The state of a JSON value: an object with the name under `state` and the detail under its own
key, or an array of the name and the detail. -/
def ofJson? (j : Json) : Option TaskState :=
  if j.isPlain then
    match j with
    | .obj ms => do
      let shape ← (← (← onlyMember? "state" ms).string?) |> shape?
      match shape with
      | .bare s => some s
      | .detailed d s => (← onlyMember? d ms).bool?.map s
    | .arr (v :: vs) => do
      match ← shape? (← v.string?), vs with
      | .bare s, [] => some s
      | .detailed _ s, [b] => b.bool?.map s
      | _, _ => none
    | _ => none
  else none

end TaskState

end TurnPool
