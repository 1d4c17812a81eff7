import TurnPool.Config.Log
import TurnPool.Pool.Basic

/-!
# Pools made from a configuration

A pool is made idle, from the settings of its threads and the limits of its tokens, and it is
started when its first worker is added. A kit is an idle pool together with the settings that the
schedulers on it share, both made from one configuration.

## Main definitions

* `Pool.ofParts`: an idle pool.
* `Pool.start`: the first worker is added.
* `Kit`: a pool and the settings of its schedulers.
* `Kit.build`: the kit of a valid configuration.
-/

namespace TurnPool

open Text

namespace Pool

variable {ω : Type}

/-- An idle pool. The settings of the threads must be valid; the limits are taken as they are. -/
def ofParts (config : ThreadConfig) (limits : PerCategory (Option Nat)) :
    Except SectionFault (Pool ω) :=
  config.validate.map fun _ =>
    { config
      sizer := .new config.lowWatermark config.highWatermark config.maxThreads
      queue := .new config.maxQueueDepth
      contexts := #[]
      paused := []
      ledger := .new limits
      signals := #[]
      opened := none
      reports := []
      started := false
      listening := false
      shrinks := [] }

/-- Add the first worker. The answer is its slot. If its thread could not be created, which
`spawned` tells, the pool is as it was. -/
def start (spawned : Bool) (p : Pool ω) : Except Fault Nat × Pool ω :=
  if p.started then (.error .alreadyStarted, p)
  else
    let (slot, sizer) := p.sizer.addWorker
    if spawned then (.ok slot, { p with sizer, started := true })
    else (.error (.spawn "no thread"), { p with sizer := sizer.spawnFailed slot })

/-- The diagnostic text of a pool. -/
def shown (p : Pool ω) : String :=
  Shown.openRecord "ThreadControl"
    [("config", p.config.shown), ("started", Shown.flag p.started)]

end Pool

/-! ### Kits -/

/-- The diagnostic text of the settings of schedulers. -/
def SchedulerOptions.shown (o : SchedulerOptions) : String :=
  Shown.openRecord "SchedulerOptions"
    [("backoff", o.backoff.shown), ("priority", o.priority.variant)]

/-- A pool and the settings of its schedulers. -/
structure Kit (ω : Type) where
  /-- The pool. -/
  pool : Pool ω
  /-- The settings of the schedulers. -/
  options : SchedulerOptions

namespace Kit

variable {ω : Type}

/-- The kit of a configuration, or the first fault of the configuration. -/
def build (c : Config) (priority : Priority) : Except Fault (Kit ω) :=
  match c.validate with
  | .error e => .error e.fault
  | .ok _ =>
    match Pool.ofParts c.threads c.tokens.table with
    | .error e => .error e.fault
    | .ok pool => .ok { pool, options := ⟨c.backoff, priority⟩ }

/-- The diagnostic text of a kit. -/
def shown (r : Kit ω) : String :=
  Shown.record "CoreRuntime" [("control", r.pool.shown), ("options", r.options.shown)]

end Kit

end TurnPool
