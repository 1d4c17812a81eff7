import TurnPool.Pool.Kit
import TurnPool.Scenario.Play

/-!
# Setting a scenario up

A scenario plays on a pool that is made in one of several ways, or works off an agenda by hand
beside an idle pool.

## Main definitions

* `Setup`, `Setup.scene`: a scenario on a pool.
* `BenchSetup`, `BenchSetup.scene`: a scenario that works off an agenda.
-/

namespace TurnPool.Scenario

variable {V : Type}

/-- How the pool of a scenario is made. -/
inductive Origin where
  /-- From its parts: only the settings of the threads have to be valid. -/
  | parts
  /-- As a kit that gets to know what is open. -/
  | tracked
  /-- As a kit. -/
  | kit
  /-- From its parts, with every setting at its default. -/
  | plain
deriving DecidableEq, Repr

/-- A task of a scenario. -/
structure TaskSetup (V : Type) where
  /-- Its key. -/
  key : String
  /-- Its name. -/
  name : String
  /-- What its runs do. -/
  script : List (List (Op V))

/-- A scenario on a pool. -/
structure Setup (V : Type) where
  /-- How the pool is made. -/
  origin : Origin
  /-- The configuration. -/
  config : Config
  /-- The priority of the entries that the schedulers make. -/
  priority : Priority
  /-- The state that the core lock guards. -/
  state : Int
  /-- Whether the tasks are to share a group. Only a kit has one. -/
  grouped : Bool
  /-- The tasks. -/
  tasks : List (TaskSetup V)

/-- The retry delays of schedulers that are not made from a configuration. -/
def quickBackoff : BackoffConfig := ⟨100, 1000⟩

/-- The scene at the beginning of a scenario. -/
def Scene.start (pool : Pool (Job V)) (tracked : Bool) (state : Int) (options : SchedulerOptions)
    (grouped : Bool) (agenda : Option (Agenda (Job V))) (tasks : List (TaskSetup V)) : Scene V :=
  tasks.foldl (fun w t => w.register t.key t.name t.script)
    { now := 0, pool, tracked, state, options, crew := .empty grouped, scripts := #[], agenda,
      tokens := [], labels := [], pins := [], wakers := [], handles := [], deposits := [],
      producers := [], journal := .empty, owner := none, line := [], threads := [mainThread],
      nextThread := 1 }

/-- A pool made from its parts. -/
def poolOfParts (c : Config) : Except Fault (Pool (Job V)) :=
  (Pool.ofParts c.threads c.tokens.table).mapError SectionFault.fault

/-- The scene of a scenario on a pool. -/
def Setup.scene (s : Setup V) : Except Fault (Scene V) :=
  match s.origin with
  | .parts => do
    let pool ← poolOfParts s.config
    .ok (.start pool true s.state ⟨quickBackoff, s.priority⟩ false none s.tasks)
  | .tracked => do
    let r ← Kit.build s.config s.priority
    .ok (.start r.pool true s.state r.options s.grouped none s.tasks)
  | .kit => do
    let r ← Kit.build s.config default
    .ok (.start r.pool false 0 r.options s.grouped none s.tasks)
  | .plain => do
    let pool ← poolOfParts default
    .ok (.start pool false 0 ⟨quickBackoff, s.priority⟩ false none s.tasks)

/-- A scenario that works off an agenda. -/
structure BenchSetup (V : Type) where
  /-- The settings of the schedulers. -/
  options : SchedulerOptions
  /-- Whether the tasks share a group. -/
  grouped : Bool
  /-- The tasks. -/
  tasks : List (TaskSetup V)

/-- The scene of a scenario that works off an agenda: events run beside a small idle pool. -/
def BenchSetup.scene (s : BenchSetup V) : Except Fault (Scene V) := do
  let threads : ThreadConfig := { (default : ThreadConfig) with
    lowWatermark := 1, highWatermark := 2, maxThreads := 4 }
  let pool ← poolOfParts { (default : Config) with threads }
  .ok (.start pool true 0 s.options s.grouped (some .empty) s.tasks)

end TurnPool.Scenario
