import TurnPool.Pool.Basic
import TurnPool.Task.Crew

/-!
# What a scenario can ask for

A scenario is a program for a simulated pool. It is written in operations: what somebody outside
the pool does, what an event does while it runs, what is done while an event is paused, and what a
run of a task does with its completion. Not every operation makes sense everywhere; one that
stands where it makes none is passed over.

Tokens, wakers, entries of the queue and tasks are known by names.

## Main definitions

* `Op`: an operation.
* `Event`: an event, as a list of operations.
* `Op.name`: the name of an operation in a trace.
-/

namespace TurnPool.Scenario

/-- An event that does a list of things. -/
structure EventOf (α : Type) where
  /-- Its name. -/
  id : String
  /-- Its priority. -/
  priority : Priority
  /-- What it does. -/
  actions : List α

/-- An operation. Values of type `V` are passed through as they are. Lengths of time are in
milliseconds. -/
inductive Op (V : Type) where
  /-- Queue an event if there is room. -/
  | enqueue (e : EventOf (Op V))
  /-- The same, through the queue itself. -/
  | tryEnqueue (e : EventOf (Op V))
  /-- Queue an event, waiting for room. -/
  | enqueueBlocking (e : EventOf (Op V))
  /-- Queue an event that becomes due after a delay. -/
  | schedule (ms : Nat) (e : EventOf (Op V))
  /-- Call an event off. -/
  | cancel (id : String)
  /-- Look at the length of the queue. -/
  | pending
  /-- Ask for a token; once, or waiting for it with or without a limit. -/
  | acquire (name : String) (category : Category) (priority : Priority) (reason : String)
      (wait : Option (Option Nat))
  /-- Look at a token. -/
  | token (name : String)
  /-- Reclaim a token. -/
  | reclaim (name : String)
  /-- Let go of a token. -/
  | drop (name : String)
  /-- Shut a category down. -/
  | shutdown (category : Category)
  /-- Look at the slots of a category. -/
  | slots (category : Category)
  /-- Look at all tokens. -/
  | tokenStats
  /-- Look at all tokens, as lines. -/
  | tokenDump
  /-- Look at all slots, as diagnostic text. -/
  | tokenDebug
  /-- Send a wake. -/
  | wake (waker : String)
  /-- Something is open from now on. -/
  | openResource (what : String)
  /-- Nothing is open any more. -/
  | closeResource
  /-- Look whether the pool was started. -/
  | isStarted
  /-- Let time pass. -/
  | sleep (ms : Nat)
  /-- Panic. -/
  | panic (p : Panic)
  /-- Listen to how the pool shrinks. -/
  | listener
  /-- Ask something of a task. -/
  | request (what : Request) (task : String)
  /-- Use the completion that a run of a task has parked. -/
  | resolve (task : String) (how : Fate)
  /-- Look at the states of all tasks. -/
  | taskStates
  /-- Look at a task, as diagnostic text. -/
  | taskDebug (task : String)
  /-- Look at the group. -/
  | groupStats
  /-- Look at the group, as diagnostic text. -/
  | groupDebug
  /-- A task joins. -/
  | register (key name : String) (script : List (List (Op V)))
  /-- Run an event on the own thread. -/
  | run (e : EventOf (Op V))
  /-- Start the pool. -/
  | start
  /-- Look at the pool. -/
  | stats
  /-- The names of what there is to see in the pool. -/
  | statsKeys
  /-- Look at the pool, as lines. -/
  | dump
  /-- Look at the state that the core lock guards. -/
  | state
  /-- Look at the pool, as diagnostic text. -/
  | debug
  /-- Do several things under the core lock. -/
  | batch (ops : List (Op V))
  /-- Let another thread wait for a token. -/
  | waiter (name : String) (category : Category) (priority : Priority) (reason : String)
      (limit : Option Nat)
  /-- Wait for that thread. -/
  | waiterEnd (name : String)
  /-- Let another thread wait for room in the queue. -/
  | producer (e : EventOf (Op V))
  /-- Look whether that thread still waits. -/
  | producerBlocked (id : String)
  /-- Look whether the pause was aborted. -/
  | aborted
  /-- Wait for the pause to be aborted. -/
  | wait (limit : Option Nat)
  /-- Write a value down. -/
  | log (v : V)
  /-- Add to the state that the core lock guards. -/
  | add (n : Int)
  /-- Look at what the event knows of itself. -/
  | info
  /-- Look at the paused contexts. -/
  | paused
  /-- Look at the context, as diagnostic text. -/
  | contextDebug
  /-- Ask for a token, giving up the core lock to wait for it. Meanwhile another thread does
  something. -/
  | take (name : String) (category : Category) (reason : String) (limit : Option Nat)
      (meanwhile : List (Op V))
  /-- Ask for a token once, as the event. -/
  | dispatchAcquire (name : String) (category : Category) (reason : String)
  /-- Keep a waker of the context. -/
  | saveWaker (name : String)
  /-- Queue an event if there is room, as the event. -/
  | dispatchEnqueue (e : EventOf (Op V))
  /-- Queue an event that becomes due after a delay, as the event. -/
  | dispatchSchedule (ms : Nat) (e : EventOf (Op V))
  /-- Pause until a wake arrives. -/
  | pause (token reason : String) (meanwhile : List (Op V))
  /-- Pause until a wake arrives, or time is up. -/
  | pauseTimeout (token : String) (ms : Nat) (reason : String) (meanwhile : List (Op V))
  /-- Pause for a time. -/
  | hold (token : String) (ms : Nat) (reason : String) (meanwhile : List (Op V))
  /-- Pause while something is done that gives a value. -/
  | pseudoPause (token reason : String) (body : List (Op V)) (value : V)
      (meanwhile : List (Op V))
  /-- Pause until a value is there. -/
  | blockOn (token reason : String) (ms : Option Nat) (value : V) (meanwhile : List (Op V))
  /-- Use the completion of the run. -/
  | complete (how : Fate)
  /-- Keep the completion of the run for later. -/
  | park
  /-- Run the next live entry of the agenda. -/
  | runNext
  /-- Run an entry of the agenda, live or not. -/
  | runRaw (index : Nat)
  /-- Run live entries of the agenda until there are none, up to a number. -/
  | drain (limit : Nat)
  /-- An operation that nobody knows. -/
  | unknown (name : String)

/-- An event of a scenario. -/
abbrev Event (V : Type) := EventOf (Op V)

/-- What an entry of the queue of a scenario is for. -/
inductive Job (V : Type) where
  /-- An event. -/
  | event (e : Event V)
  /-- An errand of a scheduler. -/
  | errand (e : Errand)

/-- The name of what becomes of a completion. -/
def fateName : Fate → String
  | .success _ => "success"
  | .fail _ => "fail"
  | .finish _ => "finish"
  | .abandon => "abandon"

/-- The name of a request. -/
def requestName : Request → String
  | .schedule => "task_schedule"
  | .start => "task_start"
  | .stop => "task_stop"

/-- The name of an operation in a trace. -/
def Op.name {V : Type} : Op V → String
  | .enqueue _ => "enqueue"
  | .tryEnqueue _ => "try_enqueue"
  | .enqueueBlocking _ => "enqueue_blocking"
  | .schedule _ _ => "schedule"
  | .cancel _ => "cancel"
  | .pending => "pending"
  | .acquire _ _ _ _ _ => "acquire"
  | .token _ => "token"
  | .reclaim _ => "reclaim"
  | .drop _ => "drop"
  | .shutdown _ => "shutdown"
  | .slots _ => "slots"
  | .tokenStats => "token_stats"
  | .tokenDump => "token_dump"
  | .tokenDebug => "token_debug"
  | .wake _ => "wake"
  | .openResource _ => "open"
  | .closeResource => "close"
  | .isStarted => "is_started"
  | .sleep _ => "sleep"
  | .panic _ => "panic"
  | .listener => "listener"
  | .request what _ => requestName what
  | .resolve _ _ => "resolve"
  | .taskStates => "task_states"
  | .taskDebug _ => "task_debug"
  | .groupStats => "group_stats"
  | .groupDebug => "group_debug"
  | .register _ _ _ => "register"
  | .run _ | .runNext => "run"
  | .start => "start"
  | .stats => "stats"
  | .statsKeys => "stats_keys"
  | .dump => "dump"
  | .state => "state"
  | .debug => "debug"
  | .batch _ => "batch"
  | .waiter _ _ _ _ _ => "waiter"
  | .waiterEnd _ => "waiter_end"
  | .producer _ => "producer"
  | .producerBlocked _ => "producer_blocked"
  | .aborted => "aborted"
  | .wait _ => "wait"
  | .log _ => "log"
  | .add _ => "add"
  | .info => "info"
  | .paused => "paused"
  | .contextDebug => "context_debug"
  | .take _ _ _ _ _ => "take"
  | .dispatchAcquire _ _ _ => "dispatch_acquire"
  | .saveWaker _ => "save_waker"
  | .dispatchEnqueue _ => "dispatch_enqueue"
  | .dispatchSchedule _ _ => "dispatch_schedule"
  | .pause _ _ _ => "pause"
  | .pauseTimeout _ _ _ _ => "pause_timeout"
  | .hold _ _ _ _ => "hold"
  | .pseudoPause _ _ _ _ _ => "pseudo_pause"
  | .blockOn _ _ _ _ _ => "block_on"
  | .complete how => fateName how
  | .park => "park"
  | .runRaw _ => "run_raw"
  | .drain _ => "drain"
  | .unknown name => name

end TurnPool.Scenario
