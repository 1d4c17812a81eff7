import TurnPool.Category
import TurnPool.Text.Shown

/-!
# Faults of the pool

What can go wrong in the pool, its tokens and its event queue, as causes. The wording of each is
given once, in `Fault.message`.

## Main definitions

* `Fault`: the causes.
* `Fault.message`: the wording shown to people.
* `Fault.shown`: the diagnostic text.
* `Fault.isFatal`: the faults after which the process must not go on.
-/

namespace TurnPool

open Text

/-- What can go wrong in the pool. -/
inductive Fault where
  /-- A pause was refused or ended because its token was reclaimed. -/
  | aborted (cause : String)
  /-- A bounded pause, sleep or acquisition ran out of time. -/
  | timeout
  /-- Every token of the category is issued. -/
  | categoryFull (category : Category)
  /-- The category no longer issues tokens. -/
  | categoryShutdown (category : Category)
  /-- The event queue has reached its depth; so many entries are ready. -/
  | queueFull (ready : Nat)
  /-- The pool is running already. -/
  | alreadyStarted
  /-- A shrink listener is registered already. -/
  | listenerAlreadySet
  /-- A configuration is malformed or not valid. -/
  | invalidConfig (message : String)
  /-- A worker thread could not be created. -/
  | spawn (message : String)
  /-- A programming error was found at run time. -/
  | invariantViolation (message : String)
  /-- A task asks for the process to end rather than for a retry. -/
  | fatal (message : String)
deriving DecidableEq, Repr

namespace Fault

/-- The wording of a fault. -/
def message : Fault → String
  | .aborted cause => "aborted: " ++ cause
  | .timeout => "timed out"
  | .categoryFull c => "category " ++ c.label ++ " is saturated"
  | .categoryShutdown c => "category " ++ c.label ++ " is shut down"
  | .queueFull n => "event queue full (" ++ toString n ++ " pending)"
  | .alreadyStarted => "thread control already started"
  | .listenerAlreadySet => "shrink listener already set"
  | .invalidConfig m => "invalid configuration: " ++ m
  | .spawn m => "failed to spawn worker: " ++ m
  | .invariantViolation m => "invariant violated: " ++ m
  | .fatal m => "fatal: " ++ m

/-- The name of the kind of a fault. -/
def kind : Fault → String
  | .aborted _ => "Aborted"
  | .timeout => "Timeout"
  | .categoryFull _ => "CategoryFull"
  | .categoryShutdown _ => "CategoryShutdown"
  | .queueFull _ => "QueueFull"
  | .alreadyStarted => "AlreadyStarted"
  | .listenerAlreadySet => "ListenerAlreadySet"
  | .invalidConfig _ => "InvalidConfig"
  | .spawn _ => "Spawn"
  | .invariantViolation _ => "InvariantViolation"
  | .fatal _ => "Fatal"

/-- The diagnostic text of a fault. -/
def shown : Fault → String
  | f@(.aborted cause) => Shown.record f.kind [("cause", Shown.quoted cause)]
  | f@(.categoryFull c) | f@(.categoryShutdown c) => Shown.call f.kind c.variant
  | f@(.queueFull n) => Shown.call f.kind (toString n)
  | f@(.invalidConfig m) | f@(.spawn m) | f@(.invariantViolation m) | f@(.fatal m) =>
    Shown.call f.kind (Shown.quoted m)
  | f => f.kind

/-- Whether the process must not go on after a fault: it is fatal by name, or a programming
error. Everything else may be retried. -/
def isFatal : Fault → Bool
  | .fatal _ | .invariantViolation _ => true
  | _ => false

end Fault

end TurnPool
