import TurnPool.Json.Value
import TurnPool.Pool.Stats
import TurnPool.Task.Crew

/-!
# Answers

What the operations of a scenario answer. Tokens appear under the names that the scenario gave
them. Contexts have no names of their own: once threads of the pool take part, the order in which
they came to be means nothing, and lists of contexts are in the order of their texts.

## Main definitions

* `Answer`: an answer.
* `ContextView`, `CategoryView`, `PoolView`, `InfoView`, `TaskView`: parts of answers.
-/

namespace TurnPool.Scenario

/-- A paused context. -/
structure ContextView where
  /-- The name of its thread. -/
  thread : String
  /-- The category of its token. -/
  category : Category
  /-- The name of its token. -/
  token : String
  /-- The reason given for the token. -/
  tokenReason : String
  /-- The reason given for the pause. -/
  reason : String
  /-- The priority of its event. -/
  priority : Priority

namespace ContextView

/-- The text of a paused context: its parts by name, in the order of their names. -/
def text (c : ContextView) : String :=
  (Json.ofFields
    [("category", .ofString c.category.name), ("priority", .ofString c.priority.name),
     ("reason", .ofString c.reason), ("thread", .ofString c.thread),
     ("token", .ofString c.token), ("token_reason", .ofString c.tokenReason)]).text

/-- Paused contexts in the order of their texts. -/
def sorted (cs : List ContextView) : List ContextView :=
  cs.mergeSort fun a b => decide (a.text ≤ b.text)

end ContextView

/-- The live tokens of a category. -/
structure CategoryView where
  /-- The category. -/
  category : Category
  /-- Its limit, if it has one. -/
  limit : Option Nat
  /-- The number of live tokens. -/
  inUse : Nat
  /-- Whether it was shut down. -/
  shutdown : Bool
  /-- The live tokens, oldest first: name, priority and reason. -/
  tokens : List (String × Priority × String)

/-- What a pool tells about itself. -/
structure PoolView where
  /-- The live workers. -/
  total : Nat
  /-- Those that are not paused. -/
  active : Nat
  /-- Those that are. -/
  paused : Nat
  /-- The quits asked for and not consumed. -/
  pendingQuits : Nat
  /-- The live entries of the queue. -/
  queued : Nat
  /-- The paused contexts. -/
  contexts : List ContextView

/-- What an event knows of itself. -/
structure InfoView where
  /-- The context it runs on. -/
  context : Context
  /-- How many contexts are paused. -/
  paused : Nat
  /-- Whether the pool was started. -/
  started : Bool

/-- A task, by its key. -/
structure TaskView where
  /-- The key. -/
  key : String
  /-- Its lifecycle. -/
  life : Lifecycle

/-- What an operation answers. -/
inductive Answer (V : Type) where
  /-- It was done. -/
  | null
  /-- What it names does not exist, or it makes no sense where it stands. -/
  | absent
  /-- There is no token of that name to pause on. -/
  | noToken
  /-- The event was run. -/
  | done
  /-- There was nothing to run. -/
  | nothing
  /-- The event panicked. -/
  | panicked (p : Panic)
  /-- A truth value. -/
  | flag (b : Bool)
  /-- A number. -/
  | number (n : Nat)
  /-- A number that may be negative. -/
  | integer (i : Int)
  /-- A text. -/
  | text (s : String)
  /-- Several texts. -/
  | lines (ls : List String)
  /-- It was done, or there was a fault. -/
  | outcome (r : Except Fault Unit)
  /-- A value, or a fault. -/
  | value (r : Except Fault V)
  /-- Whether an entry was called off before, and is now. -/
  | cancelled (before now : Bool)
  /-- The live entries of the queue, whether there are none, and its depth. -/
  | pending (live : Nat) (isEmpty : Bool) (depth : Nat)
  /-- A token. -/
  | token (t : Token)
  /-- The slots of a category in use, and its limit. -/
  | slots (inUse : Nat) (limit : Option Nat)
  /-- The live tokens of every category. -/
  | categories (cs : List CategoryView)
  /-- The pool. -/
  | pool (p : PoolView)
  /-- Paused contexts. -/
  | contexts (cs : List ContextView)
  /-- What an event knows of itself. -/
  | info (i : InfoView)
  /-- The answers of several operations. -/
  | several (answers : List (Answer V))
  /-- The tasks. -/
  | tasks (ts : List TaskView)
  /-- The group. -/
  | group (g : GroupStats)
  /-- A task and its diagnostic text. -/
  | named (name shown : String)

end TurnPool.Scenario
