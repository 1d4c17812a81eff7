import TurnPool.Pool.Basic

/-!
# Statistics

What the pool and its tokens tell about themselves, as values and as lines of text. The identity of
a context, the slot of a worker, and the age of a pause or a token have no text of their own in the
lines.

## Main definitions

* `PoolStats`, `Pool.stats`, `PoolStats.summary`, `PoolStats.contextLine`: counters and paused
  contexts.
* `CategoryStats`, `Pool.tokenStats`, `CategoryStats.lines`: the live tokens of each category.
-/

namespace TurnPool

open Text

/-- What a pool tells about itself. -/
structure PoolStats where
  /-- The live workers. -/
  total : Nat
  /-- Those that are not paused. -/
  active : Nat
  /-- Those that are. -/
  paused : Nat
  /-- The quits asked for and not consumed. -/
  pendingQuits : Nat
  /-- The live entries of the queue. -/
  queued : Nat
  /-- Every paused context, ascending by number. -/
  contexts : List PausedContext
deriving DecidableEq, Repr

namespace PoolStats

/-- The names under which the parts of the statistics are written, in order. -/
def keys : List String :=
  ["active", "paused", "paused_contexts", "pending_quits", "queued", "total"]

/-- The line about the counters. -/
def summary (s : PoolStats) : String :=
  "threads: " ++ toString s.total ++ " total, " ++ toString s.active ++ " active, "
    ++ toString s.paused ++ " paused, " ++ toString s.pendingQuits ++ " quits pending, "
    ++ toString s.queued ++ " queued"

/-- The line about a paused context. -/
def contextLine (c : PausedContext) : String :=
  "  ctx-# " ++ c.thread.label ++ " [" ++ c.category.label ++ "] " ++ c.reason ++ " (" ++
    c.tokenReason
    ++ ") paused #ms"

end PoolStats

/-- The live tokens of a category. -/
structure CategoryStats where
  /-- The category. -/
  category : Category
  /-- Its limit, if it has one. -/
  limit : Option Nat
  /-- Whether it was shut down. -/
  shutdown : Bool
  /-- Its live tokens, oldest first. -/
  tokens : List (Nat × Token)
deriving DecidableEq, Repr

namespace CategoryStats

/-- The number of live tokens. -/
def inUse (s : CategoryStats) : Nat := s.tokens.length

/-- The lines about a category: one about its slots, and one about each live token. -/
def lines (name : Nat → String) (s : CategoryStats) : List String :=
  let limit := match s.limit with
    | some n => toString n
    | none => "inf"
  (s.category.label ++ ": " ++ toString s.inUse ++ "/" ++ limit
      ++ (if s.shutdown then " (shutdown)" else ""))
    :: s.tokens.map fun (id, t) =>
      "  " ++ name id ++ " [" ++ t.priority.label ++ "] " ++ t.reason ++ " for #ms"

end CategoryStats

namespace Pool

variable {ω : Type}

/-- The counters and the paused contexts. -/
def stats (p : Pool ω) : PoolStats :=
  { total := p.sizer.total
    active := p.sizer.active
    paused := p.sizer.paused
    pendingQuits := p.sizer.pendingQuits
    queued := p.queue.pending
    contexts := p.paused }

/-- The live tokens of every category, in the order of the categories. -/
def tokenStats (p : Pool ω) : List CategoryStats :=
  p.ledger.slots.toList.map fun (c, slot) =>
    { category := c
      limit := slot.limit
      shutdown := slot.shutdown
      tokens := slot.live.map fun id => (id, p.ledger.token id) }

/-- The diagnostic text of the slots. -/
def tokensShown (p : Pool ω) : String :=
  Shown.record "TokenManager"
    [("in_use", Shown.map (Category.all.map fun c => (c.variant, toString (p.ledger.inUse c))))]

end Pool

end TurnPool
