/-!
# Event priorities

The four priorities of a queued event, from background work to work that must run before
anything else. Events of higher priority leave the queue first; among equals the order of
arrival decides.

## Main definitions

* `Priority`: the four priorities, ordered by `Priority.rank`.
* `Priority.name`, `Priority.label`, `Priority.variant`: its three written forms.
* `Priority.ofName?`: the inverse of `Priority.name`.
-/

namespace TurnPool

/-- The priority of a queued event. -/
inductive Priority where
  /-- Background work such as shrinking the pool. -/
  | low
  /-- Regular work. -/
  | normal
  /-- Work that somebody is waiting for. -/
  | high
  /-- Work that must run before anything else. -/
  | critical
deriving DecidableEq, Repr

namespace Priority

instance : Inhabited Priority := ⟨.normal⟩

/-- The priorities from the least urgent to the most urgent. -/
def all : List Priority := [.low, .normal, .high, .critical]

/-- The place of a priority in `Priority.all`: a greater rank is dequeued first. -/
def rank : Priority → Nat
  | .low => 0
  | .normal => 1
  | .high => 2
  | .critical => 3

/-- Ranks tell priorities apart. -/
theorem rank_injective {p q : Priority} (h : p.rank = q.rank) : p = q := by
  cases p <;> cases q <;> simp_all [rank]

/-- The two-letter label used in dumps. -/
def label : Priority → String
  | .low => "lo"
  | .normal => "nm"
  | .high => "hi"
  | .critical => "cr"

/-- The name used in data. -/
def name : Priority → String
  | .low => "low"
  | .normal => "normal"
  | .high => "high"
  | .critical => "critical"

/-- The name used in diagnostic text. -/
def variant : Priority → String
  | .low => "Low"
  | .normal => "Normal"
  | .high => "High"
  | .critical => "Critical"

/-- The priority of a given name, if there is one. -/
def ofName? (s : String) : Option Priority :=
  all.find? (·.name == s)

@[simp] theorem ofName?_name (p : Priority) : ofName? p.name = some p := by
  cases p <;> decide

/-- The order of two priorities, by rank. -/
def order (p q : Priority) : Ordering :=
  compare p.rank q.rank

end Priority

end TurnPool
