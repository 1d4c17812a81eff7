import TurnPool.Config.Basic
import TurnPool.Priority

/-!
# Timetables

A scheduler of tasks does not need a whole event queue. It needs a *timetable*: a place to put
work that becomes due after a delay, and a way to call such work off.

## Main definitions

* `Timetable`: the interface.
* `SchedulerOptions`: the settings that both schedulers share.
* `Agenda`: a timetable that is worked off by hand, entry by entry.
-/

namespace TurnPool

/-- A place to put work of type `ω` that becomes due after a delay. -/
class Timetable (Q : Type) (ω : outParam Type) where
  /-- Put work there at an instant, with a priority and a delay in nanoseconds. The number is the
  handle of the entry. -/
  schedule : (now : Nat) → Priority → (delay : Nat) → ω → Q → Nat × Q
  /-- Call an entry off, by its handle. -/
  cancel : Nat → Q → Q

/-- The settings that both schedulers share. -/
structure SchedulerOptions where
  /-- The bounds of the retry delay. -/
  backoff : BackoffConfig
  /-- The priority of the entries that a scheduler makes. -/
  priority : Priority
deriving DecidableEq, Repr, Inhabited

/-! ### An agenda -/

/-- An entry of an agenda. -/
structure AgendaEntry (ω : Type) where
  /-- Its handle. -/
  handle : Nat
  /-- Its priority. -/
  priority : Priority
  /-- The delay it was made with. -/
  delay : Nat
  /-- The work. -/
  work : ω
  /-- Whether it was not called off. -/
  live : Bool

/-- A timetable that is worked off by hand. Entries stay in the order in which they were made, and
until they are taken, also when they were called off. -/
structure Agenda (ω : Type) where
  /-- The entries. -/
  entries : List (AgendaEntry ω)
  /-- The handle of the next entry. -/
  nextHandle : Nat

namespace Agenda

variable {ω : Type}

/-- The agenda without entries. -/
def empty : Agenda ω := ⟨[], 0⟩

/-- Add an entry at the end. -/
def add (priority : Priority) (delay : Nat) (work : ω) (a : Agenda ω) : Nat × Agenda ω :=
  (a.nextHandle,
    { entries := a.entries ++ [⟨a.nextHandle, priority, delay, work, true⟩]
      nextHandle := a.nextHandle + 1 })

/-- Call an entry off, if it is still there. -/
def cancel (handle : Nat) (a : Agenda ω) : Agenda ω :=
  { a with entries := a.entries.map fun e =>
      if e.handle = handle then { e with live := false } else e }

/-- Take the entry at a place, live or not. -/
def takeAt (i : Nat) (a : Agenda ω) : Option (AgendaEntry ω × Agenda ω) :=
  a.entries[i]?.map fun e => (e, { a with entries := a.entries.eraseIdx i })

/-- Take the first live entry. -/
def takeFirst (a : Agenda ω) : Option (AgendaEntry ω × Agenda ω) :=
  (a.entries.findIdx? (·.live)).bind a.takeAt

instance : Timetable (Agenda ω) ω where
  schedule _ priority delay work a := a.add priority delay work
  cancel := Agenda.cancel

end Agenda

end TurnPool
