import TurnPool.Ascending
import TurnPool.Text.Shown

/-!
# The size of the pool

How many workers the pool has and should have. A worker that is not paused is *active*. When a
pause brings the active workers below the low watermark, a worker is added; when an event leaves
as many as the high watermark, so many quits are asked for that the low watermark remains. Every
worker has a slot, the least number that no live worker has.

The sizer only counts. Threads are made and ended by those who ask it.

## Main definitions

* `Sizer`: the counters and the free slots.
* `Sizer.addWorker`, `Sizer.spawnFailed`: a worker is added, or could not be created after all.
* `Sizer.enterPause`, `Sizer.leavePause`: a worker pauses or resumes.
* `Sizer.requestShrink`, `Sizer.tryRetire`: quits are asked for, and one of them is consumed.
* `Sizer.Act`, `Sizer.perform`: what can be asked of any sizer, also of one whose watermarks are
  out of order.
-/

namespace TurnPool

open Text

/-- The counters of the pool. -/
structure Sizer where
  /-- The number of active workers the pool tries to keep. -/
  low : Nat
  /-- The number of active workers at which it shrinks. -/
  high : Nat
  /-- The most workers there may be. -/
  max : Nat
  /-- The live workers. -/
  total : Nat
  /-- Those of them that are paused. -/
  paused : Nat
  /-- The quits asked for and not consumed. -/
  pendingQuits : Nat
  /-- The slots below `nextSlot` that no live worker has, ascending. -/
  freeSlots : List Nat
  /-- The least slot that was never handed out. -/
  nextSlot : Nat
deriving DecidableEq, Repr

namespace Sizer

/-- A sizer without workers. -/
def new (low high max : Nat) : Sizer :=
  { low, high, max, total := 0, paused := 0, pendingQuits := 0, freeSlots := [], nextSlot := 0 }

/-- The workers that are not paused. -/
def active (s : Sizer) : Nat := s.total - s.paused

/-- Reserve a slot for a new worker, whatever the limits say. -/
def addWorker (s : Sizer) : Nat × Sizer :=
  match s.freeSlots with
  | slot :: free => (slot, { s with total := s.total + 1, freeSlots := free })
  | [] => (s.nextSlot, { s with total := s.total + 1, nextSlot := s.nextSlot + 1 })

/-- The thread of a worker could not be created: give its slot back. -/
def spawnFailed (slot : Nat) (s : Sizer) : Sizer :=
  { s with total := s.total - 1, freeSlots := insertBy (· < ·) (· == ·) slot s.freeSlots }

/-- A worker paused. The slot is that of a worker to add, if too few are active now and there may
be more. -/
def enterPause (s : Sizer) : Option Nat × Sizer :=
  let s' := { s with paused := s.paused + 1 }
  if s'.active < s'.low ∧ s'.total < s'.max then
    let (slot, s'') := s'.addWorker
    (some slot, s'')
  else (none, s')

/-- A paused worker resumed. -/
def leavePause (s : Sizer) : Sizer :=
  { s with paused := s.paused - 1 }

/-- An event is over. The number is that of the quits to schedule: none while quits are pending or
fewer workers than the high watermark are active. -/
def requestShrink (s : Sizer) : Nat × Sizer :=
  if 0 < s.pendingQuits ∨ s.active < s.high then (0, s)
  else (s.active - s.low, { s with pendingQuits := s.active - s.low })

/-- Why a sizer cannot answer. -/
inductive Refusal where
  /-- More workers than are active would remain of a pool that is to shrink. -/
  | overdrawn
deriving DecidableEq, Repr

/-- The wording of a fault. -/
def Refusal.message : Refusal → String
  | .overdrawn => "attempt to subtract with overflow"

/-- An event is over. Only if the low watermark is above the high one there may be no answer: the
pool is to shrink, but fewer workers are active than should remain. -/
def requestShrink? (s : Sizer) : Except Refusal (Nat × Sizer) :=
  if s.pendingQuits = 0 ∧ s.high ≤ s.active ∧ s.active < s.low then .error .overdrawn
  else .ok s.requestShrink

/-- The worker of a slot consumed a quit. It leaves if more workers than the low watermark are
active, and then its slot is free. -/
def tryRetire (slot : Nat) (s : Sizer) : Bool × Sizer :=
  let s' := { s with pendingQuits := s.pendingQuits - 1 }
  if s'.low < s'.active then
    (true, { s' with
      total := s'.total - 1, freeSlots := insertBy (· < ·) (· == ·) slot s'.freeSlots })
  else (false, s')

/-! ### Basic facts -/

/-- `addWorker` adds one to `total`. -/
@[simp] theorem total_addWorker (s : Sizer) : s.addWorker.2.total = s.total + 1 := by
  rw [addWorker]
  split <;> rfl

/-- `addWorker` keeps `paused`. -/
@[simp] theorem paused_addWorker (s : Sizer) : s.addWorker.2.paused = s.paused := by
  rw [addWorker]
  split <;> rfl

/-- While quits are pending `requestShrink` asks for none. -/
theorem requestShrink_of_pending {s : Sizer} (h : 0 < s.pendingQuits) :
    s.requestShrink = (0, s) := by
  simp [requestShrink, h]

/-- While fewer workers than `high` are active `requestShrink` asks for no quits. -/
theorem requestShrink_of_lt {s : Sizer} (h : s.active < s.high) : s.requestShrink = (0, s) := by
  simp [requestShrink, h]

/-- With the watermarks in order `requestShrink?` always answers. -/
theorem requestShrink?_of_le {s : Sizer} (h : s.low ≤ s.high) :
    s.requestShrink? = .ok s.requestShrink := by
  rw [requestShrink?, if_neg (by omega)]

/-! ### Operations -/

/-- What can be asked of a sizer. -/
inductive Act where
  /-- Reserve a slot. -/
  | add
  /-- Give a slot back whose worker could not be created. -/
  | fail (slot : Nat)
  /-- A worker pauses. -/
  | pause
  /-- A worker resumes. -/
  | resume
  /-- An event is over. -/
  | shrink
  /-- The worker of a slot consumed a quit. -/
  | retire (slot : Nat)
deriving DecidableEq, Repr

/-- What a sizer answers. -/
inductive Reply where
  /-- Nothing. -/
  | done
  /-- The slot of a worker to add, if there is one. -/
  | slot (n : Option Nat)
  /-- The number of quits to schedule. -/
  | quits (n : Nat)
  /-- Whether the worker leaves. -/
  | leaves (b : Bool)
deriving DecidableEq, Repr

/-- Do what is asked. -/
def perform (s : Sizer) : Act → Except Refusal (Reply × Sizer)
  | .add => .ok (.slot (some s.addWorker.1), s.addWorker.2)
  | .fail slot => .ok (.done, s.spawnFailed slot)
  | .pause => .ok (.slot s.enterPause.1, s.enterPause.2)
  | .resume => .ok (.done, s.leavePause)
  | .shrink => s.requestShrink?.map fun (n, s') => (.quits n, s')
  | .retire slot => .ok (.leaves (s.tryRetire slot).1, (s.tryRetire slot).2)

/-- The diagnostic text. -/
def shown (s : Sizer) : String :=
  Shown.record "PoolSizer"
    [("low", toString s.low), ("high", toString s.high), ("max", toString s.max),
     ("total", toString s.total), ("paused", toString s.paused),
     ("pending_quits", toString s.pendingQuits),
     ("free_slots", Shown.set (s.freeSlots.map toString)), ("next_slot", toString s.nextSlot)]

end Sizer

end TurnPool
