/-!
# Callers that wait

Some operations let their callers wait: for room in the queue, or for a token. A caller that waits
is *asleep* until somebody rouses it, and *roused* until it has looked again; then it is either
done or goes back to sleep. Callers are known by numbers.

## Main definitions

* `Waiters`: the callers that wait at one place.
* `Waiters.rouseOne`, `Waiters.rouseAll`: the two kinds of notification.
-/

namespace TurnPool

/-- The callers that wait at one place. -/
structure Waiters where
  /-- Those that nobody has roused, the longest asleep first. -/
  asleep : List Nat
  /-- Those that were roused and have not looked again. -/
  roused : List Nat
deriving DecidableEq, Repr

namespace Waiters

/-- Nobody waits. -/
def empty : Waiters := ⟨[], []⟩

/-- A caller does not wait here any more. -/
def leave (id : Nat) (w : Waiters) : Waiters :=
  ⟨w.asleep.filter (· ≠ id), w.roused.filter (· ≠ id)⟩

/-- A caller goes to sleep. -/
def sleep (id : Nat) (w : Waiters) : Waiters :=
  let w' := w.leave id
  { w' with asleep := w'.asleep ++ [id] }

/-- Rouse the caller that has been asleep longest. -/
def rouseOne (w : Waiters) : Waiters :=
  match w.asleep with
  | [] => w
  | id :: ids => ⟨ids, w.roused ++ [id]⟩

/-- Rouse every caller. -/
def rouseAll (w : Waiters) : Waiters :=
  ⟨[], w.roused ++ w.asleep⟩

/-- Whether a caller may look again. -/
def isRoused (id : Nat) (w : Waiters) : Bool :=
  w.roused.contains id

/-! ### Basic facts -/

/-- A caller that goes to sleep is asleep. -/
@[simp] theorem mem_asleep_sleep (id : Nat) (w : Waiters) : id ∈ (w.sleep id).asleep := by
  simp [sleep]

/-- A caller that goes to sleep is not roused. -/
@[simp] theorem isRoused_sleep (id : Nat) (w : Waiters) : (w.sleep id).isRoused id = false := by
  simp [sleep, leave, isRoused]

/-- A caller that leaves is not roused. -/
@[simp] theorem isRoused_leave (id : Nat) (w : Waiters) : (w.leave id).isRoused id = false := by
  simp [leave, isRoused]

/-- `rouseAll` leaves no caller asleep. -/
@[simp] theorem asleep_rouseAll (w : Waiters) : w.rouseAll.asleep = [] := rfl

/-- `rouseAll` rouses those that were asleep, and keeps those that were roused. -/
theorem isRoused_rouseAll {id : Nat} {w : Waiters} :
    w.rouseAll.isRoused id = true ↔ id ∈ w.roused ∨ id ∈ w.asleep := by
  simp [rouseAll, isRoused]

/-- `rouseOne` moves a caller from asleep to roused, and loses none. -/
theorem mem_rouseOne {id : Nat} {w : Waiters} :
    id ∈ w.rouseOne.asleep ∨ id ∈ w.rouseOne.roused ↔ id ∈ w.asleep ∨ id ∈ w.roused := by
  rw [rouseOne]
  split
  · rfl
  · rename_i h
    simp only [h, List.mem_append, List.mem_cons, List.not_mem_nil, or_false]
    rw [or_comm (a := id = _), or_assoc, or_comm (a := id = _)]

end Waiters

end TurnPool
