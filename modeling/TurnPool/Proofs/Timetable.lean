import Mathlib.Data.List.Nodup
import TurnPool.Task.Timetable

/-!
# Timetables that keep what they are given

The schedulers know a timetable by two operations only, and rely on more: an entry stays until it is
taken or called off, handles are not given out twice, and calling one entry off leaves the others
alone. `LawfulTimetable` says so, over the entries that are there, each with a flag that tells
whether it was called off. An agenda keeps these laws; that the event queue does is a matter of its
own (`TurnPool.Proofs.QueueEntries`).

## The others

A timetable has other users, and entries are taken out of it. Both are told by what they leave alone
and not by how they are done (`KeepsMine`, `TakesOut`), so that whatever else a timetable can do
need not be known: others add and call off entries of their own, and entries that were called off
may be dropped at any time.

## Main results

* `LawfulTimetable`: the laws.
* `KeepsMine`, `TakesOut`: what happens to a timetable apart from its use by one user.
* `Agenda.instLawful`: an agenda keeps the laws.
* `Agenda.takesOut_of_takeAt`: an entry is taken out of an agenda, and no other one.
-/

namespace TurnPool

/-- An entry as it stands in a timetable. -/
structure Slip (α : Type) where
  /-- Its handle. -/
  handle : Nat
  /-- The work. -/
  work : α
  /-- Whether it was not called off. -/
  live : Bool
deriving DecidableEq

/-- The entry after the one under `handle` was called off. -/
def Slip.callOff {α : Type} (handle : Nat) (s : Slip α) : Slip α :=
  if s.handle = handle then { s with live := false } else s

/-- Calling off keeps the handle. -/
@[simp] theorem Slip.handle_callOff {α : Type} (h : Nat) (s : Slip α) :
    (s.callOff h).handle = s.handle := by
  rw [Slip.callOff]
  split <;> rfl

/-- Calling off keeps the work. -/
@[simp] theorem Slip.work_callOff {α : Type} (h : Nat) (s : Slip α) :
    (s.callOff h).work = s.work := by
  rw [Slip.callOff]
  split <;> rfl

/-- Calling off another handle changes nothing. -/
theorem Slip.callOff_of_ne {α : Type} {h : Nat} {s : Slip α} (hne : s.handle ≠ h) :
    s.callOff h = s := by
  rw [Slip.callOff, if_neg hne]

/-- The **laws of timetables**: handles are given in order and once, a scheduled entry stands there
live until it is taken out, and a cancelled one may stay but is live no more. -/
class LawfulTimetable (Q : Type) (ω : outParam Type) [Timetable Q ω] where
  /-- The entries that are there. -/
  slips : Q → List (Slip ω)
  /-- The handle that the next entry gets. -/
  nextHandle : Q → Nat
  /-- What a timetable satisfies that was made and used as it should be. -/
  Sound : Q → Prop
  handle_lt {q : Q} {s : Slip ω} : Sound q → s ∈ slips q → s.handle < nextHandle q
  nodup {q : Q} : Sound q → ((slips q).map Slip.handle).Nodup
  schedule_fst (now : Nat) (priority : Priority) (delay : Nat) (x : ω) (q : Q) :
    (Timetable.schedule now priority delay x q).1 = nextHandle q
  nextHandle_schedule (now : Nat) (priority : Priority) (delay : Nat) (x : ω) (q : Q) :
    nextHandle (Timetable.schedule now priority delay x q).2 = nextHandle q + 1
  sound_schedule {q : Q} (now : Nat) (priority : Priority) (delay : Nat) (x : ω) :
    Sound q → Sound (Timetable.schedule now priority delay x q).2
  mem_schedule {q : Q} (now : Nat) (priority : Priority) (delay : Nat) (x : ω) {s : Slip ω} :
    Sound q → (s ∈ slips (Timetable.schedule now priority delay x q).2 ↔
      s = ⟨nextHandle q, x, true⟩ ∨ s ∈ slips q)
  nextHandle_cancel (h : Nat) (q : Q) : nextHandle (Timetable.cancel h q) = nextHandle q
  sound_cancel {q : Q} {h : Nat} : Sound q → h < nextHandle q → Sound (Timetable.cancel h q)
  mem_cancel {h : Nat} {q : Q} {s : Slip ω} :
    s ∈ slips (Timetable.cancel h q) ↔ ∃ t ∈ slips q, t.callOff h = s

namespace LawfulTimetable

variable {Q ω : Type} [Timetable Q ω] [LawfulTimetable Q ω]

/-- **Others use** a timetable: of the entries that are `mine`, none is new, and every live one
stays. -/
structure KeepsMine (mine : ω → Prop) (q q' : Q) : Prop where
  /-- Handles are not given out again. -/
  next_le : nextHandle q ≤ nextHandle q'
  /-- The timetable is as it should be. -/
  sound : Sound q → Sound q'
  /-- There are no new entries of the user, and none of them was called off. -/
  mem_of_mem : Sound q → ∀ s : Slip ω, mine s.work → s ∈ slips q' → s ∈ slips q
  /-- No live entry of the user is lost. -/
  mem_of_live : Sound q → ∀ s : Slip ω, mine s.work → s.live = true → s ∈ slips q → s ∈ slips q'

/-- The entry `s` is **taken out**: no other live entry is, and `s` is there no more. -/
structure TakesOut (s : Slip ω) (q q' : Q) : Prop where
  /-- No handle is given out. -/
  next_eq : nextHandle q' = nextHandle q
  /-- The timetable is as it should be. -/
  sound : Sound q → Sound q'
  /-- The entry was there. -/
  there : s ∈ slips q
  /-- It is not there any more, and nothing is new. -/
  mem_of_mem : Sound q → ∀ t ∈ slips q', t ∈ slips q ∧ t.handle ≠ s.handle
  /-- No other live entry is lost. -/
  mem_of_live : ∀ t ∈ slips q, t.live = true → t.handle ≠ s.handle → t ∈ slips q'

/-- `KeepsMine` is transitive. -/
theorem KeepsMine.trans {mine : ω → Prop} {q q' q'' : Q} (h : KeepsMine mine q q')
    (h' : KeepsMine mine q' q'') : KeepsMine mine q q'' where
  next_le := Nat.le_trans h.next_le h'.next_le
  sound hq := h'.sound (h.sound hq)
  mem_of_mem hq s hm hs := h.mem_of_mem hq s hm (h'.mem_of_mem (h.sound hq) s hm hs)
  mem_of_live hq s hm hl hs := h'.mem_of_live (h.sound hq) s hm hl (h.mem_of_live hq s hm hl hs)

end LawfulTimetable

/-! ### An agenda -/

namespace Agenda

variable {ω : Type}

/-- An entry of an agenda as it stands there. -/
def slip (e : AgendaEntry ω) : Slip ω := ⟨e.handle, e.work, e.live⟩

/-- The handles of the entries are distinct and were given. -/
structure Sound (a : Agenda ω) : Prop where
  /-- The handles were given out. -/
  lt : ∀ e ∈ a.entries, e.handle < a.nextHandle
  /-- No two entries have one handle. -/
  nodup : (a.entries.map AgendaEntry.handle).Nodup

/-- `add` keeps an agenda sound. -/
theorem Sound.add {a : Agenda ω} (ha : a.Sound) (p : Priority) (d : Nat) (x : ω) :
    (a.add p d x).2.Sound where
  lt := by
    intro e he
    simp only [Agenda.add, List.mem_append, List.mem_singleton] at he ⊢
    rcases he with he | rfl
    · have hlt := ha.lt e he
      omega
    · show a.nextHandle < a.nextHandle + 1
      omega
  nodup := by
    simp only [Agenda.add, List.map_append, List.map_cons, List.map_nil]
    refine List.Nodup.append ha.nodup (List.nodup_singleton _) ?_
    simp only [List.disjoint_singleton, List.mem_map, not_exists, not_and]
    intro e he heq
    exact absurd (ha.lt e he) (by omega)

/-- Cancelling keeps the handle of every entry. -/
theorem handle_cancel (h : Nat) (e : AgendaEntry ω) :
    (if e.handle = h then { e with live := false } else e).handle = e.handle := by
  split <;> rfl

/-- `cancel` keeps an agenda sound. -/
theorem Sound.cancel {a : Agenda ω} (ha : a.Sound) (h : Nat) : (a.cancel h).Sound where
  lt := by
    intro e he
    obtain ⟨e₀, he₀, rfl⟩ := List.mem_map.1 he
    rw [handle_cancel]
    exact ha.lt e₀ he₀
  nodup := by
    have hmap : (a.cancel h).entries.map AgendaEntry.handle = a.entries.map AgendaEntry.handle := by
      simp only [Agenda.cancel, List.map_map]
      exact List.map_congr_left fun e _ => handle_cancel h e
    rw [hmap]
    exact ha.nodup

/-- Cancelling an entry of an agenda is calling its slip off. -/
theorem slip_cancel (h : Nat) (e : AgendaEntry ω) :
    slip (if e.handle = h then { e with live := false } else e) = (slip e).callOff h := by
  by_cases hh : e.handle = h
  · rw [if_pos hh, Slip.callOff, if_pos (show (slip e).handle = h from hh)]
    rfl
  · rw [if_neg hh, Slip.callOff_of_ne hh]

/-- The slips of an agenda after `cancel`. -/
theorem mem_slips_cancel {a : Agenda ω} {h : Nat} {s : Slip ω} :
    s ∈ (a.cancel h).entries.map slip ↔ ∃ t ∈ a.entries.map slip, t.callOff h = s := by
  simp only [Agenda.cancel, List.map_map, List.mem_map, exists_exists_and_eq_and,
    Function.comp_apply, slip_cancel]

/-- An agenda is a lawful timetable. -/
instance instLawful : LawfulTimetable (Agenda ω) ω where
  slips a := a.entries.map slip
  nextHandle := Agenda.nextHandle
  Sound := Sound
  handle_lt ha hs := by
    obtain ⟨e, he, rfl⟩ := List.mem_map.1 hs
    exact ha.lt e he
  nodup ha := by
    rw [List.map_map]
    exact ha.nodup
  schedule_fst _ _ _ _ _ := rfl
  nextHandle_schedule _ _ _ _ _ := rfl
  sound_schedule _ p d x ha := ha.add p d x
  mem_schedule _ p d x _ _ := by
    simp only [Timetable.schedule, Agenda.add, List.map_append, List.map_cons, List.map_nil,
      List.mem_append, List.mem_singleton]
    exact or_comm
  nextHandle_cancel _ _ := rfl
  sound_cancel ha _ := ha.cancel _
  mem_cancel := mem_slips_cancel

open LawfulTimetable

variable {a : Agenda ω}

/-- `takeAt` takes an entry out, also one that was called off. -/
theorem takesOut_of_takeAt {i : Nat} {e : AgendaEntry ω} {a' : Agenda ω}
    (h : a.takeAt i = some (e, a')) : TakesOut (slip e) a a' := by
  obtain ⟨e', he', heq⟩ := Option.map_eq_some_iff.1 h
  obtain ⟨hi, rfl⟩ := List.getElem?_eq_some_iff.1 he'
  obtain ⟨rfl, rfl⟩ := Prod.mk.inj heq
  refine ⟨rfl, fun ha => ?_, List.mem_map_of_mem (List.getElem_mem hi), fun ha t ht => ?_,
    fun t ht _ hne => ?_⟩
  · exact ⟨fun e he => ha.lt e (List.mem_of_mem_eraseIdx he),
      ((List.eraseIdx_sublist _ _).map _).nodup ha.nodup⟩
  · obtain ⟨e, he, rfl⟩ := List.mem_map.1 ht
    obtain ⟨j, hj, hne, rfl⟩ := List.mem_eraseIdx_iff_getElem.1 he
    refine ⟨List.mem_map_of_mem (List.getElem_mem hj), fun heq => hne ?_⟩
    have hij := (List.nodup_iff_injective_get.1 ha.nodup)
    have := @hij ⟨j, by simpa using hj⟩ ⟨i, by simpa using hi⟩ (by simpa [slip] using heq)
    simpa using this
  · obtain ⟨e, he, rfl⟩ := List.mem_map.1 ht
    obtain ⟨j, hj, rfl⟩ := List.getElem_of_mem he
    refine List.mem_map_of_mem (List.mem_eraseIdx_iff_getElem.2 ⟨j, hj, ?_, rfl⟩)
    rintro rfl
    exact hne rfl

end Agenda

end TurnPool
