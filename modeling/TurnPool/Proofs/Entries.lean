import Mathlib.Data.List.Nodup
import TurnPool.Proofs.Timetable
import TurnPool.Task.Crew

/-!
# The entries of a crew

The schedulers of a crew make entries, keep the handle of at most one of them each, and call it off
when it is to be replaced. An entry that was taken out of the timetable can no longer be stopped
that way: it is *in transit* until it arrives, and the epoch that it carries tells whether it is the
one that its scheduler waits for.

Which entries are undelivered, and which of them were called off, is followed here for entries of
one kind at a time. A *kind* is a function from epochs to errands: the runs of one task that has a
scheduler of its own, or the dispatches of a group. `Anchored` is the discipline that both
schedulers keep, with one lemma for each of the things that can happen.

## History

`Recorded` is a timetable together with the entries that were ever made in it, their delays
included, and the handles that were called off. Nothing reads that record, so the timetable in it
goes the way it would go by itself.

## Main results

* `Accurate`: the record agrees with the timetable and with what is in transit, at all times.
* `Anchored`: one entry of a kind is waited for, every other one was called off or is in transit and
  stale.
-/

namespace TurnPool

/-- How the errands of a crew are written as work of a timetable, from which they can be read back;
other work belongs to others. -/
structure Coding (ω : Type) where
  /-- The work of an errand. -/
  job : Errand → ω
  /-- The errand of some work. -/
  errand? : ω → Option Errand
  /-- An errand is read back from its work, and from nothing else. -/
  errand?_eq_some {x : ω} {e : Errand} : errand? x = some e ↔ job e = x

namespace Coding

variable {ω : Type} (c : Coding ω)

/-- An errand that was written is read back. -/
@[simp] theorem errand?_job (e : Errand) : c.errand? (c.job e) = some e :=
  c.errand?_eq_some.2 rfl

/-- Different errands are written differently. -/
theorem job_injective {e e' : Errand} (h : c.job e = c.job e') : e = e' := by
  have := c.errand?_job e
  rw [h, c.errand?_job] at this
  exact (Option.some.inj this).symm

/-- `x` is an errand of the crew. -/
def IsMine (x : ω) : Prop := (c.errand? x).isSome = true

/-- An errand that was written is the crew's. -/
theorem isMine_job (e : Errand) : c.IsMine (c.job e) := by
  rw [IsMine, errand?_job]
  rfl

/-- Errands that are put into a timetable as they are. -/
def self : Coding Errand where
  job := id
  errand? := some
  errand?_eq_some := ⟨fun h => (Option.some.inj h).symm, fun h => congrArg some h.symm⟩

end Coding

/-- An entry as it was made. -/
structure Made (α : Type) where
  /-- Its handle. -/
  handle : Nat
  /-- The delay it was made with. -/
  delay : Nat
  /-- The work. -/
  work : α

/-- A timetable with a record of the entries that were made, and of those that were called off. -/
structure Recorded (Q ω : Type) where
  /-- The timetable. -/
  table : Q
  /-- The entries that were made, latest first. -/
  made : List (Made ω)
  /-- The handles that were called off, latest first. -/
  calledOff : List Nat

namespace Recorded

variable {Q ω : Type} [Timetable Q ω]

/-- A recorded timetable schedules and cancels as its table does, and keeps the record. -/
instance : Timetable (Recorded Q ω) ω where
  schedule now priority delay x t :=
    let (h, table) := Timetable.schedule now priority delay x t.table
    (h, { t with table, made := ⟨h, delay, x⟩ :: t.made })
  cancel h t := { t with table := Timetable.cancel h t.table, calledOff := h :: t.calledOff }

/-- `cancel` adds the handle to those that were called off. -/
@[simp] theorem calledOff_cancel (h : Nat) (t : Recorded Q ω) :
    (Timetable.cancel h t).calledOff = h :: t.calledOff := rfl

variable [LawfulTimetable Q ω]

/-- The handle of the next entry. -/
def next (t : Recorded Q ω) : Nat := LawfulTimetable.nextHandle t.table

variable {c : Coding ω} {t t' : Recorded Q ω} {tr tr' : List (Nat × Errand)} {h h₀ : Nat}
  {e e₀ : Errand}

/-- An entry of the crew was made and **has not arrived**: it is in the timetable, called off or
not, or in transit. -/
def Undelivered (c : Coding ω) (t : Recorded Q ω) (tr : List (Nat × Errand)) (h : Nat)
    (e : Errand) : Prop :=
  (∃ live, ⟨h, c.job e, live⟩ ∈ LawfulTimetable.slips t.table) ∨ (h, e) ∈ tr

/-- The record **agrees** with the timetable and with what is in transit: every undelivered entry
was made under its handle, an entry in transit is in the timetable no more, and an entry is live
there just if it was not called off. -/
structure Accurate (c : Coding ω) (t : Recorded Q ω) (tr : List (Nat × Errand)) : Prop where
  /-- The timetable is as it should be. -/
  sound : LawfulTimetable.Sound t.table
  /-- What was made has a handle that was given out. -/
  made_lt : ∀ m ∈ t.made, m.handle < t.next
  /-- A handle was given out once. -/
  made_unique : ∀ m ∈ t.made, ∀ m' ∈ t.made, m.handle = m'.handle → m = m'
  /-- What was called off had been given out. -/
  calledOff_lt : ∀ h ∈ t.calledOff, h < t.next
  /-- What is undelivered was made. -/
  made_of_undelivered : ∀ h e, Undelivered c t tr h e → ∃ d, ⟨h, d, c.job e⟩ ∈ t.made
  /-- What is in transit is no longer in the timetable. -/
  gone : ∀ h e, (h, e) ∈ tr → ∀ e' live, ⟨h, c.job e', live⟩ ∉ LawfulTimetable.slips t.table
  /-- An entry is in transit once. -/
  transit_nodup : (tr.map Prod.fst).Nodup
  /-- The timetable knows what was called off. -/
  live_iff : ∀ h e live, ⟨h, c.job e, live⟩ ∈ LawfulTimetable.slips t.table →
    (live = true ↔ h ∉ t.calledOff)

/-- Two undelivered entries with one handle are one. -/
theorem Accurate.errand_unique (k : Accurate c t tr) {e' : Errand} (hu : Undelivered c t tr h e)
    (hu' : Undelivered c t tr h e') : e = e' := by
  obtain ⟨d, hd⟩ := k.made_of_undelivered h e hu
  obtain ⟨d', hd'⟩ := k.made_of_undelivered h e' hu'
  exact c.job_injective (congrArg Made.work (k.made_unique _ hd _ hd' rfl))

/-- The handle of an undelivered entry has been given. -/
theorem Accurate.handle_lt (k : Accurate c t tr) (hu : Undelivered c t tr h e) : h < t.next := by
  obtain ⟨d, hd⟩ := k.made_of_undelivered h e hu
  exact k.made_lt _ hd

/-- The next handle was not called off. -/
theorem Accurate.next_notMem (k : Accurate c t tr) : t.next ∉ t.calledOff :=
  fun h => Nat.lt_irrefl _ (k.calledOff_lt _ h)

/-! ### An entry is made -/

section Schedule

variable (now : Nat) (priority : Priority) (delay : Nat)

/-- `schedule` answers the next handle. -/
@[simp] theorem schedule_fst (x : ω) (t : Recorded Q ω) :
    (Timetable.schedule now priority delay x t).1 = t.next :=
  LawfulTimetable.schedule_fst now priority delay x t.table

/-- `schedule` notes the entry as made. -/
@[simp] theorem made_schedule (x : ω) (t : Recorded Q ω) :
    (Timetable.schedule now priority delay x t).2.made = ⟨t.next, delay, x⟩ :: t.made :=
  congrArg (fun h => (⟨h, delay, x⟩ : Made ω) :: t.made)
    (LawfulTimetable.schedule_fst now priority delay x t.table)

/-- `schedule` goes on to the next handle. -/
@[simp] theorem next_schedule (x : ω) (t : Recorded Q ω) :
    (Timetable.schedule now priority delay x t).2.next = t.next + 1 :=
  LawfulTimetable.nextHandle_schedule now priority delay x t.table

/-- The entries in the timetable after `schedule`: the new one, live, and those that were there. -/
theorem mem_slips_schedule (k : Accurate c t tr) (x : ω) {s : Slip ω} :
    s ∈ LawfulTimetable.slips (Timetable.schedule now priority delay x t).2.table ↔
      s = ⟨t.next, x, true⟩ ∨ s ∈ LawfulTimetable.slips t.table :=
  LawfulTimetable.mem_schedule now priority delay x k.sound

/-- What is undelivered after `schedule`: the new entry, and what was. -/
theorem undelivered_schedule (k : Accurate c t tr) :
    Undelivered c (Timetable.schedule now priority delay (c.job e₀) t).2 tr h e ↔
      (h = t.next ∧ e = e₀) ∨ Undelivered c t tr h e := by
  simp only [Undelivered, mem_slips_schedule now priority delay k, Slip.mk.injEq]
  constructor
  · rintro (⟨live, ⟨rfl, he, -⟩ | hs⟩ | htr)
    · exact Or.inl ⟨rfl, c.job_injective he⟩
    · exact Or.inr (Or.inl ⟨live, hs⟩)
    · exact Or.inr (Or.inr htr)
  · rintro (⟨rfl, rfl⟩ | ⟨live, hs⟩ | htr)
    · exact Or.inl ⟨true, Or.inl ⟨rfl, rfl, rfl⟩⟩
    · exact Or.inl ⟨live, Or.inr hs⟩
    · exact Or.inr htr

/-- `schedule` keeps the record accurate. -/
theorem Accurate.schedule (k : Accurate c t tr) (e₀ : Errand) :
    Accurate c (Timetable.schedule now priority delay (c.job e₀) t).2 tr where
  sound := LawfulTimetable.sound_schedule now priority delay (c.job e₀) k.sound
  made_lt m hm := by
    rw [made_schedule] at hm
    rw [next_schedule]
    rcases List.mem_cons.1 hm with rfl | hm
    · show t.next < t.next + 1
      omega
    · have hlt := k.made_lt m hm
      omega
  made_unique m hm m' hm' heq := by
    rw [made_schedule] at hm hm'
    rcases List.mem_cons.1 hm with rfl | hm <;> rcases List.mem_cons.1 hm' with rfl | hm'
    · rfl
    · exact absurd (k.made_lt m' hm') (by simp only at heq; omega)
    · exact absurd (k.made_lt m hm) (by simp only at heq; omega)
    · exact k.made_unique m hm m' hm' heq
  calledOff_lt h hh := by
    rw [next_schedule]
    have hlt := k.calledOff_lt h hh
    omega
  made_of_undelivered h e hu := by
    rw [made_schedule]
    rcases (undelivered_schedule now priority delay k).1 hu with ⟨rfl, rfl⟩ | hu
    · exact ⟨delay, List.mem_cons_self⟩
    · obtain ⟨d, hd⟩ := k.made_of_undelivered h e hu
      exact ⟨d, List.mem_cons_of_mem _ hd⟩
  gone h e htr e' live hs := by
    rcases (mem_slips_schedule now priority delay k _).1 hs with heq | hs
    · exact Nat.ne_of_lt (k.handle_lt (Or.inr htr)) (congrArg Slip.handle heq)
    · exact k.gone h e htr e' live hs
  transit_nodup := k.transit_nodup
  live_iff h e live hs := by
    rcases (mem_slips_schedule now priority delay k _).1 hs with heq | hs
    · obtain ⟨rfl, -, rfl⟩ := Slip.mk.inj heq
      exact iff_of_true rfl k.next_notMem
    · exact k.live_iff h e live hs

end Schedule

/-! ### An entry is called off -/

/-- `cancel` gives no handle. -/
@[simp] theorem next_cancel (h₀ : Nat) (t : Recorded Q ω) :
    (Timetable.cancel h₀ t).next = t.next :=
  LawfulTimetable.nextHandle_cancel h₀ t.table

/-- The entries in the timetable after `cancel h₀`: those that were there, with the one under `h₀`
called off. -/
theorem mem_slips_cancel {s : Slip ω} :
    s ∈ LawfulTimetable.slips (Timetable.cancel h₀ t).table ↔
      ∃ s' ∈ LawfulTimetable.slips t.table, s'.callOff h₀ = s :=
  LawfulTimetable.mem_cancel

/-- An entry that is in the timetable after `cancel` was there before, live or not. -/
theorem slips_of_mem_cancel {x : ω} {live : Bool}
    (hs : ⟨h, x, live⟩ ∈ LawfulTimetable.slips (Timetable.cancel h₀ t).table) :
    ∃ live', ⟨h, x, live'⟩ ∈ LawfulTimetable.slips t.table := by
  obtain ⟨⟨h', x', live'⟩, hs', heq⟩ := mem_slips_cancel.1 hs
  have hh := congrArg Slip.handle heq
  have hx := congrArg Slip.work heq
  rw [Slip.handle_callOff] at hh
  rw [Slip.work_callOff] at hx
  obtain rfl : h' = h := hh
  obtain rfl : x' = x := hx
  exact ⟨live', hs'⟩

/-- What is called off is **still undelivered**. -/
theorem undelivered_cancel :
    Undelivered c (Timetable.cancel h₀ t) tr h e ↔ Undelivered c t tr h e := by
  refine or_congr_left ⟨fun ⟨live, hs⟩ => slips_of_mem_cancel hs, ?_⟩
  · rintro ⟨live, hs⟩
    refine ⟨((⟨h, c.job e, live⟩ : Slip ω).callOff h₀).live, mem_slips_cancel.2 ⟨_, hs, ?_⟩⟩
    rw [Slip.callOff]
    split <;> rfl

/-- `cancel` of a handle that was given keeps the record accurate. -/
theorem Accurate.cancel (k : Accurate c t tr) (hlt : h₀ < t.next) :
    Accurate c (Timetable.cancel h₀ t) tr where
  sound := LawfulTimetable.sound_cancel k.sound hlt
  made_lt m hm := (next_cancel h₀ t).symm ▸ k.made_lt m hm
  made_unique := k.made_unique
  calledOff_lt h hh := by
    rw [next_cancel]
    rcases List.mem_cons.1 hh with rfl | hh
    · exact hlt
    · exact k.calledOff_lt h hh
  made_of_undelivered h e hu := k.made_of_undelivered h e (undelivered_cancel.1 hu)
  gone h e htr e' live hs := by
    obtain ⟨live', hs'⟩ := slips_of_mem_cancel hs
    exact k.gone h e htr e' live' hs'
  transit_nodup := k.transit_nodup
  live_iff h e live hs := by
    obtain ⟨⟨h', x, live'⟩, hs', heq⟩ := mem_slips_cancel.1 hs
    rw [calledOff_cancel, List.mem_cons, not_or]
    by_cases hh : h' = h₀
    · rw [Slip.callOff, if_pos hh] at heq
      obtain ⟨rfl, -, rfl⟩ := Slip.mk.inj heq
      exact iff_of_false Bool.false_ne_true fun hn => hn.1 hh
    · rw [Slip.callOff_of_ne hh] at heq
      obtain ⟨rfl, rfl, rfl⟩ := Slip.mk.inj heq
      exact (k.live_iff _ e _ hs').trans (and_iff_right hh).symm

/-! ### Others use the timetable, and entries are taken out -/

/-- What happens to the timetable by others: nothing is made or called off, nothing becomes
undelivered, and what was not called off **stays undelivered**. -/
structure Passes (c : Coding ω) (t : Recorded Q ω) (tr : List (Nat × Errand)) (t' : Recorded Q ω)
    (tr' : List (Nat × Errand)) : Prop where
  /-- Nothing is made. -/
  made : t'.made = t.made
  /-- Nothing is called off. -/
  calledOff : t'.calledOff = t.calledOff
  /-- What is undelivered was undelivered before. -/
  sub : ∀ h e, Undelivered c t' tr' h e → Undelivered c t tr h e
  /-- What was not called off stays undelivered. -/
  keep : ∀ h e, h ∉ t.calledOff → Undelivered c t tr h e → Undelivered c t' tr' h e

/-- What is in transit after the entry `s` was taken out: `s` too, if it is the crew's. -/
def transitOf (c : Coding ω) (s : Slip ω) (tr : List (Nat × Errand)) : List (Nat × Errand) :=
  match c.errand? s.work with
  | some e => (s.handle, e) :: tr
  | none => tr

/-- An entry is in transit after `s` was taken out if it is `s`, or was before. -/
theorem mem_transitOf {s : Slip ω} :
    (h, e) ∈ transitOf c s tr ↔ (h = s.handle ∧ c.job e = s.work) ∨ (h, e) ∈ tr := by
  rw [← c.errand?_eq_some, transitOf]
  cases c.errand? s.work with
  | some e' =>
    simp only [List.mem_cons, Prod.mk.injEq, Option.some.injEq]
    rw [eq_comm (a := e)]
  | none => simp

/-- What keeps the crew's entries only passes. -/
theorem passes_keepsMine {table : Q} (k : Accurate c t tr)
    (hst : LawfulTimetable.KeepsMine c.IsMine t.table table) :
    Passes c t tr { t with table } tr where
  made := rfl
  calledOff := rfl
  sub _ e := Or.imp_left fun ⟨live, hs⟩ =>
    ⟨live, hst.mem_of_mem k.sound _ (c.isMine_job e) hs⟩
  keep _ e hh := Or.imp_left fun ⟨live, hs⟩ =>
    ⟨live, hst.mem_of_live k.sound _ (c.isMine_job e) ((k.live_iff _ e live hs).2 hh) hs⟩

/-- What keeps the crew's entries keeps the record accurate. -/
theorem Accurate.keepsMine {table : Q} (k : Accurate c t tr)
    (hst : LawfulTimetable.KeepsMine c.IsMine t.table table) : Accurate c { t with table } tr := by
  have hp := passes_keepsMine k hst
  have hle : t.next ≤ LawfulTimetable.nextHandle table := hst.next_le
  exact {
    sound := hst.sound k.sound
    made_lt := fun m hm => Nat.lt_of_lt_of_le (k.made_lt m hm) hle
    made_unique := k.made_unique
    calledOff_lt := fun h hh => Nat.lt_of_lt_of_le (k.calledOff_lt h hh) hle
    made_of_undelivered := fun h e hu => k.made_of_undelivered h e (hp.sub h e hu)
    gone := fun h e htr e' live hs => k.gone h e htr e' live
      (hst.mem_of_mem k.sound _ (c.isMine_job e') hs)
    transit_nodup := k.transit_nodup
    live_iff := fun h e live hs =>
      k.live_iff h e live (hst.mem_of_mem k.sound _ (c.isMine_job e) hs) }

/-- Two entries in the timetable with one handle are one. -/
theorem Accurate.slip_unique (k : Accurate c t tr) {s s' : Slip ω}
    (hs : s ∈ LawfulTimetable.slips t.table)
    (hs' : s' ∈ LawfulTimetable.slips t.table) (heq : s.handle = s'.handle) : s = s' :=
  List.inj_on_of_nodup_map (LawfulTimetable.nodup k.sound) hs hs' heq

/-- Taking an entry out only passes: it goes into transit. -/
theorem passes_takesOut {table : Q} {s : Slip ω} (k : Accurate c t tr)
    (htk : LawfulTimetable.TakesOut s t.table table) :
    Passes c t tr { t with table } (transitOf c s tr) where
  made := rfl
  calledOff := rfl
  sub h e hu := by
    rcases hu with ⟨live, hs⟩ | htr
    · exact Or.inl ⟨live, (htk.mem_of_mem k.sound _ hs).1⟩
    · rcases mem_transitOf.1 htr with ⟨rfl, he⟩ | htr
      · exact Or.inl ⟨s.live, he ▸ htk.there⟩
      · exact Or.inr htr
  keep h e hh hu := by
    rcases hu with ⟨live, hs⟩ | htr
    · by_cases heq : h = s.handle
      · have := k.slip_unique hs (htk.there) heq
        exact Or.inr (mem_transitOf.2 (Or.inl ⟨heq, congrArg Slip.work this⟩))
      · exact Or.inl ⟨live, htk.mem_of_live _ hs ((k.live_iff h e live hs).2 hh) heq⟩
    · exact Or.inr (mem_transitOf.2 (Or.inr htr))

/-- Taking an entry out keeps the record accurate. -/
theorem Accurate.takesOut {table : Q} {s : Slip ω} (k : Accurate c t tr)
    (htk : LawfulTimetable.TakesOut s t.table table) :
    Accurate c { t with table } (transitOf c s tr) := by
  have hp := passes_takesOut k htk
  have hnext : LawfulTimetable.nextHandle table = t.next := htk.next_eq
  have hback : ∀ s' ∈ LawfulTimetable.slips table,
      s' ∈ LawfulTimetable.slips t.table ∧ s'.handle ≠ s.handle :=
    htk.mem_of_mem k.sound
  exact {
    sound := htk.sound k.sound
    made_lt := fun m hm => Nat.lt_of_lt_of_eq (k.made_lt m hm) hnext.symm
    made_unique := k.made_unique
    calledOff_lt := fun h hh => Nat.lt_of_lt_of_eq (k.calledOff_lt h hh) hnext.symm
    made_of_undelivered := fun h e hu => k.made_of_undelivered h e (hp.sub h e hu)
    gone := fun h e htr e' live hs => by
      obtain ⟨hs, hne⟩ := hback _ hs
      rcases mem_transitOf.1 htr with ⟨rfl, -⟩ | htr
      · exact hne rfl
      · exact k.gone h e htr e' live hs
    transit_nodup := by
      rw [transitOf]
      split
      · rename_i e he
        have hs := htk.there
        have hjob : (⟨s.handle, c.job e, s.live⟩ : Slip ω) ∈ LawfulTimetable.slips t.table := by
          rw [c.errand?_eq_some.1 he]
          exact hs
        rw [List.map_cons, List.nodup_cons]
        refine ⟨fun hmem => ?_, k.transit_nodup⟩
        obtain ⟨⟨h, e'⟩, htr, heq⟩ := List.mem_map.1 hmem
        obtain rfl : h = s.handle := heq
        exact k.gone _ e' htr e s.live hjob
      · exact k.transit_nodup
    live_iff := fun h e live hs => k.live_iff h e live (hback _ hs).1 }

/-! ### An entry arrives -/

/-- What is in transit after the entry under `h₀` has arrived. -/
theorem mem_erase_transit (k : Accurate c t tr) (there : (h₀, e₀) ∈ tr) :
    (h, e) ∈ tr.erase (h₀, e₀) ↔ (h, e) ∈ tr ∧ h ≠ h₀ := by
  rw [(List.Nodup.of_map _ k.transit_nodup).mem_erase_iff, and_comm, and_congr_right_iff]
  intro htr
  rw [not_iff_not]
  refine ⟨congrArg Prod.fst, ?_⟩
  rintro rfl
  rw [k.errand_unique (Or.inr htr) (Or.inr there)]

/-- What is undelivered after the entry under `h₀` has arrived: everything else that was. -/
theorem undelivered_arrive (k : Accurate c t tr) (there : (h₀, e₀) ∈ tr) :
    Undelivered c t (tr.erase (h₀, e₀)) h e ↔ Undelivered c t tr h e ∧ h ≠ h₀ := by
  rw [Undelivered, mem_erase_transit k there, Undelivered, or_and_right]
  refine or_congr_left (iff_self_and.2 ?_)
  rintro ⟨live, hs⟩ rfl
  exact k.gone h e₀ there e live hs

/-- An arrival keeps the record accurate. -/
theorem Accurate.arrive (k : Accurate c t tr) (there : (h₀, e₀) ∈ tr) :
    Accurate c t (tr.erase (h₀, e₀)) where
  sound := k.sound
  made_lt := k.made_lt
  made_unique := k.made_unique
  calledOff_lt := k.calledOff_lt
  made_of_undelivered h e hu := k.made_of_undelivered h e ((undelivered_arrive k there).1 hu).1
  gone h e htr := k.gone h e ((mem_erase_transit k there).1 htr).1
  transit_nodup := (List.erase_sublist.map _).nodup k.transit_nodup
  live_iff := k.live_iff

/-! ### The entry that is waited for -/

/-- The **discipline of one kind of entries**. At most one of them is waited for, `current`, by its
handle and its epoch: it is undelivered, was not called off, and alone carries its epoch. Every
other one was called off or has an older epoch, and no epoch is above `bound`. -/
structure Anchored (c : Coding ω) (kind : Nat → Errand) (current : Option (Nat × Nat)) (bound : Nat)
    (t : Recorded Q ω) (tr : List (Nat × Errand)) : Prop where
  /-- What is waited for is on its way. -/
  there : ∀ h n, current = some (h, n) → Undelivered c t tr h (kind n)
  /-- It was not called off. -/
  uncalled : ∀ h n, current = some (h, n) → h ∉ t.calledOff
  /-- Every other entry was called off. -/
  only : ∀ h n, Undelivered c t tr h (kind n) → h ∉ t.calledOff → current = some (h, n)
  /-- No other entry has its epoch. -/
  unique : ∀ h h' n, Undelivered c t tr h (kind n) → current = some (h', n) → h = h'
  /-- Epochs are bounded. -/
  le : ∀ h n, Undelivered c t tr h (kind n) → n ≤ bound

variable {kind : Nat → Errand} {current : Option (Nat × Nat)} {bound n : Nat}

/-- If no entry of the kind is undelivered, `Anchored` holds with none waited for. -/
theorem Anchored.of_forall_not (hno : ∀ h n, ¬ Undelivered c t tr h (kind n)) :
    Anchored c kind none bound t tr where
  there _ _ h := nomatch h
  uncalled _ _ h := nomatch h
  only h n hu := absurd hu (hno h n)
  unique _ _ _ _ h := nomatch h
  le h n hu := absurd hu (hno h n)

/-- `Passes` keeps `Anchored`. -/
theorem Anchored.passes {t' : Recorded Q ω} {tr' : List (Nat × Errand)}
    (a : Anchored c kind current bound t tr) (hp : Passes c t tr t' tr') :
    Anchored c kind current bound t' tr' where
  there h n hc := hp.keep h _ (a.uncalled h n hc) (a.there h n hc)
  uncalled h n hc := hp.calledOff ▸ a.uncalled h n hc
  only h n hu hh := a.only h n (hp.sub h _ hu) (hp.calledOff ▸ hh)
  unique h h' n hu hc := a.unique h h' n (hp.sub h _ hu) hc
  le h n hu := a.le h n (hp.sub h _ hu)

/-- Scheduling an entry with an epoch above `bound`, when none is waited for, makes it the
**current** one. -/
theorem Anchored.schedule (k : Accurate c t tr) (a : Anchored c kind none bound t tr)
    (hkind : Function.Injective kind) (hlt : bound < n) (now : Nat) (priority : Priority)
    (delay : Nat) :
    Anchored c kind (some (t.next, n)) n
      (Timetable.schedule now priority delay (c.job (kind n)) t).2 tr := by
  have hu : ∀ h m, Undelivered c (Timetable.schedule now priority delay (c.job (kind n)) t).2 tr h
      (kind m) ↔ (h = t.next ∧ m = n) ∨ Undelivered c t tr h (kind m) := fun h m => by
    rw [undelivered_schedule now priority delay k, hkind.eq_iff]
  refine ⟨?_, ?_, ?_, ?_, ?_⟩
  · rintro h m ⟨⟩
    exact (hu _ _).2 (Or.inl ⟨rfl, rfl⟩)
  · rintro h m ⟨⟩
    exact k.next_notMem
  · intro h m hm hh
    rcases (hu h m).1 hm with ⟨rfl, rfl⟩ | hm
    · rfl
    · exact nomatch a.only h m hm hh
  · rintro h h' m hm ⟨⟩
    rcases (hu h n).1 hm with ⟨rfl, -⟩ | hm
    · rfl
    · have hle := a.le h n hm
      omega
  · intro h m hm
    rcases (hu h m).1 hm with ⟨-, rfl⟩ | hm
    · exact Nat.le_refl _
    · have hle := a.le h m hm
      omega

/-- Scheduling an entry of another kind keeps `Anchored`. -/
theorem Anchored.schedule_other (k : Accurate c t tr) (a : Anchored c kind current bound t tr)
    (hother : ∀ n, kind n ≠ e₀) (now : Nat) (priority : Priority) (delay : Nat) :
    Anchored c kind current bound (Timetable.schedule now priority delay (c.job e₀) t).2 tr := by
  have hu : ∀ h m, Undelivered c (Timetable.schedule now priority delay (c.job e₀) t).2 tr h
      (kind m) ↔ Undelivered c t tr h (kind m) := fun h m => by
    rw [undelivered_schedule now priority delay k]
    exact or_iff_right fun ⟨_, he⟩ => hother m he
  exact ⟨fun h m hc => (hu h m).2 (a.there h m hc), a.uncalled,
    fun h m hm hh => a.only h m ((hu h m).1 hm) hh,
    fun h h' m hm hc => a.unique h h' m ((hu h m).1 hm) hc, fun h m hm => a.le h m ((hu h m).1 hm)⟩

/-- Cancelling the current entry leaves **none waited for**. -/
theorem Anchored.cancel (a : Anchored c kind (some (h₀, n)) bound t tr) :
    Anchored c kind none bound (Timetable.cancel h₀ t) tr where
  there _ _ h := nomatch h
  uncalled _ _ h := nomatch h
  only h m hu hh := by
    rw [calledOff_cancel, List.mem_cons, not_or] at hh
    obtain ⟨rfl, rfl⟩ := Prod.mk.inj (Option.some.inj (a.only h m (undelivered_cancel.1 hu) hh.2))
    exact absurd rfl hh.1
  unique _ _ _ _ h := nomatch h
  le h m hu := a.le h m (undelivered_cancel.1 hu)

/-- Cancelling another handle keeps `Anchored`. -/
theorem Anchored.cancel_other (a : Anchored c kind current bound t tr)
    (hother : ∀ h n, current = some (h, n) → h ≠ h₀) :
    Anchored c kind current bound (Timetable.cancel h₀ t) tr where
  there h n hc := undelivered_cancel.2 (a.there h n hc)
  uncalled h n hc := by
    rw [calledOff_cancel, List.mem_cons, not_or]
    exact ⟨hother h n hc, a.uncalled h n hc⟩
  only h n hu hh := by
    rw [calledOff_cancel, List.mem_cons, not_or] at hh
    exact a.only h n (undelivered_cancel.1 hu) hh.2
  unique h h' n hu hc := a.unique h h' n (undelivered_cancel.1 hu) hc
  le h n hu := a.le h n (undelivered_cancel.1 hu)

/-- When an entry with the epoch of the current one arrives, it **is the current one**, and none is
waited for. -/
theorem Anchored.arrive (k : Accurate c t tr) {h₁ : Nat}
    (a : Anchored c kind (some (h₁, n)) bound t tr) (there : (h₀, kind n) ∈ tr) :
    Anchored c kind none bound t (tr.erase (h₀, kind n)) where
  there _ _ h := nomatch h
  uncalled _ _ h := nomatch h
  only h m hu hh := by
    obtain ⟨hu, hne⟩ := (undelivered_arrive k there).1 hu
    obtain ⟨rfl, rfl⟩ := Prod.mk.inj (Option.some.inj (a.only h m hu hh))
    exact absurd (a.unique h₀ _ _ (Or.inr there) rfl).symm hne
  unique _ _ _ _ h := nomatch h
  le h m hu := a.le h m ((undelivered_arrive k there).1 hu).1

/-- When an entry of an older epoch or of another kind arrives, the current one is kept. -/
theorem Anchored.arrive_other (k : Accurate c t tr) (a : Anchored c kind current bound t tr)
    (there : (h₀, e₀) ∈ tr) (hother : ∀ h n, current = some (h, n) → kind n ≠ e₀) :
    Anchored c kind current bound t (tr.erase (h₀, e₀)) where
  there h n hc := by
    refine (undelivered_arrive k there).2 ⟨a.there h n hc, ?_⟩
    rintro rfl
    exact hother h n hc (k.errand_unique (a.there h n hc) (Or.inr there))
  uncalled := a.uncalled
  only h n hu hh := a.only h n ((undelivered_arrive k there).1 hu).1 hh
  unique h h' n hu hc := a.unique h h' n ((undelivered_arrive k there).1 hu).1 hc
  le h n hu := a.le h n ((undelivered_arrive k there).1 hu).1

/-- `Anchored` holds with a greater bound too. -/
theorem Anchored.mono {bound' : Nat} (a : Anchored c kind current bound t tr)
    (hle : bound ≤ bound') : Anchored c kind current bound' t tr :=
  { a with le := fun h n hu => Nat.le_trans (a.le h n hu) hle }

end Recorded

end TurnPool
