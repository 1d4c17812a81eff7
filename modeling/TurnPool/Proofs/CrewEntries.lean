import TurnPool.Proofs.GroupEntry
import TurnPool.Proofs.SingleEntry
import TurnPool.Proofs.World

/-!
# The entries of a crew are in order

In every state that a crew can come to, its entries are in order: those of each task, if the tasks
have schedulers of their own, or those of the group.

## Main results

* `Crew.EntriesSettled`: the entries of a crew are in order.
* `World.Reachable.entriesSettled`: so they are in every state.
-/

namespace TurnPool

open Recorded

variable {Q ω : Type} [Timetable Q ω] [LawfulTimetable Q ω] {c : Coding ω}
  {t t' : Recorded Q ω} {tr tr' : List (Nat × Errand)}

namespace Crew

/-- The entries of tasks that have schedulers of their own: the record is accurate, each task's runs
are in order, and no other entry of the crew is undelivered. -/
structure SinglesInOrder (c : Coding ω) (tasks : Array Single) (t : Recorded Q ω)
    (tr : List (Nat × Errand)) : Prop where
  accurate : Accurate c t tr
  ordered : ∀ i s, tasks[i]? = some s → Single.RunsInOrder c i s t tr
  run_of_undelivered : ∀ h e, Undelivered c t tr h e → ∃ i n, e = .run i n ∧ i < tasks.size

namespace SinglesInOrder

variable {tasks : Array Single} {task : Nat} {s s' : Single}

/-- A new task keeps `SinglesInOrder`. -/
theorem push (h : SinglesInOrder c tasks t tr) (name : String) :
    SinglesInOrder c (tasks.push (.new name)) t tr where
  accurate := h.accurate
  ordered i s hs := by
    rw [Array.getElem?_push] at hs
    split at hs
    · rename_i hi
      cases hs
      refine ⟨.of_forall_not fun k n hu => ?_, iff_of_false Bool.false_ne_true Bool.false_ne_true,
        nofun⟩
      obtain ⟨i', n', heq, hlt⟩ := h.run_of_undelivered k _ hu
      have := (Errand.run.inj heq).1
      omega
    · exact h.ordered i s hs
  run_of_undelivered k e hu := by
    obtain ⟨i, n, he, hlt⟩ := h.run_of_undelivered k e hu
    rw [Array.size_push]
    exact ⟨i, n, he, by omega⟩

/-- What holds of the changed task and of all others holds of each. -/
theorem forall_set {p : Nat → Single → Prop} (hself : p task s')
    (hother : ∀ i s, i ≠ task → tasks[i]? = some s → p i s) :
    ∀ i s, (tasks.setIfInBounds task s')[i]? = some s → p i s := by
  intro i s hs
  rw [Array.getElem?_setIfInBounds] at hs
  split at hs
  · rename_i hi
    split at hs
    · cases hs
      exact hi ▸ hself
    · cases hs
  · rename_i hi
    exact hother i s (Ne.symm hi) hs

/-- What one task does keeps `SinglesInOrder`, if it keeps its own runs in order and the others'
entries. -/
theorem set (h : SinglesInOrder c tasks t tr) (hs : tasks[task]? = some s)
    (hmoved : Single.SameOtherEntries c task tr t t') (ho : Single.RunsInOrder c task s' t' tr) :
    SinglesInOrder c (tasks.setIfInBounds task s') t' tr where
  accurate := hmoved.accurate
  ordered := forall_set ho fun i s₁ hne hs₁ => hmoved.ordered hne (h.ordered i s₁ hs₁)
  run_of_undelivered k e hu := by
    rw [Array.size_setIfInBounds]
    rcases hmoved.undelivered k e hu with hu | ⟨n, he⟩
    · exact h.run_of_undelivered k e hu
    · exact ⟨task, n, he, (Array.getElem?_eq_some_iff.1 hs).1⟩

/-- The arrival of a task's entry keeps `SinglesInOrder`. -/
theorem arrive (h : SinglesInOrder c tasks t tr) (hs : tasks[task]? = some s) {k n : Nat}
    (there : (k, .run task n) ∈ tr) :
    SinglesInOrder c (tasks.setIfInBounds task (s.claim n).2) t (tr.erase (k, .run task n)) where
  accurate := h.accurate.arrive there
  ordered := by
    refine forall_set ((h.ordered task s hs).claim h.accurate there) fun i s₁ hne hs₁ => ?_
    have hother : ∀ m, Errand.run i m ≠ .run task n := fun m heq => hne (Errand.run.inj heq).1
    exact (h.ordered i s₁ hs₁).arrive_other h.accurate there hother
  run_of_undelivered k' e hu := by
    rw [Array.size_setIfInBounds]
    exact h.run_of_undelivered k' e ((undelivered_arrive h.accurate there).1 hu).1

/-- `Passes` keeps `SinglesInOrder`. -/
theorem passes (h : SinglesInOrder c tasks t tr) (hkept : Accurate c t' tr')
    (hp : Passes c t tr t' tr') :
    SinglesInOrder c tasks t' tr' where
  accurate := hkept
  ordered i s hs := (h.ordered i s hs).passes hp
  run_of_undelivered k e hu := h.run_of_undelivered k e (hp.sub k e hu)

end SinglesInOrder

/-- The **entries of a crew** are in order: those of its tasks, or those of its group. -/
def EntriesSettled (c : Coding ω) (crew : Crew) (t : Recorded Q ω) (tr : List (Nat × Errand)) :
    Prop :=
  match crew with
  | .apart tasks => SinglesInOrder c tasks t tr
  | .together g => g.TidyInOrder c t tr

namespace EntriesSettled

variable {crew : Crew} {task : Nat}

/-- Settled entries have an accurate record. -/
theorem accurate (h : crew.EntriesSettled c t tr) : Accurate c t tr := by
  cases crew with
  | apart tasks => exact SinglesInOrder.accurate h
  | together g => exact (Group.TidyInOrder.ordered h).accurate

/-- The entries of a crew without tasks are settled if none is undelivered. -/
theorem empty (grouped : Bool) (hkept : Accurate c t tr) (hno : ∀ h e, ¬ Undelivered c t tr h e) :
    (Crew.empty grouped).EntriesSettled c t tr := by
  cases grouped with
  | false =>
    show SinglesInOrder c #[] t tr
    refine ⟨hkept, fun i s hs => ?_, fun h e hu => absurd hu (hno h e)⟩
    rw [Array.getElem?_empty] at hs
    cases hs
  | true => exact Group.TidyInOrder.empty hkept hno

/-- `register` keeps the entries settled. -/
theorem register (h : crew.EntriesSettled c t tr) (name : String) :
    (crew.register name).EntriesSettled c t tr := by
  cases crew with
  | apart tasks => exact SinglesInOrder.push h name
  | together g => exact Group.TidyInOrder.register h name

/-- `request` keeps the entries settled. -/
theorem request (h : crew.EntriesSettled c t tr) (hlt : task < crew.size) (opts : SchedulerOptions)
    (r : Readings) (what : Request) :
    (Crew.request opts c.job r what task (crew, t)).1.EntriesSettled c
      (Crew.request opts c.job r what task (crew, t)).2 tr := by
  cases crew with
  | apart tasks =>
    obtain ⟨s, hs⟩ := exists_single hlt
    obtain ⟨hmoved, ho⟩ := (SinglesInOrder.ordered h task s hs).enact (SinglesInOrder.accurate h)
      (Lifecycle.queued?_request opts.backoff what s.life) opts r.entry
    rw [request_apart opts c.job r hs]
    exact SinglesInOrder.set h hs hmoved ho
  | together g => exact Group.TidyInOrder.request h hlt opts r what

/-- `deliver` keeps the entries settled. -/
theorem deliver (h : crew.EntriesSettled c t tr) (hlt : task < crew.size) (opts : SchedulerOptions)
    (r : Readings) (o : Outcome) :
    (Crew.deliver opts c.job r task o (crew, t)).2.1.EntriesSettled c
      (Crew.deliver opts c.job r task o (crew, t)).2.2 tr := by
  cases crew with
  | apart tasks =>
    obtain ⟨s, hs⟩ := exists_single hlt
    obtain ⟨hmoved, ho⟩ := (SinglesInOrder.ordered h task s hs).enact (SinglesInOrder.accurate h)
      (Lifecycle.queued?_deliver opts.backoff o s.life) opts r.entry
    rw [deliver_apart opts c.job r hs]
    exact SinglesInOrder.set h hs hmoved ho
  | together g => exact Group.TidyInOrder.deliver h hlt opts r o

/-- `arrive` keeps the entries settled. -/
theorem arrive (h : crew.EntriesSettled c t tr) {k : Nat} {e : Errand} (there : (k, e) ∈ tr)
    (opts : SchedulerOptions) (r : Readings) :
    (Crew.arrive opts c.job r e (crew, t)).2.1.EntriesSettled c
      (Crew.arrive opts c.job r e (crew, t)).2.2 (tr.erase (k, e)) := by
  match e, crew with
  | .run task n, .apart tasks =>
    obtain ⟨i, m, heq, hlt⟩ := SinglesInOrder.run_of_undelivered h k _ (Or.inr there)
    rw [← (Errand.run.inj heq).1] at hlt
    obtain ⟨s, hs⟩ := exists_single hlt
    rw [arrive_run opts c.job r hs]
    exact SinglesInOrder.arrive h hs there
  | .dispatch n, .together g => exact Group.TidyInOrder.dispatch h there opts r
  | .run task n, .together g =>
    exact absurd (Or.inr there) ((Group.TidyInOrder.ordered h).no_run k task n)
  | .dispatch n, .apart tasks =>
    obtain ⟨i, m, heq, -⟩ := SinglesInOrder.run_of_undelivered h k _ (Or.inr there)
    cases heq

/-- `Passes` keeps the entries settled. -/
theorem passes (h : crew.EntriesSettled c t tr) (hkept : Accurate c t' tr')
    (hp : Passes c t tr t' tr') :
    crew.EntriesSettled c t' tr' := by
  cases crew with
  | apart tasks => exact SinglesInOrder.passes h hkept hp
  | together g => exact Group.TidyInOrder.passes h hkept hp

end EntriesSettled

end Crew

namespace World

variable {w w' : World Q ω}

/-- A table without entries of the crew has an accurate record in which nothing was made. -/
theorem accurate_new {table : Q} (sound : LawfulTimetable.Sound table)
    (theirs : ∀ s ∈ LawfulTimetable.slips table, ¬ c.IsMine s.work) :
    Accurate c ⟨table, [], []⟩ [] ∧ ∀ h e, ¬ Undelivered c ⟨table, [], []⟩ [] h e := by
  have hno : ∀ h e, ¬ Undelivered c (⟨table, [], []⟩ : Recorded Q ω) [] h e := by
    rintro h e (⟨live, hs⟩ | htr)
    · exact theirs _ hs (c.isMine_job e)
    · cases htr
  refine ⟨⟨sound, nofun, nofun, nofun, fun h e hu => absurd hu (hno h e), nofun, List.nodup_nil,
    fun h e live hs => ?_⟩, hno⟩
  exact absurd (Or.inl ⟨live, hs⟩) (hno h e)

/-- **Every step** keeps the entries settled. -/
theorem Step.entriesSettled (step : Step c w w') (hheld : w.HeldOwed)
    (h : w.crew.EntriesSettled c w.desk w.transit) :
    w'.crew.EntriesSettled c w'.desk w'.transit := by
  cases step with
  | register name => exact h.register name
  | request opts r what joined => exact h.request joined opts r what
  | take taken => exact h.passes (h.accurate.takesOut taken) (passes_takesOut h.accurate taken)
  | @arrive opts r k e there =>
    obtain ⟨hcrew, hdesk, htransit⟩ := arrive_eq (w := w) (c := c) opts r k e
    rw [hcrew, hdesk, htransit]
    exact h.arrive there opts r
  | spend opts r unwinding how there =>
    obtain ⟨howed, hlt⟩ := hheld _ there
    rw [spend_of_owed howed]
    exact h.deliver hlt opts r _
  | stir stirred =>
    exact h.passes (h.accurate.keepsMine stirred) (passes_keepsMine h.accurate stirred)

/-- In every reachable world the **entries of the crew are settled**. -/
theorem Reachable.entriesSettled (h : Reachable c w) :
    w.crew.EntriesSettled c w.desk w.transit := by
  induction h with
  | new grouped sound theirs =>
    obtain ⟨hkept, hno⟩ := accurate_new sound theirs
    exact .empty grouped hkept hno
  | step reached step ih => exact step.entriesSettled reached.heldOwed ih

end World

end TurnPool
