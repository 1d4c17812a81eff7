import TurnPool.Proofs.CrewEntries

/-!
# New entries for old

A scheduler waits for one entry at most, and the only entries that it comes to wait for are those
that it makes. What was made before is called off, stale, or used up by the run that it claimed, and
is never waited for again. So the entry that claims the next run was made after the one that claimed
the last, whatever was asked of the tasks, and whatever came of their runs.

## Schedulers

The schedulers of a crew are told apart by the tasks that have them; the one of a group is that of
no task. `Crew.current` is the entry that a scheduler waits for.

## Main results

* `Uses`: whatever a scheduler does, it makes entries of its own priority, and calls entries off.
* `World.Step.renewed`: a step leaves the entry that is waited for, or puts a **new** one in its
  place.
* `Crew.EntriesSettled.claims`: an entry that claims a run was waited for, and is not any more.
-/

namespace TurnPool

open Recorded

/-! ### The schedulers of a crew -/

/-- The scheduler that has an errand done: that of a task, or the one of the group. -/
def Errand.scheduler : Errand → Option Nat
  | .run task _ => some task
  | .dispatch _ => none

/-- The errand of a scheduler in an epoch. -/
def Errand.of : Option Nat → Nat → Errand
  | some task, epoch => .run task epoch
  | none, epoch => .dispatch epoch

/-- The scheduler of an errand is the one that it was made of. -/
@[simp] theorem Errand.scheduler_of (i : Option Nat) (epoch : Nat) :
    (Errand.of i epoch).scheduler = i := by
  cases i <;> rfl

namespace Crew

/-- The scheduler of a task. -/
def scheduler (task : Nat) : Crew → Option Nat
  | .apart _ => some task
  | .together _ => none

/-- The handle and the epoch of the entry that a scheduler **waits for**. -/
def current : Option Nat → Crew → Option (Nat × Nat)
  | some task, .apart tasks => tasks[task]?.bind Single.current
  | none, .together g => g.current
  | some _, .together _ => none
  | none, .apart _ => none

end Crew

/-! ### What a scheduler does to the timetable -/

section Uses

variable {Q ω : Type} [Timetable Q ω]

/-- What one scheduler does to a timetable: it makes entries of one priority, in epochs of its own,
and calls entries off. -/
inductive Uses (priority : Priority) (entry : Nat → ω) (q : Q) : Q → Prop
  /-- Nothing. -/
  | refl : Uses priority entry q q
  /-- An entry is made. -/
  | schedule {q' : Q} (used : Uses priority entry q q') (now delay epoch : Nat) :
      Uses priority entry q (Timetable.schedule now priority delay (entry epoch) q').2
  /-- An entry is called off. -/
  | cancel {q' : Q} (used : Uses priority entry q q') (handle : Nat) :
      Uses priority entry q (Timetable.cancel handle q')

variable {opts : SchedulerOptions} {entry : Nat → ω} {q : Q}

namespace Single

/-- `Single.disarm` only uses the timetable. -/
theorem uses_disarm (s : Single) : Uses opts.priority entry q (disarm (s, q)).2 := by
  rw [disarm]
  dsimp only
  split
  · exact .cancel .refl _
  · exact .refl

/-- `Single.arm` only uses the timetable. -/
theorem uses_arm (now delay : Nat) (s : Single) :
    Uses opts.priority entry q (arm opts entry now delay (s, q)).2 :=
  .schedule (uses_disarm s) now delay _

/-- `Single.enact` only uses the timetable. -/
theorem uses_enact (now : Nat) (change : Lifecycle × Placement) (s : Single) :
    Uses opts.priority entry q (enact opts entry now change (s, q)).2 := by
  obtain ⟨l, placement⟩ := change
  cases placement with
  | unchanged => exact .refl
  | now => exact uses_arm now 0 _
  | after ms => exact uses_arm now (millis ms) _
  | dropped => exact uses_disarm _

end Single

namespace Group

/-- `Group.disarm` only uses the timetable. -/
theorem uses_disarm (g : Group) : Uses opts.priority entry q (disarm (g, q)).2 := by
  rw [disarm]
  split
  · exact .cancel .refl _
  · exact .refl

/-- `Group.rearm` only uses the timetable. -/
theorem uses_rearm (r : Readings) (g : Group) :
    Uses opts.priority entry q (rearm opts entry r (g, q)).2 := by
  rw [rearm]
  split
  · exact .refl
  · split
    · exact uses_disarm g
    · exact .schedule (uses_disarm g) r.entry _ _

/-- `Group.dispatch` only uses the timetable. -/
theorem uses_dispatch (r : Readings) (epoch : Nat) (g : Group) :
    Uses opts.priority entry q (dispatch opts entry r epoch (g, q)).2.2 := by
  simp only [dispatch]
  split
  · exact uses_rearm r _
  · exact .refl

end Group

namespace Crew

variable {job : Errand → ω} {task : Nat}

/-- `Crew.request` uses the timetable as the scheduler of the task. -/
theorem uses_request (r : Readings) (what : Request) {crew : Crew} (hlt : task < crew.size) :
    Uses opts.priority (fun n => job (.of (crew.scheduler task) n)) q
      (request opts job r what task (crew, q)).2 := by
  cases crew with
  | apart tasks =>
    obtain ⟨s, hs⟩ := exists_single hlt
    rw [request_apart opts job r hs]
    exact Single.uses_enact r.entry _ s
  | together g => exact Group.uses_rearm r _

/-- `Crew.deliver` uses the timetable as the scheduler of the task. -/
theorem uses_deliver (r : Readings) (o : Outcome) {crew : Crew} (hlt : task < crew.size) :
    Uses opts.priority (fun n => job (.of (crew.scheduler task) n)) q
      (deliver opts job r task o (crew, q)).2.2 := by
  cases crew with
  | apart tasks =>
    obtain ⟨s, hs⟩ := exists_single hlt
    rw [deliver_apart opts job r hs]
    exact Single.uses_enact r.entry _ s
  | together g => exact Group.uses_rearm r _

/-- `Crew.arrive` uses the timetable as the scheduler of the errand. -/
theorem uses_arrive (r : Readings) (e : Errand) (crew : Crew) :
    Uses opts.priority (fun n => job (.of e.scheduler n)) q
      (arrive opts job r e (crew, q)).2.2 := by
  match e, crew with
  | .run task n, .apart tasks =>
    cases hs : tasks[task]? with
    | none =>
      simp only [arrive, onSingle, hs]
      exact .refl
    | some s =>
      rw [arrive_run opts job r hs]
      exact .refl
  | .dispatch n, .together g => exact Group.uses_dispatch r n g
  | .run _ _, .together _ => exact .refl
  | .dispatch _, .apart _ => exact .refl

end Crew

end Uses

/-! ### The entry that is waited for -/

/-- The entry that is waited for afterwards is **the one there was, or a new one**, with a handle
from `next` on. -/
def Renewed (next : Nat) (before after : Option (Nat × Nat)) : Prop :=
  ∀ k n, after = some (k, n) → before = some (k, n) ∨ next ≤ k

namespace Renewed

variable {next next' : Nat} {before between after : Option (Nat × Nat)}

/-- Waiting for the same entry is `Renewed`. -/
theorem refl (next : Nat) (x : Option (Nat × Nat)) : Renewed next x x :=
  fun _ _ h => Or.inl h

/-- Waiting for none is `Renewed`. -/
theorem of_none (next : Nat) (before : Option (Nat × Nat)) : Renewed next before none := by
  rintro k n ⟨⟩

/-- Waiting for the entry with the next handle is `Renewed`. -/
theorem of_next (next epoch : Nat) (before : Option (Nat × Nat)) :
    Renewed next before (some (next, epoch)) := by
  rintro k n ⟨⟩
  exact Or.inr (Nat.le_refl _)

end Renewed

variable {Q ω : Type} [Timetable Q ω] [LawfulTimetable Q ω] {c : Coding ω} {t : Recorded Q ω}
  {tr : List (Nat × Errand)} {opts : SchedulerOptions}

/-- Using a timetable takes no handle back. -/
theorem Uses.next_le {priority : Priority} {entry : Nat → ω} {t' : Recorded Q ω}
    (h : Uses priority entry t t') : t.next ≤ t'.next := by
  induction h with
  | refl => exact Nat.le_refl _
  | schedule used now delay epoch ih =>
    rw [next_schedule]
    omega
  | cancel used handle ih => rwa [next_cancel]

namespace Single

/-- `Single.disarm` gives no handle. -/
theorem next_disarm (s : Single) : (disarm (s, t)).2.next = t.next := by
  rw [disarm]
  dsimp only
  split
  · exact next_cancel _ t
  · rfl

/-- `Single.arm` waits for an entry that is **new**. -/
theorem renewed_arm (entry : Nat → ω) (now delay : Nat) (s : Single)
    (before : Option (Nat × Nat)) :
    Renewed t.next before (arm opts entry now delay (s, t)).1.current := by
  rw [arm_eq, current, schedule_fst, next_disarm]
  exact .of_next t.next (s.epoch + 1) before

/-- `Single.enact` waits for what it waited for, or for a new entry. -/
theorem renewed_enact (entry : Nat → ω) (now : Nat) (change : Lifecycle × Placement)
    (s : Single) : Renewed t.next s.current (enact opts entry now change (s, t)).1.current := by
  obtain ⟨l, placement⟩ := change
  cases placement with
  | unchanged => exact .refl _ _
  | now => exact renewed_arm entry now 0 _ _
  | after ms => exact renewed_arm entry now (millis ms) _ _
  | dropped => exact .of_none _ _

/-- `Single.claim` waits for what it waited for, or for none. -/
theorem renewed_claim (epoch next : Nat) (s : Single) :
    Renewed next s.current (s.claim epoch).2.current := by
  rw [claim]
  split
  · cases s.life.claim <;> exact .of_none _ _
  · exact .refl _ _

end Single

namespace Group

/-- `Group.disarm` gives no handle. -/
theorem next_disarm (g : Group) : (disarm (g, t)).2.next = t.next := by
  rw [disarm]
  split
  · exact next_cancel _ t
  · rfl

/-- `Group.rearm` waits for what it waited for, or for a new entry. -/
theorem renewed_rearm (entry : Nat → ω) (r : Readings) (g : Group) :
    Renewed t.next g.current (rearm opts entry r (g, t)).1.current := by
  rw [rearm]
  split
  · exact .refl _ _
  · split
    · rw [disarm_eq]
      exact .of_none _ _
    · rename_i due _
      obtain ⟨delay, heq⟩ := arm_eq opts entry r due (disarm (g, t))
      rw [heq, current, schedule_fst, next_disarm]
      exact .of_next _ _ _

/-- `Group.enact` waits for what it waited for, or for a new entry. -/
theorem renewed_enact (entry : Nat → ω) (r : Readings) (id : Nat)
    (change : Lifecycle × Placement) (g : Group) :
    Renewed t.next g.current (enact opts entry r id change (g, t)).1.current := by
  have hentry :=
    @entry_relocate (g.modify id fun m => { m with life := change.1 }) id r.deadline change.2
  have h : Renewed t.next
      ((g.modify id fun m => { m with life := change.1 }).relocate r.deadline id change.2).current
      (enact opts entry r id change (g, t)).1.current := renewed_rearm entry r _
  rw [current, hentry.1] at h
  exact h

/-- `dispatch` of the armed entry waits for none but a new one; of a stale one, for what the group
waited for. -/
theorem renewed_dispatch (entry : Nat → ω) (r : Readings) (epoch : Nat) (g : Group) :
    Renewed t.next
      (if g.armed.map Armed.epoch = some epoch then none else g.current)
      (dispatch opts entry r epoch (g, t)).2.1.current := by
  simp only [dispatch]
  split
  · have hclaims := Claims.nextReady r.deadline { g with armed := none }
    have h : Renewed t.next (nextReady r.deadline { g with armed := none }).2.current
        (rearm opts entry r ((nextReady r.deadline { g with armed := none }).2, t)).1.current :=
      renewed_rearm entry r _
    rw [current, hclaims.armed] at h
    exact h
  · exact .refl _ _

end Group

namespace Crew

variable {crew : Crew} {task : Nat}

omit [LawfulTimetable Q ω] in
/-- A scheduler that is `Renewed` leaves what the others wait for. -/
theorem renewed_set {next : Nat} {tasks : Array Single} {s s' : Single}
    (hs : tasks[task]? = some s) (h : Renewed next s.current s'.current) (i : Option Nat) :
    Renewed next ((apart tasks).current i)
      ((apart (tasks.setIfInBounds task s')).current i) := by
  cases i with
  | none => exact .refl _ _
  | some j =>
    simp only [current, Array.getElem?_setIfInBounds]
    split
    · rename_i hj
      rw [← hj, hs, if_pos (Array.getElem?_eq_some_iff.1 hs).1]
      exact h
    · exact .refl _ _

/-- `register` leaves what every scheduler waits for. -/
theorem renewed_register (name : String) (next : Nat) (crew : Crew) (i : Option Nat) :
    Renewed next (crew.current i) ((crew.register name).current i) := by
  match i, crew with
  | none, .apart _ => exact .refl _ _
  | none, .together _ => exact .refl _ _
  | some _, .together _ => exact .refl _ _
  | some j, .apart tasks =>
    simp only [register, current, Array.getElem?_push]
    split
    · exact .of_none _ _
    · exact .refl _ _

/-- After `request` every scheduler waits for what it waited for, or for a new entry. -/
theorem renewed_request (r : Readings) (what : Request) (hlt : task < crew.size)
    (i : Option Nat) :
    Renewed t.next (crew.current i)
      ((request opts c.job r what task (crew, t)).1.current i) := by
  cases crew with
  | apart tasks =>
    obtain ⟨s, hs⟩ := exists_single hlt
    rw [request_apart opts c.job r hs]
    exact renewed_set hs (Single.renewed_enact _ r.entry _ s) i
  | together g =>
    cases i with
    | none => exact Group.renewed_enact _ r task _ g
    | some j => exact .refl _ _

/-- After `deliver` every scheduler waits for what it waited for, or for a new entry. -/
theorem renewed_deliver (r : Readings) (o : Outcome) (hlt : task < crew.size) (i : Option Nat) :
    Renewed t.next (crew.current i)
      ((deliver opts c.job r task o (crew, t)).2.1.current i) := by
  cases crew with
  | apart tasks =>
    obtain ⟨s, hs⟩ := exists_single hlt
    rw [deliver_apart opts c.job r hs]
    exact renewed_set hs (Single.renewed_enact _ r.entry _ s) i
  | together g =>
    cases i with
    | none => exact Group.renewed_enact _ r task _ g
    | some j => exact .refl _ _

/-- After `arrive` every scheduler waits for what it waited for, or for a new entry. -/
theorem renewed_arrive (r : Readings) (e : Errand) (i : Option Nat) :
    Renewed t.next (crew.current i)
      ((arrive opts c.job r e (crew, t)).2.1.current i) := by
  match e, crew with
  | .run task n, .apart tasks =>
    cases hs : tasks[task]? with
    | none =>
      simp only [arrive, onSingle, hs]
      exact .refl _ _
    | some s =>
      rw [arrive_run opts c.job r hs]
      exact renewed_set hs (Single.renewed_claim n t.next s) i
  | .dispatch n, .together g =>
    cases i with
    | none =>
      intro k m hk
      refine (Group.renewed_dispatch (fun n => c.job (.dispatch n)) r n g k m hk).imp_left
        fun hold => ?_
      split at hold
      · cases hold
      · exact hold
    | some j => exact .refl _ _
  | .run _ _, .together _ => exact .refl _ _
  | .dispatch _, .apart _ => exact .refl _ _

/-- An entry that **claims a run** is the one that its scheduler waited for, which waits for none
but a new one afterwards. -/
theorem EntriesSettled.claims (h : crew.EntriesSettled c t tr) {k : Nat} {e : Errand}
    (there : (k, e) ∈ tr)
    {r : Readings} (hclaims : (Crew.arrive opts c.job r e (crew, t)).1 = some task) :
    (∃ n, crew.current e.scheduler = some (k, n)) ∧
      ∀ k' n, (Crew.arrive opts c.job r e (crew, t)).2.1.current e.scheduler = some (k', n) →
        t.next ≤ k' := by
  match e, crew with
  | .run i n, .apart tasks =>
    obtain ⟨j, m, heq, hlt⟩ := SinglesInOrder.run_of_undelivered h k _ (Or.inr there)
    rw [← (Errand.run.inj heq).1] at hlt
    obtain ⟨s, hs⟩ := exists_single hlt
    have ho := SinglesInOrder.ordered h i s hs
    rw [arrive_run opts c.job r hs] at hclaims ⊢
    have hepoch : s.epoch = n := by
      by_contra hne
      rw [Single.claim_of_ne hne] at hclaims
      cases hclaims
    have hscheduled : s.life.state.isScheduled = true := by
      by_contra hnot
      rw [Single.claim, if_pos hepoch,
        Lifecycle.claim_eq_none.2 (eq_false_of_ne_true hnot)] at hclaims
      cases hclaims
    obtain ⟨k', hk'⟩ := Option.isSome_iff_exists.1 (ho.pending_iff.2 hscheduled)
    have hcurrent : s.current = some (k', n) := hepoch ▸ Single.current_of_pending hk'
    obtain rfl : k = k' := ho.anchored.unique k k' n (Or.inr there) hcurrent
    refine ⟨⟨n, ?_⟩, ?_⟩
    · simp only [Errand.scheduler, current, hs]
      exact hcurrent
    · intro k' m hafter
      rw [← hepoch, Single.claim_epoch hscheduled] at hafter
      simp only [Errand.scheduler, current, Array.getElem?_setIfInBounds_self_of_lt hlt] at hafter
      cases hafter
  | .dispatch n, .together g =>
    have hanchored := (Group.TidyInOrder.ordered h).anchored
    have hepoch : g.armed.map Armed.epoch = some n := by
      by_contra hne
      rw [arrive_dispatch, Group.dispatch] at hclaims
      dsimp only at hclaims
      rw [if_neg hne] at hclaims
      cases hclaims
    obtain ⟨a, ha, rfl⟩ := Option.map_eq_some_iff.1 hepoch
    have hcurrent := Group.current_of_armed ha
    refine ⟨⟨a.epoch, ?_⟩, ?_⟩
    · rw [hanchored.unique k a.handle a.epoch (Or.inr there) hcurrent]
      exact hcurrent
    · intro k' m hafter
      have hrenewed := Group.renewed_dispatch (fun n => c.job (.dispatch n)) r a.epoch g k' m hafter
      rw [if_pos hepoch] at hrenewed
      refine hrenewed.resolve_left fun hnone => ?_
      cases hnone
  | .run _ _, .together _ => cases hclaims
  | .dispatch _, .apart _ => cases hclaims

end Crew

namespace World

variable {w w' : World Q ω}

/-- After **any step** every scheduler waits for what it waited for, or for a new entry. -/
theorem Step.renewed (step : Step c w w') (hheld : w.HeldOwed) (i : Option Nat) :
    Renewed w.desk.next (w.crew.current i) (w'.crew.current i) := by
  cases step with
  | register name => exact Crew.renewed_register name _ w.crew i
  | request opts r what joined => exact Crew.renewed_request r what joined i
  | take taken => exact .refl _ _
  | @arrive opts r k e there =>
    rw [(arrive_eq (w := w) (c := c) opts r k e).1]
    exact Crew.renewed_arrive r e i
  | spend opts r unwinding how there =>
    obtain ⟨howed, hlt⟩ := hheld _ there
    rw [spend_of_owed howed]
    exact Crew.renewed_deliver r _ hlt i
  | stir stirred => exact .refl _ _

/-- No step **takes a handle back**. -/
theorem Step.next_le (step : Step c w w') (hheld : w.HeldOwed) : w.desk.next ≤ w'.desk.next := by
  cases step with
  | register name => exact Nat.le_refl _
  | request opts r what joined => exact (Crew.uses_request r what joined).next_le
  | take taken => exact Nat.le_of_eq taken.next_eq.symm
  | @arrive opts r k e there =>
    rw [(arrive_eq (w := w) (c := c) opts r k e).2.1]
    exact (Crew.uses_arrive r e w.crew).next_le
  | spend opts r unwinding how there =>
    obtain ⟨howed, hlt⟩ := hheld _ there
    rw [spend_of_owed howed]
    exact (Crew.uses_deliver r _ hlt).next_le
  | stir stirred => exact stirred.next_le

end World

end TurnPool
