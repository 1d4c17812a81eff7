import TurnPool.Proofs.CrewLives
import TurnPool.Proofs.Entries

/-!
# The entries of tasks that have schedulers of their own

A task that has a scheduler of its own has one entry in the timetable while a run of it is queued,
and knows the entry by its epoch. Many such tasks share a timetable; what one of them does there is
no matter of the others (`SameOtherEntries`).

## Main results

* `Single.RunsInOrder`: the entries of one task are in order, and one is waited for just while a run
  is queued.
* `Single.RunsInOrder.enact`, `claim`: requests, outcomes and arrivals keep them so.
* `Single.SameOtherEntries.ordered`: so does whatever another task does.
-/

namespace TurnPool

open Recorded

namespace Single

variable {Q ω : Type} [Timetable Q ω] [LawfulTimetable Q ω] {c : Coding ω} {s : Single}
  {t t' t'' : Recorded Q ω} {tr tr' : List (Nat × Errand)} {i j : Nat}

/-- The handle and the epoch of the entry that a task waits for. -/
def current (s : Single) : Option (Nat × Nat) := s.pending.map fun h => (h, s.epoch)

/-- A task with a pending entry waits for it in the current epoch. -/
theorem current_of_pending {h : Nat} (hp : s.pending = some h) :
    s.current = some (h, s.epoch) := by
  rw [current, hp]
  rfl

/-- A task without a pending entry waits for none. -/
theorem current_eq_none (hp : s.pending = none) : s.current = none := by
  rw [current, hp]
  rfl

/-- The **entries** of task `i`: the pending one is the current one of `Anchored`, there is one just
while a run is scheduled, and it was made without delay if the run is not delayed. -/
structure RunsInOrder (c : Coding ω) (i : Nat) (s : Single) (t : Recorded Q ω)
    (tr : List (Nat × Errand)) : Prop where
  anchored : Anchored c (.run i) s.current s.epoch t tr
  /-- An entry is waited for while a run is queued. -/
  pending_iff : s.pending.isSome = true ↔ s.life.state.isScheduled = true
  /-- The entry of a run that is queued without delay has none. -/
  immediate : ∀ h, s.pending = some h → s.life.state = .scheduled false →
    ⟨h, 0, c.job (.run i s.epoch)⟩ ∈ t.made

/-! ### What one task does to the timetable -/

/-- The timetable has changed in the entries **of task `i`** only. -/
structure SameOtherEntries (c : Coding ω) (i : Nat) (tr : List (Nat × Errand))
    (t t' : Recorded Q ω) : Prop where
  accurate : Accurate c t' tr
  made : ∀ m ∈ t.made, m ∈ t'.made
  /-- What is new is of the task. -/
  undelivered : ∀ h e, Undelivered c t' tr h e → Undelivered c t tr h e ∨ ∃ n, e = .run i n
  /-- Entries of any other kind stay in order. -/
  other : ∀ kind current bound, (∀ n m, kind n ≠ .run i m) → Anchored c kind current bound t tr →
    Anchored c kind current bound t' tr

namespace SameOtherEntries

/-- `SameOtherEntries` is reflexive. -/
theorem refl (hkept : Accurate c t tr) : SameOtherEntries c i tr t t :=
  ⟨hkept, fun _ hm => hm, fun _ _ hu => Or.inl hu, fun _ _ _ _ ha => ha⟩

/-- `SameOtherEntries` is transitive. -/
theorem trans (h : SameOtherEntries c i tr t t') (h' : SameOtherEntries c i tr t' t'') :
    SameOtherEntries c i tr t t'' where
  accurate := h'.accurate
  made m hm := h'.made m (h.made m hm)
  undelivered k e hu := by
    rcases h'.undelivered k e hu with hu | he
    · exact h.undelivered k e hu
    · exact Or.inr he
  other kind current bound hk ha :=
    h'.other kind current bound hk (h.other kind current bound hk ha)

/-- Cancelling an entry of task `i` keeps the others'. -/
theorem cancel (hkept : Accurate c t tr) {h n : Nat} (hu : Undelivered c t tr h (.run i n)) :
    SameOtherEntries c i tr t (Timetable.cancel h t) where
  accurate := hkept.cancel (hkept.handle_lt hu)
  made _ hm := hm
  undelivered _ _ hu' := Or.inl (undelivered_cancel.1 hu')
  other kind current bound hk ha := by
    refine ha.cancel_other fun h' m hc heq => ?_
    rw [heq] at hc
    exact hk m n (hkept.errand_unique (ha.there h m hc) hu)

/-- Scheduling an entry of task `i` keeps the others'. -/
theorem schedule (hkept : Accurate c t tr) (now : Nat) (priority : Priority) (delay n : Nat) :
    SameOtherEntries c i tr t (Timetable.schedule now priority delay (c.job (.run i n)) t).2 where
  accurate := hkept.schedule now priority delay _
  made m hm := by
    rw [made_schedule]
    exact List.mem_cons_of_mem _ hm
  undelivered h e hu := by
    rcases (undelivered_schedule now priority delay hkept).1 hu with ⟨-, rfl⟩ | hu
    · exact Or.inr ⟨n, rfl⟩
    · exact Or.inl hu
  other kind current bound hk ha := ha.schedule_other hkept (fun m => hk m n) now priority delay

/-- What task `i` does keeps the runs of task `j` **in order**. -/
theorem ordered (h : SameOtherEntries c i tr t t') (hne : j ≠ i) (ho : RunsInOrder c j s t tr) :
    RunsInOrder c j s t' tr where
  anchored := h.other (.run j) s.current s.epoch (fun _ _ heq => hne (Errand.run.inj heq).1)
    ho.anchored
  pending_iff := ho.pending_iff
  immediate k hp hs := h.made _ (ho.immediate k hp hs)

end SameOtherEntries

/-! ### The entry of a task is replaced -/

/-- `disarm` keeps the others' entries, and leaves none waited for. -/
theorem anchored_disarm (hkept : Accurate c t tr)
    (ha : Anchored c (.run i) s.current s.epoch t tr) :
    SameOtherEntries c i tr t (disarm (s, t)).2 ∧
      Anchored c (.run i) none s.epoch (disarm (s, t)).2 tr := by
  cases hp : s.pending with
  | none =>
    have hnone := current_eq_none hp
    simp only [disarm, hp]
    exact ⟨.refl hkept, hnone ▸ ha⟩
  | some h =>
    have hcurrent := current_of_pending hp
    simp only [disarm, hp]
    exact ⟨.cancel hkept (ha.there h s.epoch hcurrent), Anchored.cancel (hcurrent ▸ ha)⟩

omit [LawfulTimetable Q ω] in
/-- `arm` schedules an entry with the next epoch, after `disarm`. -/
theorem arm_eq (opts : SchedulerOptions) (entry : Nat → ω) (now delay : Nat) (s : Single) (q : Q) :
    arm opts entry now delay (s, q) =
      ({ s with
          pending := some (Timetable.schedule now opts.priority delay (entry (s.epoch + 1))
            (disarm (s, q)).2).1
          epoch := s.epoch + 1 },
        (Timetable.schedule now opts.priority delay (entry (s.epoch + 1)) (disarm (s, q)).2).2) :=
  rfl

/-- `arm` keeps the others' entries, and the task's runs in order with the new entry; one that is
not delayed is scheduled without delay. -/
theorem ordered_arm (hkept : Accurate c t tr) (ha : Anchored c (.run i) s.current s.epoch t tr)
    {delayed : Bool} (hs : s.life.state = .scheduled delayed) {delay : Nat}
    (hdelay : delayed = false → delay = 0) (opts : SchedulerOptions) (now : Nat) :
    SameOtherEntries c i tr t (arm opts (fun n => c.job (.run i n)) now delay (s, t)).2 ∧
      RunsInOrder c i (arm opts (fun n => c.job (.run i n)) now delay (s, t)).1
        (arm opts (fun n => c.job (.run i n)) now delay (s, t)).2 tr := by
  obtain ⟨hmoved, hnone⟩ := anchored_disarm hkept ha
  have hinj : Function.Injective (Errand.run i) := fun _ _ h => (Errand.run.inj h).2
  have hnew := Anchored.schedule hmoved.accurate hnone hinj (Nat.lt_succ_self s.epoch) now
    opts.priority delay
  rw [arm_eq]
  refine ⟨hmoved.trans (.schedule hmoved.accurate now opts.priority delay (s.epoch + 1)), ?_, ?_,
    ?_⟩
  · rw [current, schedule_fst]
    exact hnew
  · exact iff_of_true rfl (congrArg TaskState.isScheduled hs)
  · rintro _ ⟨⟩ hs'
    obtain rfl : delayed = false := TaskState.scheduled.inj (hs.symm.trans hs')
    obtain rfl := hdelay rfl
    rw [schedule_fst, made_schedule]
    exact List.mem_cons_self

namespace RunsInOrder

/-- `enact` keeps the others' entries, and the task's runs in order, if the new state agrees with
the placement. -/
theorem enact (ho : RunsInOrder c i s t tr) (hkept : Accurate c t tr)
    {change : Lifecycle × Placement}
    (hagree : change.1.state.queued? = change.2.queued? s.life.state.queued?)
    (opts : SchedulerOptions) (now : Nat) :
    SameOtherEntries c i tr t (Single.enact opts (fun n => c.job (.run i n)) now change (s, t)).2 ∧
      RunsInOrder c i (Single.enact opts (fun n => c.job (.run i n)) now change (s, t)).1
        (Single.enact opts (fun n => c.job (.run i n)) now change (s, t)).2 tr := by
  obtain ⟨l, placement⟩ := change
  have hanchored : Anchored c (.run i) ({ s with life := l } : Single).current s.epoch t tr :=
    ho.anchored
  cases placement with
  | unchanged =>
    have hsame : l.state.queued? = s.life.state.queued? := hagree
    refine ⟨.refl hkept, hanchored, ho.pending_iff.trans ?_, fun h hp hs => ho.immediate h hp ?_⟩
    · rw [TaskState.isScheduled_iff, TaskState.isScheduled_iff]
      exact iff_of_eq (congrArg (·.isSome = true) hsame.symm)
    · exact TaskState.queued?_eq_some.1 (hsame.symm.trans (TaskState.queued?_eq_some.2 hs))
  | now =>
    have hs : l.state = .scheduled false := TaskState.queued?_eq_some.1 hagree
    exact ordered_arm hkept hanchored hs (fun _ => rfl) opts now
  | after ms =>
    have hs : l.state = .scheduled true := TaskState.queued?_eq_some.1 hagree
    exact ordered_arm hkept hanchored hs nofun opts now
  | dropped =>
    have hs : l.state.isScheduled = false := TaskState.queued?_eq_none.1 hagree
    obtain ⟨hmoved, hnone⟩ := anchored_disarm hkept hanchored
    exact ⟨hmoved, hnone.mono (Nat.le_succ _),
      iff_of_false Bool.false_ne_true (ne_true_of_eq_false hs), nofun⟩

/-- `claim` for an entry of the task that arrives keeps its runs in order: the pending one is used
up, any other changes nothing. -/
theorem claim (ho : RunsInOrder c i s t tr) (hkept : Accurate c t tr) {k n : Nat}
    (there : (k, .run i n) ∈ tr) :
    RunsInOrder c i (s.claim n).2 t (tr.erase (k, .run i n)) := by
  rw [Single.claim]
  split
  · rename_i hepoch
    cases hp : s.pending with
    | none =>
      -- No run is queued, so the entry claims none.
      have hs : s.life.state.isScheduled = false := by
        rw [← Bool.not_eq_true, ← ho.pending_iff, hp]
        exact Bool.false_ne_true
      have hnone := current_eq_none hp
      have hother : ∀ h m, s.current = some (h, m) → Errand.run i m ≠ .run i n := by
        intro h m hc
        rw [hnone] at hc
        cases hc
      have hrest := ho.anchored.arrive_other hkept there hother
      rw [hnone] at hrest
      rw [Lifecycle.claim_eq_none.2 hs]
      refine ⟨hrest, ?_, fun h hc => ?_⟩
      · rw [hs]
        exact iff_of_false Bool.false_ne_true Bool.false_ne_true
      · cases hc
    | some h =>
      have hs : s.life.state.isScheduled = true := ho.pending_iff.1 (by rw [hp]; rfl)
      have hcurrent : s.current = some (h, n) := hepoch ▸ current_of_pending hp
      rw [Lifecycle.claim_eq_some.2 ⟨hs, rfl⟩]
      refine ⟨(hcurrent ▸ ho.anchored).arrive hkept there,
        iff_of_false Bool.false_ne_true Bool.false_ne_true, fun h' hc => ?_⟩
      cases hc
  · rename_i hepoch
    refine ⟨ho.anchored.arrive_other hkept there fun h m hcurrent heq => hepoch ?_, ho.pending_iff,
      ho.immediate⟩
    obtain ⟨h', -, hpair⟩ := Option.map_eq_some_iff.1 hcurrent
    exact (Prod.mk.inj hpair).2.trans (Errand.run.inj heq).2

/-- The arrival of another task's entry keeps the runs of this one in order. -/
theorem arrive_other (ho : RunsInOrder c i s t tr) (hkept : Accurate c t tr) {k : Nat} {e : Errand}
    (there : (k, e) ∈ tr) (hne : ∀ n, .run i n ≠ e) : RunsInOrder c i s t (tr.erase (k, e)) where
  anchored := ho.anchored.arrive_other hkept there fun _ n _ => hne n
  pending_iff := ho.pending_iff
  immediate := ho.immediate

/-- `Passes` keeps the runs in order. -/
theorem passes (ho : RunsInOrder c i s t tr) (hp : Passes c t tr t' tr') :
    RunsInOrder c i s t' tr' where
  anchored := ho.anchored.passes hp
  pending_iff := ho.pending_iff
  immediate h hh hs := hp.made ▸ ho.immediate h hh hs

end RunsInOrder

end Single

end TurnPool
