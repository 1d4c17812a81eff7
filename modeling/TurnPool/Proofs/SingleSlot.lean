import TurnPool.Proofs.CrewEntries
import TurnPool.Proofs.GroupSlot

/-!
# The slot of a task that has a scheduler of its own

A scheduler calls an entry off when it is to be replaced, but an entry that was taken out of the
timetable arrives nevertheless. What keeps it from running the task is its epoch: the scheduler has
gone on to another one, and every entry that it does not wait for is *stale*. That is more than
`Single.RunsInOrder` says, where an entry that was called off may still carry the epoch of the
scheduler while no entry is waited for; a run that was claimed leaves the epoch as it is.

## Main results

* `Single.Stale`: every entry of a task but the one that is waited for has an older epoch.
* `Single.Stale.enact`, `Single.Stale.claim`: requests, outcomes and arrivals keep it so.
* `World.Reachable.stale`: it is so in every state.
* `World.single_slot`: the slot of a task, in every state.
-/

namespace TurnPool

open Recorded

/-- Whether an errand is a run of `task`. -/
def Errand.isRunOf (task : Nat) : Errand → Bool
  | .run i _ => i = task
  | .dispatch _ => false

/-- An errand is a run of `task` just if it is `.run task n` for some epoch `n`. -/
theorem Errand.isRunOf_iff {task : Nat} {e : Errand} :
    e.isRunOf task = true ↔ ∃ n, e = .run task n := by
  cases e <;> simp [isRunOf]

variable {Q ω : Type} [Timetable Q ω] [LawfulTimetable Q ω] {c : Coding ω}

namespace Single

variable {s : Single} {t t' : Recorded Q ω} {tr tr' : List (Nat × Errand)} {i j : Nat}

/-- Every undelivered entry of task `i` is the one that is waited for, or **stale**: its epoch is
older than the scheduler's. -/
def Stale (c : Coding ω) (i : Nat) (s : Single) (t : Recorded Q ω) (tr : List (Nat × Errand)) :
    Prop :=
  ∀ h n, Undelivered c t tr h (.run i n) → s.current = some (h, n) ∨ n < s.epoch

namespace Stale

/-- `Stale` is kept where nothing becomes undelivered. -/
theorem of_sub (h : Stale c i s t tr)
    (hsub : ∀ k n, Undelivered c t' tr' k (.run i n) → Undelivered c t tr k (.run i n)) :
    Stale c i s t' tr' :=
  fun k n hu => h k n (hsub k n hu)

/-- `Stale` is kept by what **another task** does. -/
theorem sameOtherEntries (h : Stale c i s t tr) (hmoved : SameOtherEntries c j tr t t')
    (hne : i ≠ j) :
    Stale c i s t' tr := by
  refine h.of_sub fun k n hu => ?_
  rcases hmoved.undelivered k _ hu with hold | ⟨m, heq⟩
  · exact hold
  · exact absurd (Errand.run.inj heq).1 hne

/-- `disarm` keeps `Stale`: the epoch moves past that of the entry that is called off. -/
theorem disarm (ho : Anchored c (.run i) s.current s.epoch t tr) (hkept : Accurate c t tr) :
    Stale c i (Single.disarm (s, t)).1 (Single.disarm (s, t)).2 tr := by
  intro k n hu
  have hle : n ≤ s.epoch := (anchored_disarm hkept ho).2.le k n hu
  exact Or.inr (Nat.lt_succ_of_le hle)

/-- `arm` makes an entry with a new epoch, and every other one is **stale**. -/
theorem arm (ho : Anchored c (.run i) s.current s.epoch t tr) (hkept : Accurate c t tr)
    (opts : SchedulerOptions) (now delay : Nat) :
    Stale c i (Single.arm opts (fun n => c.job (.run i n)) now delay (s, t)).1
      (Single.arm opts (fun n => c.job (.run i n)) now delay (s, t)).2 tr := by
  obtain ⟨hmoved, hnone⟩ := anchored_disarm hkept ho
  rw [arm_eq]
  intro k n hu
  rcases (undelivered_schedule now opts.priority delay hmoved.accurate).1 hu with ⟨rfl, heq⟩ | hu
  · obtain rfl := (Errand.run.inj heq).2
    refine Or.inl ?_
    rw [current, schedule_fst]
    rfl
  · exact Or.inr (Nat.lt_succ_of_le (hnone.le k n hu))

/-- `enact` keeps `Stale`. -/
theorem enact (h : Stale c i s t tr) (ho : RunsInOrder c i s t tr) (hkept : Accurate c t tr)
    (change : Lifecycle × Placement) (opts : SchedulerOptions) (now : Nat) :
    Stale c i (Single.enact opts (fun n => c.job (.run i n)) now change (s, t)).1
      (Single.enact opts (fun n => c.job (.run i n)) now change (s, t)).2 tr := by
  obtain ⟨l, placement⟩ := change
  have hanchored : Anchored c (.run i) ({ s with life := l } : Single).current s.epoch t tr :=
    ho.anchored
  cases placement with
  | unchanged => exact h
  | now => exact arm hanchored hkept opts now 0
  | after ms => exact arm hanchored hkept opts now (millis ms)
  | dropped => exact disarm hanchored hkept

/-- An undelivered entry of the current epoch is the one that is waited for. -/
theorem current_eq (h : Stale c i s t tr) {k : Nat}
    (hu : Undelivered c t tr k (.run i s.epoch)) : s.current = some (k, s.epoch) :=
  (h k s.epoch hu).resolve_right (Nat.lt_irrefl _)

/-- `claim` keeps `Stale`, whether the entry that arrives was waited for or not. -/
theorem claim (h : Stale c i s t tr) (hkept : Accurate c t tr) {k n : Nat}
    (there : (k, .run i n) ∈ tr) : Stale c i (s.claim n).2 t (tr.erase (k, .run i n)) := by
  intro k' m hu
  obtain ⟨hu, hne⟩ := (undelivered_arrive hkept there).1 hu
  by_cases hepoch : s.epoch = n
  · have hcurrent : s.current = some (k, n) := hepoch ▸ h.current_eq (hepoch ▸ Or.inr there)
    rw [epoch_claim]
    refine Or.inr ((h k' m hu).resolve_left fun hcurrent' => hne ?_)
    exact (Prod.mk.inj (Option.some.inj (hcurrent'.symm.trans hcurrent))).1
  · rw [Single.claim, if_neg hepoch]
    exact h k' m hu

end Stale

end Single

/-! ### All tasks -/

namespace Crew

variable {t t' : Recorded Q ω} {tr tr' : List (Nat × Errand)} {crew : Crew} {task : Nat}

/-- `Stale` holds of every task of the crew that has its own scheduler. -/
def Stale (c : Coding ω) (crew : Crew) (t : Recorded Q ω) (tr : List (Nat × Errand)) : Prop :=
  ∀ tasks, crew = .apart tasks → ∀ i s, tasks[i]? = some s → Single.Stale c i s t tr

namespace Stale

/-- `Stale` is kept where nothing becomes undelivered. -/
theorem of_sub (h : crew.Stale c t tr)
    (hsub : ∀ k e, Undelivered c t' tr' k e → Undelivered c t tr k e) : crew.Stale c t' tr' :=
  fun tasks hcrew i s hs => (h tasks hcrew i s hs).of_sub fun k n => hsub k (.run i n)

/-- For a group there is nothing to say. -/
theorem together (g : Group) : (Crew.together g).Stale c t tr := nofun

/-- What one task does keeps `Stale` for the crew, if it keeps it for that task. -/
theorem set {tasks : Array Single} (h : (apart tasks).Stale c t tr) {s' : Single}
    (hmoved : Single.SameOtherEntries c task tr t t') (hself : Single.Stale c task s' t' tr) :
    (apart (tasks.setIfInBounds task s')).Stale c t' tr := by
  rintro _ ⟨⟩
  exact SinglesInOrder.forall_set hself fun i s hne hs =>
    (h tasks rfl i s hs).sameOtherEntries hmoved hne

/-- `register` keeps `Stale`. -/
theorem register (h : crew.Stale c t tr) (hsettled : crew.EntriesSettled c t tr) (name : String) :
    (crew.register name).Stale c t tr := by
  cases crew with
  | together g => exact together _
  | apart tasks =>
    rintro _ ⟨⟩ i s hs
    rw [Array.getElem?_push] at hs
    split at hs
    · rename_i hi
      intro k n hu
      obtain ⟨j, m, heq, hlt⟩ := SinglesInOrder.run_of_undelivered hsettled k _ hu
      obtain rfl := (Errand.run.inj heq).1
      exact absurd hlt (Nat.not_lt_of_le (Nat.le_of_eq hi.symm))
    · exact h tasks rfl i s hs

/-- `request` keeps `Stale`. -/
theorem request (h : crew.Stale c t tr) (hsettled : crew.EntriesSettled c t tr)
    (hlt : task < crew.size)
    (opts : SchedulerOptions) (r : Readings) (what : Request) :
    (Crew.request opts c.job r what task (crew, t)).1.Stale c
      (Crew.request opts c.job r what task (crew, t)).2 tr := by
  cases crew with
  | together g => exact together _
  | apart tasks =>
    obtain ⟨s, hs⟩ := exists_single hlt
    have ho := SinglesInOrder.ordered hsettled task s hs
    have hkept := SinglesInOrder.accurate hsettled
    obtain ⟨hmoved, -⟩ := ho.enact hkept (Lifecycle.queued?_request opts.backoff what s.life) opts
      r.entry
    rw [request_apart opts c.job r hs]
    exact h.set hmoved ((h tasks rfl task s hs).enact ho hkept _ opts r.entry)

/-- `deliver` keeps `Stale`. -/
theorem deliver (h : crew.Stale c t tr) (hsettled : crew.EntriesSettled c t tr)
    (hlt : task < crew.size)
    (opts : SchedulerOptions) (r : Readings) (o : Outcome) :
    (Crew.deliver opts c.job r task o (crew, t)).2.1.Stale c
      (Crew.deliver opts c.job r task o (crew, t)).2.2 tr := by
  cases crew with
  | together g => exact together _
  | apart tasks =>
    obtain ⟨s, hs⟩ := exists_single hlt
    have ho := SinglesInOrder.ordered hsettled task s hs
    have hkept := SinglesInOrder.accurate hsettled
    obtain ⟨hmoved, -⟩ := ho.enact hkept (Lifecycle.queued?_deliver opts.backoff o s.life) opts
      r.entry
    rw [deliver_apart opts c.job r hs]
    exact h.set hmoved ((h tasks rfl task s hs).enact ho hkept _ opts r.entry)

/-- `arrive` keeps `Stale`. -/
theorem arrive (h : crew.Stale c t tr) (hsettled : crew.EntriesSettled c t tr) {k : Nat}
    {e : Errand}
    (there : (k, e) ∈ tr) (opts : SchedulerOptions) (r : Readings) :
    (Crew.arrive opts c.job r e (crew, t)).2.1.Stale c
      (Crew.arrive opts c.job r e (crew, t)).2.2 (tr.erase (k, e)) := by
  match e, crew with
  | .run task n, .apart tasks =>
    obtain ⟨i, m, heq, hlt⟩ := SinglesInOrder.run_of_undelivered hsettled k _ (Or.inr there)
    rw [← (Errand.run.inj heq).1] at hlt
    obtain ⟨s, hs⟩ := exists_single hlt
    have hkept := SinglesInOrder.accurate hsettled
    rw [arrive_run opts c.job r hs]
    rintro _ ⟨⟩
    refine SinglesInOrder.forall_set ((h tasks rfl task s hs).claim hkept there) fun i s₁ hne hs₁ =>
      ?_
    exact (h tasks rfl i s₁ hs₁).of_sub fun k' n' hu => ((undelivered_arrive hkept there).1 hu).1
  | .dispatch n, .together g => exact together _
  | .run task n, .together g => exact together _
  | .dispatch n, .apart tasks =>
    obtain ⟨i, m, heq, -⟩ := SinglesInOrder.run_of_undelivered hsettled k _ (Or.inr there)
    cases heq

end Stale

end Crew

namespace World

variable {w w' : World Q ω} {i : Nat} {s : Single} {tasks : Array Single}

/-- **Every step** keeps `Stale`. -/
theorem Step.stale (step : Step c w w') (hheld : w.HeldOwed)
    (hsettled : w.crew.EntriesSettled c w.desk w.transit) (h : w.crew.Stale c w.desk w.transit) :
    w'.crew.Stale c w'.desk w'.transit := by
  cases step with
  | register name => exact h.register hsettled name
  | request opts r what joined => exact h.request hsettled joined opts r what
  | take taken => exact h.of_sub (passes_takesOut hsettled.accurate taken).sub
  | @arrive opts r k e there =>
    obtain ⟨hcrew, hdesk, htransit⟩ := arrive_eq (w := w) (c := c) opts r k e
    rw [hcrew, hdesk, htransit]
    exact h.arrive hsettled there opts r
  | spend opts r unwinding how there =>
    obtain ⟨howed, hlt⟩ := hheld _ there
    rw [spend_of_owed howed]
    exact h.deliver hsettled hlt opts r _
  | stir stirred => exact h.of_sub (passes_keepsMine hsettled.accurate stirred).sub

/-- In every reachable world the entries that are not waited for are **stale**. -/
theorem Reachable.stale (h : Reachable c w) : w.crew.Stale c w.desk w.transit := by
  induction h with
  | new grouped sound theirs =>
    rintro _ - i s - k n hu
    exact absurd hu ((accurate_new sound theirs).2 k _)
  | step reached step ih => exact step.stale reached.heldOwed reached.entriesSettled ih

/-! ### The slot -/

/-- The runs of task `i` that **stand** in the timetable. -/
def standingRuns (c : Coding ω) (i : Nat) (w : World Q ω) : List (Slip ω) :=
  (w.standing c).filter fun x => (c.errand? x.work).any (Errand.isRunOf i)

/-- A run stands if it is live in the timetable. -/
theorem mem_standingRuns {x : Slip ω} :
    x ∈ w.standingRuns c i ↔ ∃ k n, x = ⟨k, c.job (.run i n), true⟩ ∧
      x ∈ LawfulTimetable.slips w.desk.table := by
  rw [standingRuns, List.mem_filter, mem_standing]
  constructor
  · rintro ⟨⟨k, e, rfl, hx⟩, hrun⟩
    rw [c.errand?_job] at hrun
    obtain ⟨n, rfl⟩ := Errand.isRunOf_iff.1 hrun
    exact ⟨k, n, rfl, hx⟩
  · rintro ⟨k, n, rfl, hx⟩
    refine ⟨⟨k, .run i n, rfl, hx⟩, ?_⟩
    rw [c.errand?_job]
    exact Errand.isRunOf_iff.2 ⟨n, rfl⟩

/-- **No more than one** run of a task stands in the timetable. -/
theorem length_standingRuns_le (hkept : Accurate c w.desk w.transit)
    (ho : Single.RunsInOrder c i s w.desk w.transit) : (w.standingRuns c i).length ≤ 1 := by
  have hcurrent : ∀ x ∈ w.standingRuns c i,
      x ∈ LawfulTimetable.slips w.desk.table ∧ s.pending = some x.handle := fun x hx => by
    obtain ⟨k, n, rfl, hslip⟩ := mem_standingRuns.1 hx
    have huncalled := (hkept.live_iff k _ true hslip).1 rfl
    obtain ⟨k', hk, hpair⟩ :=
      Option.map_eq_some_iff.1 (ho.anchored.only k n (Or.inl ⟨true, hslip⟩) huncalled)
    exact ⟨hslip, hk.trans (congrArg some (Prod.mk.inj hpair).1)⟩
  have hnodup : (w.standingRuns c i).Nodup := (nodup_standing hkept).filter _
  cases hruns : w.standingRuns c i with
  | nil => exact Nat.zero_le 1
  | cons x xs =>
    cases xs with
    | nil => exact Nat.le_refl 1
    | cons y ys =>
      -- Both are waited for, so they have one handle.
      rw [hruns] at hcurrent hnodup
      obtain ⟨hx, hxp⟩ := hcurrent x List.mem_cons_self
      obtain ⟨hy, hyp⟩ := hcurrent y (List.mem_cons_of_mem _ List.mem_cons_self)
      have heq : x = y := hkept.slip_unique hx hy (Option.some.inj (hxp.symm.trans hyp))
      exact absurd (heq ▸ List.mem_cons_self) (List.nodup_cons.1 hnodup).1

omit [LawfulTimetable Q ω] in
/-- An entry whose epoch is not the scheduler's **changes nothing but what is in transit**. -/
theorem arrive_of_epoch_ne (hcrew : w.crew = .apart tasks) (hs : tasks[i]? = some s) {n : Nat}
    (hne : s.epoch ≠ n) (opts : SchedulerOptions) (r : Readings) (k : Nat) :
    w.arrive c opts r k (.run i n) = { w with transit := w.transit.erase (k, .run i n) } := by
  have harrive : Crew.arrive opts c.job r (.run i n) (w.crew, w.desk) = (none, w.crew, w.desk) := by
    rw [hcrew, Crew.arrive_run opts c.job r hs, Single.claim_of_ne hne,
      Crew.setIfInBounds_self hs]
    rfl
  simp only [arrive, harrive]

/-- The **slot of task** `i` with its own scheduler `s`, in every reachable world. An entry is
`pending` just while a run is scheduled, and at most one run of the task is standing. While a run is
scheduled, the pending entry is the only undelivered one with the epoch of `s`, was not called off,
is live in the timetable or in `transit`, and claims the run when it arrives. Every other
undelivered entry has an older epoch, and its arrival changes nothing but `transit`. -/
theorem single_slot (h : Reachable c w) (hcrew : w.crew = .apart tasks)
    (hs : tasks[i]? = some s) :
    (s.pending.isSome = true ↔ s.life.state.isScheduled = true) ∧
    (w.standingRuns c i).length ≤ 1 ∧
    (s.life.state.isScheduled = true → ∃ k, s.pending = some k ∧
      (∀ k', Undelivered c w.desk w.transit k' (.run i s.epoch) ↔ k' = k) ∧
      k ∉ w.desk.calledOff ∧
      (⟨k, c.job (.run i s.epoch), true⟩ ∈ LawfulTimetable.slips w.desk.table ∨
        (k, .run i s.epoch) ∈ w.transit) ∧
      ∀ opts r, (Crew.arrive opts c.job r (.run i s.epoch) (w.crew, w.desk)).1 = some i) ∧
    (∀ k n, Undelivered c w.desk w.transit k (.run i n) → s.pending ≠ some k →
      n < s.epoch ∧ ∀ opts r, w.arrive c opts r k (.run i n) =
        { w with transit := w.transit.erase (k, .run i n) }) := by
  have hsettled : Crew.SinglesInOrder c tasks w.desk w.transit := by
    have := h.entriesSettled
    rwa [hcrew] at this
  have hkept := hsettled.accurate
  have ho := hsettled.ordered i s hs
  have hstale : Single.Stale c i s w.desk w.transit := h.stale tasks hcrew i s hs
  refine ⟨ho.pending_iff, length_standingRuns_le hkept ho, fun hqueued => ?_,
    fun k n hu hother => ?_⟩
  · obtain ⟨k, hk⟩ := Option.isSome_iff_exists.1 (ho.pending_iff.2 hqueued)
    have hcurrent := Single.current_of_pending hk
    have hthere := ho.anchored.there k s.epoch hcurrent
    have huncalled := ho.anchored.uncalled k s.epoch hcurrent
    refine ⟨k, hk, fun k' => ⟨fun hu => ?_, fun heq => heq ▸ hthere⟩, huncalled, ?_,
      fun opts r => ?_⟩
    · exact ho.anchored.unique k' k s.epoch hu hcurrent
    · refine hthere.imp_left fun ⟨live, hslip⟩ => ?_
      obtain rfl := (hkept.live_iff k _ live hslip).2 huncalled
      exact hslip
    · rw [hcrew, Crew.arrive_run opts c.job r hs, Single.claim_epoch hqueued]
      rfl
  · have hlt : n < s.epoch := (hstale k n hu).resolve_left fun hcurrent => by
      obtain ⟨k', hk, hpair⟩ := Option.map_eq_some_iff.1 hcurrent
      exact hother (hk.trans (congrArg some (Prod.mk.inj hpair).1))
    exact ⟨hlt, fun opts r => arrive_of_epoch_ne hcrew hs (Nat.ne_of_gt hlt) opts r k⟩

/-- When a task was started its entry stands in the queue, alone, and claims the run when it
arrives. When the task was stopped while the entry was out of the queue, the epoch is another one
and nothing comes of the arrival. -/
theorem single_slot_stopped :
    (∃ s k, (started false).crew = .apart #[s] ∧ s.pending = some k ∧
      ((started false).standingRuns .self 0).length ≤ 1 ∧
      (Crew.arrive default id ⟨0, 0, 0⟩ (.run 0 s.epoch)
        ((started false).crew, (started false).desk)).1 = some 0) ∧
    ∃ s, (stoppedUnderway false).crew = .apart #[s] ∧ 1 < s.epoch ∧
      (stoppedUnderway false).arrive .self default ⟨0, 0, 0⟩ 0 (.run 0 1) =
        { stoppedUnderway false with transit := [] } := by
  have hstarted : ∃ s, (started false).crew = .apart #[s] ∧ s.life.state.isScheduled = true :=
    ⟨_, rfl, rfl⟩
  have hstopped : ∃ s, (stoppedUnderway false).crew = .apart #[s] ∧ s.pending ≠ some 0 :=
    ⟨_, rfl, nofun⟩
  constructor
  · obtain ⟨s, hcrew, hqueued⟩ := hstarted
    obtain ⟨-, hone, halone, -⟩ := single_slot (reachable_started false) (i := 0) hcrew rfl
    obtain ⟨k, hk, -, -, -, hclaims⟩ := halone hqueued
    exact ⟨s, k, hcrew, hk, hone, hclaims default ⟨0, 0, 0⟩⟩
  · obtain ⟨s, hcrew, hother⟩ := hstopped
    have hu : Undelivered .self (stoppedUnderway false).desk (stoppedUnderway false).transit 0
        (.run 0 1) := Or.inr List.mem_cons_self
    obtain ⟨-, -, -, hstale⟩ :=
      single_slot (reachable_stoppedUnderway false) (i := 0) hcrew rfl
    obtain ⟨hlt, harrive⟩ := hstale 0 1 hu hother
    exact ⟨s, hcrew, hlt, harrive default ⟨0, 0, 0⟩⟩

end World

end TurnPool
