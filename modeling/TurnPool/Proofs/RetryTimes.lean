import TurnPool.Proofs.Backoffs
import TurnPool.Proofs.GroupTurns
import TurnPool.Proofs.Runs
import TurnPool.Proofs.SingleSlot

/-!
# Retries in their time

A run that is put off must not begin before its time. It is kept from that in two places. A task
that has a scheduler of its own has an entry in the event queue that is deferred, and the queue lets
it ripen only when its time has come. The tasks of a group have one entry in common, which may
arrive at any time, and the group itself keeps those that wait from being claimed.

## Until when a retry is to come

A retry that was put off is to come until a run of the task is claimed or asked for: whoever
schedules or starts the task has its run at once. Stopping the task does not bring the retry any
earlier, so the retry is still said to be to come then, and none of its runs is claimed anyway.

## The clock

The clock may stand still and may go on, and does not go back. All that happens to the queue at an
instant is one of its operations with that reading, whoever it is that uses the queue.

## Main results

* `Queue.Lapse.mem_deferred`: no entry leaves the deferred ones before its time.
* `Timed.Waits`: what holds back a retry, kept by every step (`Timed.Reachable.waits`).
* `Timed.Reachable.due_le_of_claimed`: no retry is claimed **before its time**.
* `Timed.retry_law`: the delays of the tasks, and that they are kept to.
-/

namespace TurnPool

namespace Stamped

/-- The retry of the task `i` that is still to come by a log, as its delay and the instant of the
outcome that put it off. -/
def pending? (i : Nat) : List Stamped → Option (Nat × Nat)
  | [] => none
  | .requested j what :: log => if j = i ∧ what ≠ .stop then none else pending? i log
  | .claimed j _ :: log => if j = i then none else pending? i log
  | .delivered j _ (some ms) at' :: log => if j = i then some (ms, at') else pending? i log
  | .delivered _ _ none _ :: log => pending? i log

variable {i j : Nat} {log : List Stamped} {x : Nat × Nat}

/-- If a retry of `i` is to come after a request was noted, it was to come before, and the request
was no other than `stop` if it was made of `i`. -/
theorem pending?_requested {what : Request}
    (h : pending? i (.requested j what :: log) = some x) :
    pending? i log = some x ∧ (j = i → what = .stop) := by
  rw [pending?] at h
  split at h
  · cases h
  · rename_i hnot
    exact ⟨h, fun hj => not_not.1 fun hwhat => hnot ⟨hj, hwhat⟩⟩

/-- If a retry of `i` is to come after a claim was noted, it was to come before, and the claim was
not of `i`. -/
theorem pending?_claimed {claimed : Option Nat} {at' : Nat}
    (h : pending? i (claimed.toList.map (.claimed · at') ++ log) = some x) :
    pending? i log = some x ∧ claimed ≠ some i := by
  cases claimed with
  | none => exact ⟨h, Option.some_ne_none i ∘ Eq.symm⟩
  | some j =>
    rw [Option.toList_some, List.map_singleton, List.singleton_append, pending?] at h
    split at h
    · cases h
    · rename_i hne
      exact ⟨h, fun hj => hne (Option.some.inj hj)⟩

/-- If a retry of `i` is to come after an outcome was noted, then that outcome put it off, or it was
to come before and the outcome put none of `i` off. -/
theorem pending?_delivered {o : Outcome} {retry : Option Nat} {at' : Nat}
    (h : pending? i (.delivered j o retry at' :: log) = some x) :
    (j = i ∧ retry = some x.1 ∧ x.2 = at') ∨ pending? i log = some x ∧ (j = i → retry = none) := by
  cases retry with
  | none => exact Or.inr ⟨h, fun _ => rfl⟩
  | some ms =>
    rw [pending?] at h
    split at h
    · rename_i hj
      cases h
      exact Or.inl ⟨hj, rfl, rfl⟩
    · rename_i hne
      exact Or.inr ⟨h, fun hj => absurd hj hne⟩

end Stamped

/-! ### Deferred entries -/

namespace Queue

variable {α : Type} {q q' : Queue α} {d : Deferred α} {now : Nat}

/-- `promote` drops from the deferred entries those at the head that are due by `now`. -/
theorem deferred_promote (now : Nat) (q : Queue α) :
    (q.promote now).deferred = q.deferred.dropWhile fun d => d.due ≤ now := by
  rw [promote, List.span_eq_takeWhile_dropWhile]
  dsimp only
  obtain ⟨ready, h⟩ := foldl_addReady
    ((q.deferred.takeWhile fun d => d.due ≤ now).filter fun d => q.isLive d.entry)
    { q with deferred := q.deferred.dropWhile fun d => d.due ≤ now }
  rw [h]

/-- A deferred entry that is not due by `now` is still deferred after `promote`. -/
theorem mem_deferred_promote (hd : d ∈ q.deferred) (hlt : now < d.due) :
    d ∈ (q.promote now).deferred := by
  rw [deferred_promote]
  exact mem_dropWhile_of_not hd (decide_eq_false (Nat.not_le.2 hlt))

/-- A deferred entry is still deferred after `offer`. -/
theorem mem_deferred_offer (hd : d ∈ q.deferred) (producer : Nat) (priority : Priority) (x : α) :
    d ∈ (q.offer producer priority x).2.deferred := by
  have htry : d ∈ (q.tryEnqueue priority x).2.deferred := by rwa [deferred_tryEnqueue]
  rw [offer]
  split <;> rename_i heq <;> rw [heq] at htry <;> exact htry

/-- A deferred entry that is not due by `now` is still deferred after `dequeue`. -/
theorem mem_deferred_dequeue (hd : d ∈ q.deferred) (hlt : now < d.due) :
    d ∈ (q.dequeue now).2.deferred := by
  rw [dequeue]
  split <;> exact mem_deferred_promote hd hlt

/-- A deferred entry that is not due by `now` is still deferred after `look`. -/
theorem mem_deferred_look (hd : d ∈ q.deferred) (hlt : now < d.due) (worker : Nat) :
    d ∈ (q.look worker now).2.deferred := by
  rw [look]
  split <;> exact mem_deferred_promote hd hlt

/-- What anybody may do to the queue **at the instant** `now`. -/
inductive Lapse (now : Nat) : Queue α → Queue α → Prop
  /-- An entry is added, whatever the depth. -/
  | push {q : Queue α} (priority : Priority) (delay : Nat) (x : α) :
      Lapse now q (q.push now priority delay x).2
  /-- An entry is added if there is room. -/
  | tryEnqueue {q : Queue α} (priority : Priority) (x : α) : Lapse now q (q.tryEnqueue priority x).2
  /-- A producer adds an entry, or goes to sleep. -/
  | offer {q : Queue α} (producer : Nat) (priority : Priority) (x : α) :
      Lapse now q (q.offer producer priority x).2
  /-- An entry is called off. -/
  | cancel {q : Queue α} (n : Nat) : Lapse now q (q.cancel n)
  /-- A worker takes the next entry, if there is one. -/
  | dequeue {q : Queue α} : Lapse now q (q.dequeue now).2
  /-- A worker looks for data. -/
  | look {q : Queue α} (worker : Nat) : Lapse now q (q.look worker now).2
  /-- Somebody begins or ceases to wait, or is roused. -/
  | waiters {q : Queue α} (producers idle : Waiters) : Lapse now q { q with producers, idle }

/-- A deferred entry that is not due by `now` is still deferred after anything that is done at
`now`. -/
theorem Lapse.mem_deferred (h : Lapse now q q') (hd : d ∈ q.deferred) (hlt : now < d.due) :
    d ∈ q'.deferred := by
  cases h with
  | push priority delay x => exact mem_deferred_push.2 (Or.inr hd)
  | tryEnqueue priority x => rwa [deferred_tryEnqueue]
  | offer producer priority x => exact mem_deferred_offer hd producer priority x
  | cancel n => rwa [deferred_cancel]
  | dequeue => exact mem_deferred_dequeue hd hlt
  | look worker => exact mem_deferred_look hd hlt worker
  | waiters producers idle => exact hd

/-- The regime of the event queue: the clock **does not go back**, and what others do is done at the
instant it shows (`Lapse`). -/
def onTime : Regime (Queue α) := ⟨(· ≤ ·), Lapse⟩

end Queue

/-! ### A task with an entry of its own -/

open Recorded

variable {ω : Type} {c : Coding ω}

namespace Single

variable {s : Single} {t : Recorded (Queue (Work ω)) ω} {entry : Nat → ω} {i due : Nat}

/-- The entry that the task waits for is **deferred until** `due`. -/
def Awaits (entry : Nat → ω) (due : Nat) (s : Single) (q : Queue (Work ω)) : Prop :=
  ∃ d ∈ q.deferred, d.due = due ∧ s.pending = some d.entry.number ∧
    d.entry.work = .event (entry s.epoch)

/-- If no entry that is due at `due` is lost from the deferred ones, then the task still awaits
`due`. -/
theorem Awaits.mono {q q' : Queue (Work ω)} (h : s.Awaits entry due q)
    (hmem : ∀ d ∈ q.deferred, d.due = due → d ∈ q'.deferred) : s.Awaits entry due q' := by
  obtain ⟨d, hd, hdue, hrest⟩ := h
  exact ⟨d, hmem d hd hdue, hdue, hrest⟩

/-- The task awaits `at' + delay` when the entry that it waits for was made at `at'` with that
delay. -/
theorem awaits_schedule {at' delay : Nat} {priority : Priority} (hdelay : delay ≠ 0)
    (hp : s.pending = some (Timetable.schedule at' priority delay (entry s.epoch) t).1) :
    s.Awaits entry (at' + delay)
      (Timetable.schedule at' priority delay (entry s.epoch) t).2.table := by
  have hnumber : s.pending = some t.table.nextNumber := hp.trans (congrArg some (schedule_fst ..))
  refine ⟨⟨at' + delay, priority, t.table.nextNumber, .event (entry s.epoch)⟩, ?_, rfl, hnumber,
    rfl⟩
  show _ ∈ (t.table.push at' priority delay (.event (entry s.epoch))).2.deferred
  exact Queue.mem_deferred_push.2 (Or.inl ⟨hdelay, rfl⟩)

/-- A task whose run was put off at `at'` by `ms` awaits the end of that delay, unless it is
zero. -/
theorem PutOff.awaits {ms at' : Nat} (h : s.PutOff entry ms at' t) (hms : millis ms ≠ 0) :
    s.Awaits entry (at' + millis ms) t.table := by
  obtain ⟨priority, t₀, hp, rfl⟩ := h
  exact awaits_schedule hms hp

section Enact

variable {d : Deferred (Work ω)} (hd : d ∈ t.table.deferred) (opts : SchedulerOptions)
  (entry : Nat → ω) (now : Nat)

include hd

/-- `Single.disarm` leaves the deferred entries deferred. -/
theorem mem_deferred_disarm (s : Single) : d ∈ (disarm (s, t)).2.table.deferred := by
  rw [disarm]
  dsimp only
  split
  · exact (Queue.deferred_cancel _ t.table).symm ▸ hd
  · exact hd

/-- `Single.arm` leaves the deferred entries deferred. -/
theorem mem_deferred_arm (delay : Nat) (s : Single) :
    d ∈ (arm opts entry now delay (s, t)).2.table.deferred :=
  Queue.mem_deferred_push.2 (Or.inr (mem_deferred_disarm hd s))

/-- `Single.enact` leaves the deferred entries deferred, whatever the change. -/
theorem mem_deferred_enact (change : Lifecycle × Placement) (s : Single) :
    d ∈ (enact opts entry now change (s, t)).2.table.deferred := by
  obtain ⟨l, placement⟩ := change
  cases placement with
  | unchanged => exact hd
  | now => exact mem_deferred_arm hd opts entry now 0 _
  | after ms => exact mem_deferred_arm hd opts entry now (millis ms) _
  | dropped => exact mem_deferred_disarm hd _

end Enact

/-- While the entry that a task awaits is deferred, no entry that is in transit has its epoch. -/
theorem Awaits.epoch_ne {tr : List (Nat × Errand)}
    (h : s.Awaits (fun n => c.job (.run i n)) due t.table) (hkept : Accurate c t tr)
    (hstale : Single.Stale c i s t tr) {k n : Nat} (there : (k, .run i n) ∈ tr) : s.epoch ≠ n := by
  rintro rfl
  obtain ⟨d, hd, -, hp, hwork⟩ := h
  -- An entry that arrives in the epoch is the deferred one, and that is still in the queue.
  have hcurrent := hstale.current_eq (Or.inr there)
  rw [current_of_pending hp] at hcurrent
  obtain ⟨hnumber, -⟩ := Prod.mk.inj (Option.some.inj hcurrent)
  have hslip : (⟨k, c.job (.run i s.epoch), t.table.isLive d.entry⟩ : Slip ω) ∈ t.table.slips :=
    Queue.mem_slips.2 ⟨d.entry, List.mem_append_right _ (List.mem_map_of_mem hd), hnumber, hwork,
      rfl⟩
  exact hkept.gone k _ there _ _ hslip

end Single

/-! ### A task of a group -/

namespace Group

variable {Q : Type} [Timetable Q ω] {g g' : Group} {i due : Nat}

/-- A task of a group still awaits `due` if the group keeps its place. -/
theorem Awaits.of_keepsPlace (h : g.Awaits i due) (hplace : KeepsPlace i g g') :
    g'.Awaits i due := by
  obtain ⟨k, hk, hi, hdue⟩ := h
  exact ⟨k, hplace.waits k hk hi, hi, hdue⟩

/-- A `dispatch` whose deadline is before `due` leaves a task awaiting `due`. -/
theorem Awaits.dispatch (h : g.Awaits i due) (htidy : g.Tidy) (opts : SchedulerOptions)
    (entry : Nat → ω) {r : Readings} (hlt : r.deadline < due) (epoch : Nat) (q : Q) :
    (Group.dispatch opts entry r epoch (g, q)).2.1.Awaits i due := by
  obtain ⟨k, hk, hi, hdue⟩ := h
  have hstep := htidy.lineStep_dispatch i (m := ⟨opts, entry, r, q, .dispatch epoch⟩) rfl
  refine ⟨k, ?_, hi, hdue⟩
  show k ∈ (g.after ⟨opts, entry, r, q, .dispatch epoch⟩).delayed
  cases hstep with
  | aside harrives hstarted hplace => exact hplace.waits k hk hi
  | taken id harrives hstarted hleft hscheduled hdelayed => rwa [hdelayed]
  | renewed harrives hleft hscheduled hfirst htaken hdelayed =>
    rw [hdelayed]
    exact mem_dropWhile_of_lt_deadline hk (hdue ▸ hlt)

/-- A task of a group that awaits some instant is scheduled with a delay. -/
theorem Awaits.state (h : g.Awaits i due) (htidy : g.Tidy) :
    (g.life i).state = .scheduled true := by
  obtain ⟨k, hk, rfl, -⟩ := h
  exact htidy.state_of_mem_delayed hk

end Group

/-! ### What holds back a run -/

namespace Crew

variable {crew : Crew} {t t' : Recorded (Queue (Work ω)) ω} {tr : List (Nat × Errand)}
  {i due task : Nat}

/-- Something **holds back** the run of the task `i` until `due`: its own entry is deferred until
then, or the group has it wait. -/
def Holds (c : Coding ω) (i due : Nat) (q : Queue (Work ω)) : Crew → Prop
  | .apart tasks => ∃ s, tasks[i]? = some s ∧ s.Awaits (fun n => c.job (.run i n)) due q
  | .together g => g.Awaits i due

/-- A run that was put off at `at'` by `ms` is held back until the end of that delay, unless it is
zero. -/
theorem PutOff.holds {ms at' : Nat} (h : crew.PutOff c.job i ms at' t) :
    millis ms = 0 ∨ crew.Holds c i (at' + millis ms) t.table := by
  cases crew with
  | apart tasks =>
    obtain ⟨s, hs, hput⟩ := h
    exact or_iff_not_imp_left.2 fun hms => ⟨s, hs, hput.awaits hms⟩
  | together g => exact Or.inr h

namespace Holds

/-- If no entry that is due at `due` is lost from the deferred ones, the run is still held back. -/
theorem mono {q q' : Queue (Work ω)} (h : crew.Holds c i due q)
    (hmem : ∀ d ∈ q.deferred, d.due = due → d ∈ q'.deferred) : crew.Holds c i due q' := by
  cases crew with
  | apart tasks =>
    obtain ⟨s, hs, hawaits⟩ := h
    exact ⟨s, hs, hawaits.mono hmem⟩
  | together g => exact h

/-- What others do to the queue at an instant before `due` leaves the run held back. -/
theorem lapse {now : Nat} {q q' : Queue (Work ω)} (h : crew.Holds c i due q)
    (hlapse : Queue.Lapse now q q') (hlt : now < due) : crew.Holds c i due q' :=
  h.mono fun _ hd hdue => hlapse.mem_deferred hd (hdue ▸ hlt)

/-- When a task joins, the run is still held back. -/
theorem register {q : Queue (Work ω)} (h : crew.Holds c i due q) (name : String) :
    (crew.register name).Holds c i due q := by
  cases crew with
  | apart tasks =>
    obtain ⟨s, hs, hawaits⟩ := h
    refine ⟨s, ?_, hawaits⟩
    rw [Array.getElem?_push, if_neg, hs]
    exact Nat.ne_of_lt (Array.getElem?_eq_some_iff.1 hs).1
  | together g => exact h

/-- When another task than `i` changes, and no deferred entry is lost, the run of `i` is still held
back. -/
theorem set {tasks : Array Single} (h : (apart tasks).Holds c i due t.table) (hne : task ≠ i)
    (s' : Single) (hmem : ∀ d ∈ t.table.deferred, d ∈ t'.table.deferred) :
    (apart (tasks.setIfInBounds task s')).Holds c i due t'.table := by
  obtain ⟨s, hs, hawaits⟩ := h
  refine ⟨s, ?_, hawaits.mono fun d hd _ => hmem d hd⟩
  rw [Array.getElem?_setIfInBounds, if_neg hne, hs]

/-- A request to another task leaves the run of `i` held back. -/
theorem request (h : crew.Holds c i due t.table) (hsettled : crew.EntriesSettled c t tr)
    (hlt : task < crew.size) (hne : task ≠ i) (opts : SchedulerOptions) (r : Readings)
    (what : Request) :
    (Crew.request opts c.job r what task (crew, t)).1.Holds c i due
      (Crew.request opts c.job r what task (crew, t)).2.table := by
  cases crew with
  | apart tasks =>
    obtain ⟨s, hs⟩ := exists_single hlt
    rw [request_apart opts c.job r hs]
    exact h.set hne _ fun d hd => Single.mem_deferred_enact hd opts _ r.entry _ s
  | together g =>
    have htidy := Group.TidyInOrder.tidy hsettled
    exact Group.Awaits.of_keepsPlace h (.enact htidy (Or.inl hne) opts _ r t)

/-- An outcome of another task leaves the run of `i` held back. -/
theorem deliver (h : crew.Holds c i due t.table) (hsettled : crew.EntriesSettled c t tr)
    (hlt : task < crew.size) (hne : task ≠ i) (opts : SchedulerOptions) (r : Readings)
    (o : Outcome) :
    (Crew.deliver opts c.job r task o (crew, t)).2.1.Holds c i due
      (Crew.deliver opts c.job r task o (crew, t)).2.2.table := by
  cases crew with
  | apart tasks =>
    obtain ⟨s, hs⟩ := exists_single hlt
    rw [deliver_apart opts c.job r hs]
    exact h.set hne _ fun d hd => Single.mem_deferred_enact hd opts _ r.entry _ s
  | together g =>
    have htidy := Group.TidyInOrder.tidy hsettled
    exact Group.Awaits.of_keepsPlace h (.enact htidy (Or.inl hne) opts _ r t)

/-- An entry that arrives with a deadline before `due` **does not claim the run** of `i`, which is
still held back. -/
theorem arrive (h : crew.Holds c i due t.table) (hsettled : crew.EntriesSettled c t tr)
    (hstale : crew.Stale c t tr) {k : Nat} {e : Errand} (there : (k, e) ∈ tr)
    (opts : SchedulerOptions) {r : Readings} (hlt : r.deadline < due) :
    (Crew.arrive opts c.job r e (crew, t)).1 ≠ some i ∧
      (Crew.arrive opts c.job r e (crew, t)).2.1.Holds c i due
        (Crew.arrive opts c.job r e (crew, t)).2.2.table := by
  match e, crew with
  | .run task n, .apart tasks =>
    obtain ⟨j, m, heq, htask⟩ := SinglesInOrder.run_of_undelivered hsettled k _ (Or.inr there)
    rw [← (Errand.run.inj heq).1] at htask
    obtain ⟨s, hs⟩ := exists_single htask
    rw [arrive_run opts c.job r hs]
    by_cases hne : task = i
    · subst hne
      obtain ⟨s', hs', hawaits⟩ := h
      obtain rfl : s' = s := Option.some.inj (hs'.symm.trans hs)
      have hepoch :=
        hawaits.epoch_ne (SinglesInOrder.accurate hsettled) (hstale tasks rfl task s' hs) there
      rw [Single.claim_of_ne hepoch, setIfInBounds_self hs]
      exact ⟨Option.some_ne_none task ∘ Eq.symm, s', hs, hawaits⟩
    · refine ⟨fun hclaimed => ?_, h.set hne _ fun _ hd => hd⟩
      split at hclaimed
      · exact hne (Option.some.inj hclaimed)
      · cases hclaimed
  | .dispatch n, .together g =>
    have htidy := Group.TidyInOrder.tidy hsettled
    have hstill := Group.Awaits.dispatch h htidy opts (fun n => c.job (.dispatch n)) hlt n t
    refine ⟨fun hclaimed => ?_, hstill⟩
    have hclaims := claimsRun_arrive opts c.job r (.dispatch n) (together g, t)
    have hstate := hstill.state (htidy.dispatch opts _ r n t)
    cases hstate.symm.trans (hclaims.begun i hclaimed).2
  | .run task n, .together g => exact ⟨Option.some_ne_none i ∘ Eq.symm, h⟩
  | .dispatch n, .apart tasks => exact ⟨Option.some_ne_none i ∘ Eq.symm, h⟩

end Holds

end Crew

/-! ### Over a run -/

/-- Readings after `now` are in order: `now ≤ r.deadline ≤ r.entry`. -/
theorem Regime.Reads.le {α : Type} {now : Nat} {r : Readings}
    (reads : (Queue.onTime : Regime (Queue α)).Reads now r) :
    now ≤ r.deadline ∧ r.deadline ≤ r.entry :=
  ⟨reads.deadline, Nat.le_trans reads.arm reads.entry⟩

/-- The instant that a crew is stamped with is not after `r.entry`. -/
theorem Crew.stamp_le {α : Type} {now : Nat} {r : Readings} (crew : Crew)
    (reads : (Queue.onTime : Regime (Queue α)).Reads now r) : crew.stamp r ≤ r.entry := by
  cases crew with
  | apart tasks => exact Nat.le_refl _
  | together g => exact reads.le.2

namespace Timed

variable {bounds : Nat → BackoffConfig} {t t' : Timed (Queue (Work ω)) ω} {i due : Nat}

/-- The retry of the task `i` is not claimed before `due`: no run of it is in flight, and if one is
queued, then `due` is over or something holds the run back until then. -/
structure Waits (c : Coding ω) (i due : Nat) (t : Timed (Queue (Work ω)) ω) : Prop where
  /-- No run of the task is under way. -/
  idle : (t.lives i).state.isInFlight = false
  /-- A run that is queued is held back until then. -/
  held : (t.lives i).state.isScheduled = true →
    due ≤ t.now ∨ t.world.crew.Holds c i due t.world.desk.table

namespace Waits

/-- A step that leaves the lifecycle of `i` alone, and keeps what holds its run back, keeps the
retry waiting. -/
theorem of_lives (h : t.Waits c i due) (hlives : t'.lives i = t.lives i) (hnow : t.now ≤ t'.now)
    (hholds : t.world.crew.Holds c i due t.world.desk.table →
      due ≤ t'.now ∨ t'.world.crew.Holds c i due t'.world.desk.table) : t'.Waits c i due where
  idle := hlives ▸ h.idle
  held hs := by
    rcases h.held (hlives ▸ hs) with hdue | hheld
    · exact Or.inl (Nat.le_trans hdue hnow)
    · exact hholds hheld

/-- The request `stop` to `i` itself keeps its retry waiting. -/
theorem stop (h : t.Waits c i due) (hlt : i < t.world.crew.size) (opts : SchedulerOptions)
    (r : Readings) : (t.request c opts r .stop i).Waits c i due := by
  have hstate : ((t.request c opts r .stop i).lives i).state =
      ((t.lives i).state.request .stop).1 := by
    rw [lives_request hlt, Function.update_self, Lifecycle.state_request]
  refine ⟨?_, fun hs => ?_⟩
  · rw [hstate, TaskState.isInFlight_request]
    exact h.idle
  · rw [hstate] at hs
    have hpromise := TaskState.promisesRun_of_isScheduled hs
    rw [TaskState.promisesRun_stop] at hpromise
    cases hpromise

section Reached

variable (reached : Reachable c bounds Queue.onTime t) {opts : SchedulerOptions} {r : Readings}
  (reads : (Queue.onTime : Regime (Queue (Work ω))).Reads t.now r)

include reached reads

/-- A request to **another task** keeps the retry of `i` waiting. -/
theorem request (h : t.Waits c i due) (what : Request) {task : Nat}
    (hlt : task < t.world.crew.size) (hne : task ≠ i) :
    (t.request c opts r what task).Waits c i due := by
  refine h.of_lives ?_ (Nat.le_trans reads.le.1 reads.le.2) fun hheld =>
    Or.inr (hheld.request reached.world.entriesSettled hlt hne opts r what)
  rw [lives_request hlt, Function.update_of_ne hne.symm]

/-- The end of a run of **another task** keeps the retry of `i` waiting. -/
theorem spend (h : t.Waits c i due) (unwinding : Bool) (how : Fate) {x : Nat × Completion}
    (there : x ∈ t.world.held) (hne : x.2.task ≠ i) :
    (t.spend c opts r unwinding how x).Waits c i due := by
  have hheldOwed := reached.world.heldOwed
  refine h.of_lives ?_ (Nat.le_trans reads.le.1 reads.le.2) fun hheld => Or.inr ?_
  · rw [lives_spend hheldOwed there, Function.update_of_ne hne.symm]
  · rw [world_spend hheldOwed there]
    exact hheld.deliver reached.world.entriesSettled (hheldOwed _ there).2 hne opts r _

/-- When a run of a task ends and a retry is put off by `ms`, that retry waits until the end of the
delay. -/
theorem of_putOff (unwinding : Bool) (how : Fate) {x : Nat × Completion}
    (there : x ∈ t.world.held) {ms : Nat}
    (hms : ((t.lives x.2.task).deliver opts.backoff (how.ending unwinding)).1.2.delay? = some ms) :
    (t.spend c opts r unwinding how x).Waits c x.2.task (t.world.crew.stamp r + millis ms) := by
  have hheldOwed := reached.world.heldOwed
  refine ⟨?_, fun _ => ?_⟩
  · rw [lives_spend hheldOwed there, Function.update_self]
    exact Lifecycle.isInFlight_deliver ..
  · rcases (putOff_spend hheldOwed there hms).holds with hzero | hheld
    · rw [hzero]
      exact Or.inl (t.world.crew.stamp_le reads)
    · exact Or.inr hheld

/-- If an entry claims the run of `i`, then `due` is not after the deadline it arrives with. -/
theorem due_le (h : t.Waits c i due) {k : Nat} {e : Errand} (there : (k, e) ∈ t.world.transit)
    (hclaims : t.claims c opts r e = some i) : due ≤ r.deadline := by
  have hbegun := (Crew.claimsRun_arrive opts c.job r e (t.world.crew, t.world.desk)).begun i hclaims
  rcases h.held hbegun.1 with hdue | hheld
  · exact Nat.le_trans hdue reads.le.1
  · by_contra hlt
    exact (hheld.arrive reached.world.entriesSettled reached.world.stale there opts
      (Nat.lt_of_not_le hlt)).1 hclaims

/-- An entry that arrives and does not claim the run of `i` keeps its retry waiting. -/
theorem arrive (h : t.Waits c i due) {k : Nat} {e : Errand} (there : (k, e) ∈ t.world.transit)
    (hclaims : t.claims c opts r e ≠ some i) : (t.arrive c opts r k e).Waits c i due := by
  obtain ⟨hcrew, hdesk, -⟩ := World.arrive_eq (w := t.world) (c := c) opts r k e
  have hother := (Crew.claimsRun_arrive opts c.job r e (t.world.crew, t.world.desk)).other i hclaims
  have hstate : ((t.arrive c opts r k e).lives i).state = (t.lives i).state ∨
      ((t.arrive c opts r k e).lives i).state = (t.lives i).state.ripen := by
    rw [lives, Timed.arrive, World.lives, hcrew]
    exact hother.imp (congrArg Lifecycle.state) (congrArg Lifecycle.state)
  refine ⟨?_, fun hs => ?_⟩
  · rcases hstate with heq | heq <;> rw [heq]
    · exact h.idle
    · rw [TaskState.isInFlight_ripen]
      exact h.idle
  · have hqueued : (t.lives i).state.isScheduled = true := by
      rcases hstate with heq | heq <;> rw [heq] at hs
      · exact hs
      · rwa [TaskState.isScheduled_ripen] at hs
    by_cases hdue : due ≤ r.deadline
    · exact Or.inl (Nat.le_trans hdue reads.le.2)
    · rcases h.held hqueued with hdue' | hheld
      · exact absurd (Nat.le_trans hdue' reads.le.1) hdue
      · have hstill := (hheld.arrive reached.world.entriesSettled reached.world.stale there opts
          (Nat.lt_of_not_le hdue)).2
        rw [← hcrew, ← hdesk] at hstill
        exact Or.inr hstill

end Reached

/-- What others do to the queue **at an instant**, while entries are in transit, keeps the retry of
`i` waiting. -/
theorem lapse (h : t.Waits c i due) {table : Queue (Work ω)} {now : Nat} (later : t.now ≤ now)
    (lapse : Queue.Lapse now t.world.desk.table table) (transit : List (Nat × Errand)) :
    Waits c i due { t with
      world := { t.world with desk := { t.world.desk with table }, transit }, now } := by
  refine h.of_lives rfl later fun hheld => ?_
  by_cases hdue : due ≤ now
  · exact Or.inl hdue
  · exact Or.inr (hheld.lapse lapse (Nat.lt_of_not_le hdue))

end Waits

/-- **One step.** Every retry that is to come after a step waits until the end of its delay, if that
was so before the step. -/
theorem Step.waits (reached : Reachable c bounds Queue.onTime t)
    (step : Step c bounds Queue.onTime t t')
    (h : ∀ ms failed, Stamped.pending? i t.log = some (ms, failed) →
      t.Waits c i (failed + millis ms))
    {ms failed : Nat} (hretry : Stamped.pending? i t'.log = some (ms, failed)) :
    t'.Waits c i (failed + millis ms) := by
  cases step with
  | register name =>
    refine (h ms failed hretry).of_lives ?_ (Nat.le_refl _) fun hheld =>
      Or.inr (hheld.register name)
    rw [lives, lives, World.lives, Crew.lives_register]
    rfl
  | @request opts r what task joined own reads =>
    obtain ⟨hbefore, hstop⟩ := Stamped.pending?_requested hretry
    by_cases hne : task = i
    · obtain rfl := hstop hne
      subst hne
      exact (h ms failed hbefore).stop joined opts r
    · exact (h ms failed hbefore).request reached reads what joined hne
  | take taken later lapse => exact (h ms failed hretry).lapse later lapse _
  | @arrive opts r k e there reads =>
    obtain ⟨hbefore, hclaims⟩ := Stamped.pending?_claimed hretry
    exact (h ms failed hbefore).arrive reached reads there hclaims
  | @spend opts r unwinding how x there own reads =>
    rcases Stamped.pending?_delivered hretry with ⟨rfl, hms, rfl⟩ | ⟨hbefore, -⟩
    · exact Waits.of_putOff reached reads unwinding how there hms
    · have hwaits := h ms failed hbefore
      refine hwaits.spend reached reads unwinding how there ?_
      -- The run that ends was under way, so its task has no retry to come.
      rintro rfl
      have hflight := (reached.world.runsAccounted.inFlight_iff _).2 (List.mem_map_of_mem there)
      exact absurd (hwaits.idle.symm.trans hflight) Bool.false_ne_true
  | stir stirred later lapse => exact (h ms failed hretry).lapse later lapse _

/-- **A whole run.** In every state that a crew at the event queue can come to, every retry that is
to come waits until the end of its delay. -/
theorem Reachable.waits (h : Reachable c bounds Queue.onTime t) {ms failed : Nat}
    (hretry : Stamped.pending? i t.log = some (ms, failed)) : t.Waits c i (failed + millis ms) := by
  induction h generalizing ms failed with
  | new grouped sound theirs now => cases hretry
  | step reached step ih => exact step.waits reached (fun _ _ => ih) hretry

/-- No run that was put off is claimed **before the end of its delay**. -/
theorem Reachable.due_le_of_claimed (h : Reachable c bounds Queue.onTime t) {at' ms failed : Nat}
    {older : List Stamped} (hclaimed : .claimed i at' :: older <:+ t.log)
    (hretry : Stamped.pending? i older = some (ms, failed)) : failed + millis ms ≤ at' := by
  induction h with
  | new grouped sound theirs now => cases List.suffix_nil.1 hclaimed
  | @step t t' reached step ih =>
    cases step with
    | register name => exact ih hclaimed
    | request opts r what joined own reads =>
      rcases List.suffix_cons_iff.1 hclaimed with heq | hbefore
      · cases heq
      · exact ih hbefore
    | take taken later lapse => exact ih hclaimed
    | @arrive opts r k e there reads =>
      cases hclaims : t.claims c opts r e with
      | none =>
        rw [Timed.arrive, hclaims] at hclaimed
        exact ih hclaimed
      | some j =>
        rw [Timed.arrive, hclaims] at hclaimed
        rcases List.suffix_cons_iff.1 hclaimed with heq | hbefore
        · obtain ⟨hhead, rfl⟩ := List.cons.inj heq
          obtain ⟨rfl, rfl⟩ := Stamped.claimed.inj hhead
          exact (reached.waits hretry).due_le reached reads there hclaims
        · exact ih hbefore
    | spend opts r unwinding how there own reads =>
      rcases List.suffix_cons_iff.1 hclaimed with heq | hbefore
      · cases heq
      · exact ih hbefore
    | stir stirred later lapse => exact ih hclaimed

/-- **The delays of retries**, of either kind of crew and for any bounds, in every reachable state:

* the backoff of a task is 0 if no retry of it was put off since its last success, and otherwise
  `minDelayMs` doubled for each retry but the first, at most `maxDelayMs`; doubling it does not
  overflow;
* a step that delivers no outcome to the task keeps its backoff, and one that does has `Ended` it: a
  success resets it, a retry grows it and **is put off by it**, any other outcome keeps it;
* at the event queue, with a clock that does not go back, no retry that is pending is claimed before
  its delay is over. -/
theorem retry_law {Q : Type} [Timetable Q ω] [LawfulTimetable Q ω] (c : Coding ω)
    (bounds : Nat → BackoffConfig) :
    (∀ (s : Regime Q) (t : Timed Q ω), Reachable c bounds s t →
      (∀ i, (t.lives i).backoff.currentMs =
          (if Stamped.retries i t.log = 0 then 0
            else min (bounds i).maxDelayMs
              ((bounds i).minDelayMs * 2 ^ (Stamped.retries i t.log - 1))) ∧
        ((bounds i).maxDelayMs ≤ wordMax →
          (Span.ofMillis (t.lives i).backoff.currentMs).twice =
            .ok (Span.ofMillis ((t.lives i).backoff.currentMs * 2)))) ∧
      ∀ t', Step c bounds s t t' → ∀ i,
        ((∀ o retry at', t'.log ≠ .delivered i o retry at' :: t.log) →
          (t'.lives i).backoff = (t.lives i).backoff) ∧
        ∀ o retry at', t'.log = .delivered i o retry at' :: t.log →
          Ended c i o retry at' t t') ∧
    ∀ t : Timed (Queue (Work ω)) ω, Reachable c bounds Queue.onTime t →
      ∀ i at' older ms failed, .claimed i at' :: older <:+ t.log →
        Stamped.pending? i older = some (ms, failed) → failed + millis ms ≤ at' := by
  refine ⟨fun s t reached => ⟨fun i => ?_, fun t' step i => ⟨fun hquiet => ?_, ?_⟩⟩,
    fun t reached i at' older ms failed hclaimed hpending =>
      reached.due_le_of_claimed hclaimed hpending⟩
  · rw [reached.backoff_eq i]
    refine ⟨?_, fun hword => Span.twice_ofMillis ?_⟩
    · cases Stamped.retries i t.log <;> rfl
    · exact Nat.le_trans ((bounds i).delayAfter_le _) hword
  · exact step.backoff_eq reached.world.heldOwed hquiet
  · intro o retry at' hlog
    exact step.ended reached.world.heldOwed hlog

/-! ### One retry at the event queue -/

/-- A crew of one task, which was started. -/
def started (grouped : Bool) : Timed (Queue (Work Errand)) Errand :=
  ⟨World.started grouped, 0, [.requested 0 .start]⟩

/-- The same crew when the first entry of the task was taken out of the queue. -/
def underway (grouped : Bool) : Timed (Queue (Work Errand)) Errand :=
  { started grouped with world := World.underway grouped }

/-- The same crew when the first run has begun. -/
def begun (grouped : Bool) : Timed (Queue (Work Errand)) Errand :=
  (underway grouped).arrive .self default ⟨0, 0, 0⟩ 0 (World.firstErrand grouped)

/-- The same crew when the completion of the run was dropped. -/
def putOff (grouped : Bool) : Timed (Queue (Work Errand)) Errand :=
  (begun grouped).spend .self default ⟨0, 0, 0⟩ false .abandon (0, .fresh 0)

/-- The second entry of the task. -/
def secondErrand (grouped : Bool) : Errand := if grouped then .dispatch 2 else .run 0 2

/-- The same crew when the second entry was taken out of the queue, a second later. -/
def ripened (grouped : Bool) : Timed (Queue (Work Errand)) Errand :=
  let t := putOff grouped
  { t with
    world := { t.world with
      desk := { t.world.desk with table := (t.world.desk.table.dequeue 1000000000).2 }
      transit := (1, secondErrand grouped) :: t.world.transit }
    now := 1000000000 }

/-- The same crew when the second run has begun. -/
def again (grouped : Bool) : Timed (Queue (Work Errand)) Errand :=
  (ripened grouped).arrive .self default ⟨1000000000, 1000000000, 1000000000⟩ 1
    (secondErrand grouped)

/-- Three equal readings of the clock are readings after that instant. -/
theorem reads_self (now : Nat) :
    (Queue.onTime : Regime (Queue (Work Errand))).Reads now ⟨now, now, now⟩ :=
  ⟨Nat.le_refl now, Nat.le_refl now, Nat.le_refl now⟩

/-- The crew of one task can come to the state in which its first run has begun. -/
theorem reachable_begun (grouped : Bool) :
    Reachable .self (fun _ => default) Queue.onTime (begun grouped) := by
  have hsound : LawfulTimetable.Sound (Queue.new 8 : Queue (Work Errand)) :=
    ⟨nofun, List.nodup_nil, nofun⟩
  have hstarted : Reachable .self (fun _ => default) Queue.onTime (started grouped) := by
    refine .step (.step (.new grouped hsound nofun 0) (.register "task"))
      (.request default _ .start ?_ rfl (reads_self 0))
    cases grouped <;> decide
  have htaken := Queue.takesOut_of_dequeue (World.dequeue_started grouped) rfl
  exact .step (.step hstarted (.take htaken (Nat.le_refl 0) .dequeue))
    (.arrive default _ List.mem_cons_self (reads_self 0))

/-- Dropping the completion of the first run is a step. -/
theorem step_putOff (grouped : Bool) :
    Step .self (fun _ => default) Queue.onTime (begun grouped) (putOff grouped) := by
  refine .spend default _ false .abandon ?_ rfl (reads_self 0)
  cases grouped <;> exact List.mem_cons_self

/-- After a second the queue answers with the second entry of the task. -/
theorem dequeue_putOff (grouped : Bool) :
    (putOff grouped).world.desk.table.dequeue 1000000000 =
      ((some ⟨default, 1, .event (secondErrand grouped)⟩, true),
        ((putOff grouped).world.desk.table.dequeue 1000000000).2) := by
  cases grouped <;> rfl

/-- The crew can come to the state in which the retry was put off. -/
theorem reachable_putOff (grouped : Bool) :
    Reachable .self (fun _ => default) Queue.onTime (putOff grouped) :=
  (reachable_begun grouped).step (step_putOff grouped)

/-- The crew can come to the state in which the second run has begun. -/
theorem reachable_again (grouped : Bool) :
    Reachable .self (fun _ => default) Queue.onTime (again grouped) := by
  have htaken := Queue.takesOut_of_dequeue (dequeue_putOff grouped) rfl
  have hripened : Reachable .self (fun _ => default) Queue.onTime (ripened grouped) :=
    (reachable_putOff grouped).step (.take htaken (Nat.zero_le _) .dequeue)
  exact hripened.step (.arrive default _ List.mem_cons_self (reads_self 1000000000))

/-- When the first run has failed its retry is put off by a second, from the failure on. When the
entry of the task is taken out of the queue, that second is over, and the second run is claimed. -/
theorem retry_law_again :
    ((putOff true).lives 0).backoff.currentMs = 1000 ∧
      (Span.ofMillis ((putOff true).lives 0).backoff.currentMs).twice = .ok (Span.ofMillis 2000) ∧
      Ended .self 0 .dropped (some 1000) 0 (begun true) (putOff true) ∧
      ((putOff true).lives 1).backoff = ((begun true).lives 1).backoff ∧
      .claimed 0 1000000000 :: (putOff true).log <:+ (again true).log ∧
      0 + millis 1000 ≤ 1000000000 := by
  have hlaw := retry_law (Q := Queue (Work Errand)) .self fun _ => default
  obtain ⟨hdelays, -⟩ := hlaw.1 Queue.onTime (putOff true) (reachable_putOff true)
  obtain ⟨-, hsteps⟩ := hlaw.1 Queue.onTime (begun true) (reachable_begun true)
  obtain ⟨hdelay, htwice⟩ := hdelays 0
  have hretries : Stamped.retries 0 (putOff true).log = 1 := rfl
  have hms : ((putOff true).lives 0).backoff.currentMs = 1000 := by
    rw [hdelay, hretries]
    rfl
  have hlog : (putOff true).log = .delivered 0 .dropped (some 1000) 0 :: (begun true).log := rfl
  have hclaimed : .claimed 0 1000000000 :: (putOff true).log <:+ (again true).log :=
    List.suffix_rfl
  have hpending : Stamped.pending? 0 (putOff true).log = some (1000, 0) := rfl
  refine ⟨hms, ?_, ?_, ?_, hclaimed, ?_⟩
  · rw [htwice (by decide), hms]
  · exact (hsteps (putOff true) (step_putOff true) 0).2 _ _ _ hlog
  · refine (hsteps (putOff true) (step_putOff true) 1).1 fun o retry at' heq => ?_
    rw [hlog] at heq
    cases heq
  · exact hlaw.2 (again true) (reachable_again true) 0 1000000000 _ 1000 0 hclaimed hpending

end Timed

end TurnPool
