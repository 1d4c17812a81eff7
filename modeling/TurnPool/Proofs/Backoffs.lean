import Mathlib.Algebra.GroupWithZero.Nat
import TurnPool.Proofs.World

/-!
# Retry delays over a whole run

A failure that may be retried puts the next run off, and every further one puts it off for twice as
long, within the bounds of the configuration. The delay that a task has is known from what happened
to it: it depends on nothing but the number of retries that were put off since the last success.

## What is noted

`Timed` is a `World` with a clock and a log. The log has what was asked of a task, when a run of it
was claimed, and what came of its runs, with the delay of the retry if one was put off. The time of
an outcome is the reading from which its scheduler counts that delay. Nothing reads the log.

## The regime

A `Regime` says how the clock may go and what others may do to the timetable at an instant. What is
said in this module is so under every regime, also when the clock goes back, and for all bounds,
whether they are valid or not. A task has its bounds for good.

## Main results

* `Backoff.grow_delayAfter`: the delay after a number of retries, without the steps in between.
* `Span.twice_ofMillis`: doubling a delay never leaves the range of spans.
* `Crew.putOff_deliver`: a run that is to be retried is put off by the delay, from its outcome on.
* `Timed.Step.ended`, `Timed.Step.backoff_eq`: what one step does to the delays.
* `Timed.Reachable.backoff_eq`: **the delay of a task** is the one after the retries in the log.
-/

namespace TurnPool

/-! ### The rule -/

/-- The delay of the retry after `k` failures in a row, in milliseconds: `min · 2 ^ (k - 1)`, and at
most the maximum. -/
def BackoffConfig.delayAfter (bounds : BackoffConfig) : Nat → Nat
  | 0 => 0
  | k + 1 => min bounds.maxDelayMs (bounds.minDelayMs * 2 ^ k)

/-- `delayAfter` is at most `maxDelayMs`. -/
theorem BackoffConfig.delayAfter_le (bounds : BackoffConfig) (k : Nat) :
    bounds.delayAfter k ≤ bounds.maxDelayMs := by
  cases k with
  | zero => exact Nat.zero_le _
  | succ k => exact Nat.min_le_left _ _

/-- `grow` takes the delay after `k` failures to the one **after `k + 1`**. -/
theorem Backoff.grow_delayAfter (bounds : BackoffConfig) (k : Nat) :
    (⟨bounds.delayAfter k⟩ : Backoff).grow bounds = ⟨bounds.delayAfter (k + 1)⟩ := by
  cases k with
  | zero =>
    simp only [grow, BackoffConfig.delayAfter, Nat.zero_mul, Nat.zero_max, Nat.pow_zero,
      Nat.mul_one]
    rw [Nat.min_comm]
  | succ k =>
    have hle : bounds.minDelayMs ≤ bounds.minDelayMs * 2 ^ k :=
      Nat.le_mul_of_pos_right _ (Nat.two_pow_pos k)
    have htwice : bounds.minDelayMs * 2 ^ (k + 1) = bounds.minDelayMs * 2 ^ k * 2 := by
      rw [Nat.pow_succ, Nat.mul_assoc]
    simp only [grow, BackoffConfig.delayAfter, htwice]
    congr 1
    omega

namespace Span

/-- The span of `n` milliseconds. -/
def ofMillis (n : Nat) : Span := ⟨n / 1000, n % 1000 * 1000000⟩

/-- Twice a span, if there is such a span. -/
def twice (s : Span) : Except SpanFault Span := ofParts (2 * s.secs) (2 * s.nanos)

/-- `twice` of a delay that fits into a word is `.ok`: it **does not overflow**. -/
theorem twice_ofMillis {n : Nat} (h : n ≤ wordMax) :
    (ofMillis n).twice = .ok (ofMillis (n * 2)) := by
  have hwhole : 2 * (n / 1000) + 2 * (n % 1000 * 1000000) / 1000000000 = n * 2 / 1000 := by omega
  have hrest : 2 * (n % 1000 * 1000000) % 1000000000 = n * 2 % 1000 * 1000000 := by omega
  have hfits : n * 2 / 1000 ≤ wordMax := by omega
  simp only [twice, ofMillis, ofParts, hwhole, hrest, if_pos hfits]

end Span

/-! ### One task -/

/-- The delay of a run that is put off. -/
def Placement.delay? : Placement → Option Nat
  | .after ms => some ms
  | _ => none

/-- A placement has a delay just if it is `after`. -/
theorem Placement.delay?_eq_some {p : Placement} {ms : Nat} :
    p.delay? = some ms ↔ p = .after ms := by
  cases p <;> simp [delay?]

namespace Lifecycle

variable {bounds : BackoffConfig} {l : Lifecycle} {o : Outcome}

/-- The outcome `o` is to be **retried after a delay**: the task was in flight without a rerun asked
for, and failed with a failure that is not fatal. -/
def IsRetried (o : Outcome) (l : Lifecycle) : Prop :=
  l.state = .inFlight false ∧ ∃ e, e.isFatal = false ∧ o = .failure e

/-- A change of state that puts no run off keeps the backoff. -/
theorem enact_keeps {s : TaskState} {m : Move} (h : m ≠ .runLater) :
    (l.enact bounds (s, m)).1.backoff = l.backoff ∧ (l.enact bounds (s, m)).2.delay? = none := by
  cases m with
  | runLater => exact absurd rfl h
  | _ => exact ⟨rfl, rfl⟩

/-- **Every request** keeps the backoff. -/
theorem backoff_request (bounds : BackoffConfig) (what : Request) (l : Lifecycle) :
    (l.request bounds what).1.backoff = l.backoff := by
  refine (enact_keeps ?_).1
  cases what <;> rcases l.state with _ | (_ | _) | _ | _ | _ <;> exact nofun

/-- **Every success** resets the backoff, whatever the state, and puts no run off. -/
theorem deliver_success_delay (bounds : BackoffConfig) (more : Bool) (l : Lifecycle) :
    (l.deliver bounds (.success more)).1.1.backoff = ⟨0⟩ ∧
      (l.deliver bounds (.success more)).1.2.delay? = none := by
  rw [deliver_success]
  refine enact_keeps ?_
  rcases l.state with _ | _ | (_ | _) | _ | _ <;> cases more <;> exact nofun

/-- A retried run **grows the backoff**, and is put off by the new delay. -/
theorem deliver_of_isRetried (h : l.IsRetried o) :
    (l.deliver bounds o).1 =
      (⟨.scheduled true, l.backoff.grow bounds⟩, .after (l.backoff.grow bounds).currentMs) := by
  obtain ⟨s, b⟩ := l
  obtain ⟨rfl, e, he, rfl⟩ := h
  rw [deliver_failure bounds he]
  rfl

/-- Any other outcome **keeps the backoff**, and puts no run off. -/
theorem deliver_keeps (bounds : BackoffConfig) (hsuccess : ∀ more, o ≠ .success more)
    (hretry : ¬ l.IsRetried o) :
    (l.deliver bounds o).1.1.backoff = l.backoff ∧ (l.deliver bounds o).1.2.delay? = none := by
  rcases o.kinds with ho | ⟨more, rfl⟩ | ⟨e, he, rfl⟩
  · rw [deliver_of_halts bounds ho]
    exact ⟨rfl, rfl⟩
  · exact absurd rfl (hsuccess more)
  · rw [deliver_failure bounds he]
    refine enact_keeps fun hmove => hretry ⟨?_, e, he, rfl⟩
    revert hmove
    rcases l.state with _ | _ | (_ | _) | _ | _ <;> simp

end Lifecycle

/-! ### Claiming leaves the delays alone -/

namespace Group

variable {Q ω : Type} [Timetable Q ω] {i : Nat}

/-- `ripen` keeps every backoff. -/
theorem backoff_ripen (now : Nat) (ks : List Delayed) (g : Group) :
    ((ripen now ks g).life i).backoff = (g.life i).backoff := by
  induction ks generalizing g with
  | nil => rfl
  | cons k ks ih =>
    rw [ripen]
    split
    · rfl
    · refine (ih _).trans ?_
      rw [show (pushReady k.task _).life i = (Group.modify k.task _ g).life i from rfl, life_modify,
        life]
      split
      · cases g.members[i]? <;> rfl
      · rfl

/-- `claimFirst` keeps every backoff. -/
theorem backoff_claimFirst (ids : List Nat) (g : Group) :
    ((claimFirst ids g).2.life i).backoff = (g.life i).backoff := by
  induction ids generalizing g with
  | nil => rfl
  | cons id ids ih =>
    rw [claimFirst]
    split
    · rename_i l hl
      obtain ⟨m, hm, hl⟩ := Option.bind_eq_some_iff.1 hl
      obtain ⟨-, rfl⟩ := Lifecycle.claim_eq_some.1 hl
      have hm' : ({ g with cursor := g.cursor + 1 } : Group).members[id]? = some m := hm
      rw [life_modify]
      split
      · rename_i hi
        rw [← hi, hm', life, hm]
        rfl
      · rfl
    · exact ih _

/-- `nextReady` keeps every backoff. -/
theorem backoff_nextReady (now : Nat) (g : Group) :
    ((nextReady now g).2.life i).backoff = (g.life i).backoff := by
  have h := backoff_claimFirst (i := i) g.left g
  rw [nextReady]
  generalize claimFirst g.left g = r at h
  obtain ⟨_ | id, g'⟩ := r
  · exact (backoff_claimFirst _ _).trans ((backoff_ripen now g'.delayed g').trans h)
  · exact h

/-- `dispatch` keeps every backoff. -/
theorem backoff_dispatch (opts : SchedulerOptions) (entry : Nat → ω) (r : Readings) (epoch : Nat)
    (g : Group) (q : Q) :
    ((dispatch opts entry r epoch (g, q)).2.1.life i).backoff = (g.life i).backoff := by
  simp only [dispatch]
  split
  · rw [life_rearm]
    exact backoff_nextReady r.deadline { g with armed := none }
  · rfl

end Group

/-- `Single.claim` keeps the backoff. -/
theorem Single.backoff_claim (epoch : Nat) (s : Single) :
    (s.claim epoch).2.life.backoff = s.life.backoff := by
  rw [claim]
  split
  · cases hl : s.life.claim with
    | some l =>
      obtain ⟨-, rfl⟩ := Lifecycle.claim_eq_some.1 hl
      rfl
    | none => rfl
  · rfl

/-- An entry that arrives keeps **every backoff**, in either scheduler. -/
theorem Crew.backoff_arrive {Q ω : Type} [Timetable Q ω] (opts : SchedulerOptions)
    (job : Errand → ω) (r : Readings) (e : Errand) (p : Crew × Q) (i : Nat) :
    ((arrive opts job r e p).2.1.lives i).backoff = (p.1.lives i).backoff := by
  obtain ⟨crew, q⟩ := p
  match e, crew with
  | .run task epoch, .apart tasks =>
    cases hs : tasks[task]? with
    | none =>
      simp only [arrive, onSingle, hs]
    | some s =>
      rw [arrive_run opts job r hs, lives_set hs, Function.update_apply]
      split
      · rename_i hi
        rw [hi, lives_apart hs, Single.backoff_claim]
      · rfl
  | .dispatch epoch, .together g =>
    exact Group.backoff_dispatch opts (fun n => job (.dispatch n)) r epoch g q
  | .run _ _, .together _ => rfl
  | .dispatch _, .apart _ => rfl

/-! ### A run is put off -/

section PutOff

variable {Q ω : Type} [Timetable Q ω]

/-- Task `i` of the group **is delayed until** `due`. -/
def Group.Awaits (i due : Nat) (g : Group) : Prop :=
  ∃ k ∈ g.delayed, k.task = i ∧ k.deadline = due

/-- The entry of the task is the one that was made last, at `at'` and **with a delay** of `ms`
milliseconds. -/
def Single.PutOff (entry : Nat → ω) (ms at' : Nat) (s : Single) (q' : Q) : Prop :=
  ∃ (priority : Priority) (q : Q),
    s.pending = some (Timetable.schedule at' priority (millis ms) (entry s.epoch) q).1 ∧
      q' = (Timetable.schedule at' priority (millis ms) (entry s.epoch) q).2

/-- A run of task `i` **was put off** at `at'` by `ms` milliseconds. -/
def Crew.PutOff (job : Errand → ω) (i ms at' : Nat) (q : Q) : Crew → Prop
  | .apart tasks => ∃ s, tasks[i]? = some s ∧ s.PutOff (fun n => job (.run i n)) ms at' q
  | .together g => g.Awaits i (at' + millis ms)

/-- The reading from which a scheduler counts the delay of a retry. -/
def Crew.stamp (r : Readings) : Crew → Nat
  | .apart _ => r.entry
  | .together _ => r.deadline

/-- `enact` with `.after ms` makes a task of a group await the deadline reading plus `ms`. -/
theorem Group.awaits_enact (opts : SchedulerOptions) (entry : Nat → ω) (r : Readings) {id : Nat}
    {g : Group} (hlt : id < g.members.size) (l : Lifecycle) (ms : Nat) (q : Q) :
    (enact opts entry r id (l, .after ms) (g, q)).1.Awaits id (r.deadline + millis ms) := by
  obtain ⟨armed, epoch, heq⟩ := rearm_eq opts entry r
    ((g.modify id fun m => { m with life := l }).relocate r.deadline id (.after ms)) q
  have hlt' : id < ((g.modify id fun m => { m with life := l }).unlink id).members.size := by
    rwa [size_unlink, size_modify]
  obtain ⟨m, hm, -⟩ := exists_member hlt'
  rw [enact, place, heq]
  refine ⟨⟨r.deadline + millis ms, id, m.name⟩, ?_, rfl, rfl⟩
  show _ ∈ (Group.pushDelayed _ _ _).delayed
  rw [pushDelayed, hm]
  exact mem_insertBy_self

/-- `enact` with `.after ms` makes a single task's entry with that delay. -/
theorem Single.putOff_enact (opts : SchedulerOptions) (entry : Nat → ω) (now : Nat) (l : Lifecycle)
    (ms : Nat) (p : Single × Q) :
    (enact opts entry now (l, .after ms) p).1.PutOff entry ms now
      (enact opts entry now (l, .after ms) p).2 :=
  ⟨opts.priority, (disarm ({ p.1 with life := l }, p.2)).2, rfl, rfl⟩

/-- If `deliver` answers a delay, the run **is put off by it** from the scheduler's reading. -/
theorem Crew.putOff_deliver (opts : SchedulerOptions) (job : Errand → ω) (r : Readings)
    (o : Outcome) {task ms : Nat} {p : Crew × Q} (hlt : task < p.1.size)
    (hms : ((p.1.lives task).deliver opts.backoff o).1.2.delay? = some ms) :
    (deliver opts job r task o p).2.1.PutOff job task ms (p.1.stamp r)
      (deliver opts job r task o p).2.2 := by
  have hplace := Placement.delay?_eq_some.1 hms
  obtain ⟨tasks | g, q⟩ := p
  · obtain ⟨s, hs⟩ := exists_single hlt
    rw [lives_apart hs] at hplace
    have hput := Single.putOff_enact opts (fun n => job (.run task n)) r.entry
      (s.life.deliver opts.backoff o).1.1 ms (s, q)
    rw [← hplace] at hput
    rw [deliver_apart opts job r hs]
    exact ⟨_, Array.getElem?_setIfInBounds_self_of_lt hlt, hput⟩
  · have hput := Group.awaits_enact opts (fun n => job (.dispatch n)) r hlt
      ((g.life task).deliver opts.backoff o).1.1 ms q
    rw [← hplace] at hput
    exact hput

end PutOff

/-! ### A world with a clock -/

/-- Something that happened to a task, with the instant, and for an outcome with the delay of the
retry that was put off. -/
inductive Stamped where
  /-- Something was asked of it. -/
  | requested (task : Nat) (what : Request)
  /-- A run of it was claimed at an instant. -/
  | claimed (task at' : Nat)
  /-- The outcome of a run of it was delivered at an instant, and a retry was put off by so many
  milliseconds, or none was. -/
  | delivered (task : Nat) (o : Outcome) (retry : Option Nat) (at' : Nat)
deriving DecidableEq, Repr

namespace Stamped

/-- Whether it is the outcome of a run. -/
def isOutcome : Stamped → Bool
  | .delivered _ _ _ _ => true
  | _ => false

/-- How many retries of task `i` **were put off** since its last success. -/
def retries (i : Nat) : List Stamped → Nat
  | [] => 0
  | .delivered j (.success _) _ _ :: log => if j = i then 0 else retries i log
  | .delivered j _ (some _) _ :: log => if j = i then retries i log + 1 else retries i log
  | _ :: log => retries i log

variable {i j : Nat} {news log : List Stamped}

/-- `retries` does not count what is not an outcome. -/
theorem retries_append (h : ∀ n ∈ news, n.isOutcome = false) :
    retries i (news ++ log) = retries i log := by
  induction news with
  | nil => rfl
  | cons n news ih =>
    have hrest := ih fun m hm => h m (List.mem_cons_of_mem n hm)
    cases n with
    | delivered task o retry at' => exact nomatch h _ List.mem_cons_self
    | _ => exact hrest

/-- `retries` does not count the outcome of another task. -/
theorem retries_of_ne (h : j ≠ i) (o : Outcome) (retry : Option Nat) (at' : Nat) :
    retries i (.delivered j o retry at' :: log) = retries i log := by
  cases o <;> cases retry <;> simp only [retries, if_neg h]

/-- `retries` is 0 after a success. -/
theorem retries_of_success (more : Bool) (retry : Option Nat) (at' : Nat) :
    retries i (.delivered i (.success more) retry at' :: log) = 0 := by
  rw [retries, if_pos rfl]

/-- `retries` is one more after a failure whose retry was put off. -/
theorem retries_of_failure (e : Failure) (ms at' : Nat) :
    retries i (.delivered i (.failure e) (some ms) at' :: log) = retries i log + 1 := by
  rw [retries, if_pos rfl]
  exact nofun

/-- `retries` is unchanged by an outcome that is neither a success nor put off. -/
theorem retries_of_none {o : Outcome} (h : ∀ more, o ≠ .success more) (at' : Nat) :
    retries i (.delivered i o none at' :: log) = retries i log := by
  cases o with
  | success more => exact absurd rfl (h more)
  | _ => rfl

end Stamped

/-- How the clock may go, and what others may do to a timetable. -/
structure Regime (Q : Type) where
  /-- Whether the clock may show an instant after another. -/
  flows : Nat → Nat → Prop
  /-- What may be done to the timetable at an instant. -/
  lapses : Nat → Q → Q → Prop

/-- The readings are taken after `now`, one after the other. -/
structure Regime.Reads {Q : Type} (s : Regime Q) (now : Nat) (r : Readings) : Prop where
  deadline : s.flows now r.deadline
  arm : s.flows r.deadline r.arm
  entry : s.flows r.arm r.entry

/-- A world with a clock and a log, latest first. -/
structure Timed (Q ω : Type) where
  /-- The world. -/
  world : World Q ω
  /-- What the clock showed last. -/
  now : Nat
  /-- What happened, latest first. -/
  log : List Stamped

namespace Timed

variable {Q ω : Type} [Timetable Q ω]

/-- The lifecycles of the tasks. -/
def lives (t : Timed Q ω) : Nat → Lifecycle := t.world.lives

section Operations

variable (c : Coding ω) (opts : SchedulerOptions) (r : Readings)

/-- A request is made of a task, and logged. -/
def request (what : Request) (task : Nat) (t : Timed Q ω) : Timed Q ω :=
  ⟨t.world.request c opts r what task, r.entry, .requested task what :: t.log⟩

/-- The task whose run an entry claims that arrives. -/
def claims (e : Errand) (t : Timed Q ω) : Option Nat :=
  (Crew.arrive opts c.job r e (t.world.crew, t.world.desk)).1

/-- An entry that was in transit arrives, and the run it claims is logged. -/
def arrive (h : Nat) (e : Errand) (t : Timed Q ω) : Timed Q ω :=
  ⟨t.world.arrive c opts r h e, r.entry,
    (t.claims c opts r e).toList.map (.claimed · r.deadline) ++ t.log⟩

/-- A completion ends, and its outcome is logged with the delay of the retry. -/
def spend (unwinding : Bool) (how : Fate) (x : Nat × Completion) (t : Timed Q ω) : Timed Q ω :=
  let o := how.ending unwinding
  let retry := ((t.lives x.2.task).deliver opts.backoff o).1.2.delay?
  ⟨t.world.spend c opts r unwinding how x, r.entry,
    .delivered x.2.task o retry (t.world.crew.stamp r) :: t.log⟩

end Operations

variable {c : Coding ω} {opts : SchedulerOptions} {r : Readings} {t : Timed Q ω}

/-- After a **request** the lifecycle of the task is the one that `Lifecycle.request` gives, and the
others are unchanged. -/
theorem lives_request {what : Request} {task : Nat} (joined : task < t.world.crew.size) :
    (t.request c opts r what task).lives =
      Function.update t.lives task ((t.lives task).request opts.backoff what).1 :=
  Crew.lives_request opts c.job r what (p := (t.world.crew, t.world.desk)) joined

section Spend

variable {unwinding : Bool} {how : Fate} {x : Nat × Completion}

/-- A completion that is owed **delivers its outcome** to the world when it ends. -/
theorem world_spend (hheld : t.world.HeldOwed) (there : x ∈ t.world.held) :
    (t.spend c opts r unwinding how x).world =
      World.deliver c opts r x.2.task x.1 (how.ending unwinding)
        { t.world with held := t.world.held.erase x } :=
  World.spend_of_owed (hheld _ there).1 opts r unwinding how

/-- After that the lifecycle of the task is the one that `Lifecycle.deliver` gives, and the others
are unchanged. -/
theorem lives_spend (hheld : t.world.HeldOwed) (there : x ∈ t.world.held) :
    (t.spend c opts r unwinding how x).lives = Function.update t.lives x.2.task
      ((t.lives x.2.task).deliver opts.backoff (how.ending unwinding)).1.1 := by
  rw [lives, world_spend hheld there]
  exact Crew.lives_deliver opts c.job r _ (p := (t.world.crew, t.world.desk)) (hheld _ there).2

/-- If `deliver` answers a delay, the run **is put off** by it. -/
theorem putOff_spend (hheld : t.world.HeldOwed) (there : x ∈ t.world.held) {ms : Nat}
    (hms : ((t.lives x.2.task).deliver opts.backoff (how.ending unwinding)).1.2.delay? = some ms) :
    (t.spend c opts r unwinding how x).world.crew.PutOff c.job x.2.task ms (t.world.crew.stamp r)
      (t.spend c opts r unwinding how x).world.desk := by
  rw [world_spend hheld there]
  exact Crew.putOff_deliver opts c.job r _ (p := (t.world.crew, t.world.desk)) (hheld _ there).2 hms

end Spend

variable [LawfulTimetable Q ω]

/-- One thing that **happens** under a regime, to tasks with the backoff bounds `bounds`. -/
inductive Step (c : Coding ω) (bounds : Nat → BackoffConfig) (s : Regime Q) :
    Timed Q ω → Timed Q ω → Prop
  /-- A task joins. -/
  | register {t : Timed Q ω} (name : String) :
      Step c bounds s t
        { t with world := { t.world with crew := t.world.crew.register name } }
  /-- Something is asked of a task. -/
  | request {t : Timed Q ω} (opts : SchedulerOptions) (r : Readings) (what : Request) {task : Nat}
      (joined : task < t.world.crew.size) (own : opts.backoff = bounds task)
      (reads : s.Reads t.now r) : Step c bounds s t (t.request c opts r what task)
  /-- An entry is taken out of the timetable, of the crew or not. -/
  | take {t : Timed Q ω} {x : Slip ω} {table : Q} {now : Nat}
      (taken : LawfulTimetable.TakesOut x t.world.desk.table table) (later : s.flows t.now now)
      (lapse : s.lapses now t.world.desk.table table) :
      Step c bounds s t
        { t with
          world := { t.world with
            desk := { t.world.desk with table }
            transit := Recorded.transitOf c x t.world.transit }
          now }
  /-- An entry of the crew arrives. -/
  | arrive {t : Timed Q ω} (opts : SchedulerOptions) (r : Readings) {h : Nat} {e : Errand}
      (there : (h, e) ∈ t.world.transit) (reads : s.Reads t.now r) :
      Step c bounds s t (t.arrive c opts r h e)
  /-- A completion comes to its end. -/
  | spend {t : Timed Q ω} (opts : SchedulerOptions) (r : Readings) (unwinding : Bool) (how : Fate)
      {x : Nat × Completion} (there : x ∈ t.world.held) (own : opts.backoff = bounds x.2.task)
      (reads : s.Reads t.now r) : Step c bounds s t (t.spend c opts r unwinding how x)
  /-- Others use the timetable. -/
  | stir {t : Timed Q ω} {table : Q} {now : Nat}
      (stirred : LawfulTimetable.KeepsMine c.IsMine t.world.desk.table table)
      (later : s.flows t.now now) (lapse : s.lapses now t.world.desk.table table) :
      Step c bounds s t
        { t with world := { t.world with desk := { t.world.desk with table } }, now }

/-- The states that a crew **can come to** under a regime. -/
inductive Reachable (c : Coding ω) (bounds : Nat → BackoffConfig) (s : Regime Q) :
    Timed Q ω → Prop
  | new (grouped : Bool) {table : Q} (sound : LawfulTimetable.Sound table)
      (theirs : ∀ x ∈ LawfulTimetable.slips table, ¬ c.IsMine x.work) (now : Nat) :
      Reachable c bounds s ⟨World.new grouped table, now, []⟩
  | step {t t' : Timed Q ω} (reached : Reachable c bounds s t) (step : Step c bounds s t t') :
      Reachable c bounds s t'

variable {bounds : Nat → BackoffConfig} {s : Regime Q} {t' : Timed Q ω}

/-- A step with a clock **is a step of the world**. -/
theorem Step.world (step : Step c bounds s t t') : World.Step c t.world t'.world := by
  cases step with
  | register name => exact .register name
  | request opts r what joined own reads => exact .request opts r what joined
  | take taken later lapse => exact .take taken
  | arrive opts r there reads => exact .arrive opts r there
  | spend opts r unwinding how there own reads => exact .spend opts r unwinding how there
  | stir stirred later lapse => exact .stir stirred

/-- A `Timed.Reachable` state has a `World.Reachable` world. -/
theorem Reachable.world (h : Reachable c bounds s t) : World.Reachable c t.world := by
  induction h with
  | new grouped sound theirs now => exact .new grouped sound theirs
  | step _ step ih => exact ih.step step.world

/-! ### What becomes of the delays -/

/-- What a step does to the backoffs and to the log: it keeps every backoff and logs no outcome, or
delivers one outcome to one task and logs it. -/
inductive Change (c : Coding ω) (bounds : Nat → BackoffConfig) (t t' : Timed Q ω) : Prop
  /-- No outcome is delivered, and all delays stay. -/
  | still (lives : ∀ i, (t'.lives i).backoff = (t.lives i).backoff) (news : List Stamped)
      (log : t'.log = news ++ t.log) (quiet : ∀ n ∈ news, n.isOutcome = false)
  /-- The outcome of a run is delivered to its task. -/
  | ended (task : Nat) (o : Outcome) (at' : Nat)
      (lives : t'.lives =
        Function.update t.lives task ((t.lives task).deliver (bounds task) o).1.1)
      (log : t'.log =
        .delivered task o ((t.lives task).deliver (bounds task) o).1.2.delay? at' :: t.log)
      (put : ∀ ms, ((t.lives task).deliver (bounds task) o).1.2.delay? = some ms →
        t'.world.crew.PutOff c.job task ms at' t'.world.desk)

/-- **Every step** is one of `Change`. -/
theorem Step.change (hheld : t.world.HeldOwed) (step : Step c bounds s t t') :
    Change c bounds t t' := by
  cases step with
  | register name =>
    refine .still (fun i => ?_) [] rfl nofun
    rw [lives, lives, World.lives, Crew.lives_register]
    rfl
  | @request opts r what task joined own reads =>
    refine .still (fun i => ?_) [.requested task what] rfl (List.forall_mem_singleton.2 rfl)
    rw [lives_request joined, Function.update_apply]
    split
    · rename_i hi
      rw [hi]
      exact Lifecycle.backoff_request _ what _
    · rfl
  | take taken later lapse => exact .still (fun _ => rfl) [] rfl nofun
  | @arrive opts r h e there reads =>
    refine .still (fun i => ?_) _ rfl fun n hn => ?_
    · have hcrew := (World.arrive_eq (w := t.world) (c := c) opts r h e).1
      rw [lives, Timed.arrive, World.lives, hcrew]
      exact Crew.backoff_arrive opts c.job r e (t.world.crew, t.world.desk) i
    · obtain ⟨task, -, rfl⟩ := List.mem_map.1 hn
      rfl
  | @spend opts r unwinding how x there own reads =>
    refine .ended x.2.task (how.ending unwinding) (t.world.crew.stamp r) ?_ ?_ fun ms hms => ?_
    · rw [lives_spend hheld there, own]
    · rw [← own]
      rfl
    · rw [← own] at hms
      exact putOff_spend hheld there hms
  | stir stirred later lapse => exact .still (fun _ => rfl) [] rfl nofun

/-- What the end of a run **comes to** for the backoff of its task: a success resets it, a retry is
put off by the grown delay, and any other outcome keeps it. -/
inductive Ended (c : Coding ω) (i : Nat) (o : Outcome) (retry : Option Nat) (at' : Nat)
    (t t' : Timed Q ω) : Prop
  /-- A run that succeeded takes the delay back, also that of a stopped task. -/
  | reset (more : Bool) (succeeded : o = .success more) (gone : (t'.lives i).backoff = ⟨0⟩)
      (none : retry = none)
  /-- A run that is to be retried is put off by the new delay. -/
  | putOff (retried : (t.lives i).IsRetried o)
      (delay : retry = some (t'.lives i).backoff.currentMs)
      (put : t'.world.crew.PutOff c.job i (t'.lives i).backoff.currentMs at' t'.world.desk)
  /-- Any other run leaves the delay alone. -/
  | kept (failed : ∀ more, o ≠ .success more) (final : ¬ (t.lives i).IsRetried o)
      (same : (t'.lives i).backoff = (t.lives i).backoff) (none : retry = none)

/-- **Every outcome** that a step logs comes to one of `Ended`. -/
theorem Step.ended (hheld : t.world.HeldOwed) (step : Step c bounds s t t') {i : Nat} {o : Outcome}
    {retry : Option Nat} {at' : Nat} (hlog : t'.log = .delivered i o retry at' :: t.log) :
    Ended c i o retry at' t t' := by
  cases step.change hheld with
  | still lives news log quiet =>
    have hnews : news = [.delivered i o retry at'] := List.append_cancel_right (log.symm.trans hlog)
    have hquiet := quiet (.delivered i o retry at') (hnews ▸ List.mem_singleton_self _)
    cases hquiet
  | ended task o' at'' lives log put =>
    obtain ⟨hhead, -⟩ := List.cons.inj (log.symm.trans hlog)
    obtain ⟨rfl, rfl, rfl, rfl⟩ := Stamped.delivered.inj hhead
    have hself : t'.lives task = ((t.lives task).deliver (bounds task) o').1.1 := by
      rw [lives, Function.update_self]
    by_cases hretry : (t.lives task).IsRetried o'
    · have hdelay : ((t.lives task).deliver (bounds task) o').1.2.delay? =
          some (t'.lives task).backoff.currentMs := by
        rw [hself, Lifecycle.deliver_of_isRetried hretry]
        rfl
      exact .putOff hretry hdelay (put _ hdelay)
    · by_cases hsuccess : ∃ more, o' = .success more
      · obtain ⟨more, rfl⟩ := hsuccess
        obtain ⟨hzero, hnone⟩ :=
          Lifecycle.deliver_success_delay (bounds task) more (t.lives task)
        exact .reset more rfl (hself ▸ hzero) hnone
      · rw [not_exists] at hsuccess
        obtain ⟨hsame, hnone⟩ := Lifecycle.deliver_keeps (bounds task) hsuccess hretry
        exact .kept hsuccess hretry (hself ▸ hsame) hnone

/-- A step that logs no outcome of task `i` **keeps its backoff**. -/
theorem Step.backoff_eq (hheld : t.world.HeldOwed) (step : Step c bounds s t t') {i : Nat}
    (hquiet : ∀ o retry at', t'.log ≠ .delivered i o retry at' :: t.log) :
    (t'.lives i).backoff = (t.lives i).backoff := by
  cases step.change hheld with
  | still lives news log quiet => exact lives i
  | ended task o at' lives log put =>
    have hi : i ≠ task := by
      rintro rfl
      exact hquiet _ _ _ log
    rw [lives, Function.update_of_ne hi]

/-- After an outcome the backoff is the delay after the **new count of retries**. -/
theorem backoff_deliver {i : Nat} {l : Lifecycle} {log : List Stamped} (bounds : BackoffConfig)
    (o : Outcome) (at' : Nat) (hl : l.backoff = ⟨bounds.delayAfter (Stamped.retries i log)⟩) :
    (l.deliver bounds o).1.1.backoff = ⟨bounds.delayAfter (Stamped.retries i
      (.delivered i o (l.deliver bounds o).1.2.delay? at' :: log))⟩ := by
  by_cases hretry : l.IsRetried o
  · rw [Lifecycle.deliver_of_isRetried hretry, Placement.delay?]
    obtain ⟨-, e, -, rfl⟩ := hretry
    rw [Stamped.retries_of_failure, hl, Backoff.grow_delayAfter]
  · by_cases hsuccess : ∃ more, o = .success more
    · obtain ⟨more, rfl⟩ := hsuccess
      obtain ⟨hzero, -⟩ := Lifecycle.deliver_success_delay bounds more l
      rw [hzero, Stamped.retries_of_success]
      rfl
    · rw [not_exists] at hsuccess
      obtain ⟨hsame, hnone⟩ := Lifecycle.deliver_keeps bounds hsuccess hretry
      rw [hsame, hnone, Stamped.retries_of_none hsuccess, hl]

/-- In every reachable state **the backoff of a task is the delay after its retries** since the last
success. -/
theorem Reachable.backoff_eq (h : Reachable c bounds s t) (i : Nat) :
    (t.lives i).backoff = ⟨(bounds i).delayAfter (Stamped.retries i t.log)⟩ := by
  induction h with
  | new grouped sound theirs now => cases grouped <;> rfl
  | @step t t' reached step ih =>
    cases step.change reached.world.heldOwed with
    | still lives news log quiet => rw [lives, log, Stamped.retries_append quiet, ih]
    | ended task o at' lives log put =>
      rw [lives, log, Function.update_apply]
      by_cases hi : i = task
      · subst hi
        rw [if_pos rfl]
        exact backoff_deliver (bounds i) o at' ih
      · rw [if_neg hi, Stamped.retries_of_ne (Ne.symm hi), ih]

end Timed

end TurnPool
