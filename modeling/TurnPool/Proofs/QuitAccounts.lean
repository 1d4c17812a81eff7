import Mathlib.Algebra.GroupWithZero.Nat
import Mathlib.Algebra.Order.BigOperators.Group.List
import Mathlib.Algebra.Order.Group.Nat
import TurnPool.Proofs.QueueOrder
import TurnPool.Proofs.Watermarks

/-!
# The account of the quits

When an event is over the counters tell how many workers should leave, and remember the number. The
quits are pushed only afterwards, one by one and without the core lock, so that some of them may be
taken, answered or refused while others are still to be pushed; each of them waits out a delay in a
queue that drops dead entries; and the counters take one quit off their number for each that is
answered, whether the worker leaves or not. Were a single quit lost or counted twice, the pool would
never shrink again, or shrink twice at once.

## Who does what

A `Shift` is a pool with its workers, each with what it is about to do (`Duty`). Taking a quit out
of the queue and answering it are two steps, and so are the pushes, and anything may happen between
any two of them: no step asks for the core lock. Pauses and all else that is done to the pool are
the events of a `Floor`. Everybody else uses the queue through the calls of a `Session`, and calls
off only what was pushed for others: the handle of a quit is kept by nobody.

Quits have the numbers of their entries. Which of them were pushed in which batch, and which were
answered, is noted beside the pool, and nothing reads the notes.

## Main results

* `Queue.Guarded`: the quits of a queue are live; each operation on the queue keeps them but for the
  one it adds or takes.
* `Shift.Reckoned.after`: the **account** outlasts each step.
* `quit_accounts`: it is so after any events.
-/

namespace TurnPool

namespace Queue

variable {ω : Type} {q q' : Queue (Work ω)} {handles : List Nat}

/-! ### The quits of a queue -/

/-- The number of an entry that is a quit. -/
def quit? (e : QueueEntry (Work ω)) : Option Nat :=
  match e.work with
  | .event _ => none
  | .quit => some e.number

/-- The numbers of the quits of a queue, ready or deferred. -/
def quits (q : Queue (Work ω)) : List Nat := q.entries.filterMap quit?

/-- `quit?` of an entry is `n` just if the entry is a quit with the number `n`. -/
theorem quit?_eq_some {e : QueueEntry (Work ω)} {n : Nat} :
    quit? e = some n ↔ e.work = .quit ∧ e.number = n := by
  rw [quit?]
  cases e.work with
  | event x => simp
  | quit => simp

/-- A number is in `q.quits` just if a quit of `q` has it. -/
theorem mem_quits {n : Nat} : n ∈ q.quits ↔ ∃ e ∈ q.entries, e.work = .quit ∧ e.number = n := by
  simp only [quits, List.mem_filterMap, quit?_eq_some]

/-- The numbers of the quits in a list are, in order, some of the numbers in it. -/
theorem quits_sublist (es : List (QueueEntry (Work ω))) :
    (es.filterMap quit?).Sublist (es.map QueueEntry.number) := by
  induction es with
  | nil => exact .slnil
  | cons e es ih =>
    rw [List.filterMap_cons]
    split
    · exact ih.cons _
    · rename_i n hn
      rw [List.map_cons, (quit?_eq_some.1 hn).2]
      exact ih.cons_cons n

/-- In a sound queue no two quits have one number. -/
theorem Sound.nodup_quits (hq : q.Sound) : q.quits.Nodup := (quits_sublist _).nodup hq.nodup

/-- The number of a quit was given out. -/
theorem Sound.lt_of_mem_quits (hq : q.Sound) {n : Nat} (hn : n ∈ q.quits) : n < q.nextNumber := by
  obtain ⟨e, he, -, rfl⟩ := mem_quits.1 hn
  exact hq.lt e he

/-- No quit of the queue is called off, and none of their numbers is in `handles`, all of which were
given out. -/
structure Guarded (handles : List Nat) (q : Queue (Work ω)) : Prop where
  /-- The numbers of the entries are in order. -/
  sound : q.Sound
  /-- No quit was called off. -/
  live : ∀ n ∈ q.quits, q.isCancelled n = false
  /-- None can be. -/
  apart : ∀ n ∈ q.quits, n ∉ handles
  /-- The handles that somebody has are numbers of entries. -/
  given : ∀ n ∈ handles, n < q.nextNumber

/-- `q'` has the quits of `q`, none of them called off, and none with its number in `handles`. -/
structure KeepsQuits (handles : List Nat) (q q' : Queue (Work ω)) : Prop where
  /-- They are live, and nobody has the handle of one. -/
  guarded : Guarded handles q'
  /-- They are the same ones. -/
  quits : q'.quits.Perm q.quits
  /-- Numbers are not given out again. -/
  next_le : q.nextNumber ≤ q'.nextNumber

/-- `KeepsQuits` is transitive, with the handles of the second step. -/
theorem KeepsQuits.trans {handles' : List Nat} {q'' : Queue (Work ω)} (h : KeepsQuits handles q q')
    (h' : KeepsQuits handles' q' q'') : KeepsQuits handles' q q'' :=
  ⟨h'.guarded, h'.quits.trans h.quits, Nat.le_trans h.next_le h'.next_le⟩

namespace Guarded

/-- A `Shed` keeps the quits. -/
theorem shed (h : Guarded handles q) (hshed : Shed q q') : KeepsQuits handles q q' := by
  have hsound : q'.Sound := Sound.shed h.sound hshed
  have hperm : q'.quits.Perm q.quits := by
    refine (List.perm_ext_iff_of_nodup hsound.nodup_quits h.sound.nodup_quits).2 fun n =>
      ⟨fun hn => ?_, fun hn => ?_⟩
    · obtain ⟨e, he, hquit⟩ := mem_quits.1 hn
      exact mem_quits.2 ⟨e, hshed.subperm.subset he, hquit⟩
    · obtain ⟨e, he, hquit, rfl⟩ := mem_quits.1 hn
      have hlive : q.isLive e = true := by rw [isLive, h.live _ hn, Bool.not_false]
      exact mem_quits.2 ⟨e, hshed.mem e he hlive, hquit, rfl⟩
  refine ⟨⟨hsound, fun n hn => ?_, fun n hn => h.apart n (hperm.mem_iff.1 hn), ?_⟩, hperm,
    Nat.le_of_eq hshed.nextNumber.symm⟩
  · rw [isCancelled, hshed.cancelled]
    exact h.live n (hperm.mem_iff.1 hn)
  · rw [hshed.nextNumber]
    exact h.given

/-- The next number to be given out is not called off. -/
theorem not_isCancelled_next (h : Guarded handles q) : q.isCancelled q.nextNumber = false := by
  rw [isCancelled, List.contains_eq_mem, decide_eq_false_iff_not]
  exact fun hmem => Nat.lt_irrefl _ (h.sound.cancelled_lt _ hmem)

/-- Pushing an event keeps the quits, with the number of the event among the handles. -/
theorem pushEvent (h : Guarded handles q) (now : Nat) (priority : Priority) (delay : Nat) (x : ω) :
    KeepsQuits (q.nextNumber :: handles) q (q.push now priority delay (.event x)).2 := by
  have hperm : (q.push now priority delay (.event x)).2.quits.Perm q.quits :=
    (entries_push now priority delay (.event x : Work ω) q).filterMap quit?
  have hnext := nextNumber_push now priority delay (.event x) q
  refine ⟨⟨h.sound.push now priority delay _, fun n hn => ?_, fun n hn hmem => ?_,
    fun n hn => ?_⟩, hperm, hnext ▸ Nat.le_succ _⟩
  · rw [isCancelled, cancelled_push]
    exact h.live n (hperm.mem_iff.1 hn)
  · have hold := hperm.mem_iff.1 hn
    rcases List.mem_cons.1 hmem with rfl | hmem
    · exact Nat.lt_irrefl _ (h.sound.lt_of_mem_quits hold)
    · exact h.apart n hold hmem
  · rw [hnext]
    rcases List.mem_cons.1 hn with rfl | hn
    · exact Nat.lt_succ_self _
    · exact Nat.lt_succ_of_lt (h.given n hn)

/-- Pushing a quit adds its number to the quits. -/
theorem pushQuit (h : Guarded handles q) (now delay : Nat) :
    Guarded handles (q.pushQuit now delay) ∧
      (q.pushQuit now delay).quits.Perm (q.nextNumber :: q.quits) ∧
      (q.pushQuit now delay).nextNumber = q.nextNumber + 1 := by
  have hperm : (q.pushQuit now delay).quits.Perm (q.nextNumber :: q.quits) :=
    (entries_push now .low delay (.quit : Work ω) q).filterMap quit?
  have hnext : (q.pushQuit now delay).nextNumber = q.nextNumber + 1 := nextNumber_push ..
  refine ⟨⟨h.sound.push now .low delay _, fun n hn => ?_, fun n hn hmem => ?_, fun n hn => ?_⟩,
    hperm, hnext⟩
  · rw [isCancelled, Queue.pushQuit, cancelled_push]
    rcases List.mem_cons.1 (hperm.mem_iff.1 hn) with rfl | hn
    · exact h.not_isCancelled_next
    · exact h.live n hn
  · rcases List.mem_cons.1 (hperm.mem_iff.1 hn) with rfl | hn
    · exact Nat.lt_irrefl _ (h.given _ hmem)
    · exact h.apart n hn hmem
  · rw [hnext]
    exact Nat.lt_succ_of_lt (h.given n hn)

/-- Calling off a number that is one of the handles keeps the quits. -/
theorem cancel (h : Guarded handles q) {n : Nat} (hn : n ∈ handles) :
    KeepsQuits handles q (q.cancel n) := by
  have heq : (q.cancel n).quits = q.quits := by rw [quits, entries_cancel, quits]
  refine ⟨⟨h.sound.cancel (h.given n hn), fun m hm => ?_, heq ▸ h.apart, ?_⟩,
    List.Perm.of_eq heq, Nat.le_of_eq (nextNumber_cancel n q).symm⟩
  · rw [heq] at hm
    rw [isCancelled, List.contains_eq_mem, decide_eq_false_iff_not, mem_cancelled_cancel]
    rintro (rfl | hmem)
    · exact h.apart m hm hn
    · exact Bool.false_ne_true ((h.live m hm).symm.trans (List.contains_iff_mem.2 hmem))
  · rw [nextNumber_cancel]
    exact h.given

/-- A `dequeue` with the answer `e` takes the number of `e` from the quits if `e` is a quit, and
keeps the others. -/
theorem dequeue (h : Guarded handles q) {now : Nat} {e : QueueEntry (Work ω)} {popped : Bool}
    (hd : q.dequeue now = ((some e, popped), q')) :
    Guarded handles q' ∧ ((quit? e).toList ++ q'.quits).Perm q.quits := by
  obtain ⟨q₁, hshed, hentries, hcancelled, hnext, -⟩ := entries_dequeue hd
  obtain ⟨h₁, hperm, -⟩ := h.shed hshed
  have heq : q₁.quits = (quit? e).toList ++ q'.quits := by
    rw [quits, hentries, List.filterMap_cons, quits]
    cases quit? e <;> rfl
  have hmem : ∀ n ∈ q'.quits, n ∈ q₁.quits := fun n hn => by
    rw [heq]
    exact List.mem_append_right _ hn
  refine ⟨⟨sound_dequeue h.sound hd, fun n hn => ?_, fun n hn => h₁.apart n (hmem n hn), ?_⟩,
    heq ▸ hperm⟩
  · rw [isCancelled, hcancelled]
    exact h₁.live n (hmem n hn)
  · rw [hnext]
    exact h₁.given

end Guarded

/-! ### Others at the queue -/

/-- Whether a call is one that others make, who have the `handles`: no quit is pushed, nothing is
taken, and what is called off is one of the handles. -/
def QueueCall.isOthers (handles : List Nat) : QueueCall ω → Bool
  | .pushQuit _ | .dequeue => false
  | .cancel number => handles.contains number
  | _ => true

/-- Others make a call, and then have the handle of what they pushed. -/
def use (now : Nat) (call : QueueCall ω) (handles : List Nat) (q : Queue (Work ω)) :
    List Nat × Queue (Work ω) :=
  if call.isOthers handles then
    let s := Session.perform ⟨q, now, []⟩ call
    (s.diary.filterMap DiaryEntry.number? ++ handles, s.queue)
  else (handles, q)

/-- The queue of the session `s` has the quits of `q`, and the numbers that its diary posts are
handles as well. -/
def KeepsQuitsAfter (handles : List Nat) (q : Queue (Work ω)) (s : Session ω) : Prop :=
  KeepsQuits (s.diary.filterMap DiaryEntry.number? ++ handles) q s.queue

/-- The call `tryEnqueue` keeps the quits. -/
theorem Guarded.tryEnqueue (h : Guarded handles q) (now : Nat) (priority : Priority) (x : ω) :
    KeepsQuitsAfter handles q (Session.perform ⟨q, now, []⟩ (.tryEnqueue priority x)) := by
  have hpurged := h.shed (shed_purge q)
  by_cases hfull : q.purge.maxDepth ≤ q.purge.ready.length
  · have heq : q.tryEnqueue priority (.event x) =
        (.error (.queueFull q.purge.ready.length), q.purge) := if_pos hfull
    simp only [Session.perform, heq]
    exact hpurged
  · have heq : q.tryEnqueue priority (.event x) =
        (.ok (q.purge.push 0 priority 0 (.event x)).1,
          (q.purge.push 0 priority 0 (.event x)).2) := if_neg hfull
    simp only [Session.perform, heq, push_fst]
    exact hpurged.trans (hpurged.guarded.pushEvent 0 priority 0 x)

/-- The call `offer` keeps the quits. -/
theorem Guarded.offer (h : Guarded handles q) (now producer : Nat) (priority : Priority) (x : ω) :
    KeepsQuitsAfter handles q (Session.perform ⟨q, now, []⟩ (.offer producer priority x)) := by
  have htry := h.tryEnqueue now priority x
  simp only [Session.perform, Queue.offer] at htry ⊢
  generalize q.tryEnqueue priority (.event x) = r at htry ⊢
  obtain ⟨_ | number, q'⟩ := r
  · exact htry.trans (htry.guarded.shed (shed_waiters q' _ q'.idle))
  · exact htry.trans (htry.guarded.shed (shed_waiters q' _ q'.idle))

/-- `Queue.use` keeps the quits, with the handles that it leaves. -/
theorem Guarded.use (h : Guarded handles q) (now : Nat) (call : QueueCall ω) :
    KeepsQuits (q.use now call handles).1 q (q.use now call handles).2 := by
  rw [Queue.use]
  split
  · rename_i hothers
    cases call with
    | tryEnqueue priority x => exact h.tryEnqueue now priority x
    | offer producer priority x => exact h.offer now producer priority x
    | schedule priority delay x =>
      simp only [Session.perform, Timetable.schedule, push_fst]
      exact h.pushEvent now priority delay x
    | pushQuit delay => cases hothers
    | cancel number =>
      have hmem : number ∈ handles := List.contains_iff_mem.1 hothers
      simp only [Session.perform, if_pos (h.given number hmem)]
      exact h.cancel hmem
    | look worker => exact h.shed (shed_look worker now q)
    | dequeue => cases hothers
    | notifySpace => exact h.shed (shed_waiters q _ q.idle)
  · exact ⟨h, .refl _, Nat.le_refl _⟩

end Queue

namespace Sizer

variable {s : Sizer}

/-- `requestShrink` asks for no quits while some are pending or fewer workers are active than
`high`; otherwise it asks for `active - low`, and all of these are pending then. -/
theorem requestShrink_cases (s : Sizer) :
    ((0 < s.pendingQuits ∨ s.active < s.high) ∧ s.requestShrink = (0, s)) ∨
      (s.pendingQuits = 0 ∧ s.high ≤ s.active ∧ s.requestShrink =
        (s.active - s.low, { s with pendingQuits := s.active - s.low })) := by
  by_cases hnone : 0 < s.pendingQuits ∨ s.active < s.high
  · exact Or.inl ⟨hnone, if_pos hnone⟩
  · exact Or.inr ⟨by omega, by omega, if_neg hnone⟩

/-- `tryRetire` takes one off the pending quits, whether the worker leaves or not. -/
theorem pendingQuits_tryRetire (slot : Nat) (s : Sizer) :
    (s.tryRetire slot).2.pendingQuits = s.pendingQuits - 1 := by
  rw [tryRetire]
  split <;> rfl

/-- The pending quits and the watermarks are as they were. -/
structure SameQuits (s s' : Sizer) : Prop where
  pendingQuits : s'.pendingQuits = s.pendingQuits
  low : s'.low = s.low
  high : s'.high = s.high

/-- A sizer has its own pending quits and watermarks. -/
theorem SameQuits.refl (s : Sizer) : SameQuits s s := ⟨rfl, rfl, rfl⟩

/-- `addWorker` keeps the pending quits and the watermarks. -/
theorem SameQuits.addWorker (s : Sizer) : SameQuits s s.addWorker.2 := by
  rw [Sizer.addWorker]
  split <;> exact ⟨rfl, rfl, rfl⟩

/-- `enterPause` keeps the pending quits and the watermarks. -/
theorem SameQuits.enterPause (s : Sizer) : SameQuits s s.enterPause.2 := by
  rw [Sizer.enterPause]
  split
  · have hadded := SameQuits.addWorker { s with paused := s.paused + 1 }
    exact ⟨hadded.pendingQuits, hadded.low, hadded.high⟩
  · exact ⟨rfl, rfl, rfl⟩

end Sizer

namespace Pool

variable {ω : Type} {p p' : Pool ω}

/-! ### What is no matter of the quits -/

/-- `p'` has the queue, the pending quits and the watermarks of `p`. -/
structure SameQueue (p p' : Pool ω) : Prop where
  queue : p'.queue = p.queue
  sizer : p.sizer.SameQuits p'.sizer

/-- Whether an event of a `Floor` leaves the quits and the queue alone. -/
def FloorEvent.isAside : FloorEvent ω → Bool
  | .act .countQuits | .act (.pushQuit _) | .act (.retire _) | .act (.queue _) => false
  | _ => true

namespace SameQueue

/-- A pool with the same queue and the same sizer has the same queue and pending quits. -/
theorem of_eq (hqueue : p'.queue = p.queue) (hsizer : p'.sizer = p.sizer) : SameQueue p p' :=
  ⟨hqueue, hsizer ▸ .refl _⟩

/-- `SameQueue` is transitive. -/
theorem trans {p'' : Pool ω} (h : SameQueue p p') (h' : SameQueue p' p'') : SameQueue p p'' where
  queue := h'.queue.trans h.queue
  sizer := ⟨h'.sizer.pendingQuits.trans h.sizer.pendingQuits, h'.sizer.low.trans h.sizer.low,
    h'.sizer.high.trans h.sizer.high⟩

/-- `Pool.check` keeps the queue and the pending quits. -/
theorem check (origin : String) (p : Pool ω) : SameQueue p (p.check origin).2 := by
  rw [Pool.check]
  split <;> exact of_eq rfl rfl

/-- `Pool.start` keeps the queue and the pending quits. -/
theorem start (spawned : Bool) (p : Pool ω) : SameQueue p (p.start spawned).2 := by
  have hadded := Sizer.SameQuits.addWorker p.sizer
  by_cases hstarted : p.started = true
  · rw [start_of_started hstarted]
    exact of_eq rfl rfl
  · cases spawned with
    | true =>
      simp only [Pool.start, hstarted, if_true]
      exact ⟨rfl, hadded⟩
    | false =>
      simp only [Pool.start, hstarted]
      exact ⟨rfl, hadded.pendingQuits, hadded.low, hadded.high⟩

/-- An act that `isAside` keeps the queue and the pending quits. -/
theorem perform {a : PoolAct ω} (ha : FloorEvent.isAside (.act a) = true) :
    SameQueue p (p.perform a) := by
  cases a with
  | countQuits | pushQuit _ | retire _ | queue _ => cases ha
  | check origin => exact check origin p
  | start spawned => exact start spawned p
  | spawnFailed slot => exact ⟨rfl, rfl, rfl, rfl⟩
  | tellShrink quits =>
    rw [Pool.perform, tellShrink]
    split <;> exact of_eq rfl rfl
  | listen =>
    rw [Pool.perform, listen]
    split <;> exact of_eq rfl rfl
  | _ => exact of_eq rfl rfl

/-- `Pool.noteAway` keeps the queue and the pending quits. -/
theorem noteAway (ctx token : Nat) (reason : String) (p : Pool ω) :
    SameQueue p (p.noteAway ctx token reason).2 := by
  by_cases hpooled : (p.context ctx).pooled = true
  · simp only [Pool.noteAway, hpooled, if_true]
    exact ⟨rfl, .enterPause _⟩
  · simp only [Pool.noteAway, hpooled]
    exact of_eq rfl rfl

/-- `Pool.noteBack` keeps the queue and the pending quits. -/
theorem noteBack (ctx : Nat) (cause : Option String) (p : Pool ω) :
    SameQueue p (p.noteBack ctx cause) := by
  rw [Pool.noteBack]
  split
  · exact ⟨rfl, rfl, rfl, rfl⟩
  · exact of_eq rfl rfl

/-- `Pool.park` keeps the queue and the pending quits. -/
theorem park (ctx token : Nat) (p : Pool ω) : SameQueue p (p.park ctx token).2 := by
  rcases park_cases ctx token p with ⟨e, reports, heq⟩ | ⟨-, -, -, heq⟩
  all_goals
    rw [heq]
    exact of_eq rfl rfl

/-- An event that `isAside` keeps the queue and the pending quits. -/
theorem after {s : Floor ω} {e : FloorEvent ω} (he : e.isAside = true) :
    SameQueue s.pool (s.after e).pool := by
  obtain ⟨p, under, stage⟩ := s
  have hrefl : SameQueue p p := of_eq rfl rfl
  cases e with
  | park ctx token reason =>
    cases stage with
    | free =>
      have hpark := park ctx token p
      by_cases hthere : ctx < p.contexts.size ∧ token < p.ledger.tokens.size
      · simp only [Floor.after, if_pos hthere]
        generalize p.park ctx token = r at hpark ⊢
        obtain ⟨_ | _, p'⟩ := r
        · exact hpark
        · exact hpark
      · simp only [Floor.after, if_neg hthere]
        exact hrefl
    | pausing _ _ _ => exact hrefl
    | resuming _ _ => exact hrefl
  | noteAway =>
    cases stage with
    | pausing ctx token reason => exact noteAway ctx token reason p
    | free => exact hrefl
    | resuming _ _ => exact hrefl
  | noteBack ctx cause =>
    cases stage with
    | free =>
      by_cases hmem : ctx ∈ under
      · simp only [Floor.after, if_pos hmem]
        exact noteBack ctx cause p
      · simp only [Floor.after, if_neg hmem]
        exact hrefl
    | pausing _ _ _ => exact hrefl
    | resuming _ _ => exact hrefl
  | unpark =>
    cases stage with
    | resuming ctx held => exact (of_eq rfl rfl : SameQueue p (p.unpark ctx held)).trans (check _ _)
    | free => exact hrefl
    | pausing _ _ _ => exact hrefl
  | act a => exact perform he

end SameQueue

/-! ### The workers -/

/-- What a worker is about to do. -/
inductive Duty where
  /-- Take the next entry of the queue. -/
  | pick
  /-- Answer the quit of a number, which it has taken. -/
  | quit (number : Nat)
  /-- End the event that it runs. -/
  | serve
  /-- Have the quits counted. -/
  | tally
  /-- Push a quit of a batch, and then so many more. -/
  | push (batch left : Nat)
  /-- Nothing more: it has left. -/
  | gone
deriving DecidableEq, Repr

namespace Duty

/-- The duty of a worker that has to push so many quits of a batch. -/
def ofQuits (batch : Nat) : Nat → Duty
  | 0 => .pick
  | left + 1 => .push batch left

/-- The duty of a worker that was given this answer by the queue. -/
def ofEntry : Option (QueueEntry (Work ω)) → Duty
  | none => .pick
  | some e =>
    match e.work with
    | .event _ => .serve
    | .quit => .quit e.number

/-- How many quits a worker has still to push. -/
def owed : Duty → Nat
  | .push _ left => left + 1
  | _ => 0

/-- The quit that a worker has taken and not answered. -/
def inHand : Duty → Option Nat
  | .quit number => some number
  | _ => none

/-- With `ofQuits batch quits` a worker has `quits` quits to push. -/
@[simp] theorem owed_ofQuits (batch quits : Nat) : (ofQuits batch quits).owed = quits := by
  cases quits <;> rfl

/-- With `ofQuits` a worker has no quit in its hand. -/
@[simp] theorem inHand_ofQuits (batch quits : Nat) : (ofQuits batch quits).inHand = none := by
  cases quits <;> rfl

/-- With `ofEntry` a worker has no quit to push. -/
@[simp] theorem owed_ofEntry (found : Option (QueueEntry (Work ω))) : (ofEntry found).owed = 0 := by
  cases found with
  | none => rfl
  | some e =>
    rw [ofEntry]
    split <;> rfl

/-- With `ofEntry found` a worker has `found` in its hand if that is a quit. -/
@[simp] theorem inHand_ofEntry (found : Option (QueueEntry (Work ω))) :
    (ofEntry found).inHand = found.bind Queue.quit? := by
  cases found with
  | none => rfl
  | some e =>
    rw [ofEntry, Option.bind_some, Queue.quit?]
    split <;> rfl

end Duty

/-- A pool with its workers. -/
structure Shift (ω : Type) where
  /-- The pool, with its pauses. -/
  floor : Floor ω
  /-- What each of the workers is about to do. -/
  duties : List Duty
  /-- The handles that somebody has of entries of the queue. -/
  handles : List Nat
  /-- How often quits were counted. -/
  batches : Nat
  /-- The quits that were pushed, each with its batch. -/
  pushed : List (Nat × Nat)
  /-- The quits that were answered. -/
  answered : List Nat

/-- What happens on a pool with its workers. -/
inductive ShiftEvent (ω : Type) where
  /-- A worker has come. -/
  | join
  /-- A worker takes the next entry, if there is one. -/
  | take (worker now : Nat)
  /-- The worker of a slot answers the quit that it has taken. -/
  | answer (worker slot : Nat)
  /-- A worker ends its event. -/
  | finish (worker : Nat)
  /-- A worker has the quits counted. -/
  | count (worker : Nat)
  /-- A worker pushes one of the quits that it has to push. -/
  | push (worker now : Nat)
  /-- Others use the queue. -/
  | use (now : Nat) (call : Queue.QueueCall ω)
  /-- Something is done to the pool that is no matter of the quits and the queue. -/
  | aside (e : FloorEvent ω)

namespace Shift

/-- The pool. -/
def pool (s : Shift ω) : Pool ω := s.floor.pool

/-- The quits that are still to be pushed. -/
def owed (s : Shift ω) : Nat := (s.duties.map Duty.owed).sum

/-- The quits that were taken and not answered. -/
def inHand (s : Shift ω) : List Nat := s.duties.filterMap Duty.inHand

/-- The shift after `worker` has done something to the pool and has the duty `d` next. -/
def turn (s : Shift ω) (worker : Nat) (d : Duty) (pool : Pool ω) : Shift ω :=
  { s with floor := { s.floor with pool }, duties := s.duties.set worker d }

/-- What an event leads to. A worker does what it is about to do, and nothing else. -/
def after (s : Shift ω) : ShiftEvent ω → Shift ω
  | .join => { s with duties := s.duties ++ [.pick] }
  | .take worker now =>
    match s.duties[worker]? with
    | some .pick =>
      let ((found, _), queue) := s.pool.queue.dequeue now
      s.turn worker (.ofEntry found) { s.pool with queue }
    | _ => s
  | .answer worker slot =>
    match s.duties[worker]? with
    | some (.quit number) =>
      let (leaves, pool) := s.pool.retire slot
      { s.turn worker (if leaves then .gone else .pick) pool with answered := number :: s.answered }
    | _ => s
  | .finish worker =>
    match s.duties[worker]? with
    | some .serve => s.turn worker .tally s.pool
    | _ => s
  | .count worker =>
    match s.duties[worker]? with
    | some .tally =>
      let (quits, pool) := s.pool.countQuits
      { s.turn worker (.ofQuits s.batches quits) pool with batches := s.batches + 1 }
    | _ => s
  | .push worker now =>
    match s.duties[worker]? with
    | some (.push batch left) =>
      { s.turn worker (.ofQuits batch left) (s.pool.pushQuit now) with
        pushed := (s.pool.queue.nextNumber, batch) :: s.pushed }
    | _ => s
  | .use now call =>
    let (handles, queue) := s.pool.queue.use now call s.handles
    { s with floor := { s.floor with pool := { s.pool with queue } }, handles }
  | .aside e => if e.isAside then { s with floor := s.floor.after e } else s

/-- What a list of events leads to, from a pool without workers on. -/
def history (p : Pool ω) (events : List (ShiftEvent ω)) : Shift ω :=
  events.foldl after ⟨⟨p, [], .free⟩, [], [], 0, [], []⟩

/-! ### Duties -/

variable {s : Shift ω} {worker : Nat} {d d' : Duty}

/-- The duties are those of `worker`, which may be replaced by any `d'`, and of the others. -/
theorem exists_others (h : s.duties[worker]? = some d) :
    ∃ others, s.duties.Perm (d :: others) ∧
      ∀ d', (s.duties.set worker d').Perm (d' :: others) := by
  obtain ⟨hlt, rfl⟩ := List.getElem?_eq_some_iff.1 h
  exact ⟨s.duties.eraseIdx worker, (List.getElem_cons_eraseIdx_perm hlt).symm,
    fun d' => List.set_perm_cons_eraseIdx hlt d'⟩

/-- A batch is **outstanding** as long as a worker has a quit of it to push, or one that was pushed
is in the queue or in the hand of a worker. -/
def Outstanding (s : Shift ω) (batch : Nat) : Prop :=
  (∃ left, .push batch left ∈ s.duties) ∨
    ∃ number, (number, batch) ∈ s.pushed ∧ (number ∈ s.pool.queue.quits ∨ number ∈ s.inHand)

/-- The **account** of the quits. -/
structure Reckoned (s : Shift ω) : Prop where
  /-- The watermarks are in order. -/
  low_lt : s.pool.sizer.low < s.pool.sizer.high
  /-- The quits of the queue are live. -/
  guarded : Queue.Guarded s.handles s.pool.queue
  /-- The quits that were pushed are entries of the queue, or were. -/
  given : ∀ x ∈ s.pushed, x.1 < s.pool.queue.nextNumber
  /-- No two of them are one. -/
  nodup : (s.pushed.map Prod.fst).Nodup
  /-- Each of them is in the queue, or in the hand of a worker, or was answered. -/
  whole : (s.pushed.map Prod.fst).Perm (s.pool.queue.quits ++ s.inHand ++ s.answered)
  /-- As many are pending as are in the queue or in the hand of a worker or still to be pushed. -/
  pending : s.pool.sizer.pendingQuits = s.pool.queue.quits.length + s.owed + s.inHand.length
  /-- All that are outstanding are of one batch. -/
  one : ∀ batch batch', s.Outstanding batch → s.Outstanding batch' → batch = batch'

/-- The quits that all the workers owe and have in hand are those of `worker`, which change with its
duty, and those of the others. -/
theorem exists_rest (h : s.duties[worker]? = some d) :
    ∃ (owed : Nat) (inHand : List Nat),
      s.owed = d.owed + owed ∧ s.inHand.Perm (d.inHand.toList ++ inHand) ∧
      ∀ d' pool, (s.turn worker d' pool).owed = d'.owed + owed ∧
        (s.turn worker d' pool).inHand.Perm (d'.inHand.toList ++ inHand) := by
  obtain ⟨others, hbefore, hafter⟩ := exists_others h
  have hsum : ∀ d : Duty, ((d :: others).map Duty.owed).sum = d.owed + (others.map Duty.owed).sum :=
    fun d => List.sum_cons
  have hhands : ∀ d : Duty, (d :: others).filterMap Duty.inHand =
      d.inHand.toList ++ others.filterMap Duty.inHand := fun d => by
    rw [List.filterMap_cons]
    cases d.inHand <;> rfl
  exact ⟨(others.map Duty.owed).sum, others.filterMap Duty.inHand,
    (hbefore.map Duty.owed).sum_nat.trans (hsum d), hhands d ▸ hbefore.filterMap _,
    fun d' pool => ⟨((hafter d').map Duty.owed).sum_nat.trans (hsum d'),
      hhands d' ▸ (hafter d').filterMap _⟩⟩

/-! ### What the account outlasts -/

/-- If every batch that is outstanding in `s'` was so in `s`, then in `s'` too there is at most
one. -/
theorem Reckoned.one_of_imp {s' : Shift ω} (h : s.Reckoned)
    (himp : ∀ batch, s'.Outstanding batch → s.Outstanding batch) :
    ∀ batch batch', s'.Outstanding batch → s'.Outstanding batch' → batch = batch' :=
  fun batch batch' hb hb' => h.one batch batch' (himp batch hb) (himp batch' hb')

/-- `s'` has the account of `s`: no quit is counted, pushed, taken or answered between them. -/
structure SameAccount (s s' : Shift ω) : Prop where
  sizer : s.pool.sizer.SameQuits s'.pool.sizer
  queue : Queue.KeepsQuits s'.handles s.pool.queue s'.pool.queue
  owed : s'.owed = s.owed
  inHand : s'.inHand.Perm s.inHand
  pushes : ∀ batch left, .push batch left ∈ s'.duties → .push batch left ∈ s.duties
  pushed : s'.pushed = s.pushed
  answered : s'.answered = s.answered

/-- `SameAccount` keeps the account right. -/
theorem Reckoned.sameAccount (h : s.Reckoned) {s' : Shift ω} (hs : SameAccount s s') :
    s'.Reckoned where
  low_lt := by
    rw [hs.sizer.low, hs.sizer.high]
    exact h.low_lt
  guarded := hs.queue.guarded
  given x hx := Nat.lt_of_lt_of_le (h.given x (hs.pushed ▸ hx)) hs.queue.next_le
  nodup := hs.pushed ▸ h.nodup
  whole := by
    rw [hs.pushed, hs.answered]
    exact h.whole.trans ((hs.queue.quits.symm.append hs.inHand.symm).append_right _)
  pending := by
    rw [hs.sizer.pendingQuits, hs.queue.quits.length_eq, hs.owed, hs.inHand.length_eq]
    exact h.pending
  one := h.one_of_imp fun batch hb => by
    rcases hb with ⟨left, hmem⟩ | ⟨number, hmem, hthere⟩
    · exact Or.inl ⟨left, hs.pushes batch left hmem⟩
    · exact Or.inr ⟨number, hs.pushed ▸ hmem,
        hthere.imp hs.queue.quits.mem_iff.1 hs.inHand.mem_iff.1⟩

/-- The counters have **no quit pending** if and only if no batch is outstanding. -/
theorem Reckoned.pendingQuits_eq_zero_iff (h : s.Reckoned) :
    s.pool.sizer.pendingQuits = 0 ↔ ∀ batch, ¬ s.Outstanding batch := by
  rw [h.pending]
  constructor
  · rintro hzero batch (⟨left, hmem⟩ | ⟨number, -, hmem | hmem⟩)
    · have hle : left + 1 ≤ s.owed := List.le_sum_of_mem (List.mem_map_of_mem hmem)
      omega
    · have hpos := List.length_pos_of_mem hmem
      omega
    · have hpos := List.length_pos_of_mem hmem
      omega
  · intro hnone
    have hpushed : ∀ n, n ∈ s.pool.queue.quits ++ s.inHand ++ s.answered →
        ∃ batch, (n, batch) ∈ s.pushed := fun n hn => by
      obtain ⟨⟨m, batch⟩, hmem, rfl⟩ := List.mem_map.1 (h.whole.mem_iff.2 hn)
      exact ⟨batch, hmem⟩
    have hquits : s.pool.queue.quits = [] := List.eq_nil_iff_forall_not_mem.2 fun n hn => by
      obtain ⟨batch, hmem⟩ := hpushed n (List.mem_append_left _ (List.mem_append_left _ hn))
      exact hnone batch (Or.inr ⟨n, hmem, Or.inl hn⟩)
    have hhand : s.inHand = [] := List.eq_nil_iff_forall_not_mem.2 fun n hn => by
      obtain ⟨batch, hmem⟩ := hpushed n (List.mem_append_left _ (List.mem_append_right _ hn))
      exact hnone batch (Or.inr ⟨n, hmem, Or.inr hn⟩)
    have howed : s.owed = 0 := List.sum_eq_zero fun n hn => by
      obtain ⟨d, hd, rfl⟩ := List.mem_map.1 hn
      cases d with
      | push batch left => exact absurd (Or.inl ⟨left, hd⟩) (hnone batch)
      | _ => rfl
    rw [hquits, hhand, howed]
    rfl

/-! ### What each event does to the account -/

/-- If a worker has to push a quit of `batch` after `worker` got the duty `d`, then `d` is to push
it, or a worker had to push it before. -/
theorem push_mem_set {duties : List Duty} {batch left : Nat}
    (h : .push batch left ∈ duties.set worker d) :
    d = .push batch left ∨ .push batch left ∈ duties :=
  (List.mem_or_eq_of_mem_set h).symm.imp_left Eq.symm

/-- If `d` has nothing to push, then whoever has to push a quit after `worker` got the duty `d` had
to before. -/
theorem push_mem_of_set {duties : List Duty} {batch left : Nat} (hd : d.owed = 0)
    (h : .push batch left ∈ duties.set worker d) : .push batch left ∈ duties := by
  rcases push_mem_set h with rfl | hmem
  · exact absurd hd (Nat.succ_ne_zero left)
  · exact hmem

/-- What `ofQuits batch` has to push is of that batch. -/
theorem eq_of_ofQuits {batch quits batch' left : Nat}
    (h : Duty.ofQuits batch quits = .push batch' left) : batch' = batch := by
  cases quits with
  | zero => cases h
  | succ quits =>
    cases h
    rfl

/-- A change of duty between two without a quit to push or in hand keeps the account, if the pool
keeps its quits. -/
theorem sameAccount_turn {pool : Pool ω} (h : s.duties[worker]? = some d)
    (hsizer : s.pool.sizer.SameQuits pool.sizer)
    (hqueue : Queue.KeepsQuits s.handles s.pool.queue pool.queue)
    (howed : d.owed = 0 ∧ d'.owed = 0) (hhand : d.inHand = none ∧ d'.inHand = none) :
    SameAccount s (s.turn worker d' pool) := by
  obtain ⟨owed, inHand, hs, hhands, hturn⟩ := exists_rest h
  obtain ⟨hs', hhands'⟩ := hturn d' pool
  rw [hhand.1] at hhands
  rw [hhand.2] at hhands'
  exact ⟨hsizer, hqueue, by omega, hhands'.trans hhands.symm,
    fun _ _ hmem => push_mem_of_set howed.2 hmem, rfl, rfl⟩

/-- The account stays right when a worker **takes** the next entry: a quit goes from the queue into
its hand. -/
theorem Reckoned.take (h : s.Reckoned) (hd : s.duties[worker]? = some .pick) {now : Nat}
    {found : Option (QueueEntry (Work ω))} {popped : Bool} {queue : Queue (Work ω)}
    (hfound : s.pool.queue.dequeue now = ((found, popped), queue)) :
    (s.turn worker (.ofEntry found) { s.pool with queue }).Reckoned := by
  cases found with
  | none =>
    exact h.sameAccount
      (sameAccount_turn hd (.refl _) (h.guarded.shed (Queue.shed_of_dequeue_none hfound))
      ⟨rfl, rfl⟩ ⟨rfl, rfl⟩)
  | some e =>
    obtain ⟨hguarded, hquits⟩ := h.guarded.dequeue hfound
    have hnext : queue.nextNumber = s.pool.queue.nextNumber := by
      obtain ⟨q₁, hshed, -, -, hnext, -⟩ := Queue.entries_dequeue hfound
      exact hnext.trans hshed.nextNumber
    obtain ⟨owed, inHand, hs, hhands, hturn⟩ := exists_rest hd
    obtain ⟨hs', hhands'⟩ := hturn (.ofEntry (some e)) { s.pool with queue }
    set s' := s.turn worker (.ofEntry (some e)) { s.pool with queue } with hs'_def
    have howed : s'.owed = s.owed := by
      rw [hs', hs, Duty.owed_ofEntry]
      rfl
    -- What is in the hand of the worker now was in the queue before.
    have hmoved : (queue.quits ++ s'.inHand).Perm (s.pool.queue.quits ++ s.inHand) := by
      rw [Duty.inHand_ofEntry, Option.bind_some] at hhands'
      refine (hhands'.append_left _).trans (.trans ?_ (hquits.append hhands.symm))
      rw [← List.append_assoc]
      exact List.perm_append_comm.append_right _
    have hlength := hmoved.length_eq
    rw [List.length_append, List.length_append] at hlength
    have hpending := h.pending
    exact {
      low_lt := h.low_lt
      guarded := hguarded
      given := fun x hx => Nat.lt_of_lt_of_eq (h.given x hx) hnext.symm
      nodup := h.nodup
      whole := h.whole.trans (hmoved.symm.append_right _)
      pending := show s.pool.sizer.pendingQuits = queue.quits.length + s'.owed + _ by omega
      one := h.one_of_imp fun batch hb => by
        rcases hb with ⟨left, hmem⟩ | ⟨number, hmem, hthere⟩
        · exact Or.inl ⟨left, push_mem_of_set (Duty.owed_ofEntry _) hmem⟩
        · rw [← List.mem_append] at hthere
          exact Or.inr ⟨number, hmem, List.mem_append.1 (hmoved.mem_iff.1 hthere)⟩ }

/-- The account stays right when a worker **answers** the quit in its hand. -/
theorem Reckoned.answer (h : s.Reckoned) {number : Nat}
    (hd : s.duties[worker]? = some (.quit number)) (slot : Nat) (howed : d.owed = 0)
    (hhand : d.inHand = none) :
    ({ s.turn worker d (s.pool.retire slot).2 with
      answered := number :: s.answered } : Shift ω).Reckoned := by
  obtain ⟨owed, inHand, hs, hhands, hturn⟩ := exists_rest hd
  obtain ⟨hs', hhands'⟩ := hturn d (s.pool.retire slot).2
  rw [hhand] at hhands'
  set s' := s.turn worker d (s.pool.retire slot).2 with hs'_def
  have howed' : s'.owed = s.owed := by
    rw [hs', hs, howed]
    rfl
  have hgone : s.inHand.Perm (number :: s'.inHand) := hhands.trans (hhands'.symm.cons number)
  have hlength := hgone.length_eq
  rw [List.length_cons] at hlength
  have hpending := h.pending
  have hretired : (s.pool.retire slot).2.sizer.pendingQuits = s.pool.sizer.pendingQuits - 1 :=
    Sizer.pendingQuits_tryRetire slot s.pool.sizer
  have hlimits := Sizer.SameLimits.tryRetire slot s.pool.sizer
  exact {
    low_lt := show (s.pool.sizer.tryRetire slot).2.low < (s.pool.sizer.tryRetire slot).2.high by
      rw [hlimits.low, hlimits.high]
      exact h.low_lt
    guarded := h.guarded
    given := h.given
    nodup := h.nodup
    whole := by
      refine h.whole.trans (((hgone.append_left _).append_right _).trans ?_)
      rw [List.append_assoc, List.append_assoc, List.cons_append]
      exact List.perm_middle.symm.append_left _
    pending := show (s.pool.retire slot).2.sizer.pendingQuits =
      s.pool.queue.quits.length + s'.owed + s'.inHand.length by omega
    one := h.one_of_imp fun batch hb => by
      rcases hb with ⟨left, hmem⟩ | ⟨n, hmem, hthere⟩
      · exact Or.inl ⟨left, push_mem_of_set howed hmem⟩
      · exact Or.inr ⟨n, hmem,
          hthere.imp_right fun hin => hgone.mem_iff.2 (List.mem_cons_of_mem number hin)⟩ }

/-- The account stays right when the quits are **counted**: a new batch is begun only if none is
outstanding. -/
theorem Reckoned.count (h : s.Reckoned) (hd : s.duties[worker]? = some .tally) (batches : Nat) :
    ({ s.turn worker (.ofQuits s.batches s.pool.countQuits.1) s.pool.countQuits.2 with
      batches } : Shift ω).Reckoned := by
  rcases Sizer.requestShrink_cases s.pool.sizer with ⟨-, heq⟩ | ⟨hzero, hmany, heq⟩
  · have hcount : s.pool.countQuits = (0, s.pool) := by
      rw [countQuits, heq]
    have hstill : SameAccount s (s.turn worker .pick s.pool) :=
      sameAccount_turn hd (.refl _) ⟨h.guarded, .refl _, Nat.le_refl _⟩ ⟨rfl, rfl⟩ ⟨rfl, rfl⟩
    rw [hcount]
    exact h.sameAccount
      ⟨hstill.sizer, hstill.queue, hstill.owed, hstill.inHand, hstill.pushes, rfl, rfl⟩
  · set quits := s.pool.sizer.active - s.pool.sizer.low with hquits
    set pool : Pool ω := { s.pool with sizer := { s.pool.sizer with pendingQuits := quits } }
      with hpool
    have hcount : s.pool.countQuits = (quits, pool) := by rw [countQuits, heq]
    have hnone := h.pendingQuits_eq_zero_iff.1 hzero
    obtain ⟨owed, inHand, hs, hhands, hturn⟩ := exists_rest hd
    obtain ⟨hs', hhands'⟩ := hturn (.ofQuits s.batches quits) pool
    rw [hcount]
    set s' := s.turn worker (.ofQuits s.batches quits) pool with hs'_def
    have howed : s'.owed = quits + s.owed := by
      rw [hs', hs, Duty.owed_ofQuits, show Duty.tally.owed = 0 from rfl, Nat.zero_add]
    have hhand : s'.inHand.Perm s.inHand := by
      rw [Duty.inHand_ofQuits] at hhands'
      exact hhands'.trans hhands.symm
    have hlength := hhand.length_eq
    have hpending := h.pending
    have honly : ∀ batch, ({ s' with batches } : Shift ω).Outstanding batch →
        batch = s.batches := by
      rintro batch (⟨left, hmem⟩ | ⟨n, hmem, hthere⟩)
      · rcases push_mem_set hmem with heq | hmem
        · exact eq_of_ofQuits heq
        · exact absurd (Or.inl ⟨left, hmem⟩) (hnone batch)
      · exact absurd (Or.inr ⟨n, hmem, hthere.imp_right hhand.mem_iff.1⟩) (hnone batch)
    exact {
      low_lt := h.low_lt
      guarded := h.guarded
      given := h.given
      nodup := h.nodup
      whole := h.whole.trans ((hhand.symm.append_left _).append_right _)
      pending := show quits = s.pool.queue.quits.length + s'.owed + s'.inHand.length by omega
      one := fun batch batch' hb hb' => (honly batch hb).trans (honly batch' hb').symm }

/-- The account stays right when a quit is **pushed**: it is owed no more, and is in the queue. -/
theorem Reckoned.push (h : s.Reckoned) {batch left : Nat}
    (hd : s.duties[worker]? = some (.push batch left)) {pool : Pool ω}
    (hsizer : pool.sizer = s.pool.sizer) (hguarded : Queue.Guarded s.handles pool.queue)
    (hquits : pool.queue.quits.Perm (s.pool.queue.nextNumber :: s.pool.queue.quits))
    (hnext : pool.queue.nextNumber = s.pool.queue.nextNumber + 1) :
    ({ s.turn worker (.ofQuits batch left) pool with
      pushed := (s.pool.queue.nextNumber, batch) :: s.pushed } : Shift ω).Reckoned := by
  obtain ⟨owed, inHand, hs, hhands, hturn⟩ := exists_rest hd
  obtain ⟨hs', hhands'⟩ := hturn (.ofQuits batch left) pool
  set s' := s.turn worker (.ofQuits batch left) pool with hs'_def
  have howed : s.owed = s'.owed + 1 := by
    rw [hs', hs, Duty.owed_ofQuits, show (Duty.push batch left).owed = left + 1 from rfl]
    omega
  have hhand : s'.inHand.Perm s.inHand := by
    rw [Duty.inHand_ofQuits] at hhands'
    exact hhands'.trans hhands.symm
  have hlength := hquits.length_eq
  have hlength' := hhand.length_eq
  have hpending := h.pending
  rw [List.length_cons] at hlength
  have hbatch : s.Outstanding batch := Or.inl ⟨left, List.mem_of_getElem? hd⟩
  exact {
    low_lt := show pool.sizer.low < pool.sizer.high by
      rw [hsizer]
      exact h.low_lt
    guarded := hguarded
    given := fun x hx => by
      show x.1 < pool.queue.nextNumber
      rw [hnext]
      rcases List.mem_cons.1 hx with rfl | hx
      · exact Nat.lt_succ_self _
      · exact Nat.lt_succ_of_lt (h.given x hx)
    nodup := by
      rw [List.map_cons, List.nodup_cons]
      refine ⟨fun hmem => ?_, h.nodup⟩
      obtain ⟨x, hx, hnumber⟩ := List.mem_map.1 hmem
      exact Nat.ne_of_lt (h.given x hx) hnumber
    whole := (h.whole.cons _).trans ((hquits.symm.append hhand.symm).append_right _)
    pending :=
      show pool.sizer.pendingQuits = pool.queue.quits.length + s'.owed + s'.inHand.length by
      rw [hsizer]
      omega
    one := h.one_of_imp fun batch' hb => by
      rcases hb with ⟨left', hmem⟩ | ⟨n, hmem, hthere⟩
      · rcases push_mem_set hmem with heq | hmem
        · exact eq_of_ofQuits heq ▸ hbatch
        · exact Or.inl ⟨left', hmem⟩
      · rcases List.mem_cons.1 hmem with heq | hmem
        · exact (Prod.mk.inj heq).2 ▸ hbatch
        · refine Or.inr ⟨n, hmem, hthere.imp (fun hin => ?_) hhand.mem_iff.1⟩
          rcases List.mem_cons.1 (hquits.mem_iff.1 hin) with rfl | hin
          · exact absurd (h.given _ hmem) (Nat.lt_irrefl _)
          · exact hin }

/-- Replacing the queue of a pool leaves its sizer as it is. -/
theorem sizer_setQueue (queue : Queue (Work ω)) (p : Pool ω) :
    ({ p with queue } : Pool ω).sizer = p.sizer := rfl

/-- **One step.** The account stays right whatever happens. -/
theorem Reckoned.after (h : s.Reckoned) (e : ShiftEvent ω) : (s.after e).Reckoned := by
  cases e with
  | join =>
    refine h.sameAccount
      ⟨.refl _, ⟨h.guarded, .refl _, Nat.le_refl _⟩, ?_, ?_, fun batch left hmem => ?_,
      rfl, rfl⟩
    · show ((s.duties ++ [Duty.pick]).map Duty.owed).sum = (s.duties.map Duty.owed).sum
      rw [List.map_append, List.sum_append]
      rfl
    · show ((s.duties ++ [Duty.pick]).filterMap Duty.inHand).Perm (s.duties.filterMap Duty.inHand)
      rw [List.filterMap_append]
      exact .of_eq (List.append_nil _)
    · rcases List.mem_append.1 hmem with hmem | hmem
      · exact hmem
      · cases List.mem_singleton.1 hmem
  | take worker now =>
    rw [Shift.after]
    split
    · rename_i hd
      have hfound : s.pool.queue.dequeue now = _ := rfl
      exact h.take hd hfound
    · exact h
  | answer worker slot =>
    rw [Shift.after]
    split
    · rename_i number hd
      exact h.answer hd slot (by split <;> rfl) (by split <;> rfl)
    · exact h
  | finish worker =>
    rw [Shift.after]
    split
    · rename_i hd
      exact h.sameAccount
        (sameAccount_turn hd (.refl _) ⟨h.guarded, .refl _, Nat.le_refl _⟩ ⟨rfl, rfl⟩
        ⟨rfl, rfl⟩)
    · exact h
  | count worker =>
    rw [Shift.after]
    split
    · rename_i hd
      exact h.count hd (s.batches + 1)
    · exact h
  | push worker now =>
    rw [Shift.after]
    split
    · rename_i batch left hd
      obtain ⟨hguarded, hquits, hnext⟩ :=
        h.guarded.pushQuit now (millis s.pool.config.shrinkDelayMs)
      exact h.push hd (sizer_setQueue _ s.pool) hguarded hquits hnext
    · exact h
  | use now call =>
    exact h.sameAccount
      ⟨.refl _, h.guarded.use now call, rfl, .refl _, fun _ _ hmem => hmem, rfl, rfl⟩
  | aside e =>
    rw [Shift.after]
    split
    · rename_i he
      have haside : SameQueue s.pool (s.floor.after e).pool := .after he
      refine h.sameAccount ⟨haside.sizer, ?_, rfl, .refl _, fun _ _ hmem => hmem, rfl, rfl⟩
      have hqueue : (s.floor.after e).pool.queue = s.pool.queue := haside.queue
      show Queue.KeepsQuits s.handles s.pool.queue (s.floor.after e).pool.queue
      rw [hqueue]
      exact ⟨h.guarded, .refl _, Nat.le_refl _⟩
    · exact h

/-- **A whole run.** The account is right in every `Shift.history` that begins with a right one. -/
theorem Reckoned.history {p : Pool ω} (h : Reckoned ⟨⟨p, [], .free⟩, [], [], 0, [], []⟩)
    (events : List (ShiftEvent ω)) : (Shift.history p events).Reckoned :=
  List.foldlRecOn events _ h fun _ h e _ => h.after e

/-- The account of a pool that was just made from its parts is right: it has no quits. -/
theorem reckoned_ofParts {config : ThreadConfig} {limits : PerCategory (Option Nat)} {p : Pool ω}
    (h : ofParts config limits = .ok p) : Reckoned ⟨⟨p, [], .free⟩, [], [], 0, [], []⟩ := by
  have hp := unused_ofParts h
  have hqueue : p.queue = .new config.maxQueueDepth := by
    rw [ofParts, hp.valid] at h
    exact (Except.ok.inj h) ▸ rfl
  have hguarded : Queue.Guarded [] p.queue := by
    rw [hqueue]
    exact {
      sound := ⟨List.forall_mem_nil _, .nil, List.forall_mem_nil _⟩
      live := List.forall_mem_nil _
      apart := List.forall_mem_nil _
      given := List.forall_mem_nil _ }
  have hquits : p.queue.quits = [] := hqueue ▸ rfl
  exact {
    low_lt := show p.sizer.low < p.sizer.high by
      rw [hp.sizer]
      exact (watermarks_of_validate hp.valid).2.1
    guarded := hguarded
    given := List.forall_mem_nil _
    nodup := .nil
    whole := show List.Perm [] (p.queue.quits ++ [] ++ []) by rw [hquits]; exact .nil
    pending := show p.sizer.pendingQuits = p.queue.quits.length + 0 + 0 by
      rw [hquits, hp.sizer]
      rfl
    one := fun batch batch' hb => by
      rcases hb with ⟨left, hmem⟩ | ⟨number, hmem, -⟩
      · cases hmem
      · cases hmem }

end Shift

/-- **The account of the quits**, after any events of a pool and its workers:

* `pendingQuits` is the number of quits in the queue, of those that are still `owed` to it, and of
  those `inHand`;
* so `retire` of a quit in hand takes one off, and nothing is cut off at zero;
* each quit that was pushed is in the queue, in hand or `answered`, in one of these and once; and
  those in the queue were not cancelled;
* all that are `Outstanding` are of one batch, and `countQuits` asks for quits only while none is;
* none is outstanding just if `pendingQuits` is 0, and then `countQuits` asks for quits if `high`
  workers are active. -/
theorem quit_accounts {config : ThreadConfig} {limits : PerCategory (Option Nat)} {p : Pool ω}
    (h : ofParts config limits = .ok p) (events : List (ShiftEvent ω)) :
    let s := Shift.history p events
    let pending := s.pool.sizer.pendingQuits
    pending = s.pool.queue.quits.length + s.owed + s.inHand.length ∧
    (s.inHand = [] → pending = s.pool.queue.quits.length + s.owed) ∧
    (∀ number ∈ s.inHand, ∀ slot,
      (s.pool.retire slot).2.sizer.pendingQuits + 1 = pending) ∧
    (s.pushed.map Prod.fst).Nodup ∧
    (s.pushed.map Prod.fst).Perm (s.pool.queue.quits ++ s.inHand ++ s.answered) ∧
    (∀ number ∈ s.pool.queue.quits, s.pool.queue.isCancelled number = false) ∧
    (∀ batch batch', s.Outstanding batch → s.Outstanding batch' → batch = batch') ∧
    (0 < s.pool.countQuits.1 → ∀ batch, ¬ s.Outstanding batch) ∧
    (pending = 0 ↔ ∀ batch, ¬ s.Outstanding batch) ∧
    ((∀ batch, ¬ s.Outstanding batch) → s.pool.sizer.high ≤ s.pool.sizer.active →
      0 < s.pool.countQuits.1 ∧ s.pool.countQuits.1 = s.pool.sizer.active - s.pool.sizer.low) := by
  intro s pending
  have hs : s.Reckoned := (Shift.reckoned_ofParts h).history events
  have hzero : pending = 0 ↔ ∀ batch, ¬ s.Outstanding batch := hs.pendingQuits_eq_zero_iff
  refine ⟨hs.pending, fun hnone => ?_, fun number hmem slot => ?_, hs.nodup, hs.whole,
    hs.guarded.live, hs.one, fun hcounted => ?_, hzero, fun hnone hmany => ?_⟩
  · have hpending := hs.pending
    rw [hnone] at hpending
    exact hpending
  · have hretired : (s.pool.retire slot).2.sizer.pendingQuits = pending - 1 :=
      Sizer.pendingQuits_tryRetire slot s.pool.sizer
    have hpos := List.length_pos_of_mem hmem
    have hpending : pending = _ := hs.pending
    omega
  · refine hzero.1 ?_
    rcases Sizer.requestShrink_cases s.pool.sizer with ⟨-, heq⟩ | ⟨hnone, -, -⟩
    · rw [countQuits, heq] at hcounted
      exact absurd hcounted (Nat.lt_irrefl 0)
    · exact hnone
  · have hlt := hs.low_lt
    have hnone : s.pool.sizer.pendingQuits = 0 := hzero.2 hnone
    rcases Sizer.requestShrink_cases s.pool.sizer with ⟨hbusy, -⟩ | ⟨-, -, heq⟩
    · omega
    · rw [countQuits, heq]
      exact ⟨by show 0 < s.pool.sizer.active - s.pool.sizer.low; omega, rfl⟩

/-- A pool for one to three workers, four at most, in which nobody has worked. -/
def crowded : Pool Unit :=
  { untouched with
    config := { untouched.config with
      lowWatermark := 1, highWatermark := 3, maxThreads := 4, shrinkDelayMs := 5 }
    sizer := .new 1 3 4 }

/-- Two workers pause, a third one is added, and the two resume. Then an event is over, two quits
are counted, and one of them is pushed and taken while the other one is still to be pushed. -/
def halfway : List (ShiftEvent Unit) :=
  [.aside (.act (.start true)), .join, .aside (.act (.add (.worker 0) true)),
    .aside (.act (.issue .unlimited .normal "read")), .aside (.park 0 0 "reading"),
    .aside .noteAway, .join, .aside (.act (.add (.worker 1) true)), .aside (.park 1 0 "reading"),
    .aside .noteAway, .join, .aside (.noteBack 0 none), .aside .unpark,
    .aside (.noteBack 1 none), .aside .unpark,
    .use 0 (.schedule .normal 0 ()), .take 0 0, .finish 0, .count 0, .push 0 0,
    .take 1 (millis 5)]

/-- The account at that point, and when the quit is answered. -/
theorem quit_accounts_halfway :
    let s := Shift.history crowded halfway
    s.pool.sizer.pendingQuits = 2 ∧ s.owed = 1 ∧ s.inHand = [1] ∧
      (s.pool.retire 1).2.sizer.pendingQuits + 1 = 2 :=
  have hfresh : ofParts crowded.config (.const none) = .ok crowded := rfl
  ⟨by decide, by decide, by decide, (quit_accounts hfresh halfway).2.2.1 1 (by decide) 1⟩

end Pool

end TurnPool
