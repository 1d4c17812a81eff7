import Mathlib.Data.List.TakeWhile
import TurnPool.Proofs.QueueEntries

/-!
# The order in which entries leave the queue

To whoever uses it the event queue is one list: of the entries that were pushed, not called off and
not taken, the next one to leave is among those whose time has come the one of the highest priority,
and among those of one priority the one that was pushed first. Ready and deferred entries,
promotion, lazy cancellation and the purge of a full queue are no more than a way to have that list
at hand.

## What is compared

A `Session` is a queue with a clock that never goes back and a diary of what was done, latest first.
The diary alone says which entries are *standing* and which of them is next (`Standing`, `IsNext`).
Entries are numbered by their pushes, deferred ones too, and an entry with no delay may be taken
from the instant of its push on.

## Main results

* `Ordered`: ready and deferred entries are kept in their orders.
* `Aged`: promotion, purges and skipping lose no live entry and make none up.
* `MatchesDiary`: the queue agrees with its diary, in every session.
* `leaves_in_order`: **what leaves the queue** is told by the diary.
-/

namespace TurnPool

/-! ### Two orders -/

namespace QueueEntry

variable {α : Type} {a b : QueueEntry α}

/-- An entry leaves before another if its priority is higher, or the same and its number is
smaller. -/
theorem before_iff : a.before b = true ↔
    b.priority.rank < a.priority.rank ∨
      (b.priority.rank = a.priority.rank ∧ a.number < b.number) := by
  simp only [before, Bool.or_eq_true, decide_eq_true_eq, Bool.and_eq_true, beq_iff_eq]

/-- An entry does not leave before another if its priority is lower, or the same and its number is
not smaller. -/
theorem before_eq_false_iff : a.before b = false ↔
    a.priority.rank < b.priority.rank ∨
      (a.priority.rank = b.priority.rank ∧ b.number ≤ a.number) := by
  rw [← Bool.not_eq_true, before_iff]
  omega

end QueueEntry

namespace Deferred

variable {α : Type} {a b : Deferred α}

/-- A deferred entry ripens before another if it is due earlier, or at the same instant and its
number is smaller. -/
theorem before_iff : a.before b = true ↔
    a.due < b.due ∨ (a.due = b.due ∧ a.entry.number < b.entry.number) := by
  simp only [before, Bool.or_eq_true, decide_eq_true_eq, Bool.and_eq_true, beq_iff_eq]

/-- A deferred entry does not ripen before another if it is due later, or at the same instant and
its number is not smaller. -/
theorem before_eq_false_iff : a.before b = false ↔
    b.due < a.due ∨ (b.due = a.due ∧ b.entry.number ≤ a.entry.number) := by
  rw [← Bool.not_eq_true, before_iff]
  omega

end Deferred

namespace Queue

variable {α ω : Type}

/-- Both lists of a queue are ascending: no ready entry leaves before one ahead of it
(`QueueEntry.before`), and no deferred entry ripens before one ahead of it (`Deferred.before`). -/
structure Ordered (q : Queue α) : Prop where
  /-- The ready entries are in the order of leaving. -/
  ready : q.ready.Pairwise fun a b => b.before a = false
  /-- The deferred entries are in the order of ripening. -/
  deferred : q.deferred.Pairwise fun a b => b.before a = false

namespace Ordered

variable {q : Queue α}

/-- A queue without entries is `Ordered`. -/
theorem new (maxDepth : Nat) : (Queue.new maxDepth : Queue α).Ordered := ⟨.nil, .nil⟩

/-- `Queue.addReady` keeps a queue `Ordered`. -/
theorem addReady (h : q.Ordered) (e : QueueEntry α) : (q.addReady e).Ordered where
  ready := by
    refine pairwise_insertBy (fun b hb => ?_) (fun b c hb hc => ?_) nofun (fun b hb _ => hb) h.ready
    · rw [QueueEntry.before_iff] at hb
      rw [QueueEntry.before_eq_false_iff]
      omega
    · rw [QueueEntry.before_iff] at hb
      rw [QueueEntry.before_eq_false_iff] at hc ⊢
      omega
  deferred := h.deferred

/-- Inserting a deferred entry by `Deferred.before` keeps a queue `Ordered`. -/
theorem addDeferred (h : q.Ordered) (d : Deferred α) :
    ({ q with deferred := insertBy Deferred.before (fun _ _ => false) d q.deferred } :
      Queue α).Ordered where
  ready := h.ready
  deferred := by
    refine pairwise_insertBy (fun b hb => ?_) (fun b c hb hc => ?_) nofun (fun b hb _ => hb)
      h.deferred
    · rw [Deferred.before_iff] at hb
      rw [Deferred.before_eq_false_iff]
      omega
    · rw [Deferred.before_iff] at hb
      rw [Deferred.before_eq_false_iff] at hc ⊢
      omega

/-- `Queue.push` keeps a queue `Ordered`. -/
theorem push (h : q.Ordered) (now : Nat) (priority : Priority) (delay : Nat) (x : α) :
    (q.push now priority delay x).2.Ordered := by
  have h' :
    ({ q with nextNumber := q.nextNumber + 1, idle := q.idle.rouseOne } : Queue α).Ordered :=
    ⟨h.ready, h.deferred⟩
  rw [Queue.push]
  split
  · exact h'.addReady _
  · exact h'.addDeferred _

/-- `Queue.cancel` keeps a queue `Ordered`. -/
theorem cancel (h : q.Ordered) (n : Nat) : (q.cancel n).Ordered := by
  rw [Queue.cancel]
  split
  · exact h
  · exact ⟨h.ready, h.deferred⟩

/-- Readying deferred entries one by one keeps a queue `Ordered`. -/
theorem foldl_addReady (h : q.Ordered) (ds : List (Deferred α)) :
    (ds.foldl (fun q d => q.addReady d.entry) q).Ordered :=
  List.foldlRecOn ds _ h fun _ h d _ => h.addReady d.entry

/-- A queue stays `Ordered` when ready entries are dropped. -/
theorem sublist (h : q.Ordered) {ready : List (QueueEntry α)} (hsub : ready.Sublist q.ready) :
    ({ q with ready } : Queue α).Ordered :=
  ⟨h.ready.sublist hsub, h.deferred⟩

/-- In an `Ordered` queue the deferred entries that are due by `now` stand before those that are
not, and `Queue.promote` readies the live ones of the former and keeps the latter. -/
theorem exists_span (h : q.Ordered) (now : Nat) :
    ∃ ripe unripe, q.deferred = ripe ++ unripe ∧ (∀ d ∈ ripe, d.due ≤ now) ∧
      (∀ d ∈ unripe, now < d.due) ∧
      q.promote now = (ripe.filter fun d => q.isLive d.entry).foldl
        (fun q d => q.addReady d.entry) { q with deferred := unripe } := by
  refine ⟨q.deferred.takeWhile fun d => d.due ≤ now, q.deferred.dropWhile fun d => d.due ≤ now,
    List.takeWhile_append_dropWhile.symm, fun d hd => ?_, fun d hd => ?_, ?_⟩
  · simpa using List.mem_takeWhile_imp hd
  · have hsorted := h.deferred.sublist (List.dropWhile_sublist fun d => decide (d.due ≤ now))
    have hhead := List.head?_dropWhile_not (fun d => decide (d.due ≤ now)) q.deferred
    -- The first of the others is not ripe, and no other one ripens before it.
    cases hdrop : q.deferred.dropWhile fun d => decide (d.due ≤ now) with
    | nil => exact nomatch hdrop ▸ hd
    | cons first rest =>
      rw [hdrop] at hd hsorted hhead
      have hfirst : now < first.due := by simpa using hhead
      rcases List.mem_cons.1 hd with rfl | hd
      · exact hfirst
      · have hle := Deferred.before_eq_false_iff.1 ((List.pairwise_cons.1 hsorted).1 d hd)
        omega
  · rw [promote, List.span_eq_takeWhile_dropWhile]

/-- `Queue.promote` keeps a queue `Ordered`. -/
theorem promote (h : q.Ordered) (now : Nat) : (q.promote now).Ordered := by
  obtain ⟨ripe, unripe, happ, -, -, heq⟩ := h.exists_span now
  have h' : ({ q with deferred := unripe } : Queue α).Ordered :=
    ⟨h.ready, h.deferred.sublist (happ ▸ List.sublist_append_right ripe unripe)⟩
  rw [heq]
  exact h'.foldl_addReady _

end Ordered

/-! ### Time passes -/

/-- `q'` is what may become of `q` until the instant `now` without a call of anybody: live entries
that are due by `now` may have become ready, and dead ones may be gone. -/
structure Aged (now : Nat) (q q' : Queue α) : Prop extends Shed q q' where
  /-- The orders are kept. -/
  ordered : q.Ordered → q'.Ordered
  /-- A live entry is ready because it was, or because its time has come. -/
  ready : ∀ e ∈ q'.ready, q.isLive e = true →
    e ∈ q.ready ∨ ∃ d ∈ q.deferred, d.entry = e ∧ d.due ≤ now
  /-- No entry is deferred anew. -/
  deferred : ∀ d ∈ q'.deferred, d ∈ q.deferred
  /-- A live entry stays ready. -/
  stays : ∀ e ∈ q.ready, q.isLive e = true → e ∈ q'.ready
  /-- A live entry stays deferred, or its time has come and it is ready. -/
  ripens : ∀ d ∈ q.deferred, q.isLive d.entry = true →
    d ∈ q'.deferred ∨ (d.due ≤ now ∧ d.entry ∈ q'.ready)

namespace Aged

variable {now : Nat} {q q' q'' : Queue α}

/-- `Aged` is transitive, at one instant `now`. -/
theorem trans (h : Aged now q q') (h' : Aged now q' q'') : Aged now q q'' where
  toShed := h.toShed.trans h'.toShed
  ordered ho := h'.ordered (h.ordered ho)
  ready e he hl := by
    rcases h'.ready e he ((isLive_congr h.cancelled e).trans hl) with he' | ⟨d, hd, rfl, hdue⟩
    · exact h.ready e he' hl
    · exact Or.inr ⟨d, h.deferred d hd, rfl, hdue⟩
  deferred d hd := h.deferred d (h'.deferred d hd)
  stays e he hl := h'.stays e (h.stays e he hl) ((isLive_congr h.cancelled e).trans hl)
  ripens d hd hl := by
    have hl' := (isLive_congr h.cancelled d.entry).trans hl
    rcases h.ripens d hd hl with hd' | ⟨hdue, he⟩
    · exact h'.ripens d hd' hl'
    · exact Or.inr ⟨hdue, h'.stays _ he hl'⟩

/-- If the list `ready` is a sublist of `q.ready` with all live entries of it, then `q` with that
list is `Aged` from `q`. -/
theorem drop (now : Nat) {q : Queue α} {ready : List (QueueEntry α)}
    (hsub : ready.Sublist q.ready) (hmem : ∀ e ∈ q.ready, q.isLive e = true → e ∈ ready) :
    Aged now q { q with ready } where
  toShed := shed_ready hsub hmem
  ordered ho := ho.sublist hsub
  ready _ he _ := Or.inl (hsub.subset he)
  deferred _ hd := hd
  stays := hmem
  ripens _ hd _ := Or.inl hd

/-- A queue is `Aged` from itself. -/
theorem refl (now : Nat) (q : Queue α) : Aged now q q :=
  drop now (List.Sublist.refl _) fun _ he _ => he

/-- A queue with other `producers` and `idle` is `Aged` from the one it was. -/
theorem waiters (now : Nat) (q : Queue α) (producers idle : Waiters) :
    Aged now q { q with producers, idle } :=
  { refl now q with ordered := fun ho => ⟨ho.ready, ho.deferred⟩ }

/-- `q.purge` is `Aged` from `q`. -/
theorem purge (now : Nat) (q : Queue α) : Aged now q q.purge := by
  rw [Queue.purge]
  split
  · exact drop now List.filter_sublist fun e he hl => List.mem_filter.2 ⟨he, hl⟩
  · exact refl now q

/-- `q.promote now` is `Aged` from an `Ordered` queue `q`, and no entry that is due by `now` is
deferred in it. -/
theorem promote (ho : q.Ordered) (now : Nat) :
    Aged now q (q.promote now) ∧ ∀ d ∈ (q.promote now).deferred, now < d.due := by
  obtain ⟨ripe, unripe, happ, hripe, hunripe, heq⟩ := ho.exists_span now
  obtain ⟨ready, hfold⟩ := foldl_addReady (ripe.filter fun d => q.isLive d.entry)
    { q with deferred := unripe }
  have hperm := ready_foldl_addReady (ripe.filter fun d => q.isLive d.entry)
    { q with deferred := unripe }
  rw [hfold] at hperm
  have hready : (q.promote now).ready = ready := by rw [heq, hfold]
  have hdeferred : (q.promote now).deferred = unripe := by rw [heq, hfold]
  have hmem : ∀ e, e ∈ ready ↔
      (∃ d ∈ ripe, q.isLive d.entry = true ∧ d.entry = e) ∨ e ∈ q.ready := fun e => by
    rw [hperm.mem_iff, List.mem_append, List.mem_map]
    simp only [List.mem_filter, and_assoc]
  refine ⟨{
    toShed := shed_promote now q
    ordered := fun ho => ho.promote now
    ready := fun e he _ => ?_
    deferred := fun d hd => ?_
    stays := fun e he _ => ?_
    ripens := fun d hd hl => ?_ }, fun d hd => hunripe d (hdeferred ▸ hd)⟩
  · rcases (hmem e).1 (hready ▸ he) with ⟨d, hd, -, rfl⟩ | he
    · exact Or.inr ⟨d, happ ▸ List.mem_append_left _ hd, rfl, hripe d hd⟩
    · exact Or.inl he
  · exact happ ▸ List.mem_append_right _ (hdeferred ▸ hd)
  · exact hready ▸ (hmem e).2 (Or.inr he)
  · rw [hready, hdeferred]
    rcases List.mem_append.1 (happ ▸ hd) with hd | hd
    · exact Or.inr ⟨hripe d hd, (hmem _).2 (Or.inl ⟨d, hd, hl, rfl⟩)⟩
    · exact Or.inl hd

/-- What `Queue.look` leaves is `Aged` from an `Ordered` queue. -/
theorem look (ho : q.Ordered) (worker now : Nat) : Aged now q (q.look worker now).2 := by
  have h := (promote ho now).1
  rw [Queue.look]
  split
  · exact h.trans (waiters now _ (q.promote now).producers _)
  · exact h.trans (waiters now _ (q.promote now).producers _)

end Aged

/-- `q.dequeue now` of an `Ordered` queue comes to an `Aged` queue `q₁` in which no deferred entry
is due by `now`, and then answers `none`, if `q₁` has no ready entry, or takes the first ready entry
of `q₁`, which is live. -/
theorem dequeue_cases (now : Nat) {q : Queue α} (ho : q.Ordered) :
    ∃ q₁, Aged now q q₁ ∧ (∀ d ∈ q₁.deferred, now < d.due) ∧
      (((q.dequeue now).1.1 = none ∧ (q.dequeue now).2 = q₁ ∧ q₁.ready = []) ∨
        ∃ e es, (q.dequeue now).1.1 = some e ∧ (q.dequeue now).2 = { q₁ with ready := es } ∧
          q₁.ready = e :: es ∧ q.isLive e = true) := by
  obtain ⟨haged, hlate⟩ := Aged.promote ho now
  set q₀ := q.promote now with hq₀
  have hskip : Aged now q₀ { q₀ with ready := q₀.ready.dropWhile fun e => !q₀.isLive e } :=
    .drop now (List.dropWhile_sublist _) fun _ he hl => mem_dropWhile_of_live he hl
  refine ⟨_, haged.trans hskip, hlate, ?_⟩
  have hhead := List.head?_dropWhile_not (fun e => !q₀.isLive e) q₀.ready
  rw [dequeue, ← hq₀]
  dsimp only
  cases hdrop : q₀.ready.dropWhile fun e => !q₀.isLive e with
  | nil => exact Or.inl ⟨rfl, rfl, rfl⟩
  | cons e es =>
    rw [hdrop] at hhead
    refine Or.inr ⟨e, es, rfl, rfl, rfl, ?_⟩
    rw [← isLive_congr haged.cancelled]
    simpa using hhead

/-! ### Sessions -/

/-- An entry with the instant from which on it may be taken. -/
structure Posted (α : Type) where
  /-- The entry. -/
  entry : QueueEntry α
  /-- The instant. -/
  due : Nat

/-- What a diary says of one thing that was done to a queue. -/
inductive DiaryEntry (α : Type) where
  /-- An entry was pushed. -/
  | posted (x : Posted α)
  /-- The entry of a number was called off. -/
  | calledOff (number : Nat)
  /-- The next entry was asked for at an instant, and this was the answer. -/
  | asked (now : Nat) (answer : Option (QueueEntry α))

/-- The number that was given to an entry here, if one was pushed. -/
def DiaryEntry.number? : DiaryEntry α → Option Nat
  | .posted x => some x.entry.number
  | _ => none

/-- What can be done to a queue. -/
inductive QueueCall (ω : Type) where
  /-- Push an event if there is room. -/
  | tryEnqueue (priority : Priority) (x : ω)
  /-- One attempt of a producer that waits for room. -/
  | offer (producer : Nat) (priority : Priority) (x : ω)
  /-- Push an event, after a delay if there is one. -/
  | schedule (priority : Priority) (delay : Nat) (x : ω)
  /-- Ask a worker to leave, after a delay. -/
  | pushQuit (delay : Nat)
  /-- Call an entry off. -/
  | cancel (number : Nat)
  /-- One look of a worker that waits for data. -/
  | look (worker : Nat)
  /-- Take the next entry. -/
  | dequeue
  /-- Rouse a producer. -/
  | notifySpace

/-- A queue with a clock, and a diary of what was done to it, latest first. -/
structure Session (ω : Type) where
  /-- The queue. -/
  queue : Queue (Work ω)
  /-- The latest reading of the clock. -/
  clock : Nat
  /-- What was done. -/
  diary : List (DiaryEntry (Work ω))

namespace Session

/-- The session of an empty queue. -/
def new (maxDepth : Nat) : Session ω := ⟨.new maxDepth, 0, []⟩

/-- What one call leads to, at the present reading of the clock. A number that was not given to an
entry is nobody's handle, and nothing is called off by it. -/
def perform (s : Session ω) : QueueCall ω → Session ω
  | .tryEnqueue priority x =>
    match s.queue.tryEnqueue priority (.event x) with
    | (.ok number, queue) =>
      { s with queue, diary := .posted ⟨⟨priority, number, .event x⟩, s.clock⟩ :: s.diary }
    | (.error _, queue) => { s with queue }
  | .offer producer priority x =>
    match s.queue.offer producer priority (.event x) with
    | (some number, queue) =>
      { s with queue, diary := .posted ⟨⟨priority, number, .event x⟩, s.clock⟩ :: s.diary }
    | (none, queue) => { s with queue }
  | .schedule priority delay x =>
    let (number, queue) := Timetable.schedule s.clock priority delay x s.queue
    { s with
      queue, diary := .posted ⟨⟨priority, number, .event x⟩, s.clock + delay⟩ :: s.diary }
  | .pushQuit delay =>
    { s with
      queue := s.queue.pushQuit s.clock delay
      diary := .posted ⟨⟨.low, s.queue.nextNumber, .quit⟩, s.clock + delay⟩ :: s.diary }
  | .cancel number =>
    if number < s.queue.nextNumber then
      { s with queue := s.queue.cancel number, diary := .calledOff number :: s.diary }
    else s
  | .look worker => { s with queue := (s.queue.look worker s.clock).2 }
  | .dequeue =>
    { s with
      queue := (s.queue.dequeue s.clock).2
      diary := .asked s.clock (s.queue.dequeue s.clock).1.1 :: s.diary }
  | .notifySpace => { s with queue := s.queue.notifySpace }

/-- The session after some time has passed and one call was made. -/
def after (s : Session ω) (m : Nat × QueueCall ω) : Session ω :=
  perform { s with clock := s.clock + m.1 } m.2

/-- The session that a list of calls leads to, each with the time that has passed since the one
before. -/
def history (maxDepth : Nat) (ms : List (Nat × QueueCall ω)) : Session ω :=
  ms.foldl after (new maxDepth)

end Session

/-! ### What the diary says -/

/-- An entry is **standing** in a diary: it was posted there, and neither called off nor taken. -/
def Standing (diary : List (DiaryEntry α)) (x : Posted α) : Prop :=
  .posted x ∈ diary ∧ .calledOff x.entry.number ∉ diary ∧
    ∀ now e, .asked now (some e) ∈ diary → e.number ≠ x.entry.number

/-- The **next** entry at an instant `now`: it is standing and due, and every other one of which
that is true has a lower priority, or the same one and a greater number. -/
def IsNext (diary : List (DiaryEntry α)) (now : Nat) (e : QueueEntry α) : Prop :=
  ∃ due ≤ now, Standing diary ⟨e, due⟩ ∧
    ∀ x, Standing diary x → x.due ≤ now → x.entry.number ≠ e.number →
      x.entry.priority.rank < e.priority.rank ∨
        (x.entry.priority = e.priority ∧ e.number < x.entry.number)

section Standing

variable {diary : List (DiaryEntry α)} {x : Posted α}

/-- When `y` is posted, with a number that the diary neither calls off nor takes, `y` is standing as
well. -/
theorem standing_posted {y : Posted α} (hoff : .calledOff y.entry.number ∉ diary)
    (htaken : ∀ now e, .asked now (some e) ∈ diary → e.number ≠ y.entry.number) :
    Standing (.posted y :: diary) x ↔ x = y ∨ Standing diary x := by
  simp only [Standing, List.mem_cons, DiaryEntry.posted.injEq, reduceCtorEq, false_or]
  constructor
  · rintro ⟨rfl | hx, hc, ht⟩
    · exact Or.inl rfl
    · exact Or.inr ⟨hx, hc, ht⟩
  · rintro (rfl | ⟨hx, hc, ht⟩)
    · exact ⟨Or.inl rfl, hoff, htaken⟩
    · exact ⟨Or.inr hx, hc, ht⟩

/-- When `n` is called off, the entries with another number stay standing. -/
theorem standing_calledOff {n : Nat} :
    Standing (.calledOff n :: diary) x ↔ x.entry.number ≠ n ∧ Standing diary x := by
  simp only [Standing, List.mem_cons, DiaryEntry.calledOff.injEq, reduceCtorEq, false_or, not_or]
  exact ⟨fun ⟨hx, ⟨hne, hc⟩, ht⟩ => ⟨hne, hx, hc, ht⟩,
    fun ⟨hne, hx, hc, ht⟩ => ⟨hx, ⟨hne, hc⟩, ht⟩⟩

/-- When the next entry is asked for, the entries with another number than the answer stay
standing. -/
theorem standing_asked {now : Nat} {answer : Option (QueueEntry α)} :
    Standing (.asked now answer :: diary) x ↔
      (∀ e, answer = some e → e.number ≠ x.entry.number) ∧ Standing diary x := by
  simp only [Standing, List.mem_cons, DiaryEntry.asked.injEq, reduceCtorEq, false_or]
  constructor
  · rintro ⟨hx, hc, ht⟩
    exact ⟨fun e he => ht now e (Or.inl ⟨rfl, he.symm⟩), hx, hc, fun t e he => ht t e (Or.inr he)⟩
  · rintro ⟨hne, hx, hc, ht⟩
    refine ⟨hx, hc, fun t e he => ?_⟩
    rcases he with ⟨-, he⟩ | he
    · exact hne e he.symm
    · exact ht t e he

end Standing

/-- The queue of a session holds what its diary says: the live entries are those that are
`Standing`, and each taken one was. -/
structure MatchesDiary (s : Session ω) : Prop where
  /-- The numbers of the entries are in order. -/
  sound : s.queue.Sound
  /-- The entries are in order. -/
  ordered : s.queue.Ordered
  /-- Entries are numbered by their pushes. -/
  numbers : s.diary.filterMap DiaryEntry.number? = (List.range s.queue.nextNumber).reverse
  /-- What was called off is known to the queue. -/
  calledOff : ∀ n, .calledOff n ∈ s.diary ↔ n ∈ s.queue.cancelled
  /-- A live entry that is ready is standing, and its time has come. -/
  ready : ∀ e ∈ s.queue.ready, s.queue.isLive e = true →
    ∃ due ≤ s.clock, Standing s.diary ⟨e, due⟩
  /-- A live entry that is deferred is standing. -/
  deferred : ∀ d ∈ s.queue.deferred, s.queue.isLive d.entry = true →
    Standing s.diary ⟨d.entry, d.due⟩
  /-- What is standing is there. -/
  there : ∀ x, Standing s.diary x →
    s.queue.isLive x.entry = true ∧ (x.entry ∈ s.queue.ready ∨ ⟨x.due, x.entry⟩ ∈ s.queue.deferred)
  /-- What was taken was standing, and its time had come. -/
  taken : ∀ later now e earlier, s.diary = later ++ .asked now (some e) :: earlier →
    ∃ due ≤ now, Standing earlier ⟨e, due⟩

namespace MatchesDiary

variable {s : Session ω} {now : Nat} {q : Queue (Work ω)} {x y : Posted (Work ω)}

/-- A session without calls matches its diary, which is empty. -/
theorem new (maxDepth : Nat) : MatchesDiary (Session.new maxDepth : Session ω) where
  sound := ⟨nofun, List.nodup_nil, nofun⟩
  ordered := .new maxDepth
  numbers := rfl
  calledOff _ := iff_of_false List.not_mem_nil List.not_mem_nil
  ready := nofun
  deferred := nofun
  there _ hx := nomatch hx.1
  taken _ _ _ _ h := absurd h.symm (List.append_ne_nil_of_right_ne_nil _ (List.cons_ne_nil _ _))

/-- The number of every posted entry is below `nextNumber`. -/
theorem number_lt (h : MatchesDiary s) (hx : .posted x ∈ s.diary) :
    x.entry.number < s.queue.nextNumber := by
  have hmem : x.entry.number ∈ s.diary.filterMap DiaryEntry.number? :=
    List.mem_filterMap.2 ⟨_, hx, rfl⟩
  rw [h.numbers] at hmem
  exact List.mem_range.1 (List.mem_reverse.1 hmem)

/-- The number of every entry that was taken is below `nextNumber`. -/
theorem taken_lt (h : MatchesDiary s) {t : Nat} {e : QueueEntry (Work ω)}
    (he : .asked t (some e) ∈ s.diary) : e.number < s.queue.nextNumber := by
  obtain ⟨later, earlier, heq⟩ := List.append_of_mem he
  obtain ⟨due, -, hst⟩ := h.taken later t e earlier heq
  refine h.number_lt (x := ⟨e, due⟩) ?_
  rw [heq]
  exact List.mem_append_right _ (List.mem_cons_of_mem _ hst.1)

/-- A session still matches its diary when its clock goes on and its queue is replaced by one that
is `Aged` by then. -/
theorem aged (h : MatchesDiary s) (hnow : s.clock ≤ now) (ha : Aged now s.queue q) :
    MatchesDiary { s with queue := q, clock := now } where
  sound := h.sound.shed ha.toShed
  ordered := ha.ordered h.ordered
  numbers := by
    rw [ha.nextNumber]
    exact h.numbers
  calledOff n := by
    rw [ha.cancelled]
    exact h.calledOff n
  ready e he hl := by
    rw [isLive_congr ha.cancelled] at hl
    rcases ha.ready e he hl with he | ⟨d, hd, rfl, hdue⟩
    · obtain ⟨due, hle, hst⟩ := h.ready e he hl
      exact ⟨due, Nat.le_trans hle hnow, hst⟩
    · exact ⟨d.due, hdue, h.deferred d hd hl⟩
  deferred d hd hl := by
    rw [isLive_congr ha.cancelled] at hl
    exact h.deferred d (ha.deferred d hd) hl
  there x hx := by
    obtain ⟨hl, hplace⟩ := h.there x hx
    refine ⟨(isLive_congr ha.cancelled _).trans hl, ?_⟩
    rcases hplace with he | hd
    · exact Or.inl (ha.stays _ he hl)
    · exact (ha.ripens _ hd hl).symm.imp_left And.right
  taken := h.taken

/-- If the new note `note` says, in case it takes an entry, that it was standing and due, then so
say all the notes of `note :: s.diary`. -/
theorem taken_cons (h : MatchesDiary s) {note : DiaryEntry (Work ω)}
    (hnote : ∀ now e, note = .asked now (some e) → ∃ due ≤ now, Standing s.diary ⟨e, due⟩) :
    ∀ later now e earlier, note :: s.diary = later ++ .asked now (some e) :: earlier →
      ∃ due ≤ now, Standing earlier ⟨e, due⟩ := by
  intro later now e earlier heq
  cases later with
  | nil =>
    obtain ⟨rfl, rfl⟩ := List.cons.inj heq
    exact hnote now e rfl
  | cons _ later => exact h.taken later now e earlier (List.cons.inj heq).2

/-- A session still matches its diary when an entry is pushed at the instant `t`, which counts only
if there is a delay, and `posted` is noted. -/
theorem push (h : MatchesDiary s) (priority : Priority) (delay : Nat) (x : Work ω) (t : Nat)
    (ht : delay = 0 ∨ t = s.clock) :
    MatchesDiary { s with
      queue := (s.queue.push t priority delay x).2
      diary := .posted ⟨⟨priority, s.queue.nextNumber, x⟩, s.clock + delay⟩ :: s.diary } := by
  have hstanding : ∀ y, Standing
      (.posted ⟨⟨priority, s.queue.nextNumber, x⟩, s.clock + delay⟩ :: s.diary) y ↔
        y = ⟨⟨priority, s.queue.nextNumber, x⟩, s.clock + delay⟩ ∨ Standing s.diary y := by
    refine fun y => standing_posted (fun hoff => ?_) fun now e he => ?_
    · exact Nat.lt_irrefl _ (h.sound.cancelled_lt _ ((h.calledOff _).1 hoff))
    · exact Nat.ne_of_lt (h.taken_lt he)
  have hlive : ∀ e, (s.queue.push t priority delay x).2.isLive e = s.queue.isLive e :=
    isLive_congr (cancelled_push t priority delay x s.queue)
  exact {
    sound := h.sound.push t priority delay x
    ordered := h.ordered.push t priority delay x
    numbers := by
      rw [nextNumber_push, List.range_succ, List.reverse_append]
      exact congrArg (s.queue.nextNumber :: ·) h.numbers
    calledOff := fun n => by
      rw [cancelled_push, List.mem_cons]
      exact (or_iff_right (by simp)).trans (h.calledOff n)
    ready := fun e he hl => by
      rw [hlive] at hl
      rcases mem_ready_push.1 he with ⟨rfl, rfl⟩ | he
      · exact ⟨_, Nat.le_refl _, (hstanding _).2 (Or.inl rfl)⟩
      · obtain ⟨due, hle, hst⟩ := h.ready e he hl
        exact ⟨due, hle, (hstanding _).2 (Or.inr hst)⟩
    deferred := fun d hd hl => by
      rw [hlive] at hl
      rcases mem_deferred_push.1 hd with ⟨h0, rfl⟩ | hd
      · rw [ht.resolve_left h0]
        exact (hstanding _).2 (Or.inl rfl)
      · exact (hstanding _).2 (Or.inr (h.deferred d hd hl))
    there := fun y hy => by
      rw [hlive]
      rcases (hstanding y).1 hy with rfl | hy
      · refine ⟨h.sound.isLive_fresh rfl, ?_⟩
        by_cases h0 : delay = 0
        · exact Or.inl (mem_ready_push.2 (Or.inl ⟨h0, rfl⟩))
        · exact Or.inr (mem_deferred_push.2 (Or.inl ⟨h0, by rw [ht.resolve_left h0]⟩))
      · obtain ⟨hl, hplace⟩ := h.there y hy
        exact ⟨hl, hplace.imp (fun he => mem_ready_push.2 (Or.inr he))
          fun hd => mem_deferred_push.2 (Or.inr hd)⟩
    taken := h.taken_cons (by simp) }

/-- A session still matches its diary when `n` is called off, and that is noted. -/
theorem cancel (h : MatchesDiary s) {n : Nat} (hn : n < s.queue.nextNumber) :
    MatchesDiary { s with queue := s.queue.cancel n, diary := .calledOff n :: s.diary } := by
  have hlive : ∀ e, (s.queue.cancel n).isLive e = true ↔
      e.number ≠ n ∧ s.queue.isLive e = true := fun e => by
    rw [isLive_cancel, Bool.and_eq_true, Bool.not_eq_true', decide_eq_false_iff_not]
  exact {
    sound := h.sound.cancel hn
    ordered := h.ordered.cancel n
    numbers := by
      rw [nextNumber_cancel]
      exact h.numbers
    calledOff := fun m => by
      rw [mem_cancelled_cancel, List.mem_cons, ← h.calledOff, DiaryEntry.calledOff.injEq]
    ready := fun e he hl => by
      obtain ⟨hne, hl⟩ := (hlive e).1 hl
      obtain ⟨due, hle, hst⟩ := h.ready e (ready_cancel n s.queue ▸ he) hl
      exact ⟨due, hle, standing_calledOff.2 ⟨hne, hst⟩⟩
    deferred := fun d hd hl => by
      obtain ⟨hne, hl⟩ := (hlive _).1 hl
      exact standing_calledOff.2 ⟨hne, h.deferred d (deferred_cancel n s.queue ▸ hd) hl⟩
    there := fun x hx => by
      obtain ⟨hne, hst⟩ := standing_calledOff.1 hx
      obtain ⟨hl, hplace⟩ := h.there x hst
      rw [ready_cancel, deferred_cancel]
      exact ⟨(hlive _).2 ⟨hne, hl⟩, hplace⟩
    taken := h.taken_cons (by simp) }

/-- A session still matches its diary when it is noted that there was no next entry. -/
theorem askedNone (h : MatchesDiary s) :
    MatchesDiary { s with diary := .asked s.clock none :: s.diary } where
  sound := h.sound
  ordered := h.ordered
  numbers := h.numbers
  calledOff n := List.mem_cons.trans ((or_iff_right (by simp)).trans (h.calledOff n))
  ready e he hl := by
    obtain ⟨due, hle, hst⟩ := h.ready e he hl
    exact ⟨due, hle, standing_asked.2 ⟨by simp, hst⟩⟩
  deferred d hd hl := standing_asked.2 ⟨by simp, h.deferred d hd hl⟩
  there x hx := h.there x (standing_asked.1 hx).2
  taken := h.taken_cons (by simp)

/-- A session still matches its diary when the first ready entry is taken, which is live, and that
is noted. -/
theorem take (h : MatchesDiary s) {e : QueueEntry (Work ω)} {es : List (QueueEntry (Work ω))}
    (hready : s.queue.ready = e :: es) (hl : s.queue.isLive e = true) :
    MatchesDiary { s with
      queue := { s.queue with ready := es }
      diary := .asked s.clock (some e) :: s.diary } := by
  have hsub : es.Sublist s.queue.ready := hready ▸ List.sublist_cons_self e es
  -- No other entry has its number.
  have hnodup := h.sound.nodup
  rw [entries, hready, List.cons_append, List.map_cons, List.nodup_cons] at hnodup
  have hne : ∀ a, a ∈ es ∨ (∃ d ∈ s.queue.deferred, d.entry = a) → e.number ≠ a.number := by
    intro a ha heq
    refine hnodup.1 (List.mem_map.2 ⟨a, List.mem_append.2 ?_, heq.symm⟩)
    exact ha.imp_right List.mem_map.2
  exact {
    sound := by
      refine ⟨fun a ha => h.sound.lt a ?_, hnodup.2, h.sound.cancelled_lt⟩
      exact (hsub.append_right _).subset ha
    ordered := h.ordered.sublist hsub
    numbers := h.numbers
    calledOff := fun n => List.mem_cons.trans ((or_iff_right (by simp)).trans (h.calledOff n))
    ready := fun a ha hla => by
      obtain ⟨due, hle, hst⟩ := h.ready a (hsub.subset ha) hla
      refine ⟨due, hle, standing_asked.2 ⟨?_, hst⟩⟩
      rintro _ ⟨⟩
      exact hne a (Or.inl ha)
    deferred := fun d hd hld => by
      refine standing_asked.2 ⟨?_, h.deferred d hd hld⟩
      rintro _ ⟨⟩
      exact hne _ (Or.inr ⟨d, hd, rfl⟩)
    there := fun x hx => by
      obtain ⟨hnx, hst⟩ := standing_asked.1 hx
      obtain ⟨hlx, hplace⟩ := h.there x hst
      refine ⟨hlx, hplace.imp_left fun he => ?_⟩
      rcases List.mem_cons.1 (hready ▸ he) with heq | he
      · exact absurd (congrArg QueueEntry.number heq.symm) (hnx e rfl)
      · exact he
    taken := h.taken_cons fun now a heq => by
      obtain ⟨rfl, ha⟩ := DiaryEntry.asked.inj heq
      obtain rfl := Option.some.inj ha
      exact h.ready e (hready ▸ List.mem_cons_self) hl }

/-- A session still matches its diary after `Queue.dequeue`, with the answer noted. -/
theorem dequeue (h : MatchesDiary s) :
    MatchesDiary { s with
      queue := (s.queue.dequeue s.clock).2
      diary := .asked s.clock (s.queue.dequeue s.clock).1.1 :: s.diary } := by
  obtain ⟨q₁, haged, -, ⟨hans, hq, -⟩ | ⟨e, es, hans, hq, hready, hl⟩⟩ :=
    dequeue_cases s.clock h.ordered
  · rw [hans, hq]
    exact (h.aged (Nat.le_refl _) haged).askedNone
  · rw [hans, hq]
    exact (h.aged (Nat.le_refl _) haged).take hready ((isLive_congr haged.cancelled e).trans hl)

/-- A session still matches its diary after a call `tryEnqueue`. -/
theorem tryEnqueue (h : MatchesDiary s) (priority : Priority) (x : ω) :
    MatchesDiary (s.perform (.tryEnqueue priority x)) := by
  have hpurged := h.aged (Nat.le_refl _) (Aged.purge s.clock s.queue)
  by_cases hfull : s.queue.purge.maxDepth ≤ s.queue.purge.ready.length
  · have heq : s.queue.tryEnqueue priority (.event x) =
        (.error (.queueFull s.queue.purge.ready.length), s.queue.purge) := if_pos hfull
    simp only [Session.perform, heq]
    exact hpurged
  · have heq : s.queue.tryEnqueue priority (.event x) =
        (.ok (s.queue.purge.push 0 priority 0 (.event x)).1,
          (s.queue.purge.push 0 priority 0 (.event x)).2) := if_neg hfull
    simp only [Session.perform, heq, push_fst]
    exact hpurged.push priority 0 (.event x) 0 (Or.inl rfl)

/-- A session still matches its diary after a call `offer`. -/
theorem offer (h : MatchesDiary s) (producer : Nat) (priority : Priority) (x : ω) :
    MatchesDiary (s.perform (.offer producer priority x)) := by
  have htry := h.tryEnqueue priority x
  simp only [Session.perform, Queue.offer] at htry ⊢
  generalize s.queue.tryEnqueue priority (.event x) = r at htry ⊢
  obtain ⟨_ | number, q⟩ := r
  · exact htry.aged (Nat.le_refl _) (Aged.waiters s.clock q _ q.idle)
  · exact htry.aged (Nat.le_refl _) (Aged.waiters s.clock q _ q.idle)

/-- **One step.** A session still matches its diary after any call, whatever time has passed. -/
theorem after (h : MatchesDiary s) (m : Nat × QueueCall ω) : MatchesDiary (s.after m) := by
  obtain ⟨elapsed, call⟩ := m
  have h : MatchesDiary { s with clock := s.clock + elapsed } :=
    h.aged (Nat.le_add_right _ _) (Aged.refl _ s.queue)
  rw [Session.after]
  generalize ({ s with clock := s.clock + elapsed } : Session ω) = s at h
  cases call with
  | tryEnqueue priority x => exact h.tryEnqueue priority x
  | offer producer priority x => exact h.offer producer priority x
  | schedule priority delay x =>
    have hpush := h.push priority delay (.event x) s.clock (Or.inr rfl)
    rw [Session.perform]
    simp only [Timetable.schedule, push_fst]
    exact hpush
  | pushQuit delay => exact h.push .low delay .quit s.clock (Or.inr rfl)
  | cancel number =>
    rw [Session.perform]
    split
    · rename_i hn
      exact h.cancel hn
    · exact h
  | look worker => exact h.aged (Nat.le_refl _) (Aged.look h.ordered worker s.clock)
  | dequeue => exact h.dequeue
  | notifySpace => exact h.aged (Nat.le_refl _) (Aged.waiters _ _ _ s.queue.idle)

/-- **A whole run.** Every `Session.history` matches its diary. -/
theorem history (maxDepth : Nat) (ms : List (Nat × QueueCall ω)) :
    MatchesDiary (Session.history maxDepth ms) :=
  List.foldlRecOn ms Session.after (new maxDepth) fun _ h m _ => h.after m

/-! ### What leaves -/

/-- The live entries of the queue are **those that stand** in its diary. -/
theorem exists_standing_iff (h : MatchesDiary s) {e : QueueEntry (Work ω)} :
    (∃ due, Standing s.diary ⟨e, due⟩) ↔ e ∈ s.queue.entries ∧ s.queue.isLive e = true := by
  constructor
  · rintro ⟨due, hst⟩
    obtain ⟨hl, hplace⟩ := h.there _ hst
    refine ⟨List.mem_append.2 (hplace.imp_right fun hd => ?_), hl⟩
    exact List.mem_map.2 ⟨_, hd, rfl⟩
  · rintro ⟨he, hl⟩
    rcases List.mem_append.1 he with he | he
    · obtain ⟨due, -, hst⟩ := h.ready e he hl
      exact ⟨due, hst⟩
    · obtain ⟨d, hd, rfl⟩ := List.mem_map.1 he
      exact ⟨d.due, h.deferred d hd hl⟩

/-- `Queue.dequeue` answers `none` at an instant that is not past **just if nothing that stands is
due** by then. -/
theorem dequeue_eq_none_iff (h : MatchesDiary s) (hnow : s.clock ≤ now) :
    (s.queue.dequeue now).1.1 = none ↔ ∀ x, Standing s.diary x → now < x.due := by
  obtain ⟨q₁, haged, hlate, hcases⟩ := dequeue_cases now h.ordered
  have h₁ := h.aged hnow haged
  rcases hcases with ⟨hans, -, hready⟩ | ⟨e, es, hans, -, hready, hl⟩
  · rw [hans]
    refine iff_of_true rfl fun x hx => ?_
    rcases (h₁.there x hx).2 with he | hd
    · exact nomatch hready ▸ he
    · exact hlate _ hd
  · rw [hans]
    refine iff_of_false nofun fun hall => ?_
    obtain ⟨due, hle, hst⟩ := h₁.ready e (hready ▸ List.mem_cons_self)
      ((isLive_congr haged.cancelled e).trans hl)
    exact Nat.lt_irrefl _ (Nat.lt_of_lt_of_le (hall _ hst) hle)

/-- What `Queue.dequeue` answers at an instant that is not past **is the next entry** (`IsNext`). -/
theorem isNext_of_dequeue (h : MatchesDiary s) (hnow : s.clock ≤ now) {e : QueueEntry (Work ω)}
    (he : (s.queue.dequeue now).1.1 = some e) : IsNext s.diary now e := by
  obtain ⟨q₁, haged, hlate, hcases⟩ := dequeue_cases now h.ordered
  have h₁ := h.aged hnow haged
  rcases hcases with ⟨hans, -, -⟩ | ⟨a, es, hans, -, hready, hl⟩
  · exact nomatch hans.symm.trans he
  · obtain rfl : a = e := Option.some.inj (hans.symm.trans he)
    obtain ⟨due, hle, hst⟩ := h₁.ready a (hready ▸ List.mem_cons_self)
      ((isLive_congr haged.cancelled a).trans hl)
    refine ⟨due, hle, hst, fun x hx hdue hne => ?_⟩
    have hx : x.entry ∈ es := by
      rcases (h₁.there x hx).2 with hmem | hd
      · refine (List.mem_cons.1 (hready ▸ hmem)).resolve_left fun heq => ?_
        exact hne (congrArg QueueEntry.number heq)
      · exact absurd hdue (Nat.not_le_of_lt (hlate _ hd))
    have hpair := h₁.ordered.ready
    dsimp only at hpair
    rw [hready] at hpair
    have hafter := QueueEntry.before_eq_false_iff.1 ((List.pairwise_cons.1 hpair).1 _ hx)
    refine hafter.imp_right fun ⟨hrank, hnumber⟩ => ⟨Priority.rank_injective hrank, ?_⟩
    omega

/-- At one instant only **one** entry is the next one. -/
theorem isNext_unique (h : MatchesDiary s) {e e' : QueueEntry (Work ω)} (he : IsNext s.diary now e)
    (he' : IsNext s.diary now e') : e = e' := by
  obtain ⟨due, hle, hst, hfirst⟩ := he
  obtain ⟨due', hle', hst', hfirst'⟩ := he'
  have hnumber : e.number = e'.number := by
    by_contra hne
    rcases hfirst _ hst' hle' (Ne.symm hne) with hlt | ⟨hp, hlt⟩ <;>
      rcases hfirst' _ hst hle hne with hlt' | ⟨hp', hlt'⟩ <;>
      simp_all <;> omega
  have hmem := h.exists_standing_iff.1 ⟨due, hst⟩
  have hmem' := h.exists_standing_iff.1 ⟨due', hst'⟩
  exact List.inj_on_of_nodup_map h.sound.nodup hmem.1 hmem'.1 hnumber

/-- After `Queue.dequeue` at an instant that is not past the live entries are **all but the
answer**. -/
theorem mem_entries_dequeue (h : MatchesDiary s) (hnow : s.clock ≤ now) {e : QueueEntry (Work ω)} :
    (e ∈ (s.queue.dequeue now).2.entries ∧ (s.queue.dequeue now).2.isLive e = true) ↔
      (e ∈ s.queue.entries ∧ s.queue.isLive e = true) ∧ (s.queue.dequeue now).1.1 ≠ some e := by
  have hpresent := h.aged hnow (Aged.refl now s.queue)
  rw [← hpresent.dequeue.exists_standing_iff, ← h.exists_standing_iff]
  simp only [standing_asked]
  constructor
  · rintro ⟨due, hne, hst⟩
    exact ⟨⟨due, hst⟩, fun heq => hne e heq rfl⟩
  · rintro ⟨⟨due, hst⟩, hne⟩
    refine ⟨due, fun a ha heq => hne ?_, hst⟩
    obtain ⟨due', -, hst', -⟩ := h.isNext_of_dequeue hnow ha
    have hmem := (h.exists_standing_iff.1 ⟨due, hst⟩).1
    have hmem' := (h.exists_standing_iff.1 ⟨due', hst'⟩).1
    rw [← List.inj_on_of_nodup_map h.sound.nodup hmem' hmem heq]
    exact ha

end MatchesDiary

/-- **What leaves the queue**, after any calls. At any instant that is not past, `dequeue` answers
`none` just if no `Standing` entry is due; otherwise it answers the entry that `IsNext` by priority
and number, and every other live entry stays. The live entries of the queue are those that are
`Standing` in the diary. Entries are numbered in the order of their pushes. Every entry that was
taken had been posted before, was due, and had not been called off or taken until then. -/
theorem leaves_in_order (maxDepth : Nat) (ms : List (Nat × QueueCall ω)) :
    let s := Session.history maxDepth ms
    (∀ wait,
      let now := s.clock + wait
      let taken := s.queue.dequeue now
      (taken.1.1 = none ↔ ∀ x, Standing s.diary x → now < x.due) ∧
      (∀ e, taken.1.1 = some e ↔ IsNext s.diary now e) ∧
      (∀ e, (e ∈ taken.2.entries ∧ taken.2.isLive e = true) ↔
        (e ∈ s.queue.entries ∧ s.queue.isLive e = true) ∧ taken.1.1 ≠ some e)) ∧
    (∀ e, (e ∈ s.queue.entries ∧ s.queue.isLive e = true) ↔
      ∃ due, Standing s.diary ⟨e, due⟩) ∧
    s.diary.filterMap DiaryEntry.number? = (List.range s.queue.nextNumber).reverse ∧
    (∀ later now e earlier, s.diary = later ++ .asked now (some e) :: earlier →
      (∃ due ≤ now, .posted ⟨e, due⟩ ∈ earlier) ∧ .calledOff e.number ∉ earlier ∧
      ∀ t a, .asked t (some a) ∈ earlier → a.number ≠ e.number) := by
  intro s
  have h : MatchesDiary s := MatchesDiary.history maxDepth ms
  refine ⟨fun wait => ?_, fun e => h.exists_standing_iff.symm, h.numbers, ?_⟩
  · have hnow : s.clock ≤ s.clock + wait := Nat.le_add_right _ _
    refine ⟨h.dequeue_eq_none_iff hnow, fun e => ⟨h.isNext_of_dequeue hnow, fun he => ?_⟩,
      fun e => h.mem_entries_dequeue hnow⟩
    cases hans : (s.queue.dequeue (s.clock + wait)).1.1 with
    | none =>
      obtain ⟨due, hle, hst, -⟩ := he
      exact absurd hle (Nat.not_le_of_lt ((h.dequeue_eq_none_iff hnow).1 hans _ hst))
    | some a => rw [h.isNext_unique (h.isNext_of_dequeue hnow hans) he]
  · intro later now e earlier heq
    obtain ⟨due, hle, hposted, hoff, htaken⟩ := h.taken later now e earlier heq
    exact ⟨⟨due, hle, hposted⟩, hoff, htaken⟩

/-- A session in which an entry ripens, and one of higher priority is called off. -/
def ripened : Session Nat :=
  .history 4 [(0, .schedule .normal 10 7), (1, .tryEnqueue .low 8), (0, .tryEnqueue .high 9),
    (2, .cancel 2), (20, .dequeue)]

/-- The entry that was deferred is taken once it is ripe, before the one of lower priority, which is
the next one then. -/
theorem leaves_in_order_ripened :
    (∃ due ≤ 23, .posted ⟨⟨.normal, 0, .event 7⟩, due⟩ ∈ ripened.diary) ∧
      IsNext ripened.diary 24 ⟨.low, 1, .event 8⟩ := by
  have h := leaves_in_order 4 [(0, .schedule .normal 10 7), (1, .tryEnqueue .low 8),
    (0, .tryEnqueue .high 9), (2, .cancel 2), (20, .dequeue)]
  obtain ⟨due, hle, hposted⟩ := (h.2.2.2 [] 23 ⟨.normal, 0, .event 7⟩ _ rfl).1
  exact ⟨⟨due, hle, List.mem_cons_of_mem _ hposted⟩, ((h.1 1).2.1 _).1 rfl⟩

end Queue

end TurnPool
