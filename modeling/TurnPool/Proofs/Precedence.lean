import Mathlib.Logic.Relation
import TurnPool.Proofs.QueueOrder
import TurnPool.Proofs.Renewals

/-!
# Who comes first at the event queue

A scheduler whose tasks always have more to do makes one entry after another, but it has the queue
to itself no longer than the entries of others allow. When a run is claimed, every entry that is
ready then and has the priority of the scheduler, or a higher one, leaves the queue before the next
entry of the scheduler that claims a run: the next one is made after the claim, so that it stands
behind.

## The queue of many

`AtQueue` is a crew at the event queue with the entries that workers took out. A `Step` is a step of
the crew with one thing fixed, the settings of each scheduler, and another told exactly, how entries
are taken. All else is as in `World`: readings of the clock are arbitrary, entries are in transit
for as long as they like, completions come to their ends at any time, and others use the queue.

## Main results

* `Queue.Dealt`: what may become of the entries of the queue, with a lemma for each way of using it.
* `AtQueue.Step.dealt`, `AtQueue.Run.dealt`: what becomes of them in a step and in a run.
* `AtQueue.exists_take`: what was not in transit before was taken out of the queue since.
* `AtQueue.ready_before_next_claim`: **what is ready at a claim** leaves before the next claim's
  entry.
-/

namespace TurnPool

open Recorded

namespace Queue

variable {α ω : Type}

/-! ### What becomes of the entries -/

/-- What becomes of the entries of a queue: those that are new are `proper`, and a ready one that is
not cancelled stays ready unless it is among `took`. -/
structure Dealt (proper : QueueEntry α → Prop) (q q' : Queue α) (took : List (QueueEntry α)) :
    Prop where
  /-- The entries stay in order. -/
  ordered : q.Ordered → q'.Ordered
  /-- Numbers are not given out again. -/
  next_le : q.nextNumber ≤ q'.nextNumber
  /-- What is there was there, or is new. -/
  entries : ∀ e ∈ q'.entries, e ∈ q.entries ∨ (q.nextNumber ≤ e.number ∧ proper e)
  /-- What is deferred was deferred, or is new. -/
  deferred : ∀ d ∈ q'.deferred, d ∈ q.deferred ∨ q.nextNumber ≤ d.entry.number
  /-- What was called off stays so. -/
  cancelled : q.cancelled ⊆ q'.cancelled
  /-- What is ready stays so until it is taken or called off. -/
  stays : ∀ e ∈ q.ready, e.number ∉ q'.cancelled → e ∈ q'.ready ∨ e ∈ took

namespace Dealt

variable {proper : QueueEntry α → Prop} {q q' q'' : Queue α} {took took' : List (QueueEntry α)}

/-- A queue deals nothing to itself. -/
theorem refl (proper : QueueEntry α → Prop) (q : Queue α) : Dealt proper q q [] where
  ordered ho := ho
  next_le := Nat.le_refl _
  entries _ he := Or.inl he
  deferred _ hd := Or.inl hd
  cancelled := List.Subset.refl _
  stays _ he _ := Or.inl he

/-- `Dealt` is transitive, with what either took. -/
theorem trans (h : Dealt proper q q' took) (h' : Dealt proper q' q'' took') :
    Dealt proper q q'' (took' ++ took) where
  ordered ho := h'.ordered (h.ordered ho)
  next_le := Nat.le_trans h.next_le h'.next_le
  entries e he := by
    rcases h'.entries e he with he | ⟨hnew, hproper⟩
    · exact h.entries e he
    · exact Or.inr ⟨Nat.le_trans h.next_le hnew, hproper⟩
  deferred d hd := by
    rcases h'.deferred d hd with hd | hnew
    · exact h.deferred d hd
    · exact Or.inr (Nat.le_trans h.next_le hnew)
  cancelled _ hc := h'.cancelled (h.cancelled hc)
  stays e he hn := by
    rcases h.stays e he fun hc => hn (h'.cancelled hc) with he | htook
    · exact (h'.stays e he hn).imp_right (List.mem_append_left _)
    · exact Or.inr (List.mem_append_right _ htook)

/-- **Time** deals nothing: entries become ready, and dead ones are shed. -/
theorem aged {now : Nat} (h : Aged now q q') : Dealt proper q q' [] where
  ordered := h.ordered
  next_le := Nat.le_of_eq h.nextNumber.symm
  entries _ he := Or.inl (h.subperm.subset he)
  deferred d hd := Or.inl (h.deferred d hd)
  cancelled := by rw [h.cancelled]; exact List.Subset.refl _
  stays e he hn := by
    rw [h.cancelled] at hn
    exact Or.inl (h.stays e he (isLive_iff.2 hn))

/-- `push` of a proper entry takes none. -/
theorem push (now : Nat) (priority : Priority) (delay : Nat) {x : α}
    (hproper : proper ⟨priority, q.nextNumber, x⟩) :
    Dealt proper q (q.push now priority delay x).2 [] where
  ordered ho := ho.push now priority delay x
  next_le := by
    rw [nextNumber_push]
    omega
  entries e he := by
    rcases List.mem_cons.1 ((entries_push now priority delay x q).mem_iff.1 he) with rfl | he
    · exact Or.inr ⟨Nat.le_refl _, hproper⟩
    · exact Or.inl he
  deferred d hd := by
    rcases mem_deferred_push.1 hd with ⟨-, rfl⟩ | hd
    · exact Or.inr (Nat.le_refl _)
    · exact Or.inl hd
  cancelled := by rw [cancelled_push]; exact List.Subset.refl _
  stays _ he _ := Or.inl (mem_ready_push.2 (Or.inr he))

/-- `cancel` takes none. -/
theorem cancel (n : Nat) (q : Queue α) : Dealt proper q (q.cancel n) [] where
  ordered ho := ho.cancel n
  next_le := Nat.le_of_eq (nextNumber_cancel n q).symm
  entries e he := by
    rw [entries_cancel] at he
    exact Or.inl he
  deferred d hd := by
    rw [deferred_cancel] at hd
    exact Or.inl hd
  cancelled m hm := mem_cancelled_cancel.2 (Or.inr hm)
  stays e he _ := by
    rw [ready_cancel]
    exact Or.inl he

/-- `tryEnqueue` of a proper entry takes none. -/
theorem tryEnqueue (priority : Priority) {x : α}
    (hproper : proper ⟨priority, q.nextNumber, x⟩) :
    Dealt proper q (q.tryEnqueue priority x).2 [] := by
  have hpurge : Dealt proper q q.purge [] := aged (Aged.purge 0 q)
  rw [Queue.tryEnqueue]
  split
  · exact hpurge
  · refine hpurge.trans (push 0 priority 0 ?_)
    rw [(shed_purge q).nextNumber]
    exact hproper

/-- `offer` of a proper entry takes none. -/
theorem offer (producer : Nat) (priority : Priority) {x : α}
    (hproper : proper ⟨priority, q.nextNumber, x⟩) :
    Dealt proper q (q.offer producer priority x).2 [] := by
  have htry := tryEnqueue priority hproper
  rw [Queue.offer]
  split <;> rename_i heq <;> rw [heq] at htry
  · exact htry.trans (aged (Aged.waiters 0 _ _ _))
  · exact htry.trans (aged (Aged.waiters 0 _ _ _))

/-- `dequeue` **takes the entry it answers**. -/
theorem take {now : Nat} (ho : q.Ordered) {e : QueueEntry α} {popped : Bool}
    (h : q.dequeue now = ((some e, popped), q')) : Dealt proper q q' [e] := by
  obtain ⟨q₁, haged, -, ⟨hnone, -, -⟩ | ⟨a, es, hsome, hq', hready, -⟩⟩ := dequeue_cases now ho
  · rw [h] at hnone
    cases hnone
  · rw [h] at hsome hq'
    obtain rfl : e = a := Option.some.inj hsome
    obtain rfl : q' = { q₁ with ready := es } := hq'
    have h₁ : Dealt proper q q₁ [] := aged haged
    have hsub : es ⊆ q₁.ready := hready ▸ List.subset_cons_self e es
    exact {
      ordered := fun _ => (h₁.ordered ho).sublist (hready ▸ List.sublist_cons_self e es)
      next_le := h₁.next_le
      entries := fun x hx =>
        h₁.entries x (List.mem_append.2 ((List.mem_append.1 hx).imp_left (hsub ·)))
      deferred := h₁.deferred
      cancelled := h₁.cancelled
      stays := fun x hx hn => by
        have hx := (h₁.stays x hx hn).resolve_right List.not_mem_nil
        rw [hready] at hx
        rcases List.mem_cons.1 hx with rfl | hx
        · exact Or.inr List.mem_cons_self
        · exact Or.inl hx }

end Dealt

/-- No entry is ready and deferred. -/
theorem Sound.ne_entry_of_mem_ready {q : Queue α} (hq : q.Sound) {x : QueueEntry α}
    (hx : x ∈ q.ready) {d : Deferred α} (hd : d ∈ q.deferred) : d.entry ≠ x := by
  rintro rfl
  have hnodup := hq.nodup
  rw [Queue.entries, List.map_append] at hnodup
  exact (List.disjoint_of_nodup_append hnodup) (List.mem_map_of_mem hx)
    (List.mem_map_of_mem (List.mem_map_of_mem hd))

/-- When a new entry is taken, every entry that was ready **before it was made**, with its priority
or a higher one, has been taken or cancelled. -/
theorem Dealt.gone {proper : QueueEntry α → Prop} {q q' queue : Queue α}
    {took : List (QueueEntry α)} (h : Dealt proper q q' took) (hq : q.Sound) (ho : q.Ordered)
    {now : Nat} {e : QueueEntry α} {popped : Bool}
    (hd : q'.dequeue now = ((some e, popped), queue)) (hnew : q.nextNumber ≤ e.number)
    {x : QueueEntry α} (hx : x ∈ q.ready) (hrank : e.priority.rank ≤ x.priority.rank) :
    x ∉ queue.entries ∧ (x ∈ took ∨ x.number ∈ q'.cancelled) := by
  have hlt : x.number < q.nextNumber := hq.lt x (List.mem_append_left _ hx)
  have ho' : q'.Ordered := h.ordered ho
  obtain ⟨q₁, haged, -, ⟨hnone, -, -⟩ | ⟨a, es, hsome, heq, hready, -⟩⟩ := dequeue_cases now ho'
  · rw [hd] at hnone
    cases hnone
  · rw [hd] at hsome heq
    obtain rfl : e = a := Option.some.inj hsome
    obtain rfl : queue = { q₁ with ready := es } := heq
    -- What is left behind the entry does not come before it, as the other one would.
    have hbehind : x ∉ es := by
      intro hmem
      have hpair := (haged.ordered ho').ready
      rw [hready] at hpair
      have hafter := QueueEntry.before_eq_false_iff.1 ((List.pairwise_cons.1 hpair).1 x hmem)
      omega
    constructor
    · intro hmem
      rcases List.mem_append.1 hmem with hmem | hmem
      · exact hbehind hmem
      · obtain ⟨d, hdeferred, heq⟩ := List.mem_map.1 hmem
        rcases h.deferred d (haged.deferred d hdeferred) with hold | hlate
        · exact hq.ne_entry_of_mem_ready hx hold heq
        · rw [heq] at hlate
          omega
    · by_contra hnot
      rw [not_or] at hnot
      have hthere := (h.stays x hx hnot.2).resolve_right hnot.1
      have hstill := haged.stays x hthere (isLive_iff.2 hnot.2)
      rw [hready] at hstill
      rcases List.mem_cons.1 hstill with rfl | hmem
      · omega
      · exact hbehind hmem

/-- What **others** do to the queue deals no entry away, if it keeps the live ones. -/
theorem Use.dealt {mine : ω → Prop} {proper : QueueEntry (Work ω) → Prop} {q q' : Queue (Work ω)}
    (h : Use mine q q') (hstays : ∀ e ∈ q.entries, q.isLive e = true → e ∈ q'.entries)
    (hq : q.Sound) (ho : q.Ordered)
    (hproper : ∀ e, (∀ y, e.work = .event y → ¬ mine y) → proper e) : Dealt proper q q' [] := by
  cases h with
  | push now priority delay theirs => exact .push now priority delay (hproper _ theirs)
  | tryEnqueue priority theirs => exact .tryEnqueue priority (hproper _ theirs)
  | offer producer priority theirs => exact .offer producer priority (hproper _ theirs)
  | @cancel n given theirs => exact .cancel n q
  | @idle _ now popped h =>
    obtain ⟨q₁, haged, -, ⟨-, hq', -⟩ | ⟨e, es, hsome, -, -, -⟩⟩ := dequeue_cases now ho
    · rw [h] at hq'
      obtain rfl : q' = q₁ := hq'
      exact .aged haged
    · rw [h] at hsome
      cases hsome
  | @quit _ now popped e h hquit =>
    -- The request to leave would be taken.
    obtain ⟨q₁, hshed, hentries, -, -, hlive⟩ := entries_dequeue h
    have hmem : e ∈ q₁.entries := hentries ▸ List.mem_cons_self
    have hnodup := (hq.shed hshed).nodup
    rw [hentries, List.map_cons, List.nodup_cons] at hnodup
    have hthere := hstays e (hshed.subperm.subset hmem) hlive
    exact absurd (List.mem_map_of_mem hthere) hnodup.1
  | look worker now => exact .aged (Aged.look ho worker now)
  | waiters producers idle => exact .aged (Aged.waiters 0 q producers idle)

end Queue

/-- What a **scheduler** does to the queue takes none. -/
theorem Uses.dealt {ω : Type} {priority : Priority} {entry : Nat → ω}
    {proper : QueueEntry (Work ω) → Prop} {t t' : Recorded (Queue (Work ω)) ω}
    (h : Uses priority entry t t')
    (hproper : ∀ number epoch, proper ⟨priority, number, .event (entry epoch)⟩) :
    Queue.Dealt proper t.table t'.table [] := by
  induction h with
  | refl => exact .refl proper _
  | schedule used now delay epoch ih => exact ih.trans (.push now priority delay (hproper _ epoch))
  | cancel used handle ih => exact ih.trans (.cancel handle _)

/-! ### A crew at the event queue -/

/-- A crew at the event queue, with the entries that workers took, latest first. -/
structure AtQueue (ω : Type) where
  /-- The crew and all that is around it. -/
  world : World (Queue (Work ω)) ω
  /-- The entries that were taken. -/
  taken : List (QueueEntry (Work ω))

namespace AtQueue

variable {ω : Type}

/-- The event queue. -/
def queue (s : AtQueue ω) : Queue (Work ω) := s.world.desk.table

/-- A worker takes an entry, of the crew or not, and leaves a queue. -/
def take (c : Coding ω) (e : QueueEntry (Work ω)) (queue : Queue (Work ω)) (s : AtQueue ω) :
    AtQueue ω :=
  { world :=
      { s.world with
        desk := { s.world.desk with table := queue }
        transit := match e.work with
          | .event x => transitOf c ⟨e.number, x, true⟩ s.world.transit
          | .quit => s.world.transit }
    taken := e :: s.taken }

/-- An entry of the crew arrives, under the settings of its scheduler. -/
def arrive (c : Coding ω) (settings : Option Nat → SchedulerOptions) (r : Readings) (k : Nat)
    (e : Errand) (s : AtQueue ω) : AtQueue ω :=
  { s with world := s.world.arrive c (settings e.scheduler) r k e }

/-- One thing that happens. Each scheduler has its settings for good. -/
inductive Step (c : Coding ω) (settings : Option Nat → SchedulerOptions) :
    AtQueue ω → AtQueue ω → Prop
  /-- A task joins. -/
  | register {s : AtQueue ω} (name : String) :
      Step c settings s
        { s with world := { s.world with crew := s.world.crew.register name } }
  /-- Something is asked of a task. -/
  | request {s : AtQueue ω} (r : Readings) (what : Request) {task : Nat}
      (joined : task < s.world.crew.size) :
      Step c settings s
        { s with world := s.world.request c (settings (s.world.crew.scheduler task)) r what task }
  /-- A worker takes the next entry. -/
  | take {s : AtQueue ω} {now : Nat} {e : QueueEntry (Work ω)} {popped : Bool}
      {queue : Queue (Work ω)} (dequeued : s.queue.dequeue now = ((some e, popped), queue)) :
      Step c settings s (s.take c e queue)
  /-- An entry of the crew arrives. -/
  | arrive {s : AtQueue ω} (r : Readings) {k : Nat} {e : Errand}
      (there : (k, e) ∈ s.world.transit) : Step c settings s (s.arrive c settings r k e)
  /-- A completion comes to its end. -/
  | spend {s : AtQueue ω} (r : Readings) (unwinding : Bool) (how : Fate) {x : Nat × Completion}
      (there : x ∈ s.world.held) :
      Step c settings s
        { s with
          world := s.world.spend c (settings (s.world.crew.scheduler x.2.task)) r unwinding how x }
  /-- Others use the queue, and take no entry. -/
  | use {s : AtQueue ω} {queue : Queue (Work ω)} (used : Queue.Use c.IsMine s.queue queue)
      (stays : ∀ e ∈ s.queue.entries, s.queue.isLive e = true → e ∈ queue.entries) :
      Step c settings s
        { s with world := { s.world with desk := { s.world.desk with table := queue } } }

/-- The states that a crew at an event queue **can come to**. -/
inductive Reachable (c : Coding ω) (settings : Option Nat → SchedulerOptions) : AtQueue ω → Prop
  | new (grouped : Bool) (maxDepth : Nat) :
      Reachable c settings ⟨World.new grouped (Queue.new maxDepth), []⟩
  | step {s s' : AtQueue ω} (reached : Reachable c settings s) (turn : Step c settings s s') :
      Reachable c settings s'

/-- Any number of steps. -/
abbrev Run (c : Coding ω) (settings : Option Nat → SchedulerOptions) :
    AtQueue ω → AtQueue ω → Prop :=
  Relation.ReflTransGen (Step c settings)

/-- An entry of the crew has **the priority of its scheduler**. -/
def Proper (c : Coding ω) (settings : Option Nat → SchedulerOptions) (e : QueueEntry (Work ω)) :
    Prop :=
  ∀ errand, e.work = .event (c.job errand) →
    e.priority = (settings errand.scheduler).priority

variable {c : Coding ω} {settings : Option Nat → SchedulerOptions} {s s' s'' : AtQueue ω}

/-- A step at the queue is a **step of the crew**. -/
theorem Step.step (turn : Step c settings s s') : World.Step c s.world s'.world := by
  cases turn with
  | register name => exact .register name
  | request r what joined => exact .request _ r what joined
  | @take now e popped queue dequeued =>
    obtain ⟨priority, number, work⟩ := e
    cases work with
    | event x => exact .take (Queue.takesOut_of_dequeue dequeued rfl)
    | quit => exact .stir (Queue.keepsMine_of_quit dequeued rfl)
  | arrive r there => exact .arrive _ r there
  | spend r unwinding how there => exact .spend _ r unwinding how there
  | use used stays => exact .stir used.keepsMine

/-- A state that is reachable at the queue has a reachable world. -/
theorem Reachable.world (h : Reachable c settings s) : World.Reachable c s.world := by
  induction h with
  | new grouped maxDepth =>
    refine .new grouped ⟨?_, List.nodup_nil, ?_⟩ ?_
    · exact List.forall_mem_nil _
    · exact List.forall_mem_nil _
    · exact List.forall_mem_nil _
  | step reached turn ih => exact .step ih turn.step

/-- In a reachable state the queue is sound. -/
theorem Reachable.sound (h : Reachable c settings s) : s.queue.Sound :=
  h.world.entriesSettled.accurate.sound

/-- What a scheduler of the crew makes is proper. -/
theorem proper_of (c : Coding ω) (settings : Option Nat → SchedulerOptions) (i : Option Nat)
    (number epoch : Nat) :
    Proper c settings ⟨(settings i).priority, number, .event (c.job (.of i epoch))⟩ := by
  intro errand heq
  obtain rfl := c.job_injective (Work.event.inj heq)
  rw [Errand.scheduler_of]

/-- What others make is proper. -/
theorem proper_of_theirs {e : QueueEntry (Work ω)} (h : ∀ y, e.work = .event y → ¬ c.IsMine y) :
    Proper c settings e :=
  fun errand heq => absurd (c.isMine_job errand) (h _ heq)

/-- **Every step** deals with the entries of the queue, and what it took is noted. -/
theorem Step.dealt (turn : Step c settings s s') (h : Reachable c settings s)
    (ho : s.queue.Ordered) :
    ∃ took, s'.taken = took ++ s.taken ∧
      Queue.Dealt (Proper c settings) s.queue s'.queue took := by
  cases turn with
  | register name => exact ⟨[], rfl, .refl _ _⟩
  | @request r what task joined =>
    exact ⟨[], rfl, (Crew.uses_request r what joined).dealt (proper_of c settings _)⟩
  | @take now e popped queue dequeued => exact ⟨[e], rfl, .take ho dequeued⟩
  | @arrive r k e there =>
    refine ⟨[], rfl, ?_⟩
    rw [queue, queue, AtQueue.arrive, (World.arrive_eq _ r k e).2.1]
    exact (Crew.uses_arrive r e s.world.crew).dealt (proper_of c settings _)
  | @spend r unwinding how x there =>
    refine ⟨[], rfl, ?_⟩
    obtain ⟨howed, hlt⟩ := h.world.heldOwed _ there
    rw [queue, queue, World.spend_of_owed howed]
    exact (Crew.uses_deliver r _ hlt).dealt (proper_of c settings _)
  | use used stays =>
    exact ⟨[], rfl, used.dealt stays h.sound ho fun e he => proper_of_theirs he⟩

/-- In a reachable state the queue is in order. -/
theorem Reachable.ordered (h : Reachable c settings s) : s.queue.Ordered := by
  induction h with
  | new grouped maxDepth => exact .new maxDepth
  | step reached turn ih =>
    obtain ⟨took, -, hdealt⟩ := turn.dealt reached ih
    exact hdealt.ordered ih

/-- In a reachable state the entries of the crew have **the priorities of their schedulers**. -/
theorem Reachable.proper (h : Reachable c settings s) :
    ∀ e ∈ s.queue.entries, Proper c settings e := by
  induction h with
  | new grouped maxDepth => exact List.forall_mem_nil _
  | step reached turn ih =>
    obtain ⟨took, -, hdealt⟩ := turn.dealt reached reached.ordered
    intro e he
    rcases hdealt.entries e he with he | ⟨-, hproper⟩
    · exact ih e he
    · exact hproper

/-- What is run from a reachable state is reachable. -/
theorem Reachable.run (h : Reachable c settings s) (run : Run c settings s s') :
    Reachable c settings s' := by
  induction run with
  | refl => exact h
  | tail _ turn ih => exact .step ih turn

/-- **Every run** deals with the entries of the queue, and what it took is noted. -/
theorem Run.dealt (run : Run c settings s s') (h : Reachable c settings s) :
    ∃ took, s'.taken = took ++ s.taken ∧
      Queue.Dealt (Proper c settings) s.queue s'.queue took := by
  induction run with
  | refl => exact ⟨[], rfl, .refl _ _⟩
  | tail before turn ih =>
    obtain ⟨took, htaken, hdealt⟩ := ih
    have hreached := h.run before
    obtain ⟨took', htaken', hdealt'⟩ := turn.dealt hreached hreached.ordered
    exact ⟨took' ++ took, by rw [htaken', htaken, List.append_assoc], hdealt.trans hdealt'⟩

/-! ### The entry of the next claim -/

/-- What is in transit after a step was so before, or **has just been taken**. -/
theorem Step.transit (turn : Step c settings s s') (h : Reachable c settings s)
    {x : Nat × Errand} (hx : x ∈ s'.world.transit) :
    x ∈ s.world.transit ∨ ∃ now e popped queue,
      s.queue.dequeue now = ((some e, popped), queue) ∧ e.number = x.1 ∧
        e.work = .event (c.job x.2) ∧ s' = s.take c e queue := by
  cases turn with
  | register name => exact Or.inl hx
  | request r what joined => exact Or.inl hx
  | @take now e popped queue dequeued =>
    obtain ⟨priority, number, work⟩ := e
    cases work with
    | quit => exact Or.inl hx
    | event y =>
      rcases mem_transitOf.1 hx with ⟨hnumber, hwork⟩ | hx
      · exact Or.inr ⟨now, _, popped, queue, dequeued, hnumber.symm, by rw [hwork], rfl⟩
      · exact Or.inl hx
  | @arrive r k e there =>
    rw [AtQueue.arrive, (World.arrive_eq _ r k e).2.2] at hx
    exact Or.inl (List.mem_of_mem_erase hx)
  | spend r unwinding how there =>
    rw [World.spend_of_owed (h.world.heldOwed _ there).1] at hx
    exact Or.inl hx
  | use used stays => exact Or.inl hx

/-- What is in transit after a run and was not before **was taken** in between. -/
theorem exists_take (run : Run c settings s s') (h : Reachable c settings s)
    {x : Nat × Errand} (hnot : x ∉ s.world.transit) (hx : x ∈ s'.world.transit) :
    ∃ between now e popped queue, Run c settings s between ∧
      between.queue.dequeue now = ((some e, popped), queue) ∧ e.number = x.1 ∧
      e.work = .event (c.job x.2) ∧ Run c settings (between.take c e queue) s' := by
  induction run with
  | refl => exact absurd hx hnot
  | @tail s₁ s₂ before turn ih =>
    rcases turn.transit (h.run before) hx with hx | ⟨now, e, popped, queue, hd, hn, hw, rfl⟩
    · obtain ⟨between, now, e, popped, queue, hbefore, hd, hn, hw, hafter⟩ := ih hx
      exact ⟨between, now, e, popped, queue, hbefore, hd, hn, hw, hafter.tail turn⟩
    · exact ⟨s₁, now, e, popped, queue, before, hd, hn, hw, .refl⟩

/-- A scheduler that waits for no entry below `next` **waits for none** below it after a run. -/
theorem Run.new_of_current (run : Run c settings s s') (h : Reachable c settings s)
    {i : Option Nat} {next : Nat} (hnext : next ≤ s.world.desk.next)
    (hnew : ∀ k n, s.world.crew.current i = some (k, n) → next ≤ k) :
    next ≤ s'.world.desk.next ∧ ∀ k n, s'.world.crew.current i = some (k, n) → next ≤ k := by
  induction run with
  | refl => exact ⟨hnext, hnew⟩
  | tail before turn ih =>
    obtain ⟨hle, hold⟩ := ih
    have hheld := (h.run before).world.heldOwed
    refine ⟨Nat.le_trans hle (turn.step.next_le hheld), fun k n hk => ?_⟩
    rcases turn.step.renewed hheld i k n hk with hk | hk
    · exact hold k n hk
    · exact Nat.le_trans hle hk

/-- **What is ready at a claim.** Let an entry arrive and claim a run, and after any `Run` from
there let another entry of the same scheduler arrive and claim a run. That entry was dequeued after
the first claim, and every live entry `y` that was ready at the first claim, with the priority of
the scheduler or a higher one, was not in the queue any more when it was: `y` had been taken or
cancelled. -/
theorem ready_before_next_claim (reached : Reachable c settings s) {k k' task task' : Nat}
    {e e' : Errand} {r r' : Readings} (there : (k, e) ∈ s.world.transit)
    (claims : (Crew.arrive (settings e.scheduler) c.job r e
      (s.world.crew, s.world.desk)).1 = some task)
    (run : Run c settings (s.arrive c settings r k e) s') (same : e'.scheduler = e.scheduler)
    (there' : (k', e') ∈ s'.world.transit)
    (claims' : (Crew.arrive (settings e'.scheduler) c.job r' e'
      (s'.world.crew, s'.world.desk)).1 = some task') :
    ∃ between now x popped queue took,
      Run c settings (s.arrive c settings r k e) between ∧
      between.queue.dequeue now = ((some x, popped), queue) ∧
      x.number = k' ∧ x.work = .event (c.job e') ∧
      Run c settings (between.take c x queue) s' ∧
      between.taken = took ++ s.taken ∧
      ∀ y ∈ s.queue.ready, s.queue.isLive y = true →
        (settings e.scheduler).priority.rank ≤ y.priority.rank →
        y ∉ queue.entries ∧ (y ∈ took ∨ y.number ∈ between.queue.cancelled) := by
  have hturn : Step c settings s (s.arrive c settings r k e) := .arrive r there
  have reached₁ : Reachable c settings (s.arrive c settings r k e) := .step reached hturn
  have hkept := reached.world.entriesSettled.accurate
  -- The entry of the next claim is new.
  have hnew : s.world.desk.next ≤ k' := by
    obtain ⟨-, hafter⟩ := reached.world.entriesSettled.claims there claims
    rw [← (World.arrive_eq (w := s.world) (c := c) (settings e.scheduler) r k e).1] at hafter
    obtain ⟨-, hlater⟩ :=
      run.new_of_current reached₁ (hturn.step.next_le reached.world.heldOwed) hafter
    obtain ⟨⟨n, hcurrent⟩, -⟩ := (reached₁.run run).world.entriesSettled.claims there' claims'
    rw [same] at hcurrent
    exact hlater k' n hcurrent
  -- So it was not in transit at the claim.
  have hnot : (k', e') ∉ (s.arrive c settings r k e).world.transit := by
    intro hmem
    rw [arrive, (World.arrive_eq _ r k e).2.2] at hmem
    have hlt := hkept.handle_lt (Or.inr (List.mem_of_mem_erase hmem))
    omega
  obtain ⟨between, now, x, popped, queue, hbefore, hd, hnumber, hwork, hafter⟩ :=
    exists_take run reached₁ hnot there'
  have hbetween : Run c settings s between := .head hturn hbefore
  obtain ⟨took, htaken, hdealt⟩ := hbetween.dealt reached
  refine ⟨between, now, x, popped, queue, took, hbefore, hd, hnumber, hwork, hafter, htaken,
    fun y hy _ hrank => ?_⟩
  have hpriority : x.priority = (settings e'.scheduler).priority := by
    obtain ⟨q₁, hshed, hentries, -⟩ := Queue.entries_dequeue hd
    have hmem : x ∈ q₁.entries := hentries ▸ List.mem_cons_self
    exact (reached.run hbetween).proper x (hshed.subperm.subset hmem) e' hwork
  refine hdealt.gone reached.sound reached.ordered hd ?_ hy ?_
  · rw [hnumber]
    exact hnew
  · rw [hpriority, same]
    exact hrank

/-- Two tasks with schedulers of their own were started. -/
def rivals : AtQueue Errand :=
  let w := World.new false (Queue.new 8)
  let w := { w with crew := (w.crew.register "first").register "second" }
  ⟨(w.request .self default ⟨0, 0, 0⟩ .start 0).request .self default ⟨0, 0, 0⟩ .start 1, []⟩

/-- A worker took the entry of the first task. -/
def rivalsBegun : AtQueue Errand :=
  rivals.take .self ⟨.normal, 0, .event (.run 0 1)⟩ (rivals.queue.dequeue 0).2

/-- The first task has run, and has more to do. -/
def rivalsAgain : AtQueue Errand :=
  let s := rivalsBegun.arrive .self (fun _ => default) ⟨0, 0, 0⟩ 0 (.run 0 1)
  { s with world := s.world.spend .self default ⟨0, 0, 0⟩ false (.success true) (0, .fresh 0) }

/-- A worker took the entry of the second task. -/
def rivalsServed : AtQueue Errand :=
  rivalsAgain.take .self ⟨.normal, 1, .event (.run 1 1)⟩ (rivalsAgain.queue.dequeue 0).2

/-- A worker took the new entry of the first one. -/
def rivalsLater : AtQueue Errand :=
  rivalsServed.take .self ⟨.normal, 2, .event (.run 0 2)⟩ (rivalsServed.queue.dequeue 0).2

/-- `rivalsBegun` is reachable. -/
theorem reachable_rivalsBegun : Reachable .self (fun _ => default) rivalsBegun := by
  have hjoined : Reachable .self (fun _ => default)
      ⟨{ (World.new false (Queue.new 8) : World (Queue (Work Errand)) Errand) with
        crew := ((Crew.empty false).register "first").register "second" }, []⟩ :=
    .step (.step (.new false 8) (.register "first")) (.register "second")
  have hstarted : Reachable .self (fun _ => default) rivals := by
    have hfirst : 0 < (((Crew.empty false).register "first").register "second").size := by decide
    have hsecond : 1 < (((Crew.empty false).register "first").register "second").size := by decide
    exact .step (.step hjoined (.request ⟨0, 0, 0⟩ .start hfirst))
      (.request ⟨0, 0, 0⟩ .start hsecond)
  have hfirst : rivals.queue.dequeue 0 = ((some ⟨.normal, 0, .event (.run 0 1)⟩, true),
      (rivals.queue.dequeue 0).2) := rfl
  exact .step hstarted (.take hfirst)

/-- From the first claim on, `rivalsLater` can be run to. -/
theorem run_rivals :
    Run .self (fun _ => default)
      (rivalsBegun.arrive .self (fun _ => default) ⟨0, 0, 0⟩ 0 (.run 0 1)) rivalsLater := by
  have hagain : Run .self (fun _ => default)
      (rivalsBegun.arrive .self (fun _ => default) ⟨0, 0, 0⟩ 0 (.run 0 1)) rivalsAgain :=
    .single (.spend ⟨0, 0, 0⟩ false (.success true) List.mem_cons_self)
  have hsecond : rivalsAgain.queue.dequeue 0 = ((some ⟨.normal, 1, .event (.run 1 1)⟩, true),
      (rivalsAgain.queue.dequeue 0).2) := rfl
  have hserved : Run .self (fun _ => default)
      (rivalsBegun.arrive .self (fun _ => default) ⟨0, 0, 0⟩ 0 (.run 0 1)) rivalsServed :=
    hagain.tail (.take hsecond)
  have hfirst : rivalsServed.queue.dequeue 0 = ((some ⟨.normal, 2, .event (.run 0 2)⟩, true),
      (rivalsServed.queue.dequeue 0).2) := rfl
  exact hserved.tail (.take hfirst)

/-- When task 0 claims its second run, the entry of task 1, which was ready at its first claim, was
taken. -/
theorem ready_before_next_claim_rivals :
    ∃ between now x popped queue took,
      Run .self (fun _ => default)
        (rivalsBegun.arrive .self (fun _ => default) ⟨0, 0, 0⟩ 0 (.run 0 1)) between ∧
      between.queue.dequeue now = ((some x, popped), queue) ∧ x.number = 2 ∧
      between.taken = took ++ rivalsBegun.taken ∧
      (⟨.normal, 1, .event (.run 1 1)⟩ ∈ took ∨ 1 ∈ between.queue.cancelled) := by
  have hthere : (0, .run 0 1) ∈ rivalsBegun.world.transit := List.mem_cons_self
  have hclaims : (Crew.arrive default Coding.self.job ⟨0, 0, 0⟩ (.run 0 1)
      (rivalsBegun.world.crew, rivalsBegun.world.desk)).1 = some 0 := rfl
  have hsame : (Errand.run 0 2).scheduler = (Errand.run 0 1).scheduler := rfl
  have hthere' : (2, .run 0 2) ∈ rivalsLater.world.transit := List.mem_cons_self
  have hclaims' : (Crew.arrive default Coding.self.job ⟨0, 0, 0⟩ (.run 0 2)
      (rivalsLater.world.crew, rivalsLater.world.desk)).1 = some 0 := rfl
  obtain ⟨between, now, x, popped, queue, took, hbefore, hd, hnumber, -, -, htaken, hall⟩ :=
    ready_before_next_claim reachable_rivalsBegun hthere hclaims run_rivals hsame hthere' hclaims'
  refine ⟨between, now, x, popped, queue, took, hbefore, hd, hnumber, htaken, ?_⟩
  exact (hall ⟨.normal, 1, .event (.run 1 1)⟩ List.mem_cons_self rfl (Nat.le_refl _)).2

end AtQueue

end TurnPool
