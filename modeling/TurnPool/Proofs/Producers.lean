import Mathlib.Data.List.Basic
import TurnPool.Proofs.QueueDepth

/-!
# Producers that wait for room

A producer that finds the queue full goes to sleep until somebody tells it that there is room. Room
is made in silence, though: entries that were called off leave when they are purged, and a worker
that takes entries out notifies once, however many dead ones it has skipped, and only after it has
given the lock back. That no producer is left asleep for good is a matter of all of them together.

## Who does what

A `Gate` is a session of the queue with the number of those who have taken something out and have
yet to notify. A producer makes an attempt when it comes, and again when it was roused; nobody
asleep does anything. A notification rouses the producer that has been asleep longest, as the queue
does it, or any other one, so that nothing depends on which. Nobody notifies who does not owe it.

## Main results

* `Queue.ready_tryEnqueue_ne_nil`: after an attempt something is ready.
* `Queue.popped_dequeue`: whoever finds something ready will notify.
* `Queue.Gate.Attended`: there is somebody to see to those who are asleep.
* `Queue.Gate.Attended.after`: it stays so, whatever happens.
* `Queue.Gate.nobody_stranded`: in every history **no producer is stranded**.
-/

namespace TurnPool

/-! ### Callers that wait -/

namespace Waiters

variable {w : Waiters} {id : Nat}

/-- Rouse the caller `id`, if it is asleep. -/
def rouse (id : Nat) (w : Waiters) : Waiters :=
  if id ∈ w.asleep then ⟨w.asleep.erase id, w.roused ++ [id]⟩ else w

/-- `rouseOne` rouses the caller that stands first among those asleep. -/
theorem rouseOne_eq_rouse {ids : List Nat} (h : w.asleep = id :: ids) :
    w.rouseOne = w.rouse id := by
  rw [rouseOne, rouse, h, if_pos List.mem_cons_self, List.erase_cons_head]

/-- `rouseOne` does nothing if nobody is asleep. -/
theorem rouseOne_of_nil (h : w.asleep = []) : w.rouseOne = w := by
  rw [rouseOne, h]

/-- Each caller **is in one place**: no caller is asleep twice, and none is both asleep and
roused. -/
structure OnePlace (w : Waiters) : Prop where
  /-- It is asleep once. -/
  nodup : w.asleep.Nodup
  /-- Whoever was roused is not asleep. -/
  awake : ∀ id ∈ w.roused, id ∉ w.asleep

namespace OnePlace

/-- In `Waiters.empty` each caller is in one place. -/
theorem empty : empty.OnePlace := ⟨List.nodup_nil, by rintro id ⟨⟩⟩

/-- `Waiters.leave` keeps each caller in one place. -/
theorem leave (h : w.OnePlace) (id : Nat) : (w.leave id).OnePlace where
  nodup := h.nodup.sublist List.filter_sublist
  awake i hi hmem := h.awake i (List.mem_of_mem_filter hi) (List.mem_of_mem_filter hmem)

/-- `Waiters.sleep` keeps each caller in one place. -/
theorem sleep (h : w.OnePlace) (id : Nat) : (w.sleep id).OnePlace where
  nodup := by
    refine List.nodup_append.2 ⟨(h.leave id).nodup, List.nodup_singleton id, ?_⟩
    rintro i hi j hj rfl
    obtain rfl := List.mem_singleton.1 hj
    simp [Waiters.leave] at hi
  awake i hi hmem := by
    rcases List.mem_append.1 hmem with hmem | hmem
    · exact (h.leave id).awake i hi hmem
    · obtain rfl := List.mem_singleton.1 hmem
      simp [Waiters.sleep, Waiters.leave] at hi

/-- `Waiters.rouse` keeps each caller in one place. -/
theorem rouse (h : w.OnePlace) (id : Nat) : (w.rouse id).OnePlace := by
  rw [Waiters.rouse]
  split
  · refine ⟨h.nodup.sublist List.erase_sublist, fun i hi hmem => ?_⟩
    have hsleeps := (h.nodup.mem_erase_iff.1 hmem)
    rcases List.mem_append.1 hi with hi | hi
    · exact h.awake i hi hsleeps.2
    · exact hsleeps.1 (List.mem_singleton.1 hi)
  · exact h

/-- `Waiters.rouseOne` keeps each caller in one place. -/
theorem rouseOne (h : w.OnePlace) : w.rouseOne.OnePlace := by
  cases hasleep : w.asleep with
  | nil => exact (rouseOne_of_nil hasleep).symm ▸ h
  | cons id ids => exact (rouseOne_eq_rouse hasleep).symm ▸ h.rouse id

/-- After `w.rouse id` the caller `id` is roused and not asleep, if it was asleep. -/
theorem mem_roused_rouse (h : w.OnePlace) (hid : id ∈ w.asleep) :
    id ∈ (w.rouse id).roused ∧ id ∉ (w.rouse id).asleep := by
  rw [Waiters.rouse, if_pos hid]
  exact ⟨List.mem_append_right _ List.mem_cons_self, fun hmem =>
    (h.nodup.mem_erase_iff.1 hmem).1 rfl⟩

end OnePlace

/-- If somebody is asleep, somebody is roused after `rouseOne`. -/
theorem roused_rouseOne (h : w.asleep ≠ []) : w.rouseOne.roused ≠ [] := by
  rw [rouseOne]
  split
  · rename_i hnil
    exact absurd hnil h
  · exact List.append_ne_nil_of_right_ne_nil _ (List.cons_ne_nil _ _)

end Waiters

/-! ### What leaves nothing ready -/

namespace Queue

variable {α : Type} {q q' : Queue α}

/-- `q'` has the depth and the waiting producers of `q`, and something is ready in it if something
is ready in `q`. -/
structure KeepsReady (q q' : Queue α) : Prop where
  /-- There may be as many ready entries. -/
  maxDepth : q'.maxDepth = q.maxDepth
  /-- The same producers wait. -/
  producers : q'.producers = q.producers
  /-- Something is ready if it was. -/
  ready : q.ready ≠ [] → q'.ready ≠ []

/-- `Queue.push` keeps the depth and the producers, and something ready if it was. -/
theorem keepsReady_push (now : Nat) (priority : Priority) (delay : Nat) (x : α) (q : Queue α) :
    KeepsReady q (q.push now priority delay x).2 where
  maxDepth := maxDepth_push now priority delay x q
  producers := producers_push now priority delay x q
  ready h := by
    obtain ⟨e, he⟩ := List.exists_mem_of_ne_nil _ h
    exact List.ne_nil_of_mem (mem_ready_push.2 (Or.inr he))

/-- `Queue.cancel` keeps the depth and the producers, and something ready if it was. -/
theorem keepsReady_cancel (number : Nat) (q : Queue α) : KeepsReady q (q.cancel number) := by
  rw [cancel]
  split <;> exact ⟨rfl, rfl, id⟩

/-- `Queue.promote` keeps the depth and the producers, and something ready if it was. -/
theorem keepsReady_promote (now : Nat) (q : Queue α) : KeepsReady q (q.promote now) := by
  dsimp only [promote]
  set ripe := (q.deferred.span fun d => d.due ≤ now).1.filter fun d => q.isLive d.entry
  set q₀ : Queue α := { q with deferred := (q.deferred.span fun d => d.due ≤ now).2 }
  obtain ⟨ready, heq⟩ := foldl_addReady ripe q₀
  have hperm := ready_foldl_addReady ripe q₀
  rw [heq] at hperm ⊢
  refine ⟨rfl, rfl, fun h hnil => h ?_⟩
  have hnil' : ready = [] := hnil
  exact (List.append_eq_nil_iff.1 (List.perm_nil.1 (hnil' ▸ hperm.symm))).2

/-- `Queue.look` keeps the depth and the producers, and something ready if it was. -/
theorem keepsReady_look (worker now : Nat) (q : Queue α) : KeepsReady q (q.look worker now).2 := by
  obtain ⟨hdepth, hproducers, hready⟩ := keepsReady_promote now q
  rw [look]
  split <;> exact ⟨hdepth, hproducers, hready⟩

/-- After `tryEnqueue` **something is ready**: the new entry, or those that made the queue full. -/
theorem ready_tryEnqueue_ne_nil (hdepth : 0 < q.maxDepth) (priority : Priority) (x : α) :
    (q.tryEnqueue priority x).2.ready ≠ [] := by
  by_cases hfull : q.maxDepth ≤ q.liveReady
  · rw [tryEnqueue_full priority x hfull]
    have hlength := length_ready_purge hfull
    have hpos : 0 < q.purge.ready.length := by omega
    exact List.ne_nil_of_length_pos hpos
  · rw [tryEnqueue_room priority x (Nat.lt_of_not_le hfull)]
    exact List.ne_nil_of_mem (mem_ready_push.2 (Or.inl ⟨rfl, rfl⟩))

/-- `tryEnqueue` keeps the depth and the producers, and something ready if it was. -/
theorem keepsReady_tryEnqueue (hdepth : 0 < q.maxDepth) (priority : Priority) (x : α) :
    KeepsReady q (q.tryEnqueue priority x).2 :=
  ⟨maxDepth_tryEnqueue priority x, producers_tryEnqueue priority x, fun _ =>
    ready_tryEnqueue_ne_nil hdepth priority x⟩

/-- A `dequeue` while something is ready takes something out, dead or not, so that its caller will
notify. -/
theorem popped_dequeue (h : q.ready ≠ []) (now : Nat) : (q.dequeue now).1.2 = true := by
  have hready := (keepsReady_promote now q).ready h
  dsimp only [dequeue]
  split <;> simpa using hready

/-- `Queue.dequeue` keeps the depth and the producers. -/
theorem dequeue_keeps_producers (now : Nat) (q : Queue α) :
    (q.dequeue now).2.maxDepth = q.maxDepth ∧ (q.dequeue now).2.producers = q.producers := by
  obtain ⟨hdepth, hproducers, -⟩ := keepsReady_promote now q
  dsimp only [dequeue]
  split <;> exact ⟨hdepth, hproducers⟩

/-! ### The gate -/

/-- A session of the queue with the **notifications** that are to come. -/
structure Gate (ω : Type) where
  /-- The session. -/
  session : Session ω
  /-- How many have taken something out and have yet to notify. -/
  owed : Nat

/-- What happens at a gate. -/
inductive GateEvent (ω : Type) where
  /-- The queue is used. -/
  | call (c : QueueCall ω)
  /-- A notification rouses one of the producers that are asleep. -/
  | notify (producer : Nat)

namespace Gate

variable {ω : Type} {s : Gate ω}

/-- The queue of the session. -/
def queue (s : Gate ω) : Queue (Work ω) := s.session.queue

/-- A gate where nobody waits and no notification is owed. -/
def new (maxDepth : Nat) : Gate ω := ⟨.new maxDepth, 0⟩

/-- Something happens at the present reading of the clock. Who is asleep makes no attempt, and who
has taken nothing out does not notify. -/
def perform (s : Gate ω) : GateEvent ω → Gate ω
  | .call (.offer producer priority x) =>
    if producer ∈ s.queue.producers.asleep then s
    else { s with session := s.session.perform (.offer producer priority x) }
  | .call .dequeue =>
    { session := s.session.perform .dequeue
      owed := s.owed + (s.queue.dequeue s.session.clock).1.2.toNat }
  | .call .notifySpace =>
    if 0 < s.owed then { session := s.session.perform .notifySpace, owed := s.owed - 1 } else s
  | .call c => { s with session := s.session.perform c }
  | .notify producer =>
    if 0 < s.owed ∧ producer ∈ s.queue.producers.asleep then
      { session := { s.session with
          queue := { s.queue with producers := s.queue.producers.rouse producer } }
        owed := s.owed - 1 }
    else s

/-- Time passes, and then something happens. -/
def after (s : Gate ω) (m : Nat × GateEvent ω) : Gate ω :=
  perform { s with session := { s.session with clock := s.session.clock + m.1 } } m.2

/-- What a list of events leads to, each with the time that has passed since the one before. -/
def history (maxDepth : Nat) (ms : List (Nat × GateEvent ω)) : Gate ω :=
  ms.foldl after (new maxDepth)

/-- The producers that are asleep are **attended to**: something is ready, which will be taken out,
or somebody was roused, who will look, or somebody has yet to notify. -/
structure Attended (s : Gate ω) : Prop where
  /-- There is room for an entry at all. -/
  depth : 0 < s.queue.maxDepth
  /-- A producer is in one place. -/
  apart : s.queue.producers.OnePlace
  /-- There is somebody to see to those who are asleep. -/
  attended : s.queue.producers.asleep ≠ [] →
    s.queue.ready ≠ [] ∨ s.queue.producers.roused ≠ [] ∨ 0 < s.owed

namespace Attended

/-- A new gate is attended, if the depth is positive. -/
theorem new {maxDepth : Nat} (hdepth : 0 < maxDepth) : (new maxDepth : Gate ω).Attended :=
  ⟨hdepth, .empty, fun h => absurd rfl h⟩

/-- A gate stays attended when its session changes in a way that `KeepsReady`. -/
theorem keepsReady (h : s.Attended) {session : Session ω}
    (hu : s.queue.KeepsReady session.queue) : (⟨session, s.owed⟩ : Gate ω).Attended where
  depth := hu.maxDepth.symm ▸ h.depth
  apart := hu.producers.symm ▸ h.apart
  attended hasleep := by
    rw [queue, hu.producers] at hasleep ⊢
    exact (h.attended hasleep).imp_left hu.ready

/-- A gate stays attended after an `offer`, since something is ready then. -/
theorem offer (h : s.Attended) (producer : Nat) (priority : Priority) (x : ω) :
    ({ s with session := s.session.perform (.offer producer priority x) } : Gate ω).Attended := by
  have hready := ready_tryEnqueue_ne_nil h.depth priority (Work.event x)
  have hmax := maxDepth_tryEnqueue (q := s.queue) priority (Work.event x)
  by_cases hfull : s.queue.maxDepth ≤ s.queue.liveReady
  · have heq := offer_full priority (Work.event x) hfull producer
    simp only [queue] at heq hready hmax
    simp only [Session.perform, heq]
    exact ⟨hmax.symm ▸ h.depth, h.apart.sleep producer, fun _ => Or.inl hready⟩
  · have heq := offer_room priority (Work.event x) (Nat.lt_of_not_le hfull) producer
    simp only [queue] at heq hready hmax
    simp only [Session.perform, heq]
    exact ⟨hmax.symm ▸ h.depth, h.apart.leave producer, fun _ => Or.inl hready⟩

/-- A gate stays attended after a `dequeue`: if something was taken out a notification is owed, and
otherwise nothing was ready. -/
theorem dequeue (h : s.Attended) : (s.perform (.call .dequeue)).Attended := by
  obtain ⟨hmax, hproducers⟩ := dequeue_keeps_producers s.session.clock s.queue
  refine ⟨hmax.symm ▸ h.depth, hproducers.symm ▸ h.apart, fun hasleep => ?_⟩
  change (s.queue.dequeue s.session.clock).2.producers.asleep ≠ [] at hasleep
  change _ ∨ (s.queue.dequeue s.session.clock).2.producers.roused ≠ [] ∨
    0 < s.owed + (s.queue.dequeue s.session.clock).1.2.toNat
  rw [hproducers] at hasleep ⊢
  rcases h.attended hasleep with hready | hroused | howed
  · rw [popped_dequeue hready]
    exact Or.inr (Or.inr (Nat.succ_pos _))
  · exact Or.inr (Or.inl hroused)
  · exact Or.inr (Or.inr (Nat.lt_add_right _ howed))

/-- A gate is attended, whatever is owed, if somebody is roused in case anybody is asleep. -/
theorem roused (h : s.Attended) {w : Waiters} (owed : Nat) (hapart : w.OnePlace)
    (hroused : w.asleep ≠ [] → w.roused ≠ []) :
    (⟨{ s.session with queue := { s.queue with producers := w } }, owed⟩ : Gate ω).Attended :=
  ⟨h.depth, hapart, fun hasleep => Or.inr (Or.inl (hroused hasleep))⟩

/-- A gate is attended after `notifySpace`, whatever is owed then. -/
theorem notifySpace (h : s.Attended) (owed : Nat) :
    (⟨s.session.perform .notifySpace, owed⟩ : Gate ω).Attended := by
  refine h.roused owed h.apart.rouseOne fun hasleep => Waiters.roused_rouseOne fun hnil => ?_
  rw [Waiters.rouseOne_of_nil hnil] at hasleep
  exact hasleep hnil

/-- A gate is attended after a producer was roused that was asleep, whatever is owed then. -/
theorem notify (h : s.Attended) (owed : Nat) {producer : Nat}
    (hmem : producer ∈ s.queue.producers.asleep) :
    (⟨{ s.session with
        queue := { s.queue with producers := s.queue.producers.rouse producer } }, owed⟩ :
      Gate ω).Attended :=
  h.roused owed (h.apart.rouse producer) fun _ =>
    List.ne_nil_of_mem (h.apart.mem_roused_rouse hmem).1

/-- A gate stays attended **whatever happens**. -/
theorem perform (h : s.Attended) (t : GateEvent ω) : (s.perform t).Attended := by
  match t with
  | .call (.offer producer priority x) =>
    rw [Gate.perform]
    split
    · exact h
    · exact h.offer producer priority x
  | .call .dequeue => exact h.dequeue
  | .call .notifySpace =>
    rw [Gate.perform]
    split
    · exact h.notifySpace _
    · exact h
  | .call (.tryEnqueue priority x) =>
    refine h.keepsReady ?_
    have hqueue : (s.session.perform (.tryEnqueue priority x)).queue =
        (s.queue.tryEnqueue priority (.event x)).2 := by
      rw [Session.perform]
      split <;> rename_i heq <;> exact (congrArg Prod.snd heq).symm
    exact hqueue ▸ keepsReady_tryEnqueue h.depth priority (Work.event x)
  | .call (.schedule priority delay x) => exact h.keepsReady (keepsReady_push ..)
  | .call (.pushQuit delay) => exact h.keepsReady (keepsReady_push ..)
  | .call (.cancel number) =>
    refine h.keepsReady ?_
    rw [Session.perform]
    split
    · exact keepsReady_cancel number s.queue
    · exact ⟨rfl, rfl, id⟩
  | .call (.look worker) => exact h.keepsReady (keepsReady_look ..)
  | .notify producer =>
    rw [Gate.perform]
    split
    · rename_i hand
      exact h.notify _ hand.2
    · exact h

/-- A gate stays attended when time passes. -/
theorem pass (h : s.Attended) (elapsed : Nat) : ({ s with
    session := { s.session with clock := s.session.clock + elapsed } } : Gate ω).Attended :=
  ⟨h.depth, h.apart, h.attended⟩

/-- **One step.** A gate stays attended after some time has passed and something has happened. -/
theorem after (h : s.Attended) (m : Nat × GateEvent ω) : (s.after m).Attended :=
  (h.pass m.1).perform m.2

/-- **A whole run.** Every `Gate.history` is attended, if the depth is positive. -/
theorem history {maxDepth : Nat} (hdepth : 0 < maxDepth) (ms : List (Nat × GateEvent ω)) :
    (Gate.history maxDepth ms).Attended :=
  List.foldlRecOn ms Gate.after (new hdepth) fun _ h m _ => h.after m

end Attended

/-! ### Progress -/

/-- A `dequeue` while something is ready makes one more notification that is **owed**. -/
theorem owed_dequeue (h : s.queue.ready ≠ []) (elapsed : Nat) :
    (s.after (elapsed, .call .dequeue)).owed = s.owed + 1 := by
  have hpopped := popped_dequeue h (s.session.clock + elapsed)
  exact congrArg (fun popped : Bool => s.owed + popped.toNat) hpopped

/-- A notification that is owed **rouses** the producer it reaches, if that one is asleep. -/
theorem roused_notify (h : s.Attended) (howed : 0 < s.owed) {producer : Nat}
    (hmem : producer ∈ s.queue.producers.asleep) (elapsed : Nat) :
    producer ∈ (s.after (elapsed, .notify producer)).queue.producers.roused ∧
      producer ∉ (s.after (elapsed, .notify producer)).queue.producers.asleep := by
  have heq : (s.after (elapsed, .notify producer)).queue.producers =
      s.queue.producers.rouse producer := by
    rw [after, perform, if_pos (by exact ⟨howed, hmem⟩)]
    rfl
  rw [heq]
  exact h.apart.mem_roused_rouse hmem

/-- After a producer that was roused has made its `offer`, something is ready, and it is done if
there was room. -/
theorem ready_offer (h : s.Attended) {producer : Nat} (hmem : producer ∈ s.queue.producers.roused)
    (elapsed : Nat) (priority : Priority) (x : ω) :
    let s' := s.after (elapsed, .call (.offer producer priority x))
    producer ∉ s'.queue.producers.roused ∧ s'.queue.ready ≠ [] ∧
      (s.queue.liveReady < s.queue.maxDepth → producer ∉ s'.queue.producers.asleep) := by
  intro s'
  have hqueue : s'.queue = (s.queue.offer producer priority (.event x)).2 := by
    show (s.after _).queue = _
    rw [after, perform, if_neg (by exact h.apart.awake producer hmem)]
    show (Session.perform _ _).queue = _
    rw [Session.perform]
    split <;> rename_i heq <;> exact (congrArg Prod.snd heq).symm
  have hready := ready_tryEnqueue_ne_nil h.depth priority (Work.event x)
  rw [hqueue]
  by_cases hfull : s.queue.maxDepth ≤ s.queue.liveReady
  · rw [offer_full priority _ hfull]
    refine ⟨?_, hready, fun hroom => absurd hroom (Nat.not_lt.2 hfull)⟩
    simp [Waiters.sleep, Waiters.leave]
  · rw [offer_room priority _ (Nat.lt_of_not_le hfull)]
    refine ⟨?_, hready, fun _ => ?_⟩ <;> simp [Waiters.leave]

/-- **No producer is stranded**: while one is `asleep`, something is `ready`, or another producer is
`roused` and has yet to look, or a notification is `owed`. Each of them leads on: `dequeue` takes
something out and owes a notification, a notification that is owed rouses whichever sleeper it
reaches, and a producer that looks is roused no more, and leaves something ready. -/
theorem nobody_stranded {maxDepth : Nat} (hdepth : 0 < maxDepth) (ms : List (Nat × GateEvent ω))
    {producer : Nat} (hasleep : producer ∈ (history maxDepth ms).queue.producers.asleep) :
    let s := history maxDepth ms
    (s.queue.ready ≠ [] ∨ (∃ other ∈ s.queue.producers.roused, other ≠ producer) ∨ 0 < s.owed) ∧
      (s.queue.ready ≠ [] → ∀ elapsed,
        (s.after (elapsed, .call .dequeue)).owed = s.owed + 1) ∧
      (0 < s.owed → ∀ elapsed, ∀ sleeper ∈ s.queue.producers.asleep,
        let s' := s.after (elapsed, .notify sleeper)
        sleeper ∈ s'.queue.producers.roused ∧ sleeper ∉ s'.queue.producers.asleep) ∧
      ∀ other ∈ s.queue.producers.roused, ∀ elapsed priority x,
        let s' := s.after (elapsed, .call (.offer other priority x))
        other ∉ s'.queue.producers.roused ∧ s'.queue.ready ≠ [] ∧
          (s.queue.liveReady < s.queue.maxDepth → other ∉ s'.queue.producers.asleep) := by
  have h : (history maxDepth ms : Gate ω).Attended := .history hdepth ms
  refine ⟨?_, fun hready elapsed => owed_dequeue hready elapsed,
    fun howed elapsed sleeper hmem => roused_notify h howed hmem elapsed,
    fun other hmem elapsed priority x => ready_offer h hmem elapsed priority x⟩
  rcases h.attended (List.ne_nil_of_mem hasleep) with hready | hroused | howed
  · exact Or.inl hready
  · obtain ⟨other, hother⟩ := List.exists_mem_of_ne_nil _ hroused
    exact Or.inr (Or.inl ⟨other, hother, fun heq => h.apart.awake other hother (heq ▸ hasleep)⟩)
  · exact Or.inr (Or.inr howed)

/-- Two producers find one dead entry in the way. It is skipped by a worker, who rouses the second
of them. -/
def behindDead : List (Nat × GateEvent Nat) :=
  [(0, .call (.tryEnqueue .normal 0)), (0, .call (.offer 7 .normal 1)),
    (1, .call (.offer 8 .high 2)), (0, .call (.cancel 0)), (5, .call .dequeue), (0, .notify 8)]

/-- One producer is asleep and nothing is ready or owed, but another producer was roused. -/
theorem nobody_stranded_behindDead :
    (history 1 behindDead).queue.ready.isEmpty = true ∧ (history 1 behindDead).owed = 0 ∧
      ∃ other ∈ (history 1 behindDead).queue.producers.roused, other ≠ 7 := by
  have hready : (history 1 behindDead).queue.ready.isEmpty = true := by decide
  have howed : (history 1 behindDead).owed = 0 := by decide
  have hasleep : 7 ∈ (history 1 behindDead).queue.producers.asleep := by decide
  refine ⟨hready, howed, ?_⟩
  rcases (nobody_stranded Nat.one_pos behindDead hasleep).1 with h | h | h
  · exact absurd (List.isEmpty_iff.1 hready) h
  · exact h
  · exact absurd (howed ▸ h) (Nat.lt_irrefl 0)

end Gate

end Queue

end TurnPool
