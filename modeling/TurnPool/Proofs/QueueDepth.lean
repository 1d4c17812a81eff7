import TurnPool.Proofs.QueueOrder

/-!
# The depth of the event queue

Entries that are called off stay in the queue, and they are counted as ready ones until somebody
purges them, which happens only once the ready entries are as many as the depth. Deferred entries
and requests to leave do not ask for room at all, and take it when they are ready. The depth decides
nevertheless as if the live ready entries were counted at each attempt, and nothing else.

## What is counted

`Queue.liveReady` counts the live ones of the ready entries, whoever pushed them. The entries that
were *admitted* are those that `tryEnqueue` and `offer` pushed; an attempt of a producer that waits
for room is an `offer`. They are ready from the start, so that whichever of them are left are among
the entries that were counted when the last one was admitted.

## Main results

* `tryEnqueue_full`, `tryEnqueue_room`: **the live count decides**, in every state of the queue.
* `Within`: no more admitted entries are left than the depth, whatever is done.
* `liveReady_promote`: deferred entries that ripen do not ask for room.
* `admits_up_to_depth`: the depth of the queue, in every session.
-/

namespace TurnPool

namespace Queue

variable {α ω : Type}

/-! ### Live entries -/

/-- The live entries of a queue, ready or deferred. -/
def live (q : Queue α) : List (QueueEntry α) := q.entries.filter q.isLive

/-- How many of the ready entries are live. -/
def liveReady (q : Queue α) : Nat := q.ready.countP q.isLive

/-- An entry is in `live` just if it is in `entries` and not called off. -/
theorem mem_live {q : Queue α} {e : QueueEntry α} :
    e ∈ q.live ↔ e ∈ q.entries ∧ q.isLive e = true := List.mem_filter

/-- There are no more live ready entries than ready ones. -/
theorem liveReady_le_length (q : Queue α) : q.liveReady ≤ q.ready.length := List.countP_le_length

/-- In a sound queue no entry is live twice. -/
theorem Sound.nodup_live {q : Queue α} (hq : q.Sound) : q.live.Nodup :=
  hq.nodup.of_map.filter _

/-- A `Shed` keeps the live entries, in some order. -/
theorem Shed.live_perm {q q' : Queue α} (h : Shed q q') (hq : q.Sound) : q'.live.Perm q.live := by
  refine (List.perm_ext_iff_of_nodup (hq.shed h).nodup_live hq.nodup_live).2 fun e => ?_
  rw [mem_live, mem_live, isLive_congr h.cancelled]
  constructor
  · rintro ⟨he, hl⟩
    exact ⟨h.subperm.subset he, hl⟩
  · rintro ⟨he, hl⟩
    exact ⟨h.mem e he hl, hl⟩

/-- `Queue.push` adds one **live** entry, with the number `q.nextNumber`. -/
theorem Sound.live_push {q : Queue α} (hq : q.Sound) (now : Nat) (priority : Priority)
    (delay : Nat) (x : α) :
    (q.push now priority delay x).2.live.Perm (⟨priority, q.nextNumber, x⟩ :: q.live) := by
  have hperm := (entries_push now priority delay x q).filter q.isLive
  rw [List.filter_cons_of_pos (hq.isLive_fresh rfl)] at hperm
  have hlive : (q.push now priority delay x).2.isLive = q.isLive :=
    funext (isLive_congr (cancelled_push now priority delay x q))
  rw [live, hlive]
  exact hperm

/-- `Queue.push` keeps `maxDepth`. -/
@[simp] theorem maxDepth_push (now : Nat) (priority : Priority) (delay : Nat) (x : α)
    (q : Queue α) : (q.push now priority delay x).2.maxDepth = q.maxDepth := by
  rw [push]
  split <;> rfl

/-- `Queue.purge` keeps `maxDepth`. -/
@[simp] theorem maxDepth_purge (q : Queue α) : q.purge.maxDepth = q.maxDepth := by
  rw [purge]
  split <;> rfl

/-- `Queue.cancel` keeps `maxDepth`. -/
@[simp] theorem maxDepth_cancel (n : Nat) (q : Queue α) : (q.cancel n).maxDepth = q.maxDepth := by
  rw [cancel]
  split <;> rfl

/-- `Queue.push` keeps `producers`. -/
@[simp] theorem producers_push (now : Nat) (priority : Priority) (delay : Nat) (x : α)
    (q : Queue α) : (q.push now priority delay x).2.producers = q.producers := by
  rw [push]
  split <;> rfl

/-- `Queue.purge` keeps `producers`. -/
@[simp] theorem producers_purge (q : Queue α) : q.purge.producers = q.producers := by
  rw [purge]
  split <;> rfl

/-- `Queue.promote` keeps `maxDepth`. -/
@[simp] theorem maxDepth_promote (now : Nat) (q : Queue α) :
    (q.promote now).maxDepth = q.maxDepth := by
  dsimp only [promote]
  obtain ⟨ready, heq⟩ := foldl_addReady
    ((q.deferred.span fun d => d.due ≤ now).1.filter fun d => q.isLive d.entry)
    { q with deferred := (q.deferred.span fun d => d.due ≤ now).2 }
  rw [heq]

/-- `Queue.dequeue` keeps `maxDepth`. -/
@[simp] theorem maxDepth_dequeue (now : Nat) (q : Queue α) :
    (q.dequeue now).2.maxDepth = q.maxDepth := by
  dsimp only [dequeue]
  split <;> exact maxDepth_promote now q

/-- `Queue.look` keeps `maxDepth`. -/
@[simp] theorem maxDepth_look (worker now : Nat) (q : Queue α) :
    (q.look worker now).2.maxDepth = q.maxDepth := by
  rw [look]
  split <;> exact maxDepth_promote now q

/-- `Queue.cancel` makes no entry live. -/
theorem live_cancel_subset (n : Nat) (q : Queue α) : (q.cancel n).live ⊆ q.live := by
  intro e he
  obtain ⟨he, hl⟩ := mem_live.1 he
  rw [entries_cancel] at he
  rw [isLive_cancel, Bool.and_eq_true] at hl
  exact mem_live.2 ⟨he, hl.2⟩

/-- `Queue.dequeue` makes no entry live, and defers none. -/
theorem live_dequeue_subset {q : Queue α} (hq : q.Sound) (ho : q.Ordered) (now : Nat) :
    (q.dequeue now).2.live ⊆ q.live ∧ (q.dequeue now).2.deferred ⊆ q.deferred := by
  obtain ⟨q₁, haged, -, ⟨-, heq, -⟩ | ⟨e, es, -, heq, hready, -⟩⟩ := dequeue_cases now ho
  · rw [heq]
    exact ⟨(haged.live_perm hq).subset, haged.deferred⟩
  · rw [heq]
    refine ⟨fun a ha => (haged.live_perm hq).subset ?_, haged.deferred⟩
    obtain ⟨ha, hl⟩ := mem_live.1 ha
    refine mem_live.2 ⟨?_, hl⟩
    rw [entries, hready]
    exact List.mem_cons_of_mem e ha

/-! ### One attempt -/

/-- The ready entries that a purge leaves are as many as `maxDepth` **if and only if** the live
ready ones were. -/
theorem full_purge_iff (q : Queue α) :
    q.purge.maxDepth ≤ q.purge.ready.length ↔ q.maxDepth ≤ q.liveReady := by
  have hle := q.liveReady_le_length
  rw [maxDepth_purge, purge]
  split
  · rw [liveReady, List.countP_eq_length_filter]
  · omega

/-- If the live ready entries are as many as `maxDepth`, the purge leaves just these. -/
theorem length_ready_purge {q : Queue α} (hfull : q.maxDepth ≤ q.liveReady) :
    q.purge.ready.length = q.liveReady := by
  have hle := q.liveReady_le_length
  rw [purge, if_pos (by omega), liveReady, List.countP_eq_length_filter]

section Attempt

variable {q : Queue α} (priority : Priority) (x : α)

/-- If the live ready entries are as many as `maxDepth`, then `tryEnqueue` answers `queueFull` with
their number, and the queue is only purged. -/
theorem tryEnqueue_full (hfull : q.maxDepth ≤ q.liveReady) :
    q.tryEnqueue priority x = (.error (.queueFull q.liveReady), q.purge) := by
  rw [← length_ready_purge hfull]
  exact if_pos ((full_purge_iff q).2 hfull)

/-- If the live ready entries are fewer than `maxDepth`, then `tryEnqueue` purges the queue and
pushes the entry without a delay. -/
theorem tryEnqueue_room (hroom : q.liveReady < q.maxDepth) :
    q.tryEnqueue priority x = (.ok q.nextNumber, (q.purge.push 0 priority 0 x).2) := by
  have hnot : ¬ q.purge.maxDepth ≤ q.purge.ready.length := by
    rw [full_purge_iff]
    omega
  have hnext : (q.purge.push 0 priority 0 x).1 = q.nextNumber := by
    rw [push_fst, (shed_purge q).nextNumber]
  rw [← hnext]
  exact if_neg hnot

/-- `tryEnqueue` answers `queueFull` **if and only if** the live ready entries are as many as
`maxDepth`. -/
theorem tryEnqueue_eq_error_iff :
    (q.tryEnqueue priority x).1 = .error (.queueFull q.liveReady) ↔ q.maxDepth ≤ q.liveReady := by
  constructor
  · intro h
    by_contra hnot
    rw [tryEnqueue_room priority x (Nat.lt_of_not_le hnot)] at h
    cases h
  · intro hfull
    rw [tryEnqueue_full priority x hfull]

/-- After `tryEnqueue` the live entries are those there were and, if the live ready ones were fewer
than `maxDepth`, the new one. -/
theorem Sound.live_tryEnqueue (hq : q.Sound) :
    (q.tryEnqueue priority x).2.live.Perm
      (if q.maxDepth ≤ q.liveReady then q.live else ⟨priority, q.nextNumber, x⟩ :: q.live) := by
  have hpurge : q.purge.live.Perm q.live := (shed_purge q).live_perm hq
  split
  · rename_i hfull
    rw [tryEnqueue_full priority x hfull]
    exact hpurge
  · rename_i hroom
    rw [tryEnqueue_room priority x (Nat.lt_of_not_le hroom)]
    have hpush := (hq.shed (shed_purge q)).live_push 0 priority 0 x
    rw [(shed_purge q).nextNumber] at hpush
    exact hpush.trans (hpurge.cons _)

/-- `tryEnqueue` keeps `maxDepth`. -/
theorem maxDepth_tryEnqueue : (q.tryEnqueue priority x).2.maxDepth = q.maxDepth := by
  by_cases hfull : q.maxDepth ≤ q.liveReady
  · rw [tryEnqueue_full priority x hfull, maxDepth_purge]
  · rw [tryEnqueue_room priority x (Nat.lt_of_not_le hfull), maxDepth_push, maxDepth_purge]

/-- `tryEnqueue` keeps `producers`. -/
theorem producers_tryEnqueue : (q.tryEnqueue priority x).2.producers = q.producers := by
  by_cases hfull : q.maxDepth ≤ q.liveReady
  · rw [tryEnqueue_full priority x hfull, producers_purge]
  · rw [tryEnqueue_room priority x (Nat.lt_of_not_le hfull), producers_push, producers_purge]

/-- If the live ready entries are as many as `maxDepth`, then `offer` does what `tryEnqueue` does,
and the producer falls asleep. -/
theorem offer_full (hfull : q.maxDepth ≤ q.liveReady) (producer : Nat) :
    q.offer producer priority x =
      (none, { (q.tryEnqueue priority x).2 with producers := q.producers.sleep producer }) := by
  have hproducers := producers_tryEnqueue (q := q) priority x
  rw [offer, tryEnqueue_full priority x hfull]
  rw [tryEnqueue_full priority x hfull] at hproducers
  exact congrArg (fun p => (none, { q.purge with producers := p.sleep producer })) hproducers

/-- If the live ready entries are fewer than `maxDepth`, then `offer` does what `tryEnqueue` does,
answers the number of the new entry, and the producer is done with waiting. -/
theorem offer_room (hroom : q.liveReady < q.maxDepth) (producer : Nat) :
    q.offer producer priority x =
      (some q.nextNumber,
        { (q.tryEnqueue priority x).2 with producers := q.producers.leave producer }) := by
  have hproducers := producers_tryEnqueue (q := q) priority x
  rw [offer, tryEnqueue_room priority x hroom]
  rw [tryEnqueue_room priority x hroom] at hproducers
  exact congrArg (fun p => (some q.nextNumber,
    { (q.purge.push 0 priority 0 x).2 with producers := p.leave producer })) hproducers

/-- After `offer` the same entries are live as after `tryEnqueue`. -/
theorem live_offer (producer : Nat) :
    (q.offer producer priority x).2.live = (q.tryEnqueue priority x).2.live := by
  by_cases hfull : q.maxDepth ≤ q.liveReady
  · rw [offer_full priority x hfull]
    rfl
  · rw [offer_room priority x (Nat.lt_of_not_le hfull)]
    rfl

end Attempt

/-! ### Entries that ripen -/

/-- How many of the deferred entries are live and due by `now`. -/
def ripeAt (now : Nat) (q : Queue α) : Nat :=
  q.deferred.countP fun d => d.due ≤ now && q.isLive d.entry

/-- `Queue.promote` makes each deferred entry ready that is live and due, **whatever the depth**. -/
theorem Ordered.liveReady_promote {q : Queue α} (ho : q.Ordered) (now : Nat) :
    (q.promote now).liveReady = q.liveReady + q.ripeAt now := by
  obtain ⟨ripe, unripe, happ, hripe, hunripe, heq⟩ := ho.exists_span now
  have hperm := ready_foldl_addReady (ripe.filter fun d => q.isLive d.entry)
    { q with deferred := unripe }
  rw [← heq] at hperm
  have hcountRipe : (ripe.countP fun d => d.due ≤ now && q.isLive d.entry) =
      ripe.countP fun d => q.isLive d.entry :=
    List.countP_congr fun d hd => by simp [hripe d hd]
  have hcountUnripe : (unripe.countP fun d => d.due ≤ now && q.isLive d.entry) = 0 :=
    List.countP_eq_zero.2 fun d hd => by simp [Nat.not_le_of_lt (hunripe d hd)]
  rw [liveReady, funext (isLive_congr (shed_promote now q).cancelled), hperm.countP_eq,
    List.countP_append, List.countP_map, List.countP_filter, ripeAt, happ, List.countP_append,
    hcountRipe, hcountUnripe, liveReady, Nat.add_comm]
  simp

/-- `Queue.push` with no delay adds one live ready entry, **whatever the depth**. -/
theorem Sound.liveReady_push {q : Queue α} (hq : q.Sound) (now : Nat) (priority : Priority)
    (x : α) : (q.push now priority 0 x).2.liveReady = q.liveReady + 1 := by
  have hlive : (q.push now priority 0 x).2.isLive = q.isLive :=
    funext (isLive_congr (cancelled_push now priority 0 x q))
  have hready : (q.push now priority 0 x).2.ready =
      insertBy QueueEntry.before (fun _ _ => false) ⟨priority, q.nextNumber, x⟩ q.ready := rfl
  rw [liveReady, hlive, hready, (insertBy_perm fun _ _ => rfl).countP_eq,
    List.countP_cons_of_pos (hq.isLive_fresh rfl), liveReady]

/-- `Queue.push` with a delay adds one entry to those that are live and due by any instant from `now
+ delay` on. -/
theorem Sound.ripeAt_push {q : Queue α} (hq : q.Sound) {now delay later : Nat}
    (hdelay : delay ≠ 0) (hlater : now + delay ≤ later) (priority : Priority) (x : α) :
    (q.push now priority delay x).2.ripeAt later = q.ripeAt later + 1 := by
  have hlive : (q.push now priority delay x).2.isLive = q.isLive :=
    funext (isLive_congr (cancelled_push now priority delay x q))
  have hdeferred : (q.push now priority delay x).2.deferred =
      insertBy Deferred.before (fun _ _ => false) ⟨now + delay, priority, q.nextNumber, x⟩
        q.deferred := by
    rw [Queue.push, if_neg hdelay]
  have hfresh : q.isLive ⟨priority, q.nextNumber, x⟩ = true := hq.isLive_fresh rfl
  rw [ripeAt, hlive, hdeferred, (insertBy_perm fun _ _ => rfl).countP_eq, List.countP_cons_of_pos,
    ripeAt]
  simp [hlater, hfresh]

/-! ### What was admitted -/

/-- The live entries whose numbers are in `ns`. -/
def leftOf (ns : List Nat) (q : Queue α) : List (QueueEntry α) :=
  q.live.filter fun e => e.number ∈ ns

/-- An entry is in `leftOf ns` just if it is live and its number is in `ns`. -/
theorem mem_leftOf {ns : List Nat} {q : Queue α} {e : QueueEntry α} :
    e ∈ q.leftOf ns ↔ e ∈ q.live ∧ e.number ∈ ns := by
  simp [leftOf]

/-- If no deferred entry has a number in `ns`, then the entries `leftOf ns` are among the live ready
ones. -/
theorem length_leftOf_le_liveReady {ns : List Nat} {q : Queue α}
    (hdeferred : ∀ d ∈ q.deferred, d.entry.number ∉ ns) :
    (q.leftOf ns).length ≤ q.liveReady := by
  have hnone : ((q.deferred.map Deferred.entry).filter q.isLive).filter
      (fun e => decide (e.number ∈ ns)) = [] := by
    refine List.filter_eq_nil_iff.2 fun e he => ?_
    obtain ⟨d, hd, rfl⟩ := List.mem_map.1 (List.mem_filter.1 he).1
    simpa using hdeferred d hd
  rw [leftOf, live, entries, List.filter_append, List.filter_append, hnone, List.append_nil,
    liveReady, List.countP_eq_length_filter]
  exact List.length_filter_le _ _

/-- If nothing joins the entries `leftOf ns`, they do not become more. -/
theorem Sound.length_leftOf_le {ns : List Nat} {q q' : Queue α} (hq' : q'.Sound)
    (hsub : q'.leftOf ns ⊆ q.leftOf ns) : (q'.leftOf ns).length ≤ (q.leftOf ns).length :=
  (List.subperm_of_subset (hq'.nodup_live.filter _) hsub).length_le

namespace Session

/-- The number that a call was given for an entry that **asked for room**: an admitted `tryEnqueue`
or `offer`. -/
def admits (s : Session ω) : QueueCall ω → Option Nat
  | .tryEnqueue priority x => (s.queue.tryEnqueue priority (.event x)).1.toOption
  | .offer producer priority x => (s.queue.offer producer priority (.event x)).1
  | _ => none

/-- The numbers that were given for entries that asked for room along a list of calls, latest
first. -/
def admitted (s : Session ω) : List (Nat × QueueCall ω) → List Nat
  | [] => []
  | m :: ms => admitted (s.after m) ms ++ (s.admits m.2).toList

end Session

/-- What one call does, as far as room is concerned, if `admits` is the number that it gave to an
entry that asked for room. -/
structure RoomEffect (s s' : Session ω) (admits : Option Nat) : Prop where
  /-- The depth stays. -/
  maxDepth : s'.queue.maxDepth = s.queue.maxDepth
  /-- What was done stays done. -/
  diary : s.diary ⊆ s'.diary
  /-- An entry is live if it was, or if it is new. -/
  live : ∀ e ∈ s'.queue.live, e ∈ s.queue.live ∨ e.number = s.queue.nextNumber
  /-- An entry is deferred if it was, or if it is new and did not ask for room. -/
  deferred : ∀ d ∈ s'.queue.deferred,
    d ∈ s.queue.deferred ∨ (d.entry.number = s.queue.nextNumber ∧ admits = none)
  /-- A new entry that asked for room was given it while there was some. -/
  room : ∀ n, admits = some n → n = s.queue.nextNumber ∧
    s.queue.liveReady < s.queue.maxDepth ∧ ∃ x, .posted x ∈ s'.diary ∧ x.entry.number = n

namespace RoomEffect

variable {s : Session ω} {q : Queue (Work ω)} {diary : List (DiaryEntry (Work ω))}

/-- A call after which nothing is live or deferred that was not so before has the effect of one that
admits nothing. -/
theorem dwindles (hdepth : q.maxDepth = s.queue.maxDepth) (hdiary : s.diary ⊆ diary)
    (hlive : q.live ⊆ s.queue.live) (hdeferred : q.deferred ⊆ s.queue.deferred) :
    RoomEffect s { s with queue := q, diary } none where
  maxDepth := hdepth
  diary := hdiary
  live _ he := Or.inl (hlive he)
  deferred _ hd := Or.inl (hdeferred hd)
  room _ h := by cases h

/-- A queue that is `Aged` has the effect of a call that admits nothing. -/
theorem aged {now : Nat} (hs : s.queue.Sound) (ha : Aged now s.queue q)
    (hdepth : q.maxDepth = s.queue.maxDepth) (hdiary : s.diary ⊆ diary) :
    RoomEffect s { s with queue := q, diary } none :=
  dwindles hdepth hdiary (ha.live_perm hs).subset ha.deferred

/-- `Queue.push` itself, which does not ask for room, has the effect of a call that admits
nothing. -/
theorem push (hs : s.queue.Sound) (now : Nat) (priority : Priority) (delay : Nat) (x : Work ω)
    (hdiary : s.diary ⊆ diary) :
    RoomEffect s { s with queue := (s.queue.push now priority delay x).2, diary } none where
  maxDepth := maxDepth_push now priority delay x s.queue
  diary := hdiary
  live e he := by
    rcases List.mem_cons.1 ((hs.live_push now priority delay x).subset he) with rfl | he
    · exact Or.inr rfl
    · exact Or.inl he
  deferred d hd := by
    rcases mem_deferred_push.1 hd with ⟨-, rfl⟩ | hd
    · exact Or.inr ⟨rfl, rfl⟩
    · exact Or.inl hd
  room _ h := by cases h

/-- The effect of `tryEnqueue`. -/
theorem tryEnqueue (hs : s.queue.Sound) (priority : Priority) (x : ω) :
    RoomEffect s (s.perform (.tryEnqueue priority x)) (s.admits (.tryEnqueue priority x)) := by
  have hlive := hs.live_tryEnqueue priority (.event x)
  have hdeferred : (s.queue.tryEnqueue priority (.event x)).2.deferred = s.queue.deferred :=
    deferred_tryEnqueue
  have hdepth := maxDepth_tryEnqueue (q := s.queue) priority (.event x)
  by_cases hfull : s.queue.maxDepth ≤ s.queue.liveReady
  · have heq := tryEnqueue_full priority (.event x) hfull
    rw [if_pos hfull] at hlive
    simp only [Session.perform, Session.admits, heq] at hlive hdeferred hdepth ⊢
    exact dwindles hdepth (List.Subset.refl _) hlive.subset fun d hd => hdeferred ▸ hd
  · have heq := tryEnqueue_room priority (.event x) (Nat.lt_of_not_le hfull)
    rw [if_neg hfull] at hlive
    simp only [Session.perform, Session.admits, heq] at hlive hdeferred hdepth ⊢
    exact {
      maxDepth := hdepth
      diary := List.subset_cons_self _ _
      live := fun e he => by
        rcases List.mem_cons.1 (hlive.subset he) with rfl | he
        · exact Or.inr rfl
        · exact Or.inl he
      deferred := fun d hd => Or.inl (hdeferred ▸ hd)
      room := fun n hn => by
        obtain rfl : s.queue.nextNumber = n := Option.some.inj hn
        exact ⟨rfl, Nat.lt_of_not_le hfull, _, List.mem_cons_self, rfl⟩ }

/-- The effect of `offer`. -/
theorem offer (hs : s.queue.Sound) (producer : Nat) (priority : Priority) (x : ω) :
    RoomEffect s (s.perform (.offer producer priority x))
      (s.admits (.offer producer priority x)) := by
  have htry := tryEnqueue hs priority x
  by_cases hfull : s.queue.maxDepth ≤ s.queue.liveReady
  · have heq := offer_full priority (Work.event x) hfull producer
    simp only [Session.perform, Session.admits, heq] at htry ⊢
    simp only [tryEnqueue_full priority _ hfull] at htry ⊢
    exact ⟨htry.maxDepth, htry.diary, htry.live, htry.deferred, htry.room⟩
  · have heq := offer_room priority (Work.event x) (Nat.lt_of_not_le hfull) producer
    simp only [Session.perform, Session.admits, heq] at htry ⊢
    simp only [tryEnqueue_room priority _ (Nat.lt_of_not_le hfull)] at htry ⊢
    exact ⟨htry.maxDepth, htry.diary, htry.live, htry.deferred, htry.room⟩

/-- The effect of **any call**. -/
theorem perform (h : MatchesDiary s) (call : QueueCall ω) :
    RoomEffect s (s.perform call) (s.admits call) := by
  cases call with
  | tryEnqueue priority x => exact tryEnqueue h.sound priority x
  | offer producer priority x => exact offer h.sound producer priority x
  | schedule priority delay x =>
    exact push h.sound s.clock priority delay (.event x) (List.subset_cons_self _ _)
  | pushQuit delay => exact push h.sound s.clock .low delay .quit (List.subset_cons_self _ _)
  | cancel number =>
    rw [Session.perform]
    split
    · exact dwindles (maxDepth_cancel number s.queue) (List.subset_cons_self _ _)
        (live_cancel_subset number s.queue)
        fun d hd => deferred_cancel number s.queue ▸ hd
    · exact dwindles rfl (List.Subset.refl _) (List.Subset.refl _) (List.Subset.refl _)
  | look worker =>
    exact aged h.sound (Aged.look h.ordered worker s.clock) (maxDepth_look worker s.clock s.queue)
      (List.Subset.refl _)
  | dequeue =>
    obtain ⟨hlive, hdeferred⟩ := live_dequeue_subset h.sound h.ordered s.clock
    exact dwindles (maxDepth_dequeue s.clock s.queue) (List.subset_cons_self _ _) hlive hdeferred
  | notifySpace =>
    exact dwindles rfl (List.Subset.refl _) (List.Subset.refl _) (List.Subset.refl _)

/-- The effect of any call after some time has passed. -/
theorem after (h : MatchesDiary s) (m : Nat × QueueCall ω) :
    RoomEffect s (s.after m) (s.admits m.2) := by
  have h' : MatchesDiary { s with clock := s.clock + m.1 } :=
    h.aged (Nat.le_add_right _ _) (Aged.refl _ s.queue)
  obtain ⟨hdepth, hdiary, hlive, hdeferred, hroom⟩ := perform h' m.2
  exact ⟨hdepth, hdiary, hlive, hdeferred, hroom⟩

end RoomEffect

/-- The queue is **within its depth**: of the entries with the numbers `ns`, which asked for room,
at most `maxDepth` are left. -/
structure Within (s : Session ω) (ns : List Nat) : Prop where
  /-- They were pushed. -/
  posted : ∀ n ∈ ns, ∃ x, .posted x ∈ s.diary ∧ x.entry.number = n
  /-- They are not deferred. -/
  deferred : ∀ d ∈ s.queue.deferred, d.entry.number ∉ ns
  /-- There is room for those that are left. -/
  left : (s.queue.leftOf ns).length ≤ s.queue.maxDepth

namespace Within

variable {s s' : Session ω} {ns : List Nat}

/-- An empty session is within its depth. -/
theorem new (maxDepth : Nat) : Within (Session.new maxDepth : Session ω) [] where
  posted _ hn := absurd hn List.not_mem_nil
  deferred _ hd := absurd hd List.not_mem_nil
  left := Nat.zero_le _

/-- The numbers `ns` were given out. -/
theorem lt_nextNumber (h : Within s ns) (ht : MatchesDiary s) {n : Nat} (hn : n ∈ ns) :
    n < s.queue.nextNumber := by
  obtain ⟨x, hx, rfl⟩ := h.posted n hn
  exact ht.number_lt hx

/-- A call that admits nothing keeps a session within its depth. -/
theorem roomEffect_none (h : Within s ns) (ht : MatchesDiary s) (ht' : MatchesDiary s')
    (he : RoomEffect s s' none) :
    Within s' ns where
  posted n hn := by
    obtain ⟨x, hx, hnum⟩ := h.posted n hn
    exact ⟨x, he.diary hx, hnum⟩
  deferred d hd hn := by
    rcases he.deferred d hd with hd | ⟨hnum, -⟩
    · exact h.deferred d hd hn
    · have hlt := h.lt_nextNumber ht hn
      omega
  left := by
    rw [he.maxDepth]
    refine (ht'.sound.length_leftOf_le fun e hmem => ?_).trans h.left
    obtain ⟨hl, hn⟩ := mem_leftOf.1 hmem
    refine mem_leftOf.2 ⟨(he.live e hl).resolve_right fun hnum => ?_, hn⟩
    have hlt := h.lt_nextNumber ht hn
    omega

/-- A call that admits the entry of number `n` keeps a session within its depth, with `n` among the
numbers: those that are left are among the live ready entries, which were fewer than `maxDepth`. -/
theorem roomEffect_some (h : Within s ns) (ht : MatchesDiary s) (ht' : MatchesDiary s') {n : Nat}
    (he : RoomEffect s s' (some n)) : Within s' (n :: ns) := by
  obtain ⟨hnum, hroom, x, hx, hxn⟩ := he.room n rfl
  have hdeferred : ∀ d ∈ s'.queue.deferred, d ∈ s.queue.deferred := fun d hd =>
    (he.deferred d hd).resolve_right fun hnew => by cases hnew.2
  refine ⟨fun m hm => ?_, fun d hd hm => ?_, ?_⟩
  · rcases List.mem_cons.1 hm with rfl | hm
    · exact ⟨x, hx, hxn⟩
    · obtain ⟨y, hy, hym⟩ := h.posted m hm
      exact ⟨y, he.diary hy, hym⟩
  · rcases List.mem_cons.1 hm with hm | hm
    · have hlt := ht.sound.lt d.entry
        (List.mem_append_right _ (List.mem_map_of_mem (hdeferred d hd)))
      omega
    · exact h.deferred d (hdeferred d hd) hm
  · have hleft : (s.queue.leftOf ns).length ≤ s.queue.liveReady :=
      length_leftOf_le_liveReady h.deferred
    have hsub : (s'.queue.leftOf (n :: ns)).map QueueEntry.number ⊆
        n :: (s.queue.leftOf ns).map QueueEntry.number := by
      intro m hm
      obtain ⟨e, hmem, rfl⟩ := List.mem_map.1 hm
      obtain ⟨hl, hn⟩ := mem_leftOf.1 hmem
      by_cases hen : e.number = n
      · exact hen ▸ List.mem_cons_self
      · have hold := (he.live e hl).resolve_right fun hnew => hen (hnew.trans hnum.symm)
        have hns := (List.mem_cons.1 hn).resolve_left hen
        exact List.mem_cons_of_mem _ (List.mem_map_of_mem (mem_leftOf.2 ⟨hold, hns⟩))
    have hnodup : ((s'.queue.leftOf (n :: ns)).map QueueEntry.number).Nodup :=
      ht'.sound.nodup.sublist ((List.filter_sublist.trans List.filter_sublist).map _)
    have hlen := (List.subperm_of_subset hnodup hsub).length_le
    rw [List.length_cons, List.length_map, List.length_map] at hlen
    rw [he.maxDepth]
    omega

/-- **One step.** Any call keeps a session within its depth, with the number it admits. -/
theorem after (h : Within s ns) (ht : MatchesDiary s) (m : Nat × QueueCall ω) :
    Within (s.after m) ((s.admits m.2).toList ++ ns) := by
  have he := RoomEffect.after ht m
  cases hadmits : s.admits m.2 with
  | none => exact h.roomEffect_none ht (ht.after m) (hadmits ▸ he)
  | some n => exact h.roomEffect_some ht (ht.after m) (hadmits ▸ he)

/-- **A whole run.** Any list of calls keeps a session within its depth, with the numbers that are
`admitted` along it. -/
theorem run (h : Within s ns) (ht : MatchesDiary s) (ms : List (Nat × QueueCall ω)) :
    Within (ms.foldl Session.after s) (s.admitted ms ++ ns) := by
  induction ms generalizing s ns with
  | nil => exact h
  | cons m ms ih =>
    rw [List.foldl_cons, Session.admitted, List.append_assoc]
    exact ih (h.after ht m) (ht.after m)

/-- Every `Session.history` is within its depth, with all the numbers that were admitted. -/
theorem history (maxDepth : Nat) (ms : List (Nat × QueueCall ω)) :
    Within (Session.history maxDepth ms) ((Session.new maxDepth).admitted ms) := by
  have h := (new maxDepth).run (.new maxDepth) ms
  rwa [List.append_nil] at h

/-- An entry that asked for room is **left** if and only if the diary neither calls it off nor takes
it. -/
theorem left_iff (h : Within s ns) (ht : MatchesDiary s) {n : Nat} (hn : n ∈ ns) :
    (∃ e ∈ s.queue.live, e.number = n) ↔
      .calledOff n ∉ s.diary ∧ ∀ now e, .asked now (some e) ∈ s.diary → e.number ≠ n := by
  constructor
  · rintro ⟨e, he, rfl⟩
    obtain ⟨due, -, hoff, htaken⟩ := ht.exists_standing_iff.2 (mem_live.1 he)
    exact ⟨hoff, htaken⟩
  · rintro ⟨hoff, htaken⟩
    obtain ⟨x, hx, rfl⟩ := h.posted n hn
    exact ⟨x.entry, mem_live.2 (ht.exists_standing_iff.1 ⟨x.due, hx, hoff, htaken⟩), rfl⟩

end Within

/-- In every `Session.history` the depth is the one it began with. -/
theorem maxDepth_history (maxDepth : Nat) (ms : List (Nat × QueueCall ω)) :
    (Session.history maxDepth ms).queue.maxDepth = maxDepth := by
  have h : ∀ s : Session ω, MatchesDiary s →
      (ms.foldl Session.after s).queue.maxDepth = s.queue.maxDepth := by
    induction ms with
    | nil => intro s _; rfl
    | cons m ms ih =>
      intro s hs
      exact (ih _ (hs.after m)).trans (RoomEffect.after hs m).maxDepth
  exact h _ (.new maxDepth)

/-! ### Beyond the depth -/

section Beyond

variable {s : Session ω}

/-- Pushing `n` quits at once makes `n` more live ready entries, **whatever the depth**. -/
theorem liveReady_pushQuits (h : MatchesDiary s) (n : Nat) :
    ((List.replicate n (0, .pushQuit 0)).foldl Session.after s).queue.liveReady =
      s.queue.liveReady + n := by
  induction n generalizing s with
  | zero => rfl
  | succ n ih =>
    rw [List.replicate_succ, List.foldl_cons, ih (h.after _)]
    have hone : (s.after (0, .pushQuit 0)).queue.liveReady = s.queue.liveReady + 1 :=
      h.sound.liveReady_push s.clock .low .quit
    omega

/-- Scheduling `n` events with a delay makes `n` more that will be due, and no ready one. -/
theorem ripeAt_schedules (h : MatchesDiary s) (priority : Priority) (x : ω) (n : Nat) :
    let s' := (List.replicate n (0, .schedule priority 1 x)).foldl Session.after s
    MatchesDiary s' ∧ s'.clock = s.clock ∧ s'.queue.liveReady = s.queue.liveReady ∧
      s'.queue.ripeAt (s.clock + 1) = s.queue.ripeAt (s.clock + 1) + n := by
  induction n generalizing s with
  | zero => exact ⟨h, rfl, rfl, rfl⟩
  | succ n ih =>
    rw [List.replicate_succ, List.foldl_cons]
    obtain ⟨hs', hclock, hready, hripe⟩ := ih (h.after (0, .schedule priority 1 x))
    have hone : (s.after (0, .schedule priority 1 x)).queue.ripeAt (s.clock + 1) =
        s.queue.ripeAt (s.clock + 1) + 1 :=
      h.sound.ripeAt_push Nat.one_ne_zero (Nat.le_refl _) priority (.event x)
    have hclock' : (s.after (0, .schedule priority 1 x)).clock = s.clock := rfl
    rw [hclock'] at hclock hripe
    exact ⟨hs', hclock, hready, by omega⟩

/-- Scheduling `n` events with a delay of one, and looking once they are due, makes `n` more live
ready entries, **whatever the depth**. -/
theorem liveReady_schedules_look (h : MatchesDiary s) (priority : Priority) (x : ω)
    (worker n : Nat) :
    let ms : List (Nat × QueueCall ω) :=
      List.replicate n (0, .schedule priority 1 x) ++ [(1, .look worker)]
    s.queue.liveReady + n ≤ (ms.foldl Session.after s).queue.liveReady := by
  intro ms
  obtain ⟨hs', hclock, hready, hripe⟩ := ripeAt_schedules h priority x n
  rw [show ms.foldl Session.after s = Session.after _ (1, .look worker) from List.foldl_append]
  generalize (List.replicate n (0, QueueCall.schedule priority 1 x)).foldl Session.after s = s' at *
  have hlook : ∀ now, (s'.queue.look worker now).2.liveReady =
    (s'.queue.promote now).liveReady := by
    intro now
    rw [look]
    split <;> rfl
  show s.queue.liveReady + n ≤ (s'.queue.look worker (s'.clock + 1)).2.liveReady
  rw [hlook, hs'.ordered.liveReady_promote, hclock]
  omega

end Beyond

/-! ### The depth -/

/-- **The depth of the queue** is exact, although dead entries are purged late and not every entry
asks for room. In every sound queue, `tryEnqueue` is refused with `queueFull q.liveReady` just if
`liveReady` has reached `maxDepth`, and the live entries stay the same; otherwise its own entry is
one live entry more. The same holds of `offer`. After any calls, the entries that were `admitted`
and neither called off nor taken are live, and at most `maxDepth`. Quits and deferred entries are
not held back: after any calls `liveReady` may become any number greater. -/
theorem admits_up_to_depth :
    (∀ q : Queue (Work ω), q.Sound → ∀ (priority : Priority) (x : Work ω),
      let own : QueueEntry (Work ω) := ⟨priority, q.nextNumber, x⟩
      ((q.tryEnqueue priority x).1 = .error (.queueFull q.liveReady) ↔
        q.maxDepth ≤ q.liveReady) ∧
      (q.maxDepth ≤ q.liveReady → (q.tryEnqueue priority x).2.live.Perm q.live) ∧
      (q.liveReady < q.maxDepth → (q.tryEnqueue priority x).1 = .ok q.nextNumber ∧
        own ∉ q.live ∧ (q.tryEnqueue priority x).2.live.Perm (own :: q.live)) ∧
      ∀ producer,
        (q.maxDepth ≤ q.liveReady → (q.offer producer priority x).1 = none ∧
          (q.offer producer priority x).2.live.Perm q.live) ∧
        (q.liveReady < q.maxDepth → (q.offer producer priority x).1 = some q.nextNumber ∧
          (q.offer producer priority x).2.live.Perm (own :: q.live))) ∧
    ∀ (maxDepth : Nat) (ms : List (Nat × QueueCall ω)),
      let s := Session.history maxDepth ms
      let admitted := (Session.new maxDepth).admitted ms
      s.queue.Sound ∧ s.queue.maxDepth = maxDepth ∧
      (∀ n ∈ admitted, (∃ e ∈ s.queue.live, e.number = n) ↔
        .calledOff n ∉ s.diary ∧ ∀ now e, .asked now (some e) ∈ s.diary → e.number ≠ n) ∧
      (s.queue.live.filter fun e => e.number ∈ admitted).length ≤ maxDepth ∧
      ∀ n, (Session.history maxDepth (ms ++ List.replicate n (0, .pushQuit 0))).queue.liveReady =
          s.queue.liveReady + n ∧
        ∀ priority x worker, s.queue.liveReady + n ≤ (Session.history maxDepth
          (ms ++ (List.replicate n (0, .schedule priority 1 x) ++
            [(1, .look worker)]))).queue.liveReady := by
  refine ⟨fun q hq priority x => ?_, fun maxDepth ms => ?_⟩
  · have hlive := hq.live_tryEnqueue priority x
    refine ⟨tryEnqueue_eq_error_iff priority x, fun hfull => ?_, fun hroom => ⟨?_, ?_, ?_⟩,
      fun producer => ⟨fun hfull => ⟨?_, ?_⟩, fun hroom => ⟨?_, ?_⟩⟩⟩
    · rwa [if_pos hfull] at hlive
    · rw [tryEnqueue_room priority x hroom]
    · intro hmem
      have hlt := hq.lt _ (mem_live.1 hmem).1
      exact Nat.lt_irrefl _ hlt
    · rwa [if_neg (Nat.not_le_of_lt hroom)] at hlive
    · rw [offer_full priority x hfull]
    · rw [live_offer]
      rwa [if_pos hfull] at hlive
    · rw [offer_room priority x hroom]
    · rw [live_offer]
      rwa [if_neg (Nat.not_le_of_lt hroom)] at hlive
  · intro s admitted
    have ht : MatchesDiary s := MatchesDiary.history maxDepth ms
    have h : Within s admitted := Within.history maxDepth ms
    have hdepth : s.queue.maxDepth = maxDepth := maxDepth_history maxDepth ms
    refine ⟨ht.sound, hdepth, fun n hn => h.left_iff ht hn, hdepth ▸ h.left, fun n => ⟨?_, ?_⟩⟩
    · rw [Session.history, List.foldl_append]
      exact liveReady_pushQuits ht n
    · intro priority x worker
      rw [Session.history, List.foldl_append]
      exact liveReady_schedules_look ht priority x worker n

/-- In a queue of depth two the first of two entries was called off, and a third one is deferred. -/
def halfDead : List (Nat × QueueCall Nat) :=
  [(0, .tryEnqueue .low 7), (0, .tryEnqueue .low 8), (1, .cancel 0), (0, .schedule .high 5 9)]

/-- As many entries are ready as the depth, but one of them is dead: there is room. -/
theorem admits_up_to_depth_halfDead :
    (Session.history 2 halfDead).queue.ready.length = 2 ∧
      ((Session.history 2 halfDead).queue.tryEnqueue .normal (.event 4)).1 = .ok 3 := by
  obtain ⟨hattempt, hhistory⟩ := admits_up_to_depth (ω := Nat)
  have hsound := (hhistory 2 halfDead).1
  exact ⟨rfl, ((hattempt _ hsound .normal (.event 4)).2.2.1 (by decide)).1⟩

end Queue

end TurnPool
