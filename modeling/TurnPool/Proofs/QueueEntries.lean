import Mathlib.Data.List.Nodup
import Mathlib.Data.List.Perm.Subperm
import Mathlib.Data.List.TakeDrop
import TurnPool.Proofs.Timetable
import TurnPool.Queue

/-!
# The entries of the event queue

Entries of the queue move about: deferred ones join the ready ones when they are ripe, dead ones are
purged from a full queue, skipped by whoever takes the next one, and dropped when they ripen. All of
this loses dead entries only. `Shed` says that of two states of a queue, and each operation is a
`Shed`, followed by at most one entry that is added or taken.

## Main results

* `shed_promote`, `shed_purge`, `shed_of_dequeue_none`, `dequeue_some`: what the operations do to
  the entries.
* `mem_ready_push`, `mem_deferred_push`: where an entry goes that is pushed.
* `instLawful`: **the event queue keeps the laws of timetables.**
* `Use.keepsMine`: what others do to the queue makes, calls off and loses no live entry of one user.
* `takesOut_of_dequeue`: what a worker takes was live, and everything else stays.
-/

namespace TurnPool

/-- An element of `l` on which `p` is false is still in `l.dropWhile p`. -/
theorem mem_dropWhile_of_not {α : Type} {p : α → Bool} {a : α} {l : List α} (ha : a ∈ l)
    (hp : p a = false) : a ∈ l.dropWhile p := by
  induction l with
  | nil => exact ha
  | cons b l ih =>
    rw [List.dropWhile_cons]
    split
    · rename_i hb
      refine ih ((List.mem_cons.1 ha).resolve_left ?_)
      rintro rfl
      exact nomatch hp.symm.trans hb
    · exact ha

namespace Queue

variable {α ω : Type}

/-! ### Losing dead entries -/

/-- The entries of a queue, ready or deferred. -/
def entries (q : Queue α) : List (QueueEntry α) := q.ready ++ q.deferred.map Deferred.entry

/-- `q'` is `q` less some entries that were called off. -/
structure Shed (q q' : Queue α) : Prop where
  /-- Nothing else is called off. -/
  cancelled : q'.cancelled = q.cancelled
  /-- Nothing is added. -/
  nextNumber : q'.nextNumber = q.nextNumber
  /-- What is there was there. -/
  subperm : q'.entries.Subperm q.entries
  /-- What was not called off is still there. -/
  mem : ∀ e ∈ q.entries, q.isLive e = true → e ∈ q'.entries

/-- Readying the deferred entries `ds` one by one leaves their entries and the ready ones of `q`, in
some order. -/
theorem ready_foldl_addReady (ds : List (Deferred α)) (q : Queue α) :
    (ds.foldl (fun q d => q.addReady d.entry) q).ready.Perm (ds.map Deferred.entry ++ q.ready) := by
  induction ds generalizing q with
  | nil => exact List.Perm.refl _
  | cons d ds ih =>
    rw [List.foldl_cons, List.map_cons, List.cons_append]
    refine (ih _).trans ?_
    refine ((insertBy_perm fun _ _ => rfl).append_left _).trans ?_
    exact List.perm_middle

/-- Readying the deferred entries `ds` one by one changes no field of `q` but `ready`. -/
theorem foldl_addReady (ds : List (Deferred α)) (q : Queue α) :
    ∃ ready, ds.foldl (fun q d => q.addReady d.entry) q = { q with ready } := by
  induction ds generalizing q with
  | nil => exact ⟨q.ready, rfl⟩
  | cons d ds ih =>
    obtain ⟨ready, h⟩ := ih (q.addReady d.entry)
    exact ⟨ready, by rw [List.foldl_cons, h]; rfl⟩

/-- `Queue.promote` loses no entry but dead ones: it is a `Shed`. -/
theorem shed_promote (now : Nat) (q : Queue α) : Shed q (q.promote now) := by
  obtain ⟨ripe, unripe, hspan⟩ : ∃ ripe unripe,
      q.deferred.span (fun d => decide (d.due ≤ now)) = (ripe, unripe) := ⟨_, _, rfl⟩
  have happ : q.deferred = ripe ++ unripe := by
    rw [List.span_eq_takeWhile_dropWhile] at hspan
    obtain ⟨rfl, rfl⟩ := Prod.mk.inj hspan
    exact (List.takeWhile_append_dropWhile).symm
  set live := ripe.filter fun d => q.isLive d.entry with hlive
  have hq : q.promote now =
      live.foldl (fun q d => q.addReady d.entry) { q with deferred := unripe } := by
    rw [promote, hspan]
  obtain ⟨ready, hready⟩ := foldl_addReady live { q with deferred := unripe }
  have hperm : (q.promote now).entries.Perm
      (q.ready ++ (live.map Deferred.entry ++ unripe.map Deferred.entry)) := by
    have h := ready_foldl_addReady live { q with deferred := unripe }
    rw [hready] at h
    rw [hq, hready, ← List.append_assoc]
    exact (h.trans List.perm_append_comm).append_right _
  refine ⟨by rw [hq, hready], by rw [hq, hready], ?_, ?_⟩
  · refine hperm.subperm.trans ?_
    rw [entries, happ, List.map_append]
    exact (((List.filter_sublist.map _).append_right _).append_left _).subperm
  · intro e he hl
    rw [entries, happ, List.map_append, List.mem_append, List.mem_append] at he
    rw [hperm.mem_iff, List.mem_append, List.mem_append]
    refine he.imp_right (Or.imp_left fun hr => ?_)
    obtain ⟨d, hd, rfl⟩ := List.mem_map.1 hr
    exact List.mem_map_of_mem (List.mem_filter.2 ⟨hd, hl⟩)

/-- A queue is a `Shed` of itself. -/
theorem Shed.refl (q : Queue α) : Shed q q :=
  ⟨rfl, rfl, List.Subperm.refl _, fun _ he _ => he⟩

/-- An entry is live just if its number is not in `cancelled`. -/
theorem isLive_iff {q : Queue α} {e : QueueEntry α} :
    q.isLive e = true ↔ e.number ∉ q.cancelled := by
  simp [isLive, isCancelled]

/-- Whether an entry is live depends on `cancelled` alone. -/
theorem isLive_congr {q q' : Queue α} (h : q'.cancelled = q.cancelled) (e : QueueEntry α) :
    q'.isLive e = q.isLive e := by
  simp only [isLive, isCancelled, h]

/-- `Shed` is transitive. -/
theorem Shed.trans {q q' q'' : Queue α} (h : Shed q q') (h' : Shed q' q'') : Shed q q'' where
  cancelled := h'.cancelled.trans h.cancelled
  nextNumber := h'.nextNumber.trans h.nextNumber
  subperm := h'.subperm.trans h.subperm
  mem e he hl := h'.mem e (h.mem e he hl) ((isLive_congr h.cancelled e).trans hl)

/-- If the list `ready` is a sublist of `q.ready` with all live entries of it, then putting it in
place of `q.ready` is a `Shed`. -/
theorem shed_ready {q : Queue α} {ready : List (QueueEntry α)} (hsub : ready.Sublist q.ready)
    (hmem : ∀ e ∈ q.ready, q.isLive e = true → e ∈ ready) : Shed q { q with ready } where
  cancelled := rfl
  nextNumber := rfl
  subperm := (hsub.append_right _).subperm
  mem e he hl := by
    rw [entries, List.mem_append] at he ⊢
    exact he.imp_left fun hr => hmem e hr hl

/-- `Queue.purge` looks at the ready entries only. -/
@[simp] theorem deferred_purge (q : Queue α) : q.purge.deferred = q.deferred := by
  rw [purge]
  split <;> rfl

/-- `Queue.purge` loses no entry but dead ones: it is a `Shed`. -/
theorem shed_purge (q : Queue α) : Shed q q.purge := by
  rw [purge]
  split
  · exact shed_ready List.filter_sublist fun e he hl => List.mem_filter.2 ⟨he, hl⟩
  · exact Shed.refl q

/-- Changing `producers` and `idle` is a `Shed`: it touches no entry. -/
theorem shed_waiters (q : Queue α) (producers idle : Waiters) :
    Shed q { q with producers, idle } :=
  ⟨rfl, rfl, List.Subperm.refl _, fun _ he _ => he⟩

/-- A live entry of `l` is still there when the dead ones at the head of `l` are dropped. -/
theorem mem_dropWhile_of_live {q : Queue α} {e : QueueEntry α} {l : List (QueueEntry α)}
    (he : e ∈ l) (hl : q.isLive e = true) : e ∈ l.dropWhile fun e => !q.isLive e :=
  mem_dropWhile_of_not he (by rw [hl]; rfl)

/-- A `Queue.dequeue` with the answer `none` is a `Shed`. -/
theorem shed_of_dequeue_none {now : Nat} {q q' : Queue α} {popped : Bool}
    (h : q.dequeue now = ((none, popped), q')) : Shed q q' := by
  dsimp only [dequeue] at h
  split at h
  · rename_i hdrop
    obtain ⟨-, rfl⟩ := Prod.mk.inj h
    refine (shed_promote now q).trans (shed_ready (List.nil_sublist _) fun e he hl => ?_)
    have := mem_dropWhile_of_live he hl
    rwa [hdrop] at this
  · simp at h

/-- A `Queue.dequeue` with the answer `e` is a `Shed` to some `q₁`, followed by taking `e`, which is
live, from the head of `q₁.ready`. -/
theorem dequeue_some {now : Nat} {q q' : Queue α} {e : QueueEntry α} {popped : Bool}
    (h : q.dequeue now = ((some e, popped), q')) :
    ∃ q₁, Shed q q₁ ∧ q₁.ready = e :: q'.ready ∧ q' = { q₁ with ready := q'.ready } ∧
      q.isLive e = true := by
  dsimp only [dequeue] at h
  split at h
  · simp at h
  · rename_i e₀ es hdrop
    simp only [Prod.mk.injEq, Option.some.injEq] at h
    obtain ⟨⟨rfl, -⟩, rfl⟩ := h
    refine ⟨{ q.promote now with ready := e₀ :: es }, ?_, rfl, rfl, ?_⟩
    · refine (shed_promote now q).trans (shed_ready ?_ fun e he hl => ?_)
      · rw [← hdrop]
        exact List.dropWhile_sublist _
      · rw [← hdrop]
        exact mem_dropWhile_of_live he hl
    · have hhead := List.head?_dropWhile_not (fun e => !(q.promote now).isLive e)
        (q.promote now).ready
      rw [hdrop] at hhead
      rw [← isLive_congr (shed_promote now q).cancelled]
      simpa using hhead

/-- The numbers of the entries are distinct, and they and those that were called off were given
out. -/
structure Sound (q : Queue α) : Prop where
  /-- The numbers were given out. -/
  lt : ∀ e ∈ q.entries, e.number < q.nextNumber
  /-- No two entries have one number. -/
  nodup : (q.entries.map QueueEntry.number).Nodup
  /-- Only what was given out is called off. -/
  cancelled_lt : ∀ n ∈ q.cancelled, n < q.nextNumber

/-- `Shed` keeps a queue sound. -/
theorem Sound.shed {q q' : Queue α} (hq : q.Sound) (h : Shed q q') : q'.Sound where
  lt e he := h.nextNumber ▸ hq.lt e (h.subperm.subset he)
  nodup := by
    obtain ⟨l, hperm, hsub⟩ := h.subperm
    exact (hperm.map _).nodup_iff.1 ((hsub.map _).nodup hq.nodup)
  cancelled_lt n hn := h.nextNumber ▸ hq.cancelled_lt n (h.cancelled ▸ hn)

/-- In a sound queue an entry with the number `q.nextNumber` is live: nobody has called that number
off. -/
theorem Sound.isLive_fresh {q : Queue α} (hq : q.Sound) {e : QueueEntry α}
    (he : e.number = q.nextNumber) : q.isLive e = true :=
  isLive_iff.2 fun hn => Nat.lt_irrefl _ (he ▸ hq.cancelled_lt _ hn)

/-! ### What is pushed and called off -/

section Push

variable {now : Nat} {priority : Priority} {delay : Nat} {x : α} {q : Queue α}

/-- After `Queue.push` the ready entries are those there were and, if `delay = 0`, the new one. -/
theorem mem_ready_push {e : QueueEntry α} :
    e ∈ (q.push now priority delay x).2.ready ↔
      (delay = 0 ∧ e = ⟨priority, q.nextNumber, x⟩) ∨ e ∈ q.ready := by
  rw [push]
  split
  · rename_i h0
    exact (mem_insertBy fun _ h => absurd h Bool.false_ne_true).trans (or_congr_left (by simp [h0]))
  · rename_i h0
    exact (or_iff_right fun hn => h0 hn.1).symm

/-- After `Queue.push` the deferred entries are those there were and, if `delay ≠ 0`, the new one,
which is due at `now + delay`. -/
theorem mem_deferred_push {d : Deferred α} :
    d ∈ (q.push now priority delay x).2.deferred ↔
      (delay ≠ 0 ∧ d = ⟨now + delay, ⟨priority, q.nextNumber, x⟩⟩) ∨ d ∈ q.deferred := by
  rw [push]
  split
  · rename_i h0
    exact (or_iff_right fun hn => hn.1 h0).symm
  · rename_i h0
    exact (mem_insertBy fun _ h => absurd h Bool.false_ne_true).trans (or_congr_left (by simp [h0]))

/-- `Queue.tryEnqueue` leaves the deferred entries as they are. -/
theorem deferred_tryEnqueue : (q.tryEnqueue priority x).2.deferred = q.deferred := by
  rw [tryEnqueue]
  split
  · exact deferred_purge q
  · exact deferred_purge q

end Push

/-- `Queue.push` adds one entry, with the number `q.nextNumber`, to `entries`. -/
theorem entries_push (now : Nat) (priority : Priority) (delay : Nat) (x : α) (q : Queue α) :
    (q.push now priority delay x).2.entries.Perm (⟨priority, q.nextNumber, x⟩ :: q.entries) := by
  rw [push]
  split
  · exact (insertBy_perm fun _ _ => rfl).append_right _
  · refine List.Perm.trans (List.Perm.append_left _ ?_) List.perm_middle
    exact (insertBy_perm fun _ _ => rfl).map Deferred.entry

/-- `Queue.push` calls nothing off. -/
@[simp] theorem cancelled_push (now : Nat) (priority : Priority) (delay : Nat) (x : α)
    (q : Queue α) : (q.push now priority delay x).2.cancelled = q.cancelled := by
  rw [push]
  split <;> rfl

/-- `Queue.push` keeps a queue sound. -/
theorem Sound.push {q : Queue α} (hq : q.Sound) (now : Nat) (priority : Priority) (delay : Nat)
    (x : α) : (q.push now priority delay x).2.Sound where
  lt e he := by
    rw [nextNumber_push]
    rcases List.mem_cons.1 ((entries_push now priority delay x q).mem_iff.1 he) with rfl | he
    · show q.nextNumber < q.nextNumber + 1
      omega
    · have hlt := hq.lt e he
      omega
  nodup := by
    rw [((entries_push now priority delay x q).map _).nodup_iff, List.map_cons, List.nodup_cons]
    refine ⟨fun hmem => ?_, hq.nodup⟩
    obtain ⟨e, he, hnum⟩ := List.mem_map.1 hmem
    exact absurd (hq.lt e he) (by simp only at hnum; omega)
  cancelled_lt n hn := by
    rw [cancelled_push] at hn
    rw [nextNumber_push]
    have hlt := hq.cancelled_lt n hn
    omega

/-- `Queue.cancel` leaves the ready entries as they are. -/
@[simp] theorem ready_cancel (n : Nat) (q : Queue α) : (q.cancel n).ready = q.ready := by
  rw [cancel]
  split <;> rfl

/-- `Queue.cancel` leaves the deferred entries as they are. -/
@[simp] theorem deferred_cancel (n : Nat) (q : Queue α) : (q.cancel n).deferred = q.deferred := by
  rw [cancel]
  split <;> rfl

/-- `Queue.cancel` takes no entry out. -/
theorem entries_cancel (n : Nat) (q : Queue α) : (q.cancel n).entries = q.entries := by
  rw [entries, ready_cancel, deferred_cancel, entries]

/-- `Queue.cancel` gives no number out. -/
@[simp] theorem nextNumber_cancel (n : Nat) (q : Queue α) :
    (q.cancel n).nextNumber = q.nextNumber := by
  rw [cancel]
  split <;> rfl

/-- After `q.cancel n` the numbers called off are `n` and those there were. -/
theorem mem_cancelled_cancel {n m : Nat} {q : Queue α} :
    m ∈ (q.cancel n).cancelled ↔ m = n ∨ m ∈ q.cancelled := by
  rw [cancel]
  split
  · rename_i h
    refine ⟨Or.inr, ?_⟩
    rintro (rfl | hm)
    · exact List.contains_iff_mem.1 h
    · exact hm
  · exact List.mem_cons

/-- After `q.cancel n` an entry is live just if it was and its number is not `n`. -/
theorem isLive_cancel (n : Nat) (q : Queue α) (e : QueueEntry α) :
    (q.cancel n).isLive e = (!decide (e.number = n) && q.isLive e) := by
  have h := @mem_cancelled_cancel α n e.number q
  simp only [isLive, isCancelled, List.contains_eq_mem, h]
  by_cases hn : e.number = n <;> simp [hn]

/-- `Queue.cancel` keeps a queue sound if the number was given out. -/
theorem Sound.cancel {q : Queue α} (hq : q.Sound) {n : Nat} (hn : n < q.nextNumber) :
    (q.cancel n).Sound where
  lt e he := by
    rw [entries_cancel] at he
    rw [nextNumber_cancel]
    exact hq.lt e he
  nodup := by
    rw [entries_cancel]
    exact hq.nodup
  cancelled_lt m hm := by
    rw [nextNumber_cancel]
    rcases mem_cancelled_cancel.1 hm with rfl | hm
    · exact hn
    · exact hq.cancelled_lt m hm

/-- An entry as a `Slip`, if it is an event and no quit. -/
def slip? (q : Queue (Work ω)) (e : QueueEntry (Work ω)) : Option (Slip ω) :=
  match e.work with
  | .event x => some ⟨e.number, x, q.isLive e⟩
  | .quit => none

/-- The events of a queue, as the slips of a timetable. -/
def slips (q : Queue (Work ω)) : List (Slip ω) := q.entries.filterMap q.slip?

/-- `e` makes the slip `s` just if it has the handle of `s` for its number, its work, and is live
just if `s` is. -/
theorem slip?_eq_some {q : Queue (Work ω)} {e : QueueEntry (Work ω)} {s : Slip ω} :
    q.slip? e = some s ↔
      e.number = s.handle ∧ e.work = .event s.work ∧ q.isLive e = s.live := by
  obtain ⟨h, x, l⟩ := s
  rw [slip?]
  cases hw : e.work with
  | event y =>
    simp only [Option.some.injEq, Slip.mk.injEq, Work.event.injEq]
  | quit => simp

/-- The slips of `q` are those that its entries make. -/
theorem mem_slips {q : Queue (Work ω)} {s : Slip ω} :
    s ∈ q.slips ↔
      ∃ e ∈ q.entries, e.number = s.handle ∧ e.work = .event s.work ∧ q.isLive e = s.live := by
  simp only [slips, List.mem_filterMap, slip?_eq_some]

/-- The handles of the slips that a list of entries makes are, in order, some of their numbers. -/
theorem handles_sublist (q : Queue (Work ω)) (l : List (QueueEntry (Work ω))) :
    ((l.filterMap q.slip?).map Slip.handle).Sublist (l.map QueueEntry.number) := by
  induction l with
  | nil => exact List.Sublist.slnil
  | cons e l ih =>
    rw [List.filterMap_cons]
    split
    · exact ih.cons _
    · rename_i s hs
      rw [List.map_cons, List.map_cons, (slip?_eq_some.1 hs).1]
      exact ih.cons_cons _

/-- A `Shed` brings no new slip. -/
theorem Shed.mem_of_mem_slips {q q' : Queue (Work ω)} (h : Shed q q') {s : Slip ω}
    (hs : s ∈ q'.slips) : s ∈ q.slips := by
  obtain ⟨e, he, hnum, hwork, hlive⟩ := mem_slips.1 hs
  rw [isLive_congr h.cancelled] at hlive
  exact mem_slips.2 ⟨e, h.subperm.subset he, hnum, hwork, hlive⟩

/-- A `Shed` keeps every live slip. -/
theorem Shed.mem_slips_of_live {q q' : Queue (Work ω)} (h : Shed q q') {s : Slip ω}
    (hl : s.live = true) (hs : s ∈ q.slips) : s ∈ q'.slips := by
  obtain ⟨e, he, hnum, hwork, hlive⟩ := mem_slips.1 hs
  refine mem_slips.2 ⟨e, h.mem e he (hlive.trans hl), hnum, hwork, ?_⟩
  rw [isLive_congr h.cancelled, hlive]

/-- After `Queue.push` the slips are those there were and, if an event was pushed, a live one with
the handle `q.nextNumber`. -/
theorem mem_slips_push {q : Queue (Work ω)} (hq : q.Sound) (now : Nat) (priority : Priority)
    (delay : Nat) (x : Work ω) {s : Slip ω} :
    s ∈ (q.push now priority delay x).2.slips ↔
      (s.handle = q.nextNumber ∧ x = .event s.work ∧ s.live = true) ∨ s ∈ q.slips := by
  have hfresh : q.isLive ⟨priority, q.nextNumber, x⟩ = true := hq.isLive_fresh rfl
  simp only [mem_slips, (entries_push now priority delay x q).mem_iff, List.mem_cons,
    isLive_congr (cancelled_push now priority delay x q)]
  constructor
  · rintro ⟨e, rfl | he, hnum, hwork, hlive⟩
    · exact Or.inl ⟨hnum.symm, hwork, hlive.symm.trans hfresh⟩
    · exact Or.inr ⟨e, he, hnum, hwork, hlive⟩
  · rintro (⟨hnum, hwork, hlive⟩ | ⟨e, he, hnum, hwork, hlive⟩)
    · exact ⟨_, Or.inl rfl, hnum.symm, hwork, hfresh.trans hlive.symm⟩
    · exact ⟨e, Or.inr he, hnum, hwork, hlive⟩

/-- After `q.cancel n` the slips are those there were, with the one of handle `n` called off. -/
theorem mem_slips_cancel {n : Nat} {q : Queue (Work ω)} {s : Slip ω} :
    s ∈ (q.cancel n).slips ↔ ∃ t ∈ q.slips, t.callOff n = s := by
  simp only [mem_slips, entries_cancel, isLive_cancel]
  constructor
  · rintro ⟨e, he, hnum, hwork, hlive⟩
    refine ⟨⟨s.handle, s.work, q.isLive e⟩, ⟨e, he, hnum, hwork, rfl⟩, ?_⟩
    obtain ⟨h, x, l⟩ := s
    by_cases hn : h = n <;> simp_all [Slip.callOff]
  · rintro ⟨⟨h, x, l⟩, ⟨e, he, hnum, hwork, hlive⟩, rfl⟩
    refine ⟨e, he, by simpa using hnum, by simpa using hwork, ?_⟩
    by_cases hn : h = n <;> simp_all [Slip.callOff]

/-- The event queue keeps the **laws of timetables**. -/
instance instLawful : LawfulTimetable (Queue (Work ω)) ω where
  slips := slips
  nextHandle := Queue.nextNumber
  Sound := Sound
  handle_lt hq hs := by
    obtain ⟨e, he, hnum, -⟩ := mem_slips.1 hs
    exact hnum ▸ hq.lt e he
  nodup hq := (handles_sublist _ _).nodup hq.nodup
  schedule_fst now priority delay x q := push_fst now priority delay (.event x) q
  nextHandle_schedule now priority delay x q := nextNumber_push now priority delay (.event x) q
  sound_schedule now priority delay x hq := hq.push now priority delay (.event x)
  mem_schedule now priority delay x s hq := by
    refine (mem_slips_push hq now priority delay (.event x)).trans (or_congr_left ?_)
    obtain ⟨h, y, l⟩ := s
    simp only [Work.event.injEq, Slip.mk.injEq]
    exact ⟨fun ⟨hh, hy, hl⟩ => ⟨hh, hy.symm, hl⟩, fun ⟨hh, hy, hl⟩ => ⟨hh, hy.symm, hl⟩⟩
  nextHandle_cancel := nextNumber_cancel
  sound_cancel hq hn := hq.cancel hn
  mem_cancel := mem_slips_cancel

/-! ### What others do to the queue -/

open LawfulTimetable

variable {mine : ω → Prop} {q q' : Queue (Work ω)}

/-- A `Shed` keeps the live slips of any one user, and brings none. -/
theorem Shed.keepsMine (h : Shed q q') : KeepsMine mine q q' where
  next_le := Nat.le_of_eq h.nextNumber.symm
  sound hq := Sound.shed hq h
  mem_of_mem _ _ _ hs := h.mem_of_mem_slips hs
  mem_of_live _ _ _ hl hs := h.mem_slips_of_live hl hs

/-- `Queue.push` of work that is not `mine` keeps the live slips that are, and brings none. -/
theorem keepsMine_push (now : Nat) (priority : Priority) (delay : Nat) {x : Work ω}
    (theirs : ∀ y, x = .event y → ¬ mine y) :
    KeepsMine mine q (q.push now priority delay x).2 where
  next_le := by
    show q.nextNumber ≤ (q.push now priority delay x).2.nextNumber
    rw [nextNumber_push]
    omega
  sound hq := Sound.push hq now priority delay x
  mem_of_mem hq s hm hs := by
    rcases (mem_slips_push hq now priority delay x).1 hs with ⟨-, hwork, -⟩ | hs
    · exact absurd hm (theirs _ hwork)
    · exact hs
  mem_of_live hq s _ _ hs := (mem_slips_push hq now priority delay x).2 (Or.inr hs)

/-- `Queue.tryEnqueue` of work that is not `mine` keeps the live slips that are, and brings none. -/
theorem keepsMine_tryEnqueue (priority : Priority) {x : Work ω}
    (theirs : ∀ y, x = .event y → ¬ mine y) : KeepsMine mine q (q.tryEnqueue priority x).2 := by
  rw [tryEnqueue]
  split
  · exact (shed_purge q).keepsMine
  · exact (shed_purge q).keepsMine.trans (keepsMine_push 0 priority 0 theirs)

/-- `Queue.offer` of work that is not `mine` keeps the live slips that are, and brings none. -/
theorem keepsMine_offer (producer : Nat) (priority : Priority) {x : Work ω}
    (theirs : ∀ y, x = .event y → ¬ mine y) :
    KeepsMine mine q (q.offer producer priority x).2 := by
  have h : KeepsMine mine q (q.tryEnqueue priority x).2 := keepsMine_tryEnqueue priority theirs
  rw [offer]
  split
  · rename_i number q' heq
    rw [heq] at h
    exact h.trans (shed_waiters q' _ q'.idle).keepsMine
  · rename_i e q' heq
    rw [heq] at h
    exact h.trans (shed_waiters q' _ q'.idle).keepsMine

/-- `q.cancel n` keeps the live slips that are `mine` if `n` was given out and is not the handle of
one of them. -/
theorem keepsMine_cancel {n : Nat} (given : n < q.nextNumber)
    (theirs : ∀ s ∈ q.slips, s.handle = n → ¬ mine s.work) : KeepsMine mine q (q.cancel n) where
  next_le := Nat.le_of_eq (nextNumber_cancel n q).symm
  sound hq := Sound.cancel hq given
  mem_of_mem _ s hm hs := by
    obtain ⟨t, ht, rfl⟩ := mem_slips_cancel.1 hs
    rw [Slip.work_callOff] at hm
    rwa [Slip.callOff_of_ne fun heq => theirs t ht heq hm]
  mem_of_live _ s hm _ hs :=
    mem_slips_cancel.2 ⟨s, hs, Slip.callOff_of_ne fun heq => theirs s hs heq hm⟩

/-- `Queue.look` loses no entry but dead ones: it is a `Shed`. -/
theorem shed_look (worker now : Nat) (q : Queue (Work ω)) : Shed q (q.look worker now).2 := by
  rw [look]
  split
  · exact (shed_promote now q).trans (shed_waiters _ (q.promote now).producers _)
  · exact (shed_promote now q).trans (shed_waiters _ (q.promote now).producers _)

/-- A `Queue.dequeue` with the answer `e` loses dead entries, by a `Shed` to some `q₁`, and then
`e`, which is live. -/
theorem entries_dequeue {now : Nat} {e : QueueEntry (Work ω)} {popped : Bool}
    (h : q.dequeue now = ((some e, popped), q')) :
    ∃ q₁, Shed q q₁ ∧ q₁.entries = e :: q'.entries ∧ q'.cancelled = q₁.cancelled ∧
      q'.nextNumber = q₁.nextNumber ∧ q.isLive e = true := by
  obtain ⟨q₁, hshed, hready, hq', hlive⟩ := dequeue_some h
  refine ⟨q₁, hshed, ?_, by rw [hq'], by rw [hq'], hlive⟩
  rw [entries, hready, hq']
  rfl

/-- A `Queue.dequeue` with an answer keeps a queue sound. -/
theorem sound_dequeue {now : Nat} {e : QueueEntry (Work ω)} {popped : Bool} (hq : q.Sound)
    (h : q.dequeue now = ((some e, popped), q')) : q'.Sound := by
  obtain ⟨q₁, hshed, hent, hcan, hnext, -⟩ := entries_dequeue h
  have hq₁ := Sound.shed hq hshed
  refine ⟨fun x hx => ?_, ?_, ?_⟩
  · rw [hnext]
    exact hq₁.lt x (hent ▸ List.mem_cons_of_mem _ hx)
  · have := hq₁.nodup
    rw [hent, List.map_cons, List.nodup_cons] at this
    exact this.2
  · rw [hcan, hnext]
    exact hq₁.cancelled_lt

/-- After a `Queue.dequeue` with the answer `e` every slip is an old one with another handle than
the number of `e`. -/
theorem mem_of_mem_dequeue {now : Nat} {e : QueueEntry (Work ω)} {popped : Bool}
    (h : q.dequeue now = ((some e, popped), q')) (hq : q.Sound) {s : Slip ω}
    (hs : s ∈ q'.slips) : s ∈ q.slips ∧ s.handle ≠ e.number := by
  obtain ⟨q₁, hshed, hent, hcan, -, -⟩ := entries_dequeue h
  obtain ⟨x, hx, hnum, hwork, hl⟩ := mem_slips.1 hs
  rw [isLive_congr hcan] at hl
  have hx₁ : x ∈ q₁.entries := hent ▸ List.mem_cons_of_mem _ hx
  refine ⟨hshed.mem_of_mem_slips (mem_slips.2 ⟨x, hx₁, hnum, hwork, hl⟩), fun heq => ?_⟩
  have hnodup := (hq.shed hshed).nodup
  rw [hent, List.map_cons, List.nodup_cons] at hnodup
  exact hnodup.1 (List.mem_map.2 ⟨x, hx, hnum.trans heq⟩)

/-- A `Queue.dequeue` with the answer `e` keeps every live slip but the one of `e`. -/
theorem mem_dequeue_of_live {now : Nat} {e : QueueEntry (Work ω)} {popped : Bool}
    (h : q.dequeue now = ((some e, popped), q')) {s : Slip ω} (hl : s.live = true)
    (hne : s.handle ≠ e.number) (hs : s ∈ q.slips) : s ∈ q'.slips := by
  obtain ⟨q₁, hshed, hent, hcan, -, -⟩ := entries_dequeue h
  obtain ⟨x, hx, hnum, hwork, hlive⟩ := mem_slips.1 (hshed.mem_slips_of_live hl hs)
  rw [hent, List.mem_cons] at hx
  rcases hx with rfl | hx
  · exact absurd hnum.symm hne
  · exact mem_slips.2 ⟨x, hx, hnum, hwork, (isLive_congr hcan x).trans hlive⟩

/-- A `Queue.dequeue` with the event `x` for an answer `TakesOut` the slip of `x`, which was
live. -/
theorem takesOut_of_dequeue {now : Nat} {e : QueueEntry (Work ω)} {popped : Bool} {x : ω}
    (h : q.dequeue now = ((some e, popped), q')) (hx : e.work = .event x) :
    TakesOut ⟨e.number, x, true⟩ q q' := by
  obtain ⟨q₁, hshed, hent, hcan, hnext, hlive⟩ := entries_dequeue h
  exact {
    next_eq := hnext.trans hshed.nextNumber
    sound := fun hq => sound_dequeue hq h
    there := mem_slips.2 ⟨e, hshed.subperm.subset (hent ▸ List.mem_cons_self), rfl, hx, hlive⟩
    mem_of_mem := fun hq _ ht => mem_of_mem_dequeue h hq ht
    mem_of_live := fun _ ht hl hne => mem_dequeue_of_live h hl hne ht }

/-- A `Queue.dequeue` with a quit for an answer keeps the live slips of any one user, and brings
none. -/
theorem keepsMine_of_quit {now : Nat} {e : QueueEntry (Work ω)} {popped : Bool}
    (h : q.dequeue now = ((some e, popped), q')) (hquit : e.work = .quit) :
    KeepsMine mine q q' := by
  obtain ⟨q₁, hshed, hent, -, hnext, -⟩ := entries_dequeue h
  refine ⟨Nat.le_of_eq (hnext.trans hshed.nextNumber).symm, fun hq => sound_dequeue hq h,
    fun hq s _ hs => (mem_of_mem_dequeue h hq hs).1, fun hq s _ hl hs => ?_⟩
  refine mem_dequeue_of_live h hl (fun heq => ?_) hs
  -- The request to leave is no event, so no event has its number.
  obtain ⟨x, hx, hnum, hwork, -⟩ := mem_slips.1 (hshed.mem_slips_of_live hl hs)
  have hnodup := (Sound.shed hq hshed).nodup
  have he₁ : e ∈ q₁.entries := hent ▸ List.mem_cons_self
  have := List.inj_on_of_nodup_map hnodup hx he₁ (hnum.trans heq)
  rw [this, hquit] at hwork
  cases hwork

/-- What others do to the queue: they add entries in one of the ways there are and call them off,
workers look at the queue and find nothing, or take the request to leave, and whoever waits is
roused. -/
inductive Use (mine : ω → Prop) : Queue (Work ω) → Queue (Work ω) → Prop
  /-- An entry is added, whatever the depth. -/
  | push {q : Queue (Work ω)} (now : Nat) (priority : Priority) (delay : Nat) {x : Work ω}
      (theirs : ∀ y, x = .event y → ¬ mine y) : Use mine q (q.push now priority delay x).2
  /-- An entry is added if there is room. -/
  | tryEnqueue {q : Queue (Work ω)} (priority : Priority) {x : Work ω}
      (theirs : ∀ y, x = .event y → ¬ mine y) : Use mine q (q.tryEnqueue priority x).2
  /-- A producer adds an entry, or goes to sleep. -/
  | offer {q : Queue (Work ω)} (producer : Nat) (priority : Priority) {x : Work ω}
      (theirs : ∀ y, x = .event y → ¬ mine y) : Use mine q (q.offer producer priority x).2
  /-- An entry is called off. -/
  | cancel {q : Queue (Work ω)} {n : Nat} (given : n < q.nextNumber)
      (theirs : ∀ s ∈ q.slips, s.handle = n → ¬ mine s.work) : Use mine q (q.cancel n)
  /-- A worker finds nothing to take. -/
  | idle {q q' : Queue (Work ω)} {now : Nat} {popped : Bool}
      (h : q.dequeue now = ((none, popped), q')) : Use mine q q'
  /-- A worker is asked to leave. -/
  | quit {q q' : Queue (Work ω)} {now : Nat} {popped : Bool} {e : QueueEntry (Work ω)}
      (h : q.dequeue now = ((some e, popped), q')) (hquit : e.work = .quit) : Use mine q q'
  /-- A worker looks for data. -/
  | look {q : Queue (Work ω)} (worker now : Nat) : Use mine q (q.look worker now).2
  /-- Somebody begins or ceases to wait, or is roused. -/
  | waiters {q : Queue (Work ω)} (producers idle : Waiters) :
      Use mine q { q with producers, idle }

/-- Whatever others do to the queue (`Use mine`) keeps the live slips that are `mine`, and brings
none. -/
theorem Use.keepsMine (h : Use mine q q') : KeepsMine mine q q' := by
  cases h with
  | push now priority delay theirs => exact keepsMine_push now priority delay theirs
  | tryEnqueue priority theirs => exact keepsMine_tryEnqueue priority theirs
  | offer producer priority theirs => exact keepsMine_offer producer priority theirs
  | cancel given theirs => exact keepsMine_cancel given theirs
  | idle h => exact (shed_of_dequeue_none h).keepsMine
  | quit h hquit => exact keepsMine_of_quit h hquit
  | look worker now => exact (shed_look worker now q).keepsMine
  | waiters producers idle => exact (shed_waiters q producers idle).keepsMine

end Queue

end TurnPool
