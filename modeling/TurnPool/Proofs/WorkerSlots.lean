import Mathlib.Order.Bounds.Basic
import TurnPool.Proofs.Watermarks

/-!
# The slots of the workers

A worker takes its slot when it is asked for, before there is a thread that could work, and its slot
is free again when it leaves or when the thread could not be created. The sizer does not know who
has which slot: it keeps the free ones and the least that was never handed out, and it trusts those
who ask it.

## Who asks for what

A `Roster` is a sizer with the slots of the live workers: of those whose thread is still to be
created, of those that work, and of those that are paused. A worker that does not work yet holds its
slot all the same. Nothing else is followed, and a move is allowed (`Roster.May`) to those who can
make it:

* a pool is started when it has no worker, and again only after the thread of its first worker
  could not be created;
* a thread is created, or cannot be, for a slot that was asked for;
* a worker pauses, or consumes a quit, that works;
* a worker resumes that is paused.

An event can be over at any time.

## Main results

* `Sizer.strictly`: the sizer with subtractions that are refused rather than cut off at zero.
* `Sizer.Seats`: the free slots and the slots of the live workers are, together, those that were
  ever handed out.
* `Roster.Sound.step`: what is kept by an allowed move.
* `Roster.run_counts`: answers depend on who is live and on the counters only.
* `worker_slots`: **no two live workers have the same slot**, and the least free one is handed out.
-/

namespace TurnPool

namespace Sizer

variable {s s' : Sizer} {a : Act} {live rest : List Nat} {n : Nat}

/-! ### Strict counting -/

/-- A subtraction that is refused if more is taken than there is. -/
def draw (m n : Nat) : Except Refusal Nat :=
  if n ≤ m then .ok (m - n) else .error .overdrawn

/-- If `n ≤ m`, then `draw m n` is `m - n`. -/
theorem draw_of_le {m n : Nat} (h : n ≤ m) : draw m n = .ok (m - n) := if_pos h

/-- `s.perform a` with **strict counting**: `total`, `paused` and the difference in `shrink` and
`retire` are taken with `draw`, which refuses to go below zero. Only `pendingQuits` is cut off at
zero, since a quit can be scheduled that nobody counted. -/
def strictly (s : Sizer) : Act → Except Refusal (Reply × Sizer)
  | .add => .ok (.slot (some s.addWorker.1), s.addWorker.2)
  | .fail slot => do
    let total ← draw s.total 1
    .ok (.done, { s with total, freeSlots := insertBy (· < ·) (· == ·) slot s.freeSlots })
  | .pause => do
    let s' := { s with paused := s.paused + 1 }
    let active ← draw s'.total s'.paused
    if active < s'.low ∧ s'.total < s'.max then
      .ok (.slot (some s'.addWorker.1), s'.addWorker.2)
    else .ok (.slot none, s')
  | .resume => do
    let paused ← draw s.paused 1
    .ok (.done, { s with paused })
  | .shrink => do
    let active ← draw s.total s.paused
    if 0 < s.pendingQuits ∨ active < s.high then .ok (.quits 0, s)
    else do
      let quits ← draw active s.low
      .ok (.quits quits, { s with pendingQuits := quits })
  | .retire slot => do
    let s' := { s with pendingQuits := s.pendingQuits - 1 }
    let active ← draw s'.total s'.paused
    if s'.low < active then do
      let total ← draw s'.total 1
      .ok (.leaves true, { s' with
        total, freeSlots := insertBy (· < ·) (· == ·) slot s'.freeSlots })
    else .ok (.leaves false, s')

/-- `s.total` and `s.paused` are large enough for `a`: whatever `a` takes from them is there. -/
def Covers (s : Sizer) : Act → Prop
  | .add => True
  | .fail _ => 1 ≤ s.total
  | .pause => s.paused + 1 ≤ s.total
  | .resume => 1 ≤ s.paused
  | .shrink | .retire _ => s.paused ≤ s.total

/-- Under `s.Covers a`, strict counting gives what `perform` gives, so **nothing is cut off** at
zero. -/
theorem strictly_eq_perform (hle : s.low ≤ s.high) (h : s.Covers a) :
    s.strictly a = s.perform a := by
  cases a with
  | add => rfl
  | fail slot =>
    rw [strictly, draw_of_le h]
    rfl
  | pause =>
    have hactive : ({ s with paused := s.paused + 1 } : Sizer).active = s.total - (s.paused + 1) :=
      rfl
    simp only [strictly, perform, enterPause, hactive,
      draw_of_le (show s.paused + 1 ≤ s.total from h)]
    simp only [bind, Except.bind]
    split <;> rfl
  | resume =>
    rw [strictly, draw_of_le h]
    rfl
  | shrink =>
    rw [strictly, perform, requestShrink?_of_le hle, requestShrink, active, draw_of_le h]
    simp only [bind, Except.bind, Except.map]
    split
    · rfl
    · rename_i hmany
      rw [draw_of_le (by omega)]
  | retire slot =>
    have hactive : ({ s with pendingQuits := s.pendingQuits - 1 } : Sizer).active =
      s.total - s.paused := rfl
    simp only [strictly, perform, tryRetire, hactive, draw_of_le (show s.paused ≤ s.total from h)]
    simp only [bind, Except.bind]
    split
    · rename_i hmore
      rw [draw_of_le (by omega)]
    · rfl

/-! ### Slots in use and free -/

/-- The **seats** of a pool: `live` and `s.freeSlots` together are the slots `0, …, s.nextSlot - 1`,
each once, `freeSlots` is ascending, and `s.total` is the number of live workers. -/
structure Seats (s : Sizer) (live : List Nat) : Prop where
  /-- The free slots are in order. -/
  ascending : s.freeSlots.Pairwise (· < ·)
  /-- They complement those of the live workers. -/
  slots : (live ++ s.freeSlots).Perm (List.range s.nextSlot)
  /-- The live workers are counted. -/
  total : s.total = live.length

/-- A new sizer has no live worker. -/
theorem seats_new (low high max : Nat) : (new low high max).Seats [] := ⟨.nil, .nil, rfl⟩

/-- No slot is live twice, or both live and free. -/
theorem Seats.nodup (h : s.Seats live) : (live ++ s.freeSlots).Nodup :=
  h.slots.nodup_iff.2 List.nodup_range

/-- The slots below `s.nextSlot` are the live ones and the free ones. -/
theorem Seats.lt_iff (h : s.Seats live) : n < s.nextSlot ↔ n ∈ live ∨ n ∈ s.freeSlots := by
  rw [← List.mem_range, ← h.slots.mem_iff, List.mem_append]

/-- `Seats` depends on `freeSlots`, `nextSlot` and `total` only, and not on the order of `live`. -/
theorem Seats.congr (h : s.Seats live) (hlive : live.Perm rest)
    (hfree : s'.freeSlots = s.freeSlots) (hnext : s'.nextSlot = s.nextSlot)
    (htotal : s'.total = s.total) : s'.Seats rest where
  ascending := hfree ▸ h.ascending
  slots := by
    rw [hfree, hnext]
    exact (hlive.symm.append_right _).trans h.slots
  total := by rw [htotal, h.total, hlive.length_eq]

/-- `s.addWorker` hands out **the least** slot that is not in `live`. -/
theorem Seats.isLeast (h : s.Seats live) : IsLeast {k | k ∉ live} s.addWorker.1 := by
  rw [addWorker]
  split
  · rename_i slot free hfree
    have hmem : slot ∈ s.freeSlots := hfree ▸ List.mem_cons_self
    refine ⟨fun hlive => ?_, fun k hk => ?_⟩
    · exact (List.nodup_append.1 h.nodup).2.2 slot hlive slot hmem rfl
    · by_cases hlt : k < s.nextSlot
      · have hkfree := (h.lt_iff.1 hlt).resolve_left hk
        have hsorted := h.ascending
        rw [hfree] at hkfree hsorted
        rcases List.mem_cons.1 hkfree with rfl | hrest
        · exact Nat.le_refl _
        · exact Nat.le_of_lt (List.rel_of_pairwise_cons hsorted hrest)
      · exact Nat.le_trans (Nat.le_of_lt (h.lt_iff.2 (.inr hmem))) (Nat.not_lt.1 hlt)
  · rename_i hfree
    refine ⟨fun hlive => Nat.lt_irrefl _ (h.lt_iff.2 (.inl hlive)), fun k hk => ?_⟩
    refine Nat.not_lt.1 fun hlt => ?_
    have hkfree := (h.lt_iff.1 hlt).resolve_left hk
    rw [hfree] at hkfree
    exact List.not_mem_nil hkfree

/-- After `addWorker` the slot handed out is **live**. -/
theorem Seats.addWorker (h : s.Seats live) : s.addWorker.2.Seats (s.addWorker.1 :: live) := by
  obtain ⟨hsorted, hslots, htotal⟩ := h
  rw [Sizer.addWorker]
  split
  · rename_i slot free hfree
    rw [hfree] at hsorted hslots
    exact ⟨hsorted.of_cons, List.perm_middle.symm.trans hslots, congrArg (· + 1) htotal⟩
  · rename_i hfree
    rw [hfree, List.append_nil] at hslots
    refine ⟨hfree ▸ .nil, ?_, congrArg (· + 1) htotal⟩
    change (s.nextSlot :: live ++ s.freeSlots).Perm (List.range (s.nextSlot + 1))
    rw [hfree, List.append_nil, List.range_succ]
    exact (hslots.cons _).trans (List.perm_append_singleton _ _).symm

/-- `insertBy (· < ·) (· == ·) n` keeps an ascending list of free slots ascending. -/
theorem pairwise_insertBy_lt {ms : List Nat} (h : ms.Pairwise (· < ·)) :
    (insertBy (· < ·) (· == ·) n ms).Pairwise (· < ·) := by
  refine pairwise_insertBy (fun m hm => of_decide_eq_true hm)
    (fun m k hm hlt => Nat.lt_trans (of_decide_eq_true hm) hlt) (fun m k hm hlt => ?_)
    (fun m hm hne => ?_) h
  · obtain rfl := eq_of_beq hm
    exact hlt
  · have hge := of_decide_eq_false hm
    have hne := ne_of_beq_false hne
    omega

/-- A worker **gives its slot back**: if `n` goes from `live` to `freeSlots` and `total` is one
less, then `Seats` holds of the rest. -/
theorem Seats.giveBack (h : s.Seats live) (hlive : live.Perm (n :: rest))
    (hfree : s'.freeSlots = insertBy (· < ·) (· == ·) n s.freeSlots)
      (hnext : s'.nextSlot = s.nextSlot)
    (htotal : s'.total = s.total - 1) : s'.Seats rest where
  ascending := hfree ▸ pairwise_insertBy_lt h.ascending
  slots := by
    have hnot : n ∉ s.freeSlots := fun hmem =>
      (List.nodup_append.1 h.nodup).2.2 n (hlive.mem_iff.2 List.mem_cons_self) n hmem rfl
    rw [hfree, hnext]
    exact ((insertBy_perm_of_not_mem hnot).append_left rest).trans
      (List.perm_middle.trans ((hlive.symm.append_right _).trans h.slots))
  total := by rw [htotal, h.total, hlive.length_eq, List.length_cons, Nat.add_sub_cancel]

/-! ### Counters without slots -/

/-- The counters of `s`, with `freeSlots` and `nextSlot` cleared. -/
def counts (s : Sizer) : Sizer := { s with freeSlots := [], nextSlot := 0 }

/-- `addWorker` adds one to `total` and leaves the other counters alone. -/
@[simp] theorem counts_addWorker (s : Sizer) :
    s.addWorker.2.counts = { s.counts with total := s.total + 1 } := by
  rw [addWorker]
  split <;> rfl

/-- `spawnFailed` right after `addWorker` brings the counters **back to what they were**. -/
theorem counts_spawnFailed_addWorker (s : Sizer) (slot : Nat) :
    (s.addWorker.2.spawnFailed slot).counts = s.counts := by
  change { s.addWorker.2.counts with total := s.addWorker.2.total - 1 } = s.counts
  rw [counts_addWorker, total_addWorker]
  rfl

/-- The slot that `addWorker` hands out does not depend on `paused`. -/
theorem addWorker_paused (s : Sizer) (paused : Nat) :
    ({ s with paused } : Sizer).addWorker.1 = s.addWorker.1 := by
  rw [addWorker, addWorker]
  cases s.freeSlots <;> rfl

/-- Two sizers with equal `counts` that would hand out the same slot **answer alike**, and their
`counts` stay equal. -/
theorem perform_counts (h : s.counts = s'.counts) (hslot : s.addWorker.1 = s'.addWorker.1) :
    (s.perform a).map (Prod.map id counts) = (s'.perform a).map (Prod.map id counts) := by
  obtain ⟨free, next, rfl⟩ : ∃ free next, s' = { s with freeSlots := free, nextSlot := next } := by
    refine ⟨s'.freeSlots, s'.nextSlot, ?_⟩
    rw [counts, counts, Sizer.mk.injEq] at h
    obtain ⟨hlow, hhigh, hmax, htotal, hpaused, hpending, -, -⟩ := h
    rw [hlow, hhigh, hmax, htotal, hpaused, hpending]
  cases a with
  | add =>
    simp only [perform, Except.map, Prod.map, id, hslot, counts_addWorker]
    rfl
  | fail slot => rfl
  | pause =>
    have hactive : ({ s with
        paused := s.paused + 1, freeSlots := free, nextSlot := next } : Sizer).active =
      ({ s with paused := s.paused + 1 } : Sizer).active := rfl
    have hslot' : ({ s with
        paused := s.paused + 1, freeSlots := free, nextSlot := next } : Sizer).addWorker.1 =
      ({ s with paused := s.paused + 1 } : Sizer).addWorker.1 :=
      (addWorker_paused _ _).trans (hslot.symm.trans (addWorker_paused s _).symm)
    simp only [perform, enterPause, hactive]
    split
    · simp only [Except.map, Prod.map, id, counts_addWorker, hslot']
      rfl
    · rfl
  | resume => rfl
  | shrink =>
    have hactive : ({ s with freeSlots := free, nextSlot := next } : Sizer).active = s.active := rfl
    simp only [perform, requestShrink?, requestShrink, hactive]
    split
    · rfl
    · split <;> rfl
  | retire slot =>
    have hactive : ({ s with
        pendingQuits := s.pendingQuits - 1, freeSlots := free, nextSlot := next } : Sizer).active =
      ({ s with pendingQuits := s.pendingQuits - 1 } : Sizer).active := rfl
    simp only [perform, tryRetire, hactive]
    split <;> rfl

/-- Two sizers with the same live slots hand out the same slot. -/
theorem Seats.addWorker_eq (h : s.Seats live) (h' : s'.Seats live) :
    s.addWorker.1 = s'.addWorker.1 :=
  h.isLeast.unique h'.isLeast

end Sizer

/-! ### Who asks -/

/-- A sizer with **the slots of the live workers**: those whose thread is to be created, those that
work and those that are paused. -/
structure Roster where
  /-- The counters. -/
  sizer : Sizer
  /-- The workers whose thread is still to be created. -/
  starting : List Nat
  /-- Those that work. -/
  working : List Nat
  /-- Those that are paused. -/
  away : List Nat
deriving DecidableEq, Repr

namespace Roster

/-- What can happen to the workers of a pool, each with the slot of the worker it happens to. -/
inductive WorkerMove where
  /-- The pool is started. -/
  | start
  /-- The thread for a slot runs. -/
  | created (slot : Nat)
  /-- The thread for a slot could not be created. -/
  | failed (slot : Nat)
  /-- The worker of a slot pauses. -/
  | pause (slot : Nat)
  /-- The worker of a slot resumes. -/
  | resume (slot : Nat)
  /-- An event is over. -/
  | shrink
  /-- The worker of a slot consumed a quit. -/
  | retire (slot : Nat)
deriving DecidableEq, Repr

/-- The `Sizer.Act` that the move asks for; `created` asks for none. -/
def WorkerMove.asked? : WorkerMove → Option Sizer.Act
  | .start => some .add
  | .created _ => none
  | .failed slot => some (.fail slot)
  | .pause _ => some .pause
  | .resume _ => some .resume
  | .shrink => some .shrink
  | .retire slot => some (.retire slot)

/-- The slot in the reply, if it is one. -/
def added : Sizer.Reply → List Nat
  | .slot (some n) => [n]
  | _ => []

/-- The sizer of `config` without workers. -/
def new (config : ThreadConfig) : Roster :=
  ⟨.new config.lowWatermark config.highWatermark config.maxThreads, [], [], []⟩

/-- The slots of all live workers: `starting`, `working` and `away`. -/
def live (r : Roster) : List Nat := r.starting ++ r.working ++ r.away

/-- **Who may make the move**: `start` only a pool without live workers, each other move a worker of
the list that it is about. -/
def May (r : Roster) : WorkerMove → Prop
  | .start => r.live = []
  | .created slot | .failed slot => slot ∈ r.starting
  | .pause slot | .retire slot => slot ∈ r.working
  | .resume slot => slot ∈ r.away
  | .shrink => True

/-- `May` is membership in a list, or emptiness of one. -/
instance (r : Roster) (m : WorkerMove) : Decidable (r.May m) :=
  match m with
  | .start => inferInstanceAs (Decidable (r.live = []))
  | .created slot | .failed slot => inferInstanceAs (Decidable (slot ∈ r.starting))
  | .pause slot | .retire slot => inferInstanceAs (Decidable (slot ∈ r.working))
  | .resume slot => inferInstanceAs (Decidable (slot ∈ r.away))
  | .shrink => inferInstanceAs (Decidable True)

/-- The three lists after the move, given the sizer's reply; the sizer itself is not touched. -/
def moved (r : Roster) (reply : Sizer.Reply) : WorkerMove → Roster
  | .start => { r with starting := added reply ++ r.starting }
  | .created slot =>
    { r with starting := r.starting.erase slot, working := slot :: r.working }
  | .failed slot => { r with starting := r.starting.erase slot }
  | .pause slot =>
    { r with
      starting := added reply ++ r.starting
      working := r.working.erase slot
      away := slot :: r.away }
  | .resume slot => { r with working := slot :: r.working, away := r.away.erase slot }
  | .shrink => r
  | .retire slot =>
    if reply = .leaves true then { r with working := r.working.erase slot } else r

/-- The reply and the sizer afterwards, and `.done` with the same sizer if nothing is asked. -/
def answer (r : Roster) (m : WorkerMove) : Except Sizer.Refusal (Sizer.Reply × Sizer) :=
  m.asked?.elim (.ok (.done, r.sizer)) r.sizer.perform

/-- **One move**: the sizer answers, and the lists are those of `moved`. -/
def step (r : Roster) (m : WorkerMove) : Except Sizer.Refusal (Sizer.Reply × Roster) :=
  (r.answer m).map fun (reply, s) => (reply, { r.moved reply m with sizer := s })

/-- **Moves one after the other**, with the replies; `none` if `May` forbids one of them or the
sizer refuses it. -/
def run (r : Roster) : List WorkerMove → Option (List Sizer.Reply × Roster)
  | [] => some ([], r)
  | m :: moves =>
    if r.May m then
      match r.step m with
      | .ok (reply, r') => (r'.run moves).map (Prod.map (reply :: ·) id)
      | .error _ => none
    else none

/-- The roster after the move if **no slot** had been asked for: a worker that pauses is counted as
paused, and everything else is unchanged. -/
def withoutGrowth (r : Roster) : WorkerMove → Roster
  | .pause slot =>
    { r with
      sizer := { r.sizer with paused := r.sizer.paused + 1 }
      working := r.working.erase slot
      away := slot :: r.away }
  | _ => r

/-! ### Who is counted -/

variable {r r' r₁ r₂ : Roster} {m : WorkerMove} {reply : Sizer.Reply} {s : Sizer} {n : Nat}

/-- The **invariant**: `0 < low < high ≤ max`, the live workers have their `Seats`, `paused` is the
number of those in `away`, and there are at most `max`. -/
structure Sound (r : Roster) : Prop where
  low_pos : 0 < r.sizer.low
  low_lt_high : r.sizer.low < r.sizer.high
  high_le_max : r.sizer.high ≤ r.sizer.max
  seats : r.sizer.Seats r.live
  paused : r.sizer.paused = r.away.length
  total_le : r.sizer.total ≤ r.sizer.max

/-- The live workers are those in the three lists. -/
theorem length_live (r : Roster) :
    r.live.length = r.starting.length + r.working.length + r.away.length := by
  rw [live, List.length_append, List.length_append]

/-- `paused` is at most `total`. -/
theorem Sound.paused_le (h : r.Sound) : r.sizer.paused ≤ r.sizer.total := by
  rw [h.paused, h.seats.total, length_live]
  omega

/-- A move that `May` allows is covered by the counters: the worker that makes it **is counted**. -/
theorem Sound.covers (h : r.Sound) (hmay : r.May m) : ∀ a ∈ m.asked?, r.sizer.Covers a := by
  have htotal := h.seats.total
  have hpaused := h.paused
  have hle := h.paused_le
  rw [length_live] at htotal
  rintro a ha
  cases m with
  | start =>
    cases ha
    exact trivial
  | created slot => cases ha
  | failed slot =>
    cases ha
    have hpos : 0 < r.starting.length := List.length_pos_of_mem hmay
    change 1 ≤ r.sizer.total
    omega
  | pause slot =>
    cases ha
    have hpos : 0 < r.working.length := List.length_pos_of_mem hmay
    change r.sizer.paused + 1 ≤ r.sizer.total
    omega
  | resume slot =>
    cases ha
    have hpos : 0 < r.away.length := List.length_pos_of_mem hmay
    change 1 ≤ r.sizer.paused
    omega
  | shrink | retire slot =>
    cases ha
    exact hle

/-- The sizer **never refuses**: `answer` is `.ok` for every move. -/
theorem Sound.exists_answer (h : r.Sound) (m : WorkerMove) :
    ∃ reply s, r.answer m = .ok (reply, s) := by
  cases m with
  | shrink =>
    have hle : r.sizer.low ≤ r.sizer.high := Nat.le_of_lt h.low_lt_high
    refine ⟨.quits r.sizer.requestShrink.1, r.sizer.requestShrink.2, ?_⟩
    change r.sizer.requestShrink?.map _ = _
    rw [Sizer.requestShrink?_of_le hle]
    rfl
  | _ => exact ⟨_, _, rfl⟩

/-! ### What is kept -/

/-- A starting worker can be put first among the live ones. -/
theorem perm_starting (h : n ∈ r.starting) :
    r.live.Perm (n :: { r with starting := r.starting.erase n }.live) :=
  ((List.perm_cons_erase h).append_right r.working).append_right r.away

/-- A working worker can be put first among the live ones. -/
theorem perm_working (h : n ∈ r.working) :
    r.live.Perm (n :: { r with working := r.working.erase n }.live) :=
  (((List.perm_cons_erase h).append_left r.starting).trans List.perm_middle).append_right r.away

/-- A paused worker can be put first among the live ones. -/
theorem perm_away (h : n ∈ r.away) :
    r.live.Perm (n :: { r with away := r.away.erase n }.live) :=
  ((List.perm_cons_erase h).append_left (r.starting ++ r.working)).trans List.perm_middle

/-- A slot that is added to `working` is one live slot more. -/
theorem perm_cons_working (r : Roster) (n : Nat) :
    ({ r with working := n :: r.working } : Roster).live.Perm (n :: r.live) :=
  List.perm_middle.append_right r.away

/-- A slot that is added to `away` is one live slot more. -/
theorem perm_cons_away (r : Roster) (n : Nat) :
    ({ r with away := n :: r.away } : Roster).live.Perm (n :: r.live) :=
  List.perm_middle

/-- The sizer `s` **fits the lists** of `r`: `Seats`, `paused` and the limit on `total`. -/
structure CountersFit (r : Roster) (s : Sizer) : Prop where
  seats : s.Seats r.live
  paused : s.paused = r.away.length
  total_le : s.total ≤ s.max

/-- A sound roster's own sizer fits its lists. -/
theorem Sound.countersFit (h : r.Sound) : r.CountersFit r.sizer := ⟨h.seats, h.paused, h.total_le⟩

/-- Below the limit, `addWorker` fits the roster in which **the slot handed out** is starting. -/
theorem CountersFit.addWorker (h : r.CountersFit s) (hlt : s.total < s.max) :
    { r with starting := s.addWorker.1 :: r.starting }.CountersFit s.addWorker.2 where
  seats := h.seats.addWorker
  paused := (Sizer.paused_addWorker _).trans h.paused
  total_le := by
    rw [Sizer.total_addWorker, (Sizer.SameLimits.addWorker s).max]
    exact hlt

/-- If `r'.live` is `r.live` without `n`, the sizer with `n` **given back** and one worker less fits
`r'`. -/
theorem CountersFit.giveBack (h : r.CountersFit s) (hlive : r.live.Perm (n :: r'.live))
    (haway : r'.away = r.away) (pendingQuits : Nat) :
    r'.CountersFit { s with
      total := s.total - 1
      freeSlots := insertBy (· < ·) (· == ·) n s.freeSlots
      pendingQuits } where
  seats := h.seats.giveBack hlive rfl rfl rfl
  paused := haway ▸ h.paused
  total_le := Nat.le_trans (Nat.sub_le _ _) h.total_le

/-- A worker that pauses stays among the live ones. -/
theorem perm_withoutGrowth (h : n ∈ r.working) :
    r.live.Perm (r.withoutGrowth (.pause n)).live :=
  (perm_working h).trans (perm_cons_away { r with working := r.working.erase n } n).symm

/-- The sizer with one more paused fits the roster in which `n` has gone from `working` to
`away`. -/
theorem Sound.countersFit_pause (h : r.Sound) (hmay : n ∈ r.working) :
    (r.withoutGrowth (.pause n)).CountersFit (r.withoutGrowth (.pause n)).sizer where
  seats := h.seats.congr (perm_withoutGrowth hmay) rfl rfl rfl
  paused := congrArg (· + 1) h.paused
  total_le := h.total_le

/-- What an answer **comes to**: the limits are the same, the sizer fits the lists after the move,
and a slot in the reply is the least one that is not live. -/
structure AnswerFits (r : Roster) (m : WorkerMove) (reply : Sizer.Reply) (s : Sizer) : Prop where
  limits : r.sizer.SameLimits s
  countersFit : (r.moved reply m).CountersFit s
  least : ∀ n ∈ added reply, IsLeast {k | k ∉ r.live} n

/-- The reply to `start` in a pool without workers fits. -/
theorem Sound.answerFits_start (h : r.Sound) (hlive : r.live = []) :
    r.AnswerFits .start (.slot (some r.sizer.addWorker.1)) r.sizer.addWorker.2 where
  limits := .addWorker r.sizer
  countersFit := by
    have htotal : r.sizer.total = 0 := h.seats.total.trans (congrArg List.length hlive)
    have hpos := h.low_pos
    have hlt := h.low_lt_high
    have hmax := h.high_le_max
    exact h.countersFit.addWorker (by omega)
  least k hk := by
    rw [List.mem_singleton.1 hk]
    exact h.seats.isLeast

/-- The reply to `pause` fits, whether it hands out a slot or not. -/
theorem Sound.answerFits_pause (h : r.Sound) (hmay : n ∈ r.working) :
    r.AnswerFits (.pause n) (.slot r.sizer.enterPause.1) r.sizer.enterPause.2 := by
  have hpaused := h.countersFit_pause hmay
  have hlimits := (Sizer.counterStep_enterPause r.sizer).1
  rw [Sizer.enterPause] at hlimits ⊢
  split
  · rename_i hgrow
    rw [if_pos hgrow] at hlimits
    have hadded := hpaused.addWorker hgrow.2
    refine ⟨hlimits, ⟨hadded.seats, hadded.paused, hadded.total_le⟩, fun k hk => ?_⟩
    rw [List.mem_singleton.1 hk]
    have hleast := hpaused.seats.isLeast
    simp only [← (perm_withoutGrowth hmay).mem_iff] at hleast
    exact hleast
  · exact ⟨⟨rfl, rfl, rfl⟩, ⟨hpaused.seats, hpaused.paused, hpaused.total_le⟩,
      List.forall_mem_nil _⟩

/-- The reply to `retire` fits, whether the worker leaves or stays. -/
theorem Sound.answerFits_retire (h : r.Sound) (hmay : n ∈ r.working) :
    r.AnswerFits (.retire n) (.leaves (r.sizer.tryRetire n).1) (r.sizer.tryRetire n).2 := by
  rw [Sizer.tryRetire]
  split
  · exact ⟨⟨rfl, rfl, rfl⟩, h.countersFit.giveBack (perm_working hmay) rfl _, List.forall_mem_nil _⟩
  · exact ⟨⟨rfl, rfl, rfl⟩, ⟨h.seats.congr (.refl _) rfl rfl rfl, h.paused, h.total_le⟩,
      List.forall_mem_nil _⟩

/-- **Every answer** to a move that `May` allows fits. -/
theorem Sound.answerFits (h : r.Sound) (hmay : r.May m) (hanswer : r.answer m = .ok (reply, s)) :
    r.AnswerFits m reply s := by
  cases m with
  | start =>
    cases hanswer
    exact h.answerFits_start hmay
  | created n =>
    cases hanswer
    have hperm : r.live.Perm (r.moved .done (.created n)).live := (perm_starting hmay).trans
      (perm_cons_working { r with starting := r.starting.erase n } n).symm
    exact ⟨.refl _, ⟨h.seats.congr hperm rfl rfl rfl, h.paused, h.total_le⟩, List.forall_mem_nil _⟩
  | failed n =>
    cases hanswer
    exact ⟨⟨rfl, rfl, rfl⟩, h.countersFit.giveBack (perm_starting hmay) rfl _,
      List.forall_mem_nil _⟩
  | pause n =>
    cases hanswer
    exact h.answerFits_pause hmay
  | resume n =>
    cases hanswer
    have hperm : r.live.Perm (r.moved .done (.resume n)).live := (perm_away hmay).trans
      (perm_cons_working { r with away := r.away.erase n } n).symm
    refine ⟨⟨rfl, rfl, rfl⟩, ⟨h.seats.congr hperm rfl rfl rfl, ?_, h.total_le⟩,
      List.forall_mem_nil _⟩
    change r.sizer.paused - 1 = (r.away.erase n).length
    rw [h.paused, List.length_erase_of_mem hmay]
  | shrink =>
    have hle : r.sizer.low ≤ r.sizer.high := Nat.le_of_lt h.low_lt_high
    change r.sizer.requestShrink?.map _ = _ at hanswer
    rw [Sizer.requestShrink?_of_le hle] at hanswer
    obtain ⟨pendingQuits, hpending⟩ := Sizer.requestShrink_snd r.sizer
    generalize r.sizer.requestShrink = x at hanswer hpending
    obtain ⟨quits, s'⟩ := x
    obtain rfl : s' = { r.sizer with pendingQuits } := hpending
    cases hanswer
    exact ⟨⟨rfl, rfl, rfl⟩, ⟨h.seats.congr (.refl _) rfl rfl rfl, h.paused, h.total_le⟩,
      List.forall_mem_nil _⟩
  | retire n =>
    cases hanswer
    exact h.answerFits_retire hmay

/-- **One allowed move** of a sound roster gives an answer, keeps `Sound` and the limits, and a slot
handed out is the least one that is not live. -/
theorem Sound.step (h : r.Sound) (hmay : r.May m) :
    ∃ reply r', r.step m = .ok (reply, r') ∧ r'.Sound ∧ r.sizer.SameLimits r'.sizer ∧
      ∀ n ∈ added reply, IsLeast {k | k ∉ r.live} n := by
  obtain ⟨reply, s, hanswer⟩ := h.exists_answer m
  obtain ⟨hsame, hfits, hleast⟩ := h.answerFits hmay hanswer
  refine ⟨reply, { r.moved reply m with sizer := s }, by rw [Roster.step, hanswer]; rfl, ?_, hsame,
    hleast⟩
  exact {
    low_pos := hsame.low ▸ h.low_pos
    low_lt_high := hsame.low ▸ hsame.high ▸ h.low_lt_high
    high_le_max := hsame.high ▸ hsame.max ▸ h.high_le_max
    seats := hfits.seats
    paused := hfits.paused
    total_le := hfits.total_le }

/-- `Sound.step` for the result that `step` is known to have. -/
theorem Sound.of_step (h : r.Sound) (hmay : r.May m) (hstep : r.step m = .ok (reply, r')) :
    r'.Sound ∧ r.sizer.SameLimits r'.sizer ∧ ∀ n ∈ added reply, IsLeast {k | k ∉ r.live} n := by
  obtain ⟨reply', r'', hstep', hrest⟩ := h.step hmay
  rw [hstep] at hstep'
  obtain ⟨rfl, rfl⟩ := Prod.mk.inj (Except.ok.inj hstep')
  exact hrest

/-- `Sound` and the limits are kept over **a whole run**. -/
theorem Sound.run (h : r.Sound) {moves : List WorkerMove} {replies : List Sizer.Reply}
    (hrun : r.run moves = some (replies, r')) : r'.Sound ∧ r.sizer.SameLimits r'.sizer := by
  induction moves generalizing r replies with
  | nil =>
    cases hrun
    exact ⟨h, .refl _⟩
  | cons m moves ih =>
    rw [Roster.run] at hrun
    split at hrun
    · rename_i hmay
      obtain ⟨reply, r₁, hstep, hr₁, hsame, -⟩ := h.step hmay
      rw [hstep] at hrun
      obtain ⟨⟨replies', r₂⟩, hrest, heq⟩ := Option.map_eq_some_iff.1 hrun
      obtain ⟨-, rfl⟩ := Prod.mk.inj heq
      exact ⟨(ih hr₁ hrest).1, hsame.trans (ih hr₁ hrest).2⟩
    · cases hrun

/-! ### Slots that nobody could take -/

/-- The roster with the free slots and `nextSlot` cleared. -/
def counts (r : Roster) : Roster := { r with sizer := r.sizer.counts }

/-- Whether a move is allowed does not depend on the sizer. -/
theorem may_counts (r : Roster) (m : WorkerMove) : r.counts.May m ↔ r.May m := by
  cases m <;> exact Iff.rfl

/-- `counts` commutes with `moved`. -/
theorem counts_moved (r : Roster) (reply : Sizer.Reply) (m : WorkerMove) (s : Sizer) :
    counts { r.moved reply m with sizer := s } =
      { r.counts.moved reply m with sizer := s.counts } := by
  cases m with
  | retire slot =>
    rw [moved, moved]
    split <;> rfl
  | _ => rfl

/-- **One step** from two sound rosters with equal `counts` gives equal replies and equal
`counts`. -/
theorem step_counts (h : r.Sound) (h' : r'.Sound) (heq : r.counts = r'.counts) :
    (r.step m).map (Prod.map id counts) = (r'.step m).map (Prod.map id counts) := by
  obtain ⟨hs, hstarting, hworking, haway⟩ := Roster.mk.inj heq
  have hlive : r.live = r'.live := by rw [live, live, hstarting, hworking, haway]
  have hslot : r.sizer.addWorker.1 = r'.sizer.addWorker.1 :=
    h.seats.addWorker_eq (hlive ▸ h'.seats)
  have hanswer : (r.answer m).map (Prod.map id Sizer.counts) =
      (r'.answer m).map (Prod.map id Sizer.counts) := by
    rw [answer, answer]
    cases m.asked? with
    | none => exact congrArg (fun s => Except.ok (Sizer.Reply.done, s)) hs
    | some a => exact Sizer.perform_counts hs hslot
  obtain ⟨reply, s, hr⟩ := h.exists_answer m
  obtain ⟨reply', s', hr'⟩ := h'.exists_answer m
  rw [hr, hr'] at hanswer
  obtain ⟨rfl, hcounts⟩ := Prod.mk.inj (Except.ok.inj hanswer)
  rw [step, step, hr, hr']
  change Except.ok (reply, counts { r.moved reply m with sizer := s }) =
    Except.ok (reply, counts { r'.moved reply m with sizer := s' })
  rw [counts_moved, counts_moved, heq, show s.counts = s'.counts from hcounts]

/-- **A run** from two sound rosters with equal `counts` gives equal replies and equal `counts`. -/
theorem run_counts (h : r.Sound) (h' : r'.Sound) (heq : r.counts = r'.counts)
    (moves : List WorkerMove) :
    (r.run moves).map (Prod.map id counts) = (r'.run moves).map (Prod.map id counts) := by
  induction moves generalizing r r' with
  | nil => exact congrArg (fun x => some ([], x)) heq
  | cons m moves ih =>
    have hmay : r.May m ↔ r'.May m := by rw [← may_counts, ← may_counts r', heq]
    rw [run, run]
    by_cases hr : r.May m
    · rw [if_pos hr, if_pos (hmay.1 hr)]
      obtain ⟨reply, r₁, hstep, hr₁, -⟩ := h.step hr
      obtain ⟨reply', r₁', hstep', hr₁', -⟩ := h'.step (hmay.1 hr)
      have hsame := step_counts (m := m) h h' heq
      rw [hstep, hstep'] at hsame ⊢
      obtain ⟨rfl, hcounts⟩ := Prod.mk.inj (Except.ok.inj hsame)
      have hrest := congrArg (Option.map (Prod.map (reply :: ·) id)) (ih hr₁ hr₁' hcounts)
      rw [Option.map_map, Option.map_map] at hrest ⊢
      exact hrest
    · rw [if_neg hr, if_neg fun hr' => hr (hmay.2 hr')]

/-- The roster in which no slot was asked for is sound too. -/
theorem Sound.withoutGrowth (h : r.Sound) (hmay : r.May m) : (r.withoutGrowth m).Sound := by
  cases m with
  | pause slot =>
    have hfits := h.countersFit_pause hmay
    exact ⟨h.low_pos, h.low_lt_high, h.high_le_max, hfits.seats, hfits.paused, hfits.total_le⟩
  | _ => exact h

/-- The answer behind a step that went well. -/
theorem exists_answer_of_step (hstep : r.step m = .ok (reply, r')) :
    ∃ s, r.answer m = .ok (reply, s) ∧ r' = { r.moved reply m with sizer := s } := by
  rw [step] at hstep
  cases hanswer : r.answer m with
  | error e =>
    rw [hanswer] at hstep
    cases hstep
  | ok answered =>
    obtain ⟨reply', s⟩ := answered
    rw [hanswer] at hstep
    cases hstep
    exact ⟨s, rfl, rfl⟩

/-- A slot that a move handed out may be **given back at once** with `failed`, and then the `counts`
are those of `r.withoutGrowth m`. -/
theorem counts_failed (hstep : r.step m = .ok (.slot (some n), r₁)) :
    r₁.May (.failed n) ∧ ∃ r₂, r₁.step (.failed n) = .ok (.done, r₂) ∧
      r₂.counts = (r.withoutGrowth m).counts := by
  obtain ⟨s, hanswer, rfl⟩ := exists_answer_of_step hstep
  cases m with
  | start =>
    cases hanswer
    refine ⟨List.mem_cons_self, _, rfl, ?_⟩
    change Roster.mk (r.sizer.addWorker.2.spawnFailed _).counts (List.erase (_ :: r.starting) _) _ _
      = _
    rw [Sizer.counts_spawnFailed_addWorker, List.erase_cons_head]
    rfl
  | pause slot =>
    change Except.ok (Sizer.Reply.slot r.sizer.enterPause.1, r.sizer.enterPause.2) = _ at hanswer
    rw [Sizer.enterPause] at hanswer
    split at hanswer
    · cases hanswer
      refine ⟨List.mem_cons_self, _, rfl, ?_⟩
      change Roster.mk (Sizer.spawnFailed _ (Sizer.addWorker _).2).counts
        (List.erase (_ :: r.starting) _) _ _ = _
      rw [Sizer.counts_spawnFailed_addWorker, List.erase_cons_head]
      rfl
    · cases hanswer
  | shrink =>
    change r.sizer.requestShrink?.map _ = _ at hanswer
    rw [Sizer.requestShrink?] at hanswer
    split at hanswer
    · cases hanswer
    · cases hanswer
  | _ => cases hanswer

end Roster

/-! ### The pool -/

open Roster in
/-- **The slots of the workers**, in a pool with a valid configuration, after any run of moves that
`May` allows:

* the `live` workers have distinct slots, `total` and `paused` count them, and there are at most
  `maxThreads`;
* every move that `May` allows gets a reply, and a slot in it is the least one that is not live;
* no subtraction goes below zero: `strictly` gives what `perform` gives, and `active` and `paused`
  add up to `total`;
* a slot that is handed out and given back at once with `failed` leaves the same live workers, and
  the same replies to every later run, as if no slot had been asked for. -/
theorem worker_slots {config : ThreadConfig} (h : config.validate = .ok ())
    {moves : List Roster.WorkerMove} {replies : List Sizer.Reply} {r : Roster}
    (hrun : (Roster.new config).run moves = some (replies, r)) :
    (r.live.Nodup ∧ r.sizer.total = r.live.length ∧ r.sizer.paused = r.away.length ∧
      r.sizer.paused ≤ r.sizer.total ∧ r.sizer.total ≤ config.maxThreads) ∧
    (∀ m, r.May m → ∃ reply r', r.step m = .ok (reply, r') ∧
      ∀ n ∈ added reply, IsLeast {k | k ∉ r.live} n) ∧
    (r.sizer.active + r.sizer.paused = r.sizer.total ∧
      ∀ m, r.May m → ∀ a ∈ m.asked?, r.sizer.strictly a = r.sizer.perform a) ∧
    (∀ m n r₁, r.May m → r.step m = .ok (.slot (some n), r₁) →
      r₁.May (.failed n) ∧ ∃ r₂, r₁.step (.failed n) = .ok (.done, r₂) ∧
        r₂.live = (r.withoutGrowth m).live ∧
        r₂.sizer.total = (r.withoutGrowth m).sizer.total ∧
        ∀ later : List Roster.WorkerMove, (r₂.run later).map (Prod.map id counts) =
          ((r.withoutGrowth m).run later).map (Prod.map id counts)) := by
  obtain ⟨hlow, hlt, hmax⟩ := Pool.watermarks_of_validate h
  have hnew : (Roster.new config).Sound :=
    ⟨hlow, hlt, hmax, Sizer.seats_new _ _ _, rfl, Nat.zero_le _⟩
  obtain ⟨hr, hsame⟩ := hnew.run hrun
  have hlimit : r.sizer.total ≤ config.maxThreads :=
    Nat.le_trans hr.total_le (Nat.le_of_eq hsame.max)
  refine ⟨⟨?_, hr.seats.total, hr.paused, hr.paused_le, hlimit⟩, fun m hmay => ?_,
    ⟨Nat.sub_add_cancel hr.paused_le, fun m hmay a ha => ?_⟩, fun m n r₁ hmay hstep => ?_⟩
  · exact (List.nodup_append.1 hr.seats.nodup).1
  · obtain ⟨reply, r', hstep, -, -, hleast⟩ := hr.step hmay
    exact ⟨reply, r', hstep, hleast⟩
  · exact Sizer.strictly_eq_perform (Nat.le_of_lt hr.low_lt_high) (hr.covers hmay a ha)
  · obtain ⟨hmay₁, r₂, hstep₂, hcounts⟩ := counts_failed hstep
    have hr₁ : r₁.Sound := (hr.of_step hmay hstep).1
    have hr₂ : r₂.Sound := (hr₁.of_step hmay₁ hstep₂).1
    have hwithout := hr.withoutGrowth hmay
    obtain ⟨hsizer, hstarting, hworking, haway⟩ := Roster.mk.inj hcounts
    have hlive : r₂.live = (r.withoutGrowth m).live := by
      rw [live, live, hstarting, hworking, haway]
    refine ⟨hmay₁, r₂, hstep₂, hlive, ?_, fun later => run_counts hr₂ hwithout hcounts later⟩
    rw [hr₂.seats.total, hwithout.seats.total, hlive]

/-- The first worker pauses, which brings a second one, resumes and leaves. -/
def Roster.relay : List Roster.WorkerMove :=
  [.start, .created 0, .pause 0, .created 1, .resume 0, .retire 0]

/-- The roster after `relay`: slot 0 is free, and slot 1 works. -/
def Roster.relayed : Roster :=
  ⟨⟨1, 2, 4, 1, 0, 0, [0], 2⟩, [], [1], []⟩

/-- When slot 1 pauses in `relayed`, slot 0 is handed out again, and it is the least one free. -/
theorem worker_slots_relayed :
    (∃ r', Roster.relayed.step (.pause 1) = .ok (.slot (some 0), r')) ∧
      IsLeast {k | k ∉ Roster.relayed.live} 0 := by
  have hrun : (Roster.new Pool.sparse.config).run Roster.relay =
      some ([.slot (some 0), .done, .slot (some 1), .done, .done, .leaves true], Roster.relayed) :=
    rfl
  obtain ⟨reply, r', hstep, hleast⟩ := (worker_slots rfl hrun).2.1 (.pause 1) (by decide)
  have hreply : reply = .slot (some 0) := congrArg Prod.fst (Except.ok.inj hstep).symm
  rw [hreply] at hstep hleast
  exact ⟨⟨r', hstep⟩, hleast 0 (List.mem_singleton.2 rfl)⟩

end TurnPool
