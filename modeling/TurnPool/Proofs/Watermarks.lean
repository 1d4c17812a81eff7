import TurnPool.Proofs.PauseHistory

/-!
# The watermarks of the pool

A pool begins with one worker, which may be fewer than its low watermark asks for, and workers are
added by pauses only. Quits are counted when an event is over and consumed much later, when other
workers may have paused or resumed. The watermarks hold all the same, in whatever order the counters
are asked for one thing after the other.

## What is asked of the counters

The events of a `Floor` are followed, in any order. Each of them asks the counters for one thing or
for nothing (`Floor.asked?`): the second half of a pause of a worker, the first half of its end, the
end of an event, and a quit that is consumed. The thread of a worker that the pool adds is taken to
be created; one that could not be created would be one more thing to ask (`FloorEvent.spawnFails`).

## Main results

* `Sizer.CounterStep`: the four things that can come of what is asked.
* `Sizer.Fit.counterStep`, `Sizer.Staffed.counterStep`, `Sizer.CounterStep.active_le`: what each
  of them keeps.
* `Floor.Running.counterStep`: whatever happens to a pool that was started is a `Sizer.CounterStep`.
* `Floor.Running.active_batch`: as quits are consumed, the active workers come down to the low
  watermark.
* `watermark_law`: **the watermarks hold**, from the start of a pool on.
-/

namespace TurnPool

namespace Sizer

variable {s s' : Sizer} {reply : Reply} {a : Act}

/-! ### What comes of what is asked -/

/-- The watermarks and the maximum are the same. -/
structure SameLimits (s s' : Sizer) : Prop where
  low : s'.low = s.low
  high : s'.high = s.high
  max : s'.max = s.max

/-- What can come of what is asked of the counters of a running pool: as many workers and no fewer
active; a worker more, below the maximum; one active worker fewer by a pause, which leaves the low
watermark or finds no room for another; or one worker fewer by a quit, above the low watermark. -/
inductive CounterStep (s s' : Sizer) : Prop where
  /-- There are as many workers as before, and no fewer are active. -/
  | kept (total : s'.total = s.total) (active : s.active ≤ s'.active)
  /-- A worker has paused, and one was added in its place. -/
  | grown (room : s.total < s.max) (total : s'.total = s.total + 1) (active : s'.active = s.active)
  /-- A worker has paused, and none was added: enough are active, or there may be no more. -/
  | away (enough : s.low ≤ s.active - 1 ∨ s.max ≤ s.total) (total : s'.total = s.total)
      (active : s'.active = s.active - 1)
  /-- A worker has left, since more than the low watermark were active. -/
  | left (more : s.low < s.active) (total : s'.total = s.total - 1)
      (active : s'.active = s.active - 1)

/-- `CounterStep` is reflexive. -/
theorem CounterStep.refl (s : Sizer) : CounterStep s s := .kept rfl (Nat.le_refl _)

/-- `SameLimits` is reflexive. -/
theorem SameLimits.refl (s : Sizer) : SameLimits s s := ⟨rfl, rfl, rfl⟩

/-- `SameLimits` is transitive. -/
theorem SameLimits.trans {s'' : Sizer} (h : SameLimits s s') (h' : SameLimits s' s'') :
    SameLimits s s'' :=
  ⟨h'.low.trans h.low, h'.high.trans h.high, h'.max.trans h.max⟩

/-- `addWorker` keeps the limits. -/
theorem SameLimits.addWorker (s : Sizer) : SameLimits s s.addWorker.2 := by
  rw [Sizer.addWorker]
  split <;> exact ⟨rfl, rfl, rfl⟩

/-- `enterPause` is a `CounterStep`, with or without a worker that is added. -/
theorem counterStep_enterPause (s : Sizer) :
    SameLimits s s.enterPause.2 ∧ CounterStep s s.enterPause.2 := by
  have hactive : ({ s with paused := s.paused + 1 } : Sizer).active = s.active - 1 :=
    (Nat.sub_sub s.total s.paused 1).symm
  rw [enterPause, hactive]
  split
  · rename_i hgrow
    have hsame := SameLimits.addWorker { s with paused := s.paused + 1 }
    refine ⟨⟨hsame.low, hsame.high, hsame.max⟩, .grown hgrow.2 (total_addWorker _) ?_⟩
    rw [active, total_addWorker, paused_addWorker]
    exact Nat.add_sub_add_right s.total 1 s.paused
  · rename_i hstay
    rw [not_and_or, Nat.not_lt, Nat.not_lt] at hstay
    exact ⟨⟨rfl, rfl, rfl⟩, .away hstay rfl hactive⟩

/-- `leavePause` is a `CounterStep`. -/
theorem counterStep_leavePause (s : Sizer) : CounterStep s s.leavePause :=
  .kept rfl (Nat.sub_le_sub_left (Nat.sub_le s.paused 1) s.total)

/-- `requestShrink` changes `pendingQuits` only. -/
theorem requestShrink_snd (s : Sizer) :
    ∃ pendingQuits, s.requestShrink.2 = { s with pendingQuits } := by
  rw [requestShrink]
  split
  · exact ⟨s.pendingQuits, rfl⟩
  · exact ⟨_, rfl⟩

/-- `tryRetire` takes one worker away just if more are active than the low watermark. -/
theorem tryRetire_cases (slot : Nat) (s : Sizer) :
    (s.low < s.active ∧ (s.tryRetire slot).2.total = s.total - 1 ∧
        (s.tryRetire slot).2.active = s.active - 1) ∨
      (s.active ≤ s.low ∧ (s.tryRetire slot).2.total = s.total ∧
        (s.tryRetire slot).2.active = s.active) := by
  have hactive : ({ s with pendingQuits := s.pendingQuits - 1 } : Sizer).active = s.active := rfl
  rw [tryRetire, hactive]
  split
  · rename_i hmore
    exact Or.inl ⟨hmore, rfl, Nat.sub_right_comm s.total 1 s.paused⟩
  · rename_i hfew
    exact Or.inr ⟨Nat.not_lt.1 hfew, rfl, rfl⟩

/-- `tryRetire` keeps the limits. -/
theorem SameLimits.tryRetire (slot : Nat) (s : Sizer) : SameLimits s (s.tryRetire slot).2 := by
  rw [Sizer.tryRetire]
  split <;> exact ⟨rfl, rfl, rfl⟩

/-- `tryRetire` is a `CounterStep`. -/
theorem counterStep_tryRetire (slot : Nat) (s : Sizer) : CounterStep s (s.tryRetire slot).2 := by
  rcases tryRetire_cases slot s with ⟨hmore, htotal, hactive⟩ | ⟨-, htotal, hactive⟩
  · exact .left hmore htotal hactive
  · exact .kept htotal (Nat.le_of_eq hactive.symm)

/-- Whether `a` is asked of a running pool: everything but the first worker and a worker whose
thread could not be created. -/
def Act.isRunning : Act → Bool
  | .add | .fail _ => false
  | _ => true

/-- **Whatever is asked** of a running pool is a `CounterStep` that keeps the limits. -/
theorem counterStep_perform (hle : s.low ≤ s.high) (ha : a.isRunning = true)
    (h : s.perform a = .ok (reply, s')) : SameLimits s s' ∧ CounterStep s s' := by
  cases a with
  | add => cases ha
  | fail slot => cases ha
  | pause =>
    cases h
    exact counterStep_enterPause s
  | resume =>
    cases h
    exact ⟨⟨rfl, rfl, rfl⟩, counterStep_leavePause s⟩
  | shrink =>
    rw [perform, requestShrink?_of_le hle] at h
    have heq : s.requestShrink.2 = s' := congrArg Prod.snd (Except.ok.inj h)
    obtain ⟨pendingQuits, hpending⟩ := requestShrink_snd s
    rw [← heq, hpending]
    exact ⟨⟨rfl, rfl, rfl⟩, .kept rfl (Nat.le_refl _)⟩
  | retire slot =>
    cases h
    exact ⟨.tryRetire slot s, counterStep_tryRetire slot s⟩

/-- `s'` comes of what is asked of `s`, or is `s` if nothing is. -/
def Answers (s : Sizer) : Option Act → Sizer → Prop
  | none, s' => s' = s
  | some a, s' => ∃ reply, s.perform a = .ok (reply, s')

/-- What comes of what is asked of a running pool, or of nothing, is a `CounterStep` that keeps the
limits. -/
theorem counterStep_answers (hle : s.low ≤ s.high) {asked : Option Act}
    (hrunning : ∀ a ∈ asked, a.isRunning = true) (h : s.Answers asked s') :
    SameLimits s s' ∧ CounterStep s s' := by
  cases asked with
  | none =>
    rw [show s' = s from h]
    exact ⟨.refl s, .refl s⟩
  | some a =>
    obtain ⟨reply, heq⟩ := h
    exact counterStep_perform hle (hrunning a rfl) heq

/-! ### What a counter step keeps -/

/-- The counters of a pool that **was started**: `0 < low < high ≤ max`, at most `max` workers, and
one of them active unless there are `max`. -/
structure Fit (s : Sizer) : Prop where
  low_pos : 0 < s.low
  low_lt_high : s.low < s.high
  high_le_max : s.high ≤ s.max
  total_le : s.total ≤ s.max
  manned : 1 ≤ s.active ∨ s.total = s.max

/-- The pool is **staffed**: at least `low` workers are active, or there are `max`. -/
def Staffed (s : Sizer) : Prop := s.low ≤ s.active ∨ s.total = s.max

/-- A `CounterStep` keeps `Fit`. -/
theorem Fit.counterStep (hs : s.Fit) (hsame : SameLimits s s') (ht : CounterStep s s') :
    s'.Fit := by
  obtain ⟨hlow, hlt, hmax, hle, hmanned⟩ := hs
  have hcount : s'.total ≤ s.max ∧ (1 ≤ s'.active ∨ s'.total = s.max) := by
    cases ht with
    | kept total active => omega
    | grown room total active => omega
    | away enough total active => omega
    | left more total active => omega
  exact {
    low_pos := hsame.low ▸ hlow
    low_lt_high := hsame.low ▸ hsame.high ▸ hlt
    high_le_max := hsame.high ▸ hsame.max ▸ hmax
    total_le := hsame.max ▸ hcount.1
    manned := hsame.max ▸ hcount.2 }

/-- A `CounterStep` keeps a pool **staffed**. -/
theorem Staffed.counterStep (hstaffed : s.Staffed) (hs : s.Fit) (hsame : SameLimits s s')
    (ht : CounterStep s s') : s'.Staffed := by
  have hle := hs.total_le
  rw [Staffed, hsame.low, hsame.max]
  rw [Staffed] at hstaffed
  cases ht with
  | kept total active => omega
  | grown room total active => omega
  | away enough total active => omega
  | left more total active => omega

/-- While the pool is not staffed, a `CounterStep` leaves **no fewer workers** active. -/
theorem CounterStep.active_le (ht : CounterStep s s') (hs : s.Fit) (hshort : ¬ s.Staffed) :
    s.active ≤ s'.active := by
  have hle := hs.total_le
  rw [Staffed, not_or, Nat.not_le] at hshort
  cases ht with
  | kept total active => exact active
  | grown room total active => omega
  | away enough total active => omega
  | left more total active => omega

/-! ### Quits -/

/-- After `requestShrink` **quits are pending**, or fewer than `high` workers are active. -/
theorem pending_or_lt_requestShrink (hlt : s.low < s.high) :
    0 < s.requestShrink.2.pendingQuits ∨ s.requestShrink.2.active < s.high := by
  by_cases hnone : 0 < s.pendingQuits ∨ s.active < s.high
  · rw [requestShrink, if_pos hnone]
    exact hnone
  · rw [requestShrink, if_neg hnone]
    refine Or.inl (Nat.sub_pos_of_lt ?_)
    omega

/-- `requestShrink` asks for so many quits that **`low` active workers would remain**. -/
theorem active_requestShrink (hlt : s.low < s.high) (hasked : 0 < s.requestShrink.1) :
    s.requestShrink.2.active = s.low + s.requestShrink.1 := by
  by_cases hnone : 0 < s.pendingQuits ∨ s.active < s.high
  · rw [requestShrink, if_pos hnone] at hasked
    exact absurd hasked (Nat.lt_irrefl 0)
  · rw [requestShrink, if_neg hnone]
    have hmany : s.low ≤ s.active := by omega
    exact (Nat.add_sub_of_le hmany).symm

/-- `shrink` leaves as many workers active as before. -/
theorem active_of_shrink (hle : s.low ≤ s.high) (h : s.Answers (some .shrink) s') :
    s'.active = s.active := by
  obtain ⟨reply, heq⟩ := h
  rw [perform, requestShrink?_of_le hle] at heq
  have heq' : s.requestShrink.2 = s' := congrArg Prod.snd (Except.ok.inj heq)
  obtain ⟨pendingQuits, hpending⟩ := requestShrink_snd s
  rw [← heq', hpending]
  rfl

end Sizer

namespace Pool

variable {ω : Type} {p p₀ : Pool ω}

/-! ### What happens to a pool -/

namespace FloorEvent

/-- Whether the event is a worker's thread that could not be created. -/
def spawnFails : FloorEvent ω → Bool
  | .act (.spawnFailed _) => true
  | _ => false

/-- Whether the event notes a context as paused, or as running again. -/
def moves : FloorEvent ω → Bool
  | .noteAway | .noteBack _ _ => true
  | _ => false

/-- Whether the event is a quit that is consumed. -/
def retires : FloorEvent ω → Bool
  | .act (.retire _) => true
  | _ => false

end FloorEvent

/-- `check` leaves the counters alone. -/
theorem sizer_check (origin : String) (p : Pool ω) : (p.check origin).2.sizer = p.sizer := by
  rw [check]
  split <;> rfl

/-- `check` leaves `started` alone. -/
theorem started_check (origin : String) (p : Pool ω) : (p.check origin).2.started = p.started := by
  rw [check]
  split <;> rfl

/-- A pool is started once: a second `start` fails and changes nothing. -/
theorem start_of_started (h : p.started = true) (spawned : Bool) :
    p.start spawned = (.error .alreadyStarted, p) := by
  rw [start, if_pos h]

namespace Floor

variable {s : Floor ω} {e : FloorEvent ω}

/-- What an event **asks of the counters** of a pool that was started. -/
def asked? (s : Floor ω) : FloorEvent ω → Option Sizer.Act
  | .noteAway =>
    match s.stage with
    | .pausing ctx _ _ => if (s.pool.context ctx).pooled then some .pause else none
    | _ => none
  | .noteBack ctx _ =>
    match s.stage with
    | .free => if ctx ∈ s.under ∧ (s.pool.context ctx).pooled then some .resume else none
    | _ => none
  | .act .countQuits => some .shrink
  | .act (.retire slot) => some (.retire slot)
  | .act (.spawnFailed slot) => some (.fail slot)
  | _ => none

/-- A `PoolAct` on a pool that was started leaves it started, and its counters are what comes of
what was asked. -/
theorem answers_act (hstarted : p.started = true) (hle : p.sizer.low ≤ p.sizer.high)
    (under : List Nat) (stage : PauseStage) (a : PoolAct ω) :
    (p.perform a).started = true ∧
      p.sizer.Answers (asked? ⟨p, under, stage⟩ (.act a)) (p.perform a).sizer := by
  cases a with
  | check origin => exact ⟨(started_check origin p).trans hstarted, sizer_check origin p⟩
  | start spawned =>
    rw [perform, start_of_started hstarted]
    exact ⟨hstarted, rfl⟩
  | spawnFailed slot => exact ⟨hstarted, _, rfl⟩
  | countQuits =>
    refine ⟨hstarted, .quits p.sizer.requestShrink.1, ?_⟩
    rw [Sizer.perform, Sizer.requestShrink?_of_le hle]
    rfl
  | pushQuit now =>
    rw [perform, pushQuit]
    generalize p.queue.pushQuit now _ = q
    exact ⟨hstarted, rfl⟩
  | tellShrink quits =>
    rw [perform, tellShrink]
    split <;> exact ⟨hstarted, rfl⟩
  | listen =>
    rw [perform, listen]
    split <;> exact ⟨hstarted, rfl⟩
  | retire slot => exact ⟨hstarted, _, rfl⟩
  | _ => exact ⟨hstarted, rfl⟩

/-- An event on a pool that was started leaves it started, and its counters are what comes of what
was asked. -/
theorem answers_after (hstarted : s.pool.started = true)
    (hle : s.pool.sizer.low ≤ s.pool.sizer.high) (e : FloorEvent ω) :
    (s.after e).pool.started = true ∧
      s.pool.sizer.Answers (s.asked? e) (s.after e).pool.sizer := by
  obtain ⟨p, under, stage⟩ := s
  cases e with
  | park ctx token reason =>
    cases stage with
    | free =>
      by_cases hthere : ctx < p.contexts.size ∧ token < p.ledger.tokens.size
      · rcases park_cases ctx token p with ⟨e, reports, heq⟩ | ⟨-, -, -, heq⟩
        all_goals
          simp only [after, if_pos hthere, heq]
          exact ⟨hstarted, rfl⟩
      · simp only [after, if_neg hthere]
        exact ⟨hstarted, rfl⟩
    | pausing _ _ _ => exact ⟨hstarted, rfl⟩
    | resuming _ _ => exact ⟨hstarted, rfl⟩
  | noteAway =>
    cases stage with
    | free => exact ⟨hstarted, rfl⟩
    | pausing ctx token reason =>
      refine ⟨hstarted, ?_⟩
      simp only [asked?, after, noteAway]
      split
      · exact ⟨_, rfl⟩
      · rfl
    | resuming _ _ => exact ⟨hstarted, rfl⟩
  | noteBack ctx cause =>
    cases stage with
    | free =>
      by_cases hmem : ctx ∈ under
      · simp only [asked?, after, noteBack, hmem, true_and, if_true]
        refine ⟨hstarted, ?_⟩
        split
        · exact ⟨_, rfl⟩
        · rfl
      · simp only [asked?, after, hmem, false_and, if_false]
        exact ⟨hstarted, rfl⟩
    | pausing _ _ _ => exact ⟨hstarted, rfl⟩
    | resuming _ _ => exact ⟨hstarted, rfl⟩
  | unpark =>
    cases stage with
    | free => exact ⟨hstarted, rfl⟩
    | pausing _ _ _ => exact ⟨hstarted, rfl⟩
    | resuming ctx held =>
      exact ⟨(started_check "resume" _).trans hstarted, sizer_check "resume" _⟩
  | act a => exact answers_act hstarted hle under stage a

/-- Unless the event is a failed spawn, it asks what is asked of a running pool. -/
theorem isRunning_asked (hspawn : e.spawnFails = false) :
    ∀ a ∈ s.asked? e, a.isRunning = true := by
  intro a ha
  cases e with
  | noteAway =>
    rw [asked?] at ha
    split at ha
    · split at ha
      · cases ha
        rfl
      · cases ha
    · cases ha
  | noteBack ctx cause =>
    rw [asked?] at ha
    split at ha
    · split at ha
      · cases ha
        rfl
      · cases ha
    · cases ha
  | act b =>
    cases b with
    | spawnFailed slot => cases hspawn
    | countQuits | retire slot =>
      cases ha
      rfl
    | _ => cases ha
  | _ => cases ha

/-- A pool that **was started** as `p`, has the limits of `p`, and is `Fit`. -/
structure Running (p : Pool ω) (s : Floor ω) : Prop where
  /-- It was started. -/
  started : s.pool.started = true
  /-- Its limits are those that it began with. -/
  limits : p.sizer.SameLimits s.pool.sizer
  /-- Its counters are fit. -/
  fit : s.pool.sizer.Fit

/-- **Every event** but a failed spawn is a `CounterStep` that keeps the limits. -/
theorem Running.counterStep (h : Running p s) (hspawn : e.spawnFails = false) :
    s.pool.sizer.SameLimits (s.after e).pool.sizer ∧
      s.pool.sizer.CounterStep (s.after e).pool.sizer :=
  Sizer.counterStep_answers (Nat.le_of_lt h.fit.low_lt_high) (isRunning_asked hspawn)
    (answers_after h.started (Nat.le_of_lt h.fit.low_lt_high) e).2

/-- `Running` is kept by every event but a failed spawn. -/
theorem Running.after (h : Running p s) (hspawn : e.spawnFails = false) :
    Running p (s.after e) where
  started := (answers_after h.started (Nat.le_of_lt h.fit.low_lt_high) e).1
  limits := h.limits.trans (h.counterStep hspawn).1
  fit := h.fit.counterStep (h.counterStep hspawn).1 (h.counterStep hspawn).2

/-- `Running` is kept by any events without a failed spawn. -/
theorem Running.foldl (h : Running p s) {events : List (FloorEvent ω)}
    (hspawn : ∀ e ∈ events, e.spawnFails = false) :
    Running p (events.foldl Floor.after s) :=
  List.foldlRecOn events _ h fun _ h e hmem => h.after (hspawn e hmem)

/-- A staffed pool stays staffed over any events without a failed spawn. -/
theorem Running.staffed (h : Running p s) (hstaffed : s.pool.sizer.Staffed)
    {events : List (FloorEvent ω)} (hspawn : ∀ e ∈ events, e.spawnFails = false) :
    (events.foldl Floor.after s).pool.sizer.Staffed := by
  induction events generalizing s with
  | nil => exact hstaffed
  | cons e events ih =>
    rw [List.forall_mem_cons] at hspawn
    have hturn := h.counterStep hspawn.1
    exact ih (h.after hspawn.1) (hstaffed.counterStep h.fit hturn.1 hturn.2) hspawn.2

/-! ### Quits that are consumed -/

/-- An event with which no context pauses or resumes asks for `shrink`, or is a quit that is
consumed, or asks for nothing. -/
theorem asked_of_not_moves (hspawn : e.spawnFails = false) (hmoves : e.moves = false) :
    (e.retires = false ∧ (s.asked? e = none ∨ s.asked? e = some .shrink)) ∨
      (e.retires = true ∧ ∃ slot, s.asked? e = some (.retire slot)) := by
  cases e with
  | noteAway => cases hmoves
  | noteBack ctx cause => cases hmoves
  | act a =>
    cases a with
    | spawnFailed slot => cases hspawn
    | countQuits => exact .inl ⟨rfl, .inr rfl⟩
    | retire slot => exact .inr ⟨rfl, slot, rfl⟩
    | _ => exact .inl ⟨rfl, .inl rfl⟩
  | _ => exact .inl ⟨rfl, .inl rfl⟩

/-- While no context pauses or resumes, a quit that is consumed takes **one active worker**, down to
`low`. -/
theorem Running.active_of_not_moves (h : Running p s) (hspawn : e.spawnFails = false)
    (hmoves : e.moves = false) (hlow : s.pool.sizer.low ≤ s.pool.sizer.active) :
    (s.after e).pool.sizer.active = s.pool.sizer.low +
      (s.pool.sizer.active - s.pool.sizer.low - if e.retires then 1 else 0) := by
  have hle := Nat.le_of_lt h.fit.low_lt_high
  have hanswers := (answers_after h.started hle e).2
  rcases asked_of_not_moves hspawn hmoves with ⟨hretires, hnone | hshrink⟩ | ⟨hretires, slot, hslot⟩
  · rw [hnone] at hanswers
    rw [hretires, show (s.after e).pool.sizer = _ from hanswers]
    exact (Nat.add_sub_of_le hlow).symm
  · rw [hshrink] at hanswers
    rw [hretires, Sizer.active_of_shrink hle hanswers]
    exact (Nat.add_sub_of_le hlow).symm
  · rw [hslot] at hanswers
    obtain ⟨reply, heq⟩ := hanswers
    have heq' : (s.pool.sizer.tryRetire slot).2 = (s.after e).pool.sizer :=
      congrArg Prod.snd (Except.ok.inj heq)
    rw [hretires, if_pos rfl, ← heq']
    rcases Sizer.tryRetire_cases slot s.pool.sizer with ⟨hmore, -, hactive⟩ | ⟨hfew, -, hactive⟩
    · omega
    · omega

/-- Over a batch in which no context pauses or resumes, the active workers **come down by the quits
consumed**, to `low` and not below. -/
theorem Running.active_batch (h : Running p s) (hlow : s.pool.sizer.low ≤ s.pool.sizer.active)
    {batch : List (FloorEvent ω)} (hspawn : ∀ e ∈ batch, e.spawnFails = false)
    (hmoves : ∀ e ∈ batch, e.moves = false) :
    (batch.foldl Floor.after s).pool.sizer.active = s.pool.sizer.low +
      (s.pool.sizer.active - s.pool.sizer.low - batch.countP FloorEvent.retires) := by
  induction batch generalizing s with
  | nil => exact (Nat.add_sub_of_le hlow).symm
  | cons e batch ih =>
    rw [List.forall_mem_cons] at hspawn hmoves
    have hstep := h.active_of_not_moves hspawn.1 hmoves.1 hlow
    have hkeep : (s.after e).pool.sizer.low = s.pool.sizer.low := (h.counterStep hspawn.1).1.low
    have hrest := ih (h.after hspawn.1) (by omega) hspawn.2 hmoves.2
    rw [List.foldl_cons, hrest, List.countP_cons, hstep, hkeep]
    omega

end Floor

/-! ### From the start on -/

/-- The watermarks of a valid configuration are **in order**. -/
theorem watermarks_of_validate {config : ThreadConfig} (h : config.validate = .ok ()) :
    0 < config.lowWatermark ∧ config.lowWatermark < config.highWatermark ∧
      config.highWatermark ≤ config.maxThreads := by
  rw [ThreadConfig.validate] at h
  split at h
  · cases h
  · split at h
    · cases h
    · split at h
      · cases h
      · omega

/-- A pool that was started has the counters of `addWorker`. -/
theorem start_ok {spawned : Bool} {slot : Nat} (h : p₀.start spawned = (.ok slot, p)) :
    p.started = true ∧ p.sizer = p₀.sizer.addWorker.2 := by
  by_cases hstarted : p₀.started = true
  · rw [start_of_started hstarted] at h
    cases h
  · cases spawned with
    | true =>
      simp only [start, hstarted, if_true] at h
      cases h
      exact ⟨rfl, rfl⟩
    | false =>
      simp only [start, hstarted] at h
      cases h

/-- A pool that was built and then started is `Running`, with one active worker. -/
theorem running_start {config : ThreadConfig} {limits : PerCategory (Option Nat)} {spawned : Bool}
    {slot : Nat} (h : ofParts config limits = .ok p₀)
    (hstart : p₀.start spawned = (.ok slot, p)) :
    Floor.Running p ⟨p, [], .free⟩ ∧ p.sizer.low = config.lowWatermark ∧
      p.sizer.high = config.highWatermark ∧ p.sizer.max = config.maxThreads := by
  have hp₀ := unused_ofParts h
  obtain ⟨hlow, hlt, hmax⟩ := watermarks_of_validate hp₀.valid
  obtain ⟨hstarted, hsizer⟩ := start_ok hstart
  rw [hp₀.sizer] at hsizer
  have hfit : (Sizer.new config.lowWatermark config.highWatermark
      config.maxThreads).addWorker.2.Fit :=
    ⟨hlow, hlt, hmax, Nat.le_trans (Nat.le_trans hlow (Nat.le_of_lt hlt)) hmax,
      .inl (Nat.le_refl 1)⟩
  exact ⟨⟨hstarted, .refl _, hsizer ▸ hfit⟩, hsizer ▸ rfl, hsizer ▸ rfl, hsizer ▸ rfl⟩

/-- **The watermarks**, after any events of a pool that was started, none of them a failed spawn:

* a worker is `active`, or there are `maxThreads`;
* once `lowWatermark` workers are active, or there are `maxThreads`, it stays so;
* until then no event leaves fewer workers active;
* `retire` leaves as many active as before, or at least `lowWatermark`;
* after `countQuits` quits are pending, or fewer than `highWatermark` are active;
* the quits that it asks for bring the active workers down to `lowWatermark`, one by one as they are
  consumed and no further, if no context pauses or resumes in between. -/
theorem watermark_law {config : ThreadConfig} {limits : PerCategory (Option Nat)} {spawned : Bool}
    {slot : Nat} (h : ofParts config limits = .ok p₀) (hstart : p₀.start spawned = (.ok slot, p))
    {events : List (FloorEvent ω)} (hspawn : ∀ e ∈ events, e.spawnFails = false) :
    let s := Floor.history p events
    let enough : Pool ω → Prop := fun q =>
      config.lowWatermark ≤ q.sizer.active ∨ q.sizer.total = config.maxThreads
    (1 ≤ s.pool.sizer.active ∨ s.pool.sizer.total = config.maxThreads) ∧
    (enough s.pool → ∀ more : List (FloorEvent ω), (∀ e ∈ more, e.spawnFails = false) →
      enough (Floor.history p (events ++ more)).pool) ∧
    (¬ enough s.pool → ∀ e : FloorEvent ω, e.spawnFails = false →
      s.pool.sizer.active ≤ (s.after e).pool.sizer.active) ∧
    (∀ slot, (s.pool.retire slot).2.sizer.active = s.pool.sizer.active ∨
      config.lowWatermark ≤ (s.pool.retire slot).2.sizer.active) ∧
    (0 < s.pool.countQuits.2.sizer.pendingQuits ∨
      s.pool.countQuits.2.sizer.active < config.highWatermark) ∧
    (0 < s.pool.countQuits.1 → ∀ batch : List (FloorEvent ω),
      (∀ e ∈ batch, e.spawnFails = false ∧ e.moves = false) →
      (batch.foldl Floor.after (s.after (.act .countQuits))).pool.sizer.active =
        config.lowWatermark + (s.pool.countQuits.1 - batch.countP FloorEvent.retires)) := by
  intro s enough
  obtain ⟨hbegun, hlow, hhigh, hmax⟩ := running_start h hstart
  have hs : Floor.Running p s := hbegun.foldl hspawn
  have hslow : s.pool.sizer.low = config.lowWatermark := hs.limits.low.trans hlow
  have hshigh : s.pool.sizer.high = config.highWatermark := hs.limits.high.trans hhigh
  have hsmax : s.pool.sizer.max = config.maxThreads := hs.limits.max.trans hmax
  have hlt := hs.fit.low_lt_high
  have henough : enough s.pool ↔ s.pool.sizer.Staffed := by rw [Sizer.Staffed, hslow, hsmax]
  refine ⟨hsmax ▸ hs.fit.manned, fun hstaffed more hmore => ?_, fun hshort e he => ?_,
    fun slot => ?_, ?_, fun hasked batch hbatch => ?_⟩
  · have hrest : Floor.Running p (more.foldl Floor.after s) := hs.foldl hmore
    have hkept := hs.staffed (henough.1 hstaffed) hmore
    rw [Sizer.Staffed, hrest.limits.low, hrest.limits.max, hlow, hmax] at hkept
    rw [Floor.history, List.foldl_append]
    exact hkept
  · exact (hs.counterStep he).2.active_le hs.fit fun hstaffed => hshort (henough.2 hstaffed)
  · rcases Sizer.tryRetire_cases slot s.pool.sizer with ⟨hmore, -, hactive⟩ | ⟨-, -, hactive⟩
    · refine Or.inr ?_
      rw [← hslow, show (s.pool.retire slot).2.sizer.active = _ from hactive]
      exact Nat.le_sub_one_of_lt hmore
    · exact Or.inl hactive
  · rw [← hshigh]
    exact Sizer.pending_or_lt_requestShrink hlt
  · have hcounted : Floor.Running p (s.after (.act .countQuits)) := hs.after rfl
    have hactive : (s.after (.act .countQuits)).pool.sizer.active =
        s.pool.sizer.low + s.pool.countQuits.1 := Sizer.active_requestShrink hlt hasked
    have hkeep : (s.after (.act .countQuits)).pool.sizer.low = s.pool.sizer.low :=
      (hs.counterStep (e := .act .countQuits) rfl).1.low
    rw [hcounted.active_batch (by omega) (fun e he => (hbatch e he).1) fun e he => (hbatch e he).2,
      hactive, hkeep, hslow, Nat.add_sub_cancel_left]

/-- A pool for one or two workers, four at most, in which nobody has worked. -/
def sparse : Pool Unit :=
  { untouched with
    config := { untouched.config with lowWatermark := 1, highWatermark := 2, maxThreads := 4 }
    sizer := .new 1 2 4 }

/-- The worker pauses, and a second one is added; then the first one resumes. -/
def relieved : List (FloorEvent Unit) :=
  [.act (.add (.worker 0) true), .act (.issue .unlimited .normal "read"), .park 0 0 "reading",
    .noteAway, .noteBack 0 none, .unpark]

/-- Two workers are active when `relieved` is over, a quit is pending after the next event, and one
is active when that is consumed. -/
theorem watermark_law_relieved :
    (Floor.history (sparse.start true).2 relieved).pool.sizer.active = 2 ∧
      ([FloorEvent.act (.tellShrink 1), .act (.retire 1)].foldl Floor.after
        ((Floor.history (sparse.start true).2 relieved).after
          (.act .countQuits))).pool.sizer.active =
          1 + (1 - 1) :=
  have hfresh : ofParts sparse.config (.const none) = .ok sparse := rfl
  have hstart : sparse.start true = (.ok 0, (sparse.start true).2) := rfl
  ⟨by decide, (watermark_law hfresh hstart (by decide)).2.2.2.2.2 (by decide) _ (by decide)⟩

end Pool

end TurnPool
