import TurnPool.Proofs.CrewEntries
import TurnPool.Proofs.Runs

/-!
# No request is lost, and no run is invented

A request is answered by a run, but not by one each: whatever is asked of a task until its next run
is claimed is served by that run together. The diary tells which tasks are *asked* at a time, and
the states have to follow it, through failures and retry delays and through runs that were under way
when the request came.

The other way round, a run has a reason: since the last run of the task was claimed it was asked for
one, or that run has left something to do, or has failed and is tried again.

## What ends a request

A claimed run serves it. A stop takes it back, and so does a run that halts the task. Nothing else
does; a request that a stopped task ignores is none.

## Main results

* `Diary.asked`, `Diary.earned`: what the diary says of a task.
* `Answered`: the state of a task follows the diary.
* `World.requests_served`: in every state, what was asked for is on its way, and runs have a reason.
-/

namespace TurnPool

open Recorded

/-! ### What the diary says -/

namespace Happening

/-- Whether what happened **ends** the requests made of `task`: it was stopped, a run of it was
claimed, or one halted it. -/
def ends (task : Nat) : Happening → Bool
  | .requested i what _ => i = task && what = .stop
  | .claimed i _ => i = task
  | .delivered i _ o => i = task && o.halts

/-- Whether a run of `task` was **asked for**, and the request accepted. -/
def asks (task : Nat) : Happening → Bool
  | .requested i what stopped => i = task && what.accepted stopped
  | _ => false

/-- Whether a run of `task` was a reason for another: it left something to do, or is to be tried
again. -/
def leadsOn (task : Nat) : Happening → Bool
  | .delivered i _ o => i = task && o.leadsOn
  | _ => false

/-- The task that something happened to. -/
def task : Happening → Nat
  | .requested i _ _ | .claimed i _ | .delivered i _ _ => i

variable {e : Happening} {i : Nat}

/-- What happens to one task ends no request of another. -/
theorem ends_of_ne (h : e.task ≠ i) : e.ends i = false := by
  cases e <;> simp only [task] at h <;> simp [ends, h]

/-- What happens to one task asks for no run of another. -/
theorem asks_of_ne (h : e.task ≠ i) : e.asks i = false := by
  cases e <;> simp only [task] at h <;> simp [asks, h]

/-- What happens to one task is no reason for a run of another. -/
theorem leadsOn_of_ne (h : e.task ≠ i) : e.leadsOn i = false := by
  cases e <;> simp only [task] at h <;> simp [leadsOn, h]

end Happening

namespace Diary

/-- What happened since the requests of `task` were ended last. -/
def since (task : Nat) (diary : List Happening) : List Happening :=
  diary.takeWhile fun e => !e.ends task

/-- `task` is **asked**: since its requests were ended last, a run was asked for. -/
def asked (task : Nat) (diary : List Happening) : Bool :=
  (since task diary).any fun e => e.asks task

/-- A run of `task` is **earned**: since its requests were ended last, a run was asked for or one
led on to another. -/
def earned (task : Nat) (diary : List Happening) : Bool :=
  (since task diary).any fun e => e.asks task || e.leadsOn task

variable {e : Happening} {d : List Happening} {i : Nat}

/-- What holds of something since the last end, after one more happening. -/
theorem any_since_cons (p : Happening → Bool) :
    (since i (e :: d)).any p = (!e.ends i && (p e || (since i d).any p)) := by
  rw [since, List.takeWhile_cons]
  cases e.ends i <;> rfl

/-- `asked` after one more happening. -/
theorem asked_cons : asked i (e :: d) = (!e.ends i && (e.asks i || asked i d)) :=
  any_since_cons _

/-- `earned` after one more happening. -/
theorem earned_cons :
    earned i (e :: d) = (!e.ends i && ((e.asks i || e.leadsOn i) || earned i d)) :=
  any_since_cons _

/-- What happens to another task does not change `asked`. -/
theorem asked_cons_of_ne (h : e.task ≠ i) : asked i (e :: d) = asked i d := by
  rw [asked_cons, Happening.ends_of_ne h, Happening.asks_of_ne h]
  rfl

/-- What happens to another task does not change `earned`. -/
theorem earned_cons_of_ne (h : e.task ≠ i) : earned i (e :: d) = earned i d := by
  rw [earned_cons, Happening.ends_of_ne h, Happening.asks_of_ne h, Happening.leadsOn_of_ne h]
  rfl

/-- An accepted request makes the task asked. -/
theorem asked_accepted {what : Request} {stopped : Bool} (h : what.accepted stopped = true) :
    asked i (.requested i what stopped :: d) = true := by
  rw [asked_cons]
  cases what with
  | stop => cases h
  | schedule => simp [Happening.ends, Happening.asks, h]
  | start => simp [Happening.ends, Happening.asks, h]

/-- A task that is asked has earned a run. -/
theorem earned_of_asked (h : asked i d = true) : earned i d = true := by
  obtain ⟨e, he, hasks⟩ := List.any_eq_true.1 h
  exact List.any_eq_true.2 ⟨e, he, by rw [hasks, Bool.true_or]⟩

/-- A request that a stopped task ignores does not change `asked`. -/
theorem asked_ignored : asked i (.requested i .schedule true :: d) = asked i d := by
  simp [asked_cons, Happening.ends, Happening.asks, Request.accepted]

/-- A request that a stopped task ignores does not change `earned`. -/
theorem earned_ignored : earned i (.requested i .schedule true :: d) = earned i d := by
  simp [earned_cons, Happening.ends, Happening.asks, Happening.leadsOn, Request.accepted]

/-- After a stop the task is not asked. -/
theorem asked_stop {stopped : Bool} : asked i (.requested i .stop stopped :: d) = false := by
  simp [asked_cons, Happening.ends]

/-- After a claim the task is not asked. -/
theorem asked_claimed {run : Nat} : asked i (.claimed i run :: d) = false := by
  simp [asked_cons, Happening.ends]

/-- After an outcome that does not halt the task is asked just if it was. -/
theorem asked_delivered {run : Nat} {o : Outcome} :
    asked i (.delivered i run o :: d) = (!o.halts && asked i d) := by
  simp [asked_cons, Happening.ends, Happening.asks]

/-- After an outcome that does not halt a run is earned just if it was, or the outcome leads on. -/
theorem earned_delivered {run : Nat} {o : Outcome} :
    earned i (.delivered i run o :: d) = (!o.halts && (o.leadsOn || earned i d)) := by
  simp [earned_cons, Happening.ends, Happening.asks, Happening.leadsOn]

end Diary

/-! ### The state follows the diary -/

/-- The state `s` of task `i` **answers** the diary: a task that is asked owes a run, a rerun is
promised only to one that is asked, a run that is promised was earned, and a run that was just
claimed is `inFlight false`. -/
structure Answered (i : Nat) (s : TaskState) (d : List Happening) : Prop where
  /-- What was asked for is owed. -/
  owes : Diary.asked i d = true → s.owesRun = true
  /-- A run is to follow the one under way only if it was asked for. -/
  rerun : s = .inFlight true → Diary.asked i d = true
  /-- What is promised was earned. -/
  promise : s.promisesRun = true → Diary.earned i d = true
  /-- When a run was claimed, nothing is left to serve. -/
  fresh : ∀ run older, d = .claimed i run :: older → s = .inFlight false

namespace Answered

variable {s : TaskState} {e : Happening} {d : List Happening} {i : Nat}

/-- An idle task answers the empty diary. -/
theorem new (i : Nat) : Answered i .idle [] where
  owes := nofun
  rerun := nofun
  promise := nofun
  fresh := nofun

/-- What happens to another task keeps `Answered`. -/
theorem other (h : Answered i s d) (hne : e.task ≠ i) : Answered i s (e :: d) where
  owes ha := h.owes (Diary.asked_cons_of_ne hne ▸ ha)
  rerun hs := (Diary.asked_cons_of_ne hne).trans (h.rerun hs)
  promise hs := (Diary.earned_cons_of_ne hne).trans (h.promise hs)
  fresh _ _ heq := absurd (congrArg Happening.task (List.cons.inj heq).1) hne

/-- `ripen` keeps `Answered`. -/
theorem ripen (h : Answered i s d) : Answered i s.ripen d where
  owes ha := TaskState.owesRun_ripen (h.owes ha)
  rerun hs := by
    refine h.rerun ?_
    rcases s with _ | (_ | _) | _ | _ | _ <;> first | exact hs | cases hs
  promise hs := h.promise (TaskState.promisesRun_ripen s ▸ hs)
  fresh run older heq := by
    rw [h.fresh run older heq]
    rfl

/-- A claim makes the state `inFlight false`, which answers the diary with the claim. -/
theorem claim (i run : Nat) (d : List Happening) :
    Answered i (.inFlight false) (.claimed i run :: d) where
  owes ha := nomatch Diary.asked_claimed.symm.trans ha
  rerun := nofun
  promise := nofun
  fresh _ _ _ := rfl

/-- A **request**, noted with whether the task was stopped, keeps `Answered`. -/
theorem request (h : Answered i s d) (what : Request) :
    Answered i (s.request what).1 (.requested i what s.isStopped :: d) := by
  cases hacc : what.accepted s.isStopped with
  | true =>
    have hasked : Diary.asked i (.requested i what s.isStopped :: d) = true :=
      Diary.asked_accepted hacc
    exact ⟨fun _ => TaskState.owesRun_request_of_accepted hacc, fun _ => hasked,
      fun _ => Diary.earned_of_asked hasked, nofun⟩
  | false =>
    cases what with
    | start => cases hacc
    | stop =>
      have hnone := TaskState.promisesRun_stop s
      refine ⟨fun ha => ?_, fun hs => ?_, fun hs => ?_, nofun⟩
      · exact nomatch Diary.asked_stop.symm.trans ha
      · rw [hs] at hnone
        cases hnone
      · exact nomatch hnone.symm.trans hs
    | schedule =>
      have hstopped : s.isStopped = true := (Bool.not_eq_false' _).mp hacc
      rw [TaskState.schedule_of_isStopped hstopped, hstopped]
      exact ⟨fun ha => h.owes (Diary.asked_ignored ▸ ha),
        fun hs => Diary.asked_ignored.trans (h.rerun hs),
        fun hs => Diary.earned_ignored.trans (h.promise hs), nofun⟩

/-- An **outcome**, noted, keeps `Answered`. -/
theorem deliver {l : Lifecycle} (h : Answered i l.state d) (bounds : BackoffConfig) (run : Nat)
    (o : Outcome) :
    Answered i (l.deliver bounds o).1.1.state (.delivered i run o :: d) where
  owes ha := by
    rw [Diary.asked_delivered, Bool.and_eq_true, Bool.not_eq_true'] at ha
    exact Lifecycle.owesRun_deliver bounds ha.1 (h.owes ha.2)
  rerun hs := by
    have hended := Lifecycle.isInFlight_deliver bounds o l
    rw [hs] at hended
    cases hended
  promise hs := by
    obtain ⟨ho, hbefore⟩ := Lifecycle.promisesRun_deliver bounds hs
    rw [Diary.earned_delivered, ho, Bool.not_false, Bool.true_and, Bool.or_eq_true]
    exact hbefore.symm.imp_right h.promise
  fresh := nofun

end Answered

namespace World

/-! ### Every state, and every run -/

section Effects

variable {Q ω : Type} {w w' : World Q ω}

/-- The state of every task **answers** the diary, and every run was earned when it was claimed. -/
structure Served (w : World Q ω) : Prop where
  answered : ∀ i, Answered i (w.lives i).state w.diary
  claims : ∀ i run older, .claimed i run :: older <:+ w.diary → Diary.earned i older = true

/-- A new world is served. -/
theorem served_new (grouped : Bool) (table : Q) : (World.new grouped table : World Q ω).Served where
  answered i := by
    cases grouped <;> exact Answered.new i
  claims i run older h := nomatch List.suffix_nil.1 h

namespace Served

/-- The tasks that were not claimed still answer the diary. -/
theorem answered_other (h : w.Served) {claimed : Option Nat} {i : Nat}
    (lives : ClaimsRun w.lives claimed w'.lives) (hi : claimed ≠ some i) :
    Answered i (w'.lives i).state w.diary := by
  rcases lives.other i hi with heq | heq <;> rw [heq]
  · exact h.answered i
  · exact (h.answered i).ripen

/-- A happening that claims no run keeps what is said of claims. -/
theorem claims_cons (h : w.Served) {e : Happening} (hrun : e.run? = none) {i run : Nat}
    {older : List Happening} (hs : .claimed i run :: older <:+ e :: w.diary) :
    Diary.earned i older = true := by
  rcases List.suffix_cons_iff.1 hs with heq | hs
  · rw [← (List.cons.inj heq).1] at hrun
    cases hrun
  · exact h.claims i run older hs

/-- **Every effect** keeps `Served`. -/
theorem effect [Timetable Q ω] (h : w.Served) (he : Effect w w') : w'.Served := by
  cases he with
  | rested lives held runs diary =>
    refine ⟨fun i => ?_, diary ▸ h.claims⟩
    rw [diary]
    exact h.answered_other lives nofun
  | @asked bounds what task lives held runs diary =>
    refine ⟨fun i => ?_, fun i run older hs => h.claims_cons rfl (diary ▸ hs)⟩
    rw [lives, diary, Function.update_apply]
    split
    · rename_i hi
      rw [hi, Lifecycle.state_request]
      exact (h.answered task).request what
    · rename_i hi
      exact (h.answered i).other (Ne.symm hi)
  | @began task lives held runs diary =>
    obtain ⟨hqueued, hbegun⟩ := lives.begun task rfl
    refine ⟨fun i => ?_, fun i run older hs => ?_⟩
    · rw [diary]
      by_cases hi : task = i
      · rw [← hi, hbegun]
        exact .claim task w.runs w.diary
      · exact (h.answered_other lives fun heq => hi (Option.some.inj heq)).other hi
    · rcases List.suffix_cons_iff.1 (diary ▸ hs) with heq | hs
      · obtain ⟨hhead, rfl⟩ := List.cons.inj heq
        rw [(Happening.claimed.inj hhead).1]
        exact (h.answered task).promise (TaskState.promisesRun_of_isScheduled hqueued)
      · exact h.claims i run older hs
  | @ended bounds o x there lives held runs diary =>
    refine ⟨fun i => ?_, fun i run older hs => h.claims_cons rfl (diary ▸ hs)⟩
    rw [lives, diary, Function.update_apply]
    split
    · rename_i hi
      rw [hi]
      exact (h.answered x.2.task).deliver bounds x.1 o
    · rename_i hi
      exact (h.answered i).other (Ne.symm hi)

end Served

end Effects

variable {Q ω : Type} [Timetable Q ω] [LawfulTimetable Q ω] {c : Coding ω} {w : World Q ω}

/-- Every reachable world is served. -/
theorem Reachable.served (h : Reachable c w) : w.Served :=
  h.effect_induction served_new fun _ _ => Served.effect

/-! ### What is queued -/

/-- A run of a task is **queued without delay**. If the task has a scheduler of its own, it is the
entry that the scheduler waits for: one that was made without a delay and not called off, is in the
timetable or about to arrive, and claims the run when it does. If it is in a group, it has a place
in one of the batches. -/
def Imminent (c : Coding ω) (i : Nat) (w : World Q ω) : Prop :=
  match w.crew with
  | .apart tasks =>
    ∃ s h, tasks[i]? = some s ∧ s.pending = some h ∧
      ⟨h, 0, c.job (.run i s.epoch)⟩ ∈ w.desk.made ∧ h ∉ w.desk.calledOff ∧
      (⟨h, c.job (.run i s.epoch), true⟩ ∈ LawfulTimetable.slips w.desk.table ∨
        (h, .run i s.epoch) ∈ w.transit) ∧
      ∀ opts r, (Crew.arrive opts c.job r (.run i s.epoch) (w.crew, w.desk)).1 = some i
  | .together g => i ∈ g.active.drop g.cursor ∨ i ∈ g.scheduled

/-- **No run** of a task is queued: no entry for it stands in the timetable, or it has no place in
the group. -/
def Unqueued (c : Coding ω) (i : Nat) (w : World Q ω) : Prop :=
  match w.crew with
  | .apart _ => ∀ h n, ⟨h, c.job (.run i n), true⟩ ∉ LawfulTimetable.slips w.desk.table
  | .together g => i ∉ g.active.drop g.cursor ∧ i ∉ g.scheduled ∧ i ∉ g.delayed.map Delayed.task

/-- In a reachable world a task that is scheduled without delay has an imminent run. -/
theorem Reachable.imminent (h : Reachable c w) {i : Nat}
    (hs : (w.lives i).state = .scheduled false) : w.Imminent c i := by
  have hsettled := h.entriesSettled
  have hlt : i < w.crew.size := Crew.lt_size_of_lives_ne fun heq => by
    have := hs.symm.trans (congrArg Lifecycle.state heq)
    cases this
  obtain ⟨crew, desk, transit, held, runs, diary⟩ := w
  cases crew with
  | apart tasks =>
    obtain ⟨s, htask⟩ := Crew.exists_single hlt
    have hstate : s.life.state = .scheduled false := by
      rw [← Crew.lives_apart htask]
      exact hs
    have hkept := Crew.SinglesInOrder.accurate hsettled
    have hordered := Crew.SinglesInOrder.ordered hsettled i s htask
    have hpending := hordered.pending_iff.2 (congrArg TaskState.isScheduled hstate)
    obtain ⟨k, hk⟩ := Option.isSome_iff_exists.1 hpending
    have hcurrent := Single.current_of_pending hk
    have huncalled := hordered.anchored.uncalled k s.epoch hcurrent
    refine ⟨s, k, htask, hk, hordered.immediate k hk hstate, huncalled, ?_, fun opts r => ?_⟩
    · refine (hordered.anchored.there k s.epoch hcurrent).imp_left ?_
      rintro ⟨live, hslip⟩
      obtain rfl := (hkept.live_iff k _ live hslip).2 huncalled
      exact hslip
    · have hclaim : (s.claim s.epoch).1 = true := by
        rw [Single.claim, if_pos rfl,
          Lifecycle.claim_eq_some.2 ⟨congrArg TaskState.isScheduled hstate, rfl⟩]
      rw [Crew.arrive_run opts c.job r htask, hclaim]
      rfl
  | together g =>
    have htidy := Group.TidyInOrder.tidy hsettled
    exact List.mem_append.1 ((htidy.mem_ready i).2 (TaskState.queued?_eq_some.2 hs))

/-- In a reachable world a task that is not scheduled has none queued. -/
theorem Reachable.unqueued (h : Reachable c w) {i : Nat}
    (hs : (w.lives i).state.isScheduled = false) : w.Unqueued c i := by
  have hsettled := h.entriesSettled
  obtain ⟨crew, desk, transit, held, runs, diary⟩ := w
  cases crew with
  | apart tasks =>
    intro k n hslip
    have hu : Undelivered c desk transit k (.run i n) := Or.inl ⟨true, hslip⟩
    obtain ⟨j, m, heq, hlt⟩ := Crew.SinglesInOrder.run_of_undelivered hsettled k _ hu
    obtain rfl := (Errand.run.inj heq).1
    obtain ⟨s, htask⟩ := Crew.exists_single hlt
    have hordered := Crew.SinglesInOrder.ordered hsettled i s htask
    have hlive := ((Crew.SinglesInOrder.accurate hsettled).live_iff k _ true hslip).1 rfl
    obtain ⟨k', hk', -⟩ := Option.map_eq_some_iff.1 (hordered.anchored.only k n hu hlive)
    have hqueued := hordered.pending_iff.1 (Option.isSome_of_eq_some hk')
    have hstate : s.life.state.isScheduled = false := by
      rw [← Crew.lives_apart htask]
      exact hs
    exact nomatch hstate.symm.trans hqueued
  | together g =>
    have htidy := Group.TidyInOrder.tidy hsettled
    have hnone : (g.life i).state.queued? = none := TaskState.queued?_eq_none.2 hs
    have hready : i ∉ g.ready := fun hmem => nomatch hnone.symm.trans ((htidy.mem_ready i).1 hmem)
    refine ⟨fun hmem => hready (List.mem_append_left _ hmem),
      fun hmem => hready (List.mem_append_right _ hmem), fun hmem => ?_⟩
    exact nomatch hnone.symm.trans (htidy.mem_waiting.1 hmem)

/-- **No request is lost, and no run is invented.** In every reachable world:

* a task that is `asked` is `scheduled false` with an `Imminent` run, or is `inFlight true`;
* a task in flight is to run again just if it is `asked`;
* every run that was claimed was `earned` by the diary before it;
* right after a claim the task is `inFlight false` and `Unqueued`, so the claim serves all that was
  asked before. -/
theorem requests_served (h : Reachable c w) :
    (∀ i, Diary.asked i w.diary = true →
      ((w.lives i).state = .scheduled false ∧ w.Imminent c i) ∨
        (w.lives i).state = .inFlight true) ∧
    (∀ i rerun, (w.lives i).state = .inFlight rerun → rerun = Diary.asked i w.diary) ∧
    (∀ i run older, .claimed i run :: older <:+ w.diary → Diary.earned i older = true) ∧
    (∀ i run older, w.diary = .claimed i run :: older →
      (w.lives i).state = .inFlight false ∧ w.Unqueued c i) := by
  obtain ⟨hanswered, hclaims⟩ := h.served
  refine ⟨fun i ha => ?_, fun i rerun hs => ?_, hclaims, fun i run older heq => ?_⟩
  · rcases TaskState.owesRun_iff.1 ((hanswered i).owes ha) with hs | hs
    · exact Or.inl ⟨hs, h.imminent hs⟩
    · exact Or.inr hs
  · cases rerun with
    | true => exact ((hanswered i).rerun hs).symm
    | false =>
      cases ha : Diary.asked i w.diary with
      | false => rfl
      | true =>
        have howes := (hanswered i).owes ha
        rw [hs] at howes
        cases howes
  · have hs := (hanswered i).fresh run older heq
    exact ⟨hs, h.unqueued (congrArg TaskState.isScheduled hs)⟩

/-- The task of a world where a run has begun is asked again. -/
def askedAgain (grouped : Bool) : World (Queue (Work Errand)) Errand :=
  (begun grouped).request .self default ⟨0, 0, 0⟩ .schedule 0

/-- The worlds `askedAgain` are reachable. -/
theorem reachable_askedAgain (grouped : Bool) : Reachable .self (askedAgain grouped) := by
  refine .step (reachable_begun grouped) (.request default _ .schedule ?_)
  cases grouped <;> decide

/-- A task that was started has a run queued. When the run is claimed it was earned, and nothing
more is queued; when the task is asked again during the run, another one is to follow. -/
theorem requests_served_askedAgain :
    (started false).Imminent .self 0 ∧
      (begun false).Unqueued .self 0 ∧ Diary.earned 0 (started false).diary = true ∧
      ((askedAgain false).lives 0).state = .inFlight true := by
  have hdiary : (begun false).diary = .claimed 0 0 :: (started false).diary := rfl
  obtain ⟨hstarted, -⟩ := requests_served (reachable_started false)
  obtain ⟨-, -, hearned, hfresh⟩ := requests_served (reachable_begun false)
  obtain ⟨hagain, -⟩ := requests_served (reachable_askedAgain false)
  refine ⟨?_, (hfresh 0 0 _ hdiary).2, hearned 0 0 _ (hdiary ▸ List.suffix_refl _), ?_⟩
  · rcases hstarted 0 (by decide) with ⟨-, himminent⟩ | hs
    · exact himminent
    · cases hs
  · rcases hagain 0 (by decide) with ⟨hs, -⟩ | hs
    · cases hs
    · exact hs

end World

end TurnPool
