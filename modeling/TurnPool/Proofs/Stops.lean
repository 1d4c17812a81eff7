import TurnPool.Proofs.Requests

/-!
# A stop is final

A task can be stopped at any time: while a run of it is queued, while it waits out a retry delay,
when the entry for its run was taken out of the timetable already, while a run is under way, and
when another run is to follow that one. It rests from then on, until it is started. A run that fails
beyond hope and a run that panics lay the task to rest as well.

## What rests and what starts

The diary tells when a task rests (`Diary.atRest`): it was stopped or halted, and was not started
since. A start may come to nothing for the time being, when a run that was stopped is still under
way; it ends the rest all the same. A run that was under way when the task was stopped comes to its
end, and its outcome counts for nothing.

## Main results

* `TaskState.isStopped_stop`, `Lifecycle.deliver_of_isStopped`: what a stopped state does.
* `Single.enact_of_idle`, `Group.enact_of_idle`: where no run of a task is queued, and none comes to
  be, nothing is done to the timetable.
* `World.Laid.effect`, `World.Reachable.laid`: a task at rest is stopped, and no run of it was
  claimed since.
* `World.stop_is_final`: **a stop is final**, until the next start.
-/

namespace TurnPool

open Recorded

/-! ### Stopped states -/

namespace TaskState

/-- After `stop` the task **is stopped**, whatever its state was. -/
theorem isStopped_stop (s : TaskState) : (s.request .stop).1.isStopped = true := by
  cases s <;> rfl

/-- `ripen` keeps a task stopped. -/
theorem isStopped_ripen {s : TaskState} (h : s.isStopped = true) : s.ripen.isStopped = true := by
  revert h
  rcases s with _ | (_ | _) | _ | _ | _ <;> simp [isStopped, ripen]

/-- A stopped task is not scheduled. -/
theorem isScheduled_of_isStopped {s : TaskState} (h : s.isStopped = true) :
    s.isScheduled = false := by
  revert h
  cases s <;> simp [isStopped, isScheduled]

end TaskState

namespace Lifecycle

variable (bounds : BackoffConfig)

/-- `schedule` of a stopped task changes nothing. -/
theorem schedule_of_isStopped {l : Lifecycle} (h : l.state.isStopped = true) :
    l.request bounds .schedule = (l, .unchanged) := by
  rw [request, TaskState.schedule_of_isStopped h]
  rfl

/-- After any outcome of its run a stopped task **is stopped**, and no run is queued. -/
theorem deliver_of_isStopped {l : Lifecycle} (h : l.state.isStopped = true) (o : Outcome) :
    (l.deliver bounds o).1.1.state = .stopped ∧
      ((l.deliver bounds o).1.2 = .unchanged ∨ (l.deliver bounds o).1.2 = .dropped) := by
  obtain ⟨s, b⟩ := l
  have hs : s = .stopped ∨ s = .inFlightStopped := by
    revert h
    cases s <;> simp [TaskState.isStopped]
  rcases o.kinds with ho | ⟨more, rfl⟩ | ⟨e, he, rfl⟩
  · rw [deliver_of_halts bounds ho]
    exact ⟨rfl, Or.inr rfl⟩
  · rw [deliver_success]
    rcases hs with rfl | rfl <;> exact ⟨rfl, Or.inl rfl⟩
  · rw [deliver_failure bounds he]
    rcases hs with rfl | rfl <;> exact ⟨rfl, Or.inl rfl⟩

end Lifecycle

/-! ### Operations that queue nothing -/

section Idle

variable {Q ω : Type} [Timetable Q ω] (opts : SchedulerOptions) (entry : Nat → ω)
  {change : Lifecycle × Placement}

/-- `Single.enact` with nothing pending and no run to queue **leaves the table alone**. -/
theorem Single.enact_of_idle {s : Single} (hp : s.pending = none)
    (hplace : change.2 = .unchanged ∨ change.2 = .dropped) (now : Nat) (q : Q) :
    (Single.enact opts entry now change (s, q)).2 = q := by
  obtain ⟨l, placement⟩ := change
  rcases hplace with rfl | rfl
  · rfl
  · simp only [Single.enact, Single.place, Single.disarm, hp]

namespace Group

variable {g : Group} {id : Nat}

/-- `rearm` of a group that is `Matched` changes nothing. -/
theorem rearm_of_matched (h : g.Matched) (r : Readings) (q : Q) :
    rearm opts entry r (g, q) = (g, q) := by
  rw [rearm]
  split
  · rfl
  · rename_i hnot
    have hnone : g.armed = none := by
      cases ha : g.armed with
      | none => rfl
      | some a => exact absurd ⟨by rw [ha]; rfl, h⟩ hnot
    have hwant : g.want = none := by
      rw [← show g.armed.map Armed.due = g.want from h, hnone]
      rfl
    simp only [hwant, disarm, hnone]

/-- `unlink` of a task that has no spot changes nothing. -/
theorem Placed.unlink_eq {spot : Nat → Option Bool} (h : g.Placed spot) (hid : spot id = none) :
    g.unlink id = g := by
  have hkey : g.key? id = none := by
    rw [← Option.not_isSome_iff_eq_none, h.isSome_key, hid]
    exact nofun
  have hready : id ∉ g.ready := fun hmem => by
    have hspot := (h.mem_ready id).1 hmem
    rw [hid] at hspot
    cases hspot
  have hleft : id ∉ g.left := fun hmem => hready (List.mem_append_left _ hmem)
  have hscheduled : id ∉ g.scheduled := fun hmem => hready (List.mem_append_right _ hmem)
  have hfilter : g.scheduled.filter (· ≠ id) = g.scheduled :=
    List.filter_eq_self.2 fun i hi => decide_eq_true fun heq => hscheduled (heq ▸ hi)
  have hactive : g.active.take g.cursor ++ g.left.erase id = g.active := by
    rw [List.erase_of_not_mem hleft]
    exact List.take_append_drop _ _
  rw [Group.unlink, Group.unlinkDelayed, hkey, Group.unlinkReady, hfilter, hactive]

/-- `Group.enact` for a task that is not queued, with no run to queue, **leaves the table and the
collections alone**. -/
theorem enact_of_idle (htidy : g.Tidy) (hmatched : g.Matched)
    (hidle : (g.life id).state.queued? = none)
    (hplace : change.2 = .unchanged ∨ change.2 = .dropped) (r : Readings) (q : Q) :
    enact opts entry r id change (g, q) =
      (g.modify id fun m => { m with life := change.1 }, q) := by
  have hplaced : (g.modify id fun m => { m with life := change.1 }).Placed fun i =>
      (g.life i).state.queued? :=
    Placed.congr htidy rfl rfl rfl rfl fun _ => key?_modify_of_keeps (fun _ => rfl) fun _ => rfl
  have hrelocate : (g.modify id fun m => { m with life := change.1 }).relocate r.deadline id
      change.2 = g.modify id fun m => { m with life := change.1 } := by
    rcases hplace with hunchanged | hdropped
    · rw [hunchanged]
      rfl
    · rw [hdropped]
      exact hplaced.unlink_eq hidle
  have hmatched' : (g.modify id fun m => { m with life := change.1 }).Matched := hmatched
  rw [enact, place, hrelocate]
  exact rearm_of_matched opts entry hmatched' r q

/-- A task that is given its own lifecycle is unchanged. -/
theorem modify_life_self (g : Group) (id : Nat) :
    (g.modify id fun m => { m with life := g.life id }) = g := by
  have hmembers : (g.modify id fun m => { m with life := g.life id }).members = g.members := by
    refine Array.ext_getElem? fun i => ?_
    rw [getElem?_modify]
    split
    · rename_i hi
      subst hi
      cases hm : g.members[id]? with
      | none => rfl
      | some m =>
        have hlife : g.life id = m.life := by
          rw [life, hm]
          rfl
        rw [hlife]
        rfl
    · rfl
  exact congrArg (fun members => { g with members }) hmembers

end Group

end Idle

namespace Crew

variable {Q ω : Type} [Timetable Q ω] [LawfulTimetable Q ω] {c : Coding ω} {crew : Crew}
  {t : Recorded Q ω} {tr : List (Nat × Errand)} {i : Nat}

/-- `schedule` of a stopped task **changes nothing in its crew**. -/
theorem schedule_of_isStopped (h : crew.EntriesSettled c t tr) (hlt : i < crew.size)
    (hstopped : (crew.lives i).state.isStopped = true) (opts : SchedulerOptions) (r : Readings) :
    request opts c.job r .schedule i (crew, t) = (crew, t) := by
  cases crew with
  | apart tasks =>
    obtain ⟨s, hs⟩ := exists_single hlt
    rw [lives_apart hs] at hstopped
    have hsame : Single.request opts (fun n => c.job (.run i n)) r.entry .schedule (s, t) =
        (s, t) := by
      rw [Single.request, Lifecycle.schedule_of_isStopped opts.backoff hstopped]
      rfl
    rw [request_apart opts c.job r hs, hsame, setIfInBounds_self hs]
  | together g =>
    obtain ⟨-, hmatched, htidy⟩ := h
    have hlife : (g.life i).state.isStopped = true := hstopped
    have hidle := TaskState.queued?_eq_none.2 (TaskState.isScheduled_of_isStopped hlife)
    have hsame : Group.request opts (fun n => c.job (.dispatch n)) r i .schedule (g, t) =
        (g, t) := by
      have hignored : Lifecycle.request opts.backoff .schedule (g.life i) = _ :=
        Lifecycle.schedule_of_isStopped opts.backoff hlife
      rw [Group.request, hignored, Group.enact_of_idle opts _ htidy hmatched hidle (Or.inl rfl),
        Group.modify_life_self]
    simp only [request, hsame]

/-- The outcome of a run of a stopped task **leaves the table alone**. -/
theorem deliver_of_isStopped (h : crew.EntriesSettled c t tr) (hlt : i < crew.size)
    (hstopped : (crew.lives i).state.isStopped = true) (opts : SchedulerOptions) (r : Readings)
    (o : Outcome) : (deliver opts c.job r i o (crew, t)).2.2 = t := by
  have hidle := TaskState.isScheduled_of_isStopped hstopped
  obtain ⟨-, hplace⟩ := Lifecycle.deliver_of_isStopped opts.backoff hstopped o
  cases crew with
  | apart tasks =>
    obtain ⟨s, hs⟩ := exists_single hlt
    rw [lives_apart hs] at hidle hplace
    have hpending : s.pending = none := by
      rw [← Option.not_isSome_iff_eq_none, (SinglesInOrder.ordered h i s hs).pending_iff, hidle]
      exact Bool.false_ne_true
    rw [deliver_apart opts c.job r hs]
    exact Single.enact_of_idle opts _ hpending hplace r.entry t
  | together g =>
    obtain ⟨-, hmatched, htidy⟩ := h
    have hsame := Group.enact_of_idle opts (fun n => c.job (.dispatch n)) htidy hmatched
      (TaskState.queued?_eq_none.2 hidle) hplace r t
    exact congrArg Prod.snd hsame

end Crew

/-! ### What the diary says -/

namespace Happening

/-- Whether what happened **lays the task to rest**: it was stopped, or a run of it halted it. -/
def rests (task : Nat) : Happening → Bool
  | .requested i what _ => i = task && what = .stop
  | .claimed _ _ => false
  | .delivered i _ o => i = task && o.halts

/-- Whether the task was **started**. -/
def starts (task : Nat) : Happening → Bool
  | .requested i what _ => i = task && what = .start
  | _ => false

variable {e : Happening} {i : Nat}

/-- What happens to one task lays no other to rest. -/
theorem rests_of_ne (h : e.task ≠ i) : e.rests i = false := by
  cases e <;> simp only [task] at h <;> simp [rests, h]

/-- What happens to one task starts no other. -/
theorem starts_of_ne (h : e.task ≠ i) : e.starts i = false := by
  cases e <;> simp only [task] at h <;> simp [starts, h]

end Happening

namespace Diary

/-- The task is **at rest**: it was stopped or halted, and not started since. -/
def atRest (task : Nat) : List Happening → Bool
  | [] => false
  | e :: older => e.rests task || (!e.starts task && atRest task older)

variable {i : Nat} {e : Happening} {d later older : List Happening}

/-- What lays a task to rest leaves it at rest. -/
theorem atRest_of_rests (h : e.rests i = true) : atRest i (e :: d) = true := by
  rw [atRest, h]
  rfl

/-- What neither rests nor starts the task does not change `atRest`. -/
theorem atRest_cons (hrests : e.rests i = false) (hstarts : e.starts i = false) :
    atRest i (e :: d) = atRest i d := by
  rw [atRest, hrests, hstarts]
  rfl

/-- What happens to another task does not change `atRest`. -/
theorem atRest_cons_of_ne (h : e.task ≠ i) : atRest i (e :: d) = atRest i d :=
  atRest_cons (Happening.rests_of_ne h) (Happening.starts_of_ne h)

/-- A start **ends** the rest. -/
theorem atRest_start {stopped : Bool} : atRest i (.requested i .start stopped :: d) = false := by
  simp [atRest, Happening.rests, Happening.starts]

/-- `schedule` does not change `atRest`. -/
theorem atRest_schedule {stopped : Bool} :
    atRest i (.requested i .schedule stopped :: d) = atRest i d := by
  simp [atRest, Happening.rests, Happening.starts]

/-- An outcome that does not halt does not change `atRest`. -/
theorem atRest_delivered {run : Nat} {o : Outcome} (ho : o.halts = false) :
    atRest i (.delivered i run o :: d) = atRest i d := by
  simp [atRest, Happening.rests, Happening.starts, ho]

/-- A task stays at rest **until it is started**. -/
theorem atRest_append (h : atRest i older = true) (hlater : ∀ e ∈ later, e.starts i = false) :
    atRest i (later ++ older) = true := by
  induction later with
  | nil => exact h
  | cons e later ih =>
    rw [List.forall_mem_cons] at hlater
    rw [List.cons_append, atRest, ih hlater.2, hlater.1]
    exact Bool.or_true _

end Diary

namespace World

/-! ### Every state -/

section Effects

variable {Q ω : Type} {w w' : World Q ω} {i : Nat}

/-- A task **at rest** is stopped, and no run was claimed of a task at rest. -/
structure Laid (w : World Q ω) : Prop where
  stopped : ∀ i, Diary.atRest i w.diary = true → (w.lives i).state.isStopped = true
  claims : ∀ i run older, .claimed i run :: older <:+ w.diary → Diary.atRest i older = false

/-- A new world is laid. -/
theorem laid_new (grouped : Bool) (table : Q) : (World.new grouped table : World Q ω).Laid where
  stopped _ h := nomatch h
  claims _ _ _ h := nomatch List.suffix_nil.1 h

namespace Laid

/-- A task at rest stays stopped when others are claimed. -/
theorem stopped_other (h : w.Laid) {claimed : Option Nat}
    (lives : ClaimsRun w.lives claimed w'.lives) (hi : claimed ≠ some i)
    (hrest : Diary.atRest i w.diary = true) : (w'.lives i).state.isStopped = true := by
  rcases lives.other i hi with heq | heq <;> rw [heq]
  · exact h.stopped i hrest
  · exact TaskState.isStopped_ripen (h.stopped i hrest)

/-- A happening that claims no run keeps what is said of claims. -/
theorem claims_cons (h : w.Laid) {e : Happening} (hrun : e.run? = none) {i run : Nat}
    {older : List Happening} (hs : .claimed i run :: older <:+ e :: w.diary) :
    Diary.atRest i older = false := by
  rcases List.suffix_cons_iff.1 hs with heq | hs
  · rw [← (List.cons.inj heq).1] at hrun
    cases hrun
  · exact h.claims i run older hs

/-- **Every effect** keeps `Laid`. -/
theorem effect [Timetable Q ω] (h : w.Laid) (he : Effect w w') : w'.Laid := by
  cases he with
  | rested lives held runs diary =>
    exact ⟨fun i hrest => h.stopped_other lives nofun (diary ▸ hrest), diary ▸ h.claims⟩
  | @asked bounds what task lives held runs diary =>
    refine ⟨fun i hrest => ?_, fun i run older hs => h.claims_cons rfl (diary ▸ hs)⟩
    rw [diary] at hrest
    rw [lives, Function.update_apply]
    split
    · rename_i hi
      subst hi
      rw [Lifecycle.state_request]
      cases what with
      | schedule =>
        have hstopped := h.stopped i (Diary.atRest_schedule ▸ hrest)
        rw [TaskState.schedule_of_isStopped hstopped]
        exact hstopped
      | start => exact nomatch Diary.atRest_start.symm.trans hrest
      | stop => exact TaskState.isStopped_stop _
    · rename_i hi
      have hother : (Happening.requested task what (w.lives task).state.isStopped).task ≠ i :=
        Ne.symm hi
      exact h.stopped i (Diary.atRest_cons_of_ne hother ▸ hrest)
  | @began task lives held runs diary =>
    have hawake : Diary.atRest task w.diary = false := by
      rw [← Bool.not_eq_true]
      intro hrest
      have hidle := TaskState.isScheduled_of_isStopped (h.stopped task hrest)
      exact nomatch hidle.symm.trans (lives.begun task rfl).1
    refine ⟨fun i hrest => ?_, fun i run older hs => ?_⟩
    · have hold : Diary.atRest i w.diary = true :=
        (Diary.atRest_cons rfl rfl).symm.trans (diary ▸ hrest)
      refine h.stopped_other lives (fun heq => ?_) hold
      rw [Option.some.inj heq] at hawake
      exact nomatch hawake.symm.trans hold
    · rcases List.suffix_cons_iff.1 (diary ▸ hs) with heq | hs
      · obtain ⟨hhead, rfl⟩ := List.cons.inj heq
        rw [(Happening.claimed.inj hhead).1]
        exact hawake
      · exact h.claims i run older hs
  | @ended bounds o x there lives held runs diary =>
    refine ⟨fun i hrest => ?_, fun i run older hs => h.claims_cons rfl (diary ▸ hs)⟩
    rw [diary] at hrest
    rw [lives, Function.update_apply]
    split
    · rename_i hi
      subst hi
      cases ho : o.halts with
      | true =>
        rw [Lifecycle.deliver_of_halts bounds ho]
        rfl
      | false =>
        have hstopped := h.stopped x.2.task (Diary.atRest_delivered ho ▸ hrest)
        rw [(Lifecycle.deliver_of_isStopped bounds hstopped o).1]
        rfl
    · rename_i hi
      have hother : (Happening.delivered x.2.task x.1 o).task ≠ i := Ne.symm hi
      exact h.stopped i (Diary.atRest_cons_of_ne hother ▸ hrest)

end Laid

end Effects

variable {Q ω : Type} [Timetable Q ω] [LawfulTimetable Q ω] {c : Coding ω} {w : World Q ω} {i : Nat}

/-- Every reachable world is laid. -/
theorem Reachable.laid (h : Reachable c w) : w.Laid :=
  h.effect_induction laid_new fun _ _ => Laid.effect

omit [Timetable Q ω] [LawfulTimetable Q ω] in
/-- A stopped task has joined. -/
theorem lt_size_of_isStopped (h : (w.lives i).state.isStopped = true) : i < w.crew.size := by
  refine Crew.lt_size_of_lives_ne fun heq => ?_
  rw [lives, heq] at h
  exact Bool.false_ne_true h

/-- `schedule` of a stopped task is **noted and changes nothing else**. -/
theorem request_of_isStopped (h : Reachable c w) (hstopped : (w.lives i).state.isStopped = true)
    (opts : SchedulerOptions) (r : Readings) :
    w.request c opts r .schedule i =
      { w with diary := .requested i .schedule true :: w.diary } := by
  have hsame :=
    Crew.schedule_of_isStopped h.entriesSettled (lt_size_of_isStopped hstopped) hstopped opts r
  simp only [request, hsame, hstopped]

/-- The outcome of a run of a stopped task leaves the **table as it is**. -/
theorem desk_spend (h : Reachable c w) {x : Nat × Completion} (hx : x ∈ w.held)
    (hstopped : (w.lives x.2.task).state.isStopped = true) (opts : SchedulerOptions) (r : Readings)
    (unwinding : Bool) (how : Fate) : (w.spend c opts r unwinding how x).desk = w.desk := by
  obtain ⟨howed, hlt⟩ := h.heldOwed x hx
  rw [spend_of_owed howed]
  exact Crew.deliver_of_isStopped h.entriesSettled hlt hstopped opts r _

omit [LawfulTimetable Q ω] in
/-- No entry that arrives claims **a run of a stopped task**. -/
theorem claimed_ne_of_isStopped (hstopped : (w.lives i).state.isStopped = true)
    (opts : SchedulerOptions) (r : Readings) (e : Errand) :
    (Crew.arrive opts c.job r e (w.crew, w.desk)).1 ≠ some i := by
  intro hclaimed
  have hqueued := ((Crew.claimsRun_arrive opts c.job r e (w.crew, w.desk)).begun i hclaimed).1
  exact nomatch (TaskState.isScheduled_of_isStopped hstopped).symm.trans hqueued

/-- **A stop is final**, until the next start. In a reachable world, let something have laid task
`i` to rest, a stop or an outcome that halts, and let nothing have started it since. Then:

* the task `isStopped`;
* no run of it was claimed since, and no entry that arrives claims one, whatever its epoch;
* `schedule` changes nothing, and is only noted;
* however a completion of the task is spent, the desk is unchanged, the task `isStopped` and is
  `Unqueued` afterwards;
* the task is `Unqueued`: no entry for it is live in the timetable, or it has no place in the group.
  -/
theorem stop_is_final (h : Reachable c w) {later older : List Happening} {e : Happening}
    (hdiary : w.diary = later ++ e :: older) (hrests : e.rests i = true)
    (hlater : ∀ e' ∈ later, e'.starts i = false) :
    (w.lives i).state.isStopped = true ∧
    (∀ run, .claimed i run ∉ later) ∧
    (∀ opts r e', (Crew.arrive opts c.job r e' (w.crew, w.desk)).1 ≠ some i) ∧
    (∀ opts r, w.request c opts r .schedule i =
      { w with diary := .requested i .schedule true :: w.diary }) ∧
    (∀ x ∈ w.held, x.2.task = i → ∀ opts r unwinding how,
      let w' := w.spend c opts r unwinding how x
      w'.desk = w.desk ∧ (w'.lives i).state.isStopped = true ∧ w'.Unqueued c i) ∧
    w.Unqueued c i := by
  have hold : Diary.atRest i (e :: older) = true := Diary.atRest_of_rests hrests
  have hrest : Diary.atRest i w.diary = true := hdiary ▸ Diary.atRest_append hold hlater
  have hstopped := h.laid.stopped i hrest
  refine ⟨hstopped, fun run hclaimed => ?_, claimed_ne_of_isStopped hstopped,
    request_of_isStopped h hstopped, fun x hx hi opts r unwinding how => ?_,
    h.unqueued (TaskState.isScheduled_of_isStopped hstopped)⟩
  · obtain ⟨after, before, rfl⟩ := List.append_of_mem hclaimed
    have hsuffix : .claimed i run :: (before ++ e :: older) <:+ w.diary := by
      rw [hdiary, List.append_assoc]
      exact List.suffix_append _ _
    have hawake := h.laid.claims i run _ hsuffix
    have hbefore : ∀ e' ∈ before, e'.starts i = false := fun e' he' =>
      hlater e' (List.mem_append_right _ (List.mem_cons_of_mem _ he'))
    exact nomatch hawake.symm.trans (Diary.atRest_append hold hbefore)
  · subst hi
    have hreached : Reachable c (w.spend c opts r unwinding how x) :=
      h.step (.spend opts r unwinding how hx)
    have hnoted : (w.spend c opts r unwinding how x).diary =
        [.delivered x.2.task x.1 (how.ending unwinding)] ++ w.diary := by
      rw [spend_of_owed (h.heldOwed x hx).1]
      rfl
    have hrest' : Diary.atRest x.2.task (w.spend c opts r unwinding how x).diary = true := by
      rw [hnoted]
      exact Diary.atRest_append hrest fun e' he' => List.mem_singleton.1 he' ▸ rfl
    have hstopped' := hreached.laid.stopped x.2.task hrest'
    exact ⟨desk_spend h hx hstopped opts r unwinding how, hstopped',
      hreached.unqueued (TaskState.isScheduled_of_isStopped hstopped')⟩

/-- When a task was stopped while its entry was out of the queue, in a scheduler of its own or in a
group, the entry claims nothing, and the task has no run queued; that it is scheduled then is
ignored. -/
theorem stop_is_final_underway :
    (Crew.arrive default id ⟨0, 0, 0⟩ (.run 0 1)
        ((stoppedUnderway false).crew, (stoppedUnderway false).desk)).1 ≠ some 0 ∧
      (stoppedUnderway false).Unqueued .self 0 ∧
      (Crew.arrive default id ⟨0, 0, 0⟩ (.dispatch 1)
        ((stoppedUnderway true).crew, (stoppedUnderway true).desk)).1 ≠ some 0 ∧
      (stoppedUnderway true).Unqueued .self 0 ∧
      ((stoppedUnderway true).request .self default ⟨0, 0, 0⟩ .schedule 0).crew =
        (stoppedUnderway true).crew := by
  have hdiary : ∀ grouped, (stoppedUnderway grouped).diary =
      [] ++ .requested 0 .stop false :: (underway grouped).diary := fun grouped => by
    cases grouped <;> rfl
  obtain ⟨-, -, hapart, -, -, hunqueued⟩ :=
    stop_is_final (i := 0) (reachable_stoppedUnderway false) (hdiary false) rfl nofun
  obtain ⟨-, -, htogether, hignored, -, hunqueued'⟩ :=
    stop_is_final (i := 0) (reachable_stoppedUnderway true) (hdiary true) rfl nofun
  refine ⟨hapart default ⟨0, 0, 0⟩ (.run 0 1), hunqueued,
    htogether default ⟨0, 0, 0⟩ (.dispatch 1), hunqueued', ?_⟩
  rw [hignored]

end World

end TurnPool
