import TurnPool.Proofs.Passages

/-!
# Steps of a thread

Every step of a thread keeps all in order, and what it reports is what the docket notes of it.

## Main results

* `advance_step`: the top frame acts.
* `advance_resume`: a thread that has waited goes on.
-/

namespace TurnPool.Scenario

variable {V : Type}

namespace Scene

variable {d d' : Docket} {t t' : Thread V} {w w' v : Scene V} {n task : Nat} {o : Outcome}
  {below : List (Frame V)}

/-- Taking off a frame that is neither a pause nor an errand is an `Advance`, if the tasks are
kept. -/
theorem advance_pop {fr : Frame V} {m : Mode V} (h : Active d t w)
    (hframes : t.frames = fr :: below) (hpaused : fr.paused? = none) (herrand : fr.errand? = none)
    (hf : Footing d t.id below) (hc : KeepsTasks w w') (hm : m.Goes w'.pool.ledger.tokens.size) :
    Advance d t w d { t with frames := below, mode := m } w' :=
  .keepsTasks hc ((h.keepsTasks hc).pop hframes hpaused herrand hm) (Or.inl hf)

/-! ### Jobs -/

/-- A step on a `.job` is an `Advance`. -/
theorem advance_job {ctx : Nat} {j : Job V} (h : Active d t w)
    (hframes : t.frames = .job ctx j :: below)
    (hf : Footing d t.id (.job ctx j :: below)) (f : Focus V) :
    Advance d t w (d.noteFrame (.job ctx j) f t.id w)
      (stepFrame (.job ctx j) below f t w).1 (stepFrame (.job ctx j) below f t w).2 := by
  cases j with
  | event e =>
    exact .keepsTasks .others ((h.keepsTasks .others).retop hframes rfl rfl rfl (by rintro id ⟨⟩))
      (Or.inl (.push rfl (hf.of_plain rfl)))
  | errand e =>
    cases hf with
    | push plain footing => cases plain
    | errand body _ _ perch =>
      have hcrew : CrewMatches d
        (below.filterMap Frame.errand? ++ w.threads.flatMap Thread.errands)
          (w.arrive e).2 := by
        have harrive := h.sound.roster.arrive (e := e) (by
          rw [List.flatMap_cons, Thread.errands, hframes]
          exact List.mem_cons_self)
        rw [List.flatMap_cons, Thread.errands, hframes] at harrive
        rwa [List.filterMap_cons_some (show Frame.errand? (.job ctx (.errand e)) = some e from rfl),
          List.cons_append, List.erase_cons_head] at harrive
      have hworked := keepsReports_arrive e w
      have hold : ∀ i ∈ below.flatMap Frame.contexts, i ∈ t.contexts := fun i hi => by
        rw [Thread.contexts, hframes]
        exact List.mem_cons_of_mem _ hi
      have haway : below.filterMap Frame.paused? = t.away := by
        rw [Thread.away, hframes]
        rfl
      rcases hr : w.arrive e with ⟨_ | task, w₁⟩
      · simp only [Docket.noteFrame, stepFrame, stepJob, hr]
        rw [hr] at hcrew hworked
        refine .silent (h.after hworked.toKeepsPauses ⟨rfl, rfl, fun i hi => Or.inl (hold i hi),
          by rintro ⟨⟩, by rintro id ⟨⟩⟩ haway hcrew h.sound.logAccounted fun id _ => .refl id d)
          (stands_of_perch body perch) hworked.size hworked.name (fun _ _ hn => hn) rfl
          hworked.reports
      · simp only [Docket.noteFrame, stepFrame, stepJob, hr]
        have hlt := lt_of_arrive (congrArg Prod.fst hr)
        rw [hr] at hcrew hworked hlt
        set key := (w₁.scripts[task]?.map TaskScript.key).getD ""
        have hkept : KeepsTasks w₁ ((w₁.noteRan key).nextRun task).2 :=
          KeepsTasks.trans .others (.nextRun task _)
        have hjobs : ∀ m i : Nat, (d.begin t.id (some task)).jobs[m]? = some (some i) →
            i < w₁.crew.size := fun m i hm => by
          rcases Docket.of_jobs_begin hm with hm | ⟨-, hi⟩
          · exact hcrew.jobs m i hm
          · obtain rfl := Option.some.inj hi
            exact hlt
        have hcrew' := (hcrew.noted hjobs fun i => Docket.keeps_begin_shelf).keepsTasks hkept
        refine .silent (h.after (hworked.toKeepsPauses.trans hkept.toKeepsPauses)
          ⟨rfl, rfl, fun i hi => Or.inl ?_, by rintro ⟨⟩, by rintro id ⟨⟩⟩ haway hcrew'
          (h.sound.logAccounted.begin body _) fun id hid =>
            Docket.sameFor_begin hid _ d) (Or.inl ?_)
          ((congrArg Crew.size hkept.crew).trans hworked.size)
          (fun i => (congrArg (Crew.name i) hkept.crew).trans (hworked.name i))
          (fun _ _ hn => Docket.jobs_begin hn) rfl (hkept.reports.trans hworked.reports)
        · rw [Thread.contexts, hframes]
          exact hi
        · exact .run (c := .fresh task) Docket.body_begin_self Docket.jobs_begin_self
            Docket.keeps_begin_hand ctx key none _ perch

/-! ### Frames that are put on others -/

/-- `endEvent` reports what is open at the end of an event. -/
theorem endEvent_eq (w : Scene V) : endEvent w = w.found (w.pool.leftOpen "dispatch") := by
  show { w with pool := (w.pool.check "dispatch").2 } = _
  rw [Pool.check_eq]
  rfl

/-- A step on a `.batch` is an `Advance`. -/
theorem advance_batch {rest : List (Op V)} {answers : List (Answer V)} (h : Active d t w)
    (hframes : t.frames = .batch rest answers :: below) (hf : Footing d t.id below)
    (hover : t.isOver = false) (f : Focus V) :
    Advance d t w (d.noteFrame (.batch rest answers) f t.id w)
      (stepFrame (.batch rest answers) below f t w).1
      (stepFrame (.batch rest answers) below f t w).2 := by
  cases rest with
  | nil =>
    cases f <;> exact advance_pop h hframes rfl rfl hf .others (by rintro id ⟨⟩)
  | cons op rest =>
    have hgo : ∀ (answers' : List (Answer V)), Advance d t w (d.noteOp .locked op w)
        (beginOp .locked "" op { t with frames := .batch rest answers' :: below } w).1
        (beginOp .locked "" op { t with frames := .batch rest answers' :: below } w).2 :=
      fun answers' => by
      have h₀ : Active d { t with frames := .batch rest answers' :: below } w :=
        h.retop hframes rfl rfl rfl (h.goes hover)
      exact advance_comes h₀ (.push rfl hf) (by simp) (comes_beginOp "" (by simp))
    cases f with
    | unwind p => exact advance_pop h hframes rfl rfl hf .others (by rintro id ⟨⟩)
    | give a => exact hgo (a :: answers)
    | next | granted r | late => exact hgo answers

/-- A step on an `.inline`, the end of an inline event, is an `Advance`. -/
theorem advance_inline {a : Answer V} (h : Active d t w)
    (hframes : t.frames = .inline a :: below) (hf : Footing d t.id below) (f : Focus V) :
    Advance d t w (d.noteFrame (.inline a) f t.id w)
      (stepFrame (.inline a) below f t w).1 (stepFrame (.inline a) below f t w).2 := by
  have hgo : Advance d t w (d.find (w.pool.leftOpen "dispatch"))
      (({ t with frames := below } : Thread V).answer a) (endEvent w.unlock) := by
    rw [endEvent_eq]
    exact .found _ (((h.keepsTasks .others).found _).pop hframes rfl rfl (by rintro id ⟨⟩))
      (Or.inl (hf.congr (Docket.sameFor_find _ _ _))) rfl rfl
  cases f with
  | unwind p => exact advance_pop h hframes rfl rfl hf .others (by rintro id ⟨⟩)
  | next | give b | granted r | late => exact hgo

/-- A step on a `.keep`, which keeps the token that was granted, is an `Advance`. -/
theorem advance_keep {name : String} (h : Active d t w) (hframes : t.frames = .keep name :: below)
    (hf : Footing d t.id below) {f : Focus V} (hmode : t.mode = .running f) :
    Advance d t w d (stepFrame (.keep name) below f t w).1
      (stepFrame (.keep name) below f t w).2 := by
  have hgranted := h.sound.crowd.granted t List.mem_cons_self
  rw [hmode] at hgranted
  cases f with
  | granted r =>
    exact advance_pop h hframes rfl rfl hf
      (.keepToken name fun id hid => hgranted id (hid ▸ rfl)) (by rintro id ⟨⟩)
  | next | give a | late | unwind p =>
    exact advance_pop h hframes rfl rfl hf (.refl w) (by rintro id ⟨⟩)

/-- A step on a `.deposit`, which leaves the answer for a token, is an `Advance`. -/
theorem advance_deposit {name : String} (h : Active d t w)
    (hframes : t.frames = .deposit name :: below) (hf : Footing d t.id below) {f : Focus V}
    (hmode : t.mode = .running f) :
    Advance d t w d (stepFrame (.deposit name) below f t w).1
      (stepFrame (.deposit name) below f t w).2 := by
  have hgranted := h.sound.crowd.granted t List.mem_cons_self
  rw [hmode] at hgranted
  cases f with
  | granted r =>
    have hleft : KeepsTasks w { w with deposits := rename name (some r) w.deposits } :=
      { KeepsTasks.refl w with
        deposits := fun x hx => by
          rcases List.mem_cons.1 hx with rfl | hx
          · exact Or.inr fun id hid => hgranted id (Option.some.inj hid ▸ rfl)
          · exact Or.inl (List.mem_of_mem_filter hx)
        came := KeepsPauses.came_none rfl }
    exact advance_pop h hframes rfl rfl hf hleft (by rintro id ⟨⟩)
  | next | give a | late | unwind p =>
    exact advance_pop h hframes rfl rfl hf (.refl w) (by rintro id ⟨⟩)

/-- A step on a `.relock`, which takes the core lock again, is an `Advance`. -/
theorem advance_relock (h : Active d t w) (hframes : t.frames = .relock :: below)
    (hf : Footing d t.id below) {f : Focus V} (hmode : t.mode = .running f) :
    Advance d t w d (stepFrame .relock below f t w).1 (stepFrame .relock below f t w).2 := by
  have hgranted := h.sound.crowd.granted t List.mem_cons_self
  rw [hmode] at hgranted
  exact advance_pop h hframes rfl rfl hf (.refl w) hgranted

/-- A step on a `.pausing`, the **end of a pause**, is an `Advance`. -/
theorem advance_pausing {ctx token signal : Nat} {value : Option V} (h : Active d t w)
    (hframes : t.frames = .pausing ctx token signal value :: below) (hf : Footing d t.id below)
    (hover : t.isOver = false) (f : Focus V) :
    Advance d t w (d.find (w.pool.leftOpen "resume"))
      (stepFrame (.pausing ctx token signal value) below f t w).1
      (stepFrame (.pausing ctx token signal value) below f t w).2 := by
  set rs := w.pool.leftOpen "resume"
  set cause := (w.pool.signal signal).collect
  have hfound := (h.resumes hframes hover cause).found rs
  set v : Scene V := { w with
    pool := (w.pool.noteBack ctx cause).unpark ctx (w.pool.context ctx).heldToken }
  have hend : ({ w with pool := (w.pool.endPause ctx cause).2 } : Scene V) = v.found rs := by
    rw [Pool.endPause_eq, Pool.check_eq]
    rfl
  have hkept : KeepsTasks (v.found rs) ((v.found rs).unpin token) := .unpin token _
  have hgo : ∀ {m : Mode V}, m.Goes ((v.found rs).unpin token).pool.ledger.tokens.size →
      Advance d t w (d.find rs) { t with frames := below, mode := m }
        ((v.found rs).unpin token) := fun {m} hm =>
    .found rs ((hfound.keepsTasks hkept).mode hm) (Or.inl (hf.congr (Docket.sameFor_find _ _ _)))
      hkept.crew hkept.reports
  simp only [stepFrame, stepPausing, onPool]
  rw [hend]
  split
  · exact hgo (by rintro id ⟨⟩)
  · exact hgo (by rintro id ⟨⟩)
  · exact hgo (by rintro id ⟨⟩)

/-! ### Workers -/

section Workers

variable {slot ctx : Nat}

/-- A worker that looks for an entry or tallies quits has nothing below its loop, and no body. -/
theorem loop_inv {phase : Phase} (hf : Footing d t.id (.worker slot ctx phase :: below))
    (hphase : phase ≠ .serve) : below = [] ∧ d.body t.id = none := by
  cases hf with
  | push plain footing => cases plain
  | loop body => exact ⟨rfl, body⟩
  | served => exact absurd rfl hphase

/-- The scene in which the clock went on and the queue is `q`. -/
def looked (q : Queue (Work (Job V))) (w : Scene V) : Scene V :=
  { w.tick.2 with pool := { w.pool with queue := q } }

/-- The scene in which the producers were notified if an entry was popped. -/
def notified (popped : Bool) (w : Scene V) : Scene V :=
  if popped then w.modifyPool fun p => { p with queue := p.queue.notifySpace } else w

/-- Notifying the producers keeps the tasks. -/
theorem keepsTasks_notified (popped : Bool) (w : Scene V) : KeepsTasks w (w.notified popped) := by
  rw [notified]
  split
  · exact .keepsMine fun _ => (Queue.shed_waiters _ _ _).keepsMine
  · exact .refl w

section Pick

variable {q : Queue (Work (Job V))} {popped : Bool} {e : QueueEntry (Work (Job V))}

/-- `dequeue` on the next tick leaves the scene `looked`. -/
theorem onQueue_dequeue {found : Option (QueueEntry (Work (Job V)))}
    (hq : w.pool.queue.dequeue (w.now + 1) = ((found, popped), q)) :
    w.tick.2.onQueue (·.dequeue w.tick.1) = ((found, popped), w.looked q) := by
  simp only [onQueue, onPool, show w.tick.2.pool = w.pool from rfl,
    show w.tick.1 = w.now + 1 from rfl, hq]
  rfl

/-- A worker that finds no entry **waits**, which is an `Advance`. -/
theorem advance_pick_none (h : Active d t w) (hframes : t.frames = [.worker slot ctx .pick])
    (hf : Footing d t.id t.frames)
    (hq : w.pool.queue.dequeue (w.now + 1) = ((none, popped), q)) (f : Focus V) :
    Advance d t w (d.noteFrame (.worker slot ctx .pick) f t.id w)
      (stepFrame (.worker slot ctx .pick) [] f t w).1
      (stepFrame (.worker slot ctx .pick) [] f t w).2 := by
  have hnote : d.noteFrame (.worker slot ctx .pick) f t.id w = d := by
    simp only [Docket.noteFrame, hq, Option.map_none]
  have hstep : stepFrame (.worker slot ctx .pick) [] f t w =
      lookForData { t with frames := [.worker slot ctx .pick] }
        ((w.looked q).notified popped).unlock := by
    simp only [stepFrame, stepWorker, onQueue_dequeue hq]
    rfl
  have hlooked : KeepsTasks w (w.looked q) :=
    KeepsTasks.trans .others (.keepsMine fun _ => (Queue.shed_of_dequeue_none hq).keepsMine)
  have hkept : KeepsTasks w ((w.looked q).notified popped).unlock :=
    hlooked.trans ((keepsTasks_notified popped _).trans .others)
  have hsame : ({ t with frames := [.worker slot ctx .pick] } : Thread V) = t := by
    rw [← hframes]
  have ho := pushesPlain_lookForData t ((w.looked q).notified popped).unlock
  obtain ⟨ha, hst⟩ := (h.keepsTasks hkept).pushesPlain hf ho
  rw [hnote, hstep, hsame]
  exact .keepsTasks (hkept.trans ho.keepsTasks) ha hst

/-- A worker that finds a quit **leaves** or goes on looking, which is an `Advance`. -/
theorem advance_pick_quit (h : Active d t w) (hframes : t.frames = [.worker slot ctx .pick])
    (hbody : d.body t.id = none)
    (hq : w.pool.queue.dequeue (w.now + 1) = ((some e, popped), q)) (hwork : e.work = .quit)
    (f : Focus V) :
    Advance d t w (d.noteFrame (.worker slot ctx .pick) f t.id w)
      (stepFrame (.worker slot ctx .pick) [] f t w).1
      (stepFrame (.worker slot ctx .pick) [] f t w).2 := by
  set w₂ := (w.looked q).notified popped
  set v : Scene V := ({ w₂ with pool := (w₂.pool.retire slot).2 } : Scene V).unlock
  have hnote : d.noteFrame (.worker slot ctx .pick) f t.id w = d := by
    simp only [Docket.noteFrame, hq, Option.map_some, hwork]
  have hstep : stepFrame (.worker slot ctx .pick) [] f t w =
      if (w₂.pool.retire slot).1 then ({ t with frames := [], mode := .over (.ok none) }, v)
      else ({ t with frames := [.worker slot ctx .pick], mode := .waiting (.core .next) }, v) := by
    simp only [stepFrame, stepWorker, onQueue_dequeue hq, hwork]
    rfl
  have hlooked : KeepsTasks w (w.looked q) :=
    KeepsTasks.trans .others (.keepsMine fun _ => Queue.keepsMine_of_quit hq hwork)
  have hretire : KeepsTasks w₂ { w₂ with pool := (w₂.pool.retire slot).2 } :=
    .act (.retire slot) rfl rfl
  have hkept : KeepsTasks w v :=
    hlooked.trans ((keepsTasks_notified popped _).trans (hretire.trans .others))
  rw [hnote, hstep]
  split
  · refine .keepsTasks hkept
      ((h.keepsTasks hkept).after (.refl v) ⟨rfl, rfl, ?_, fun _ => rfl, ?_⟩ ?_ ?_
      h.sound.logAccounted fun id _ => .refl id d) (Or.inl (.ground hbody))
    · rintro i ⟨⟩
    · rintro id ⟨⟩
    · rw [Thread.away, Thread.away, hframes]
      rfl
    · have hcrew := (h.keepsTasks hkept).sound.roster
      rw [List.flatMap_cons, Thread.errands, hframes] at hcrew
      exact hcrew
  · exact .keepsTasks hkept ((h.keepsTasks hkept).retop hframes rfl rfl rfl (by rintro id ⟨⟩))
      (Or.inl (.loop hbody slot ctx (by simp)))

/-- A worker that finds an event **begins to serve it**, which is an `Advance`. -/
theorem advance_pick_event {j : Job V} (h : Active d t w)
    (hframes : t.frames = [.worker slot ctx .pick]) (hbody : d.body t.id = none)
    (hq : w.pool.queue.dequeue (w.now + 1) = ((some e, popped), q)) (hwork : e.work = .event j)
    (f : Focus V) :
    Advance d t w (d.noteFrame (.worker slot ctx .pick) f t.id w)
      (stepFrame (.worker slot ctx .pick) [] f t w).1
      (stepFrame (.worker slot ctx .pick) [] f t w).2 := by
  set v := ((w.looked q).notified popped).modifyPool
    (·.modifyContext ctx (Context.beginEvent e.priority))
  have hkept : KeepsTasks (w.looked q) v :=
    (keepsTasks_notified popped _).trans (.act (.serve ctx e.priority) rfl rfl)
  have hlooked : KeepsPauses w (w.looked q) := .of_pool (.queue q w.pool) rfl rfl rfl rfl
  have hpauses : KeepsPauses w v := hlooked.trans hkept.toKeepsPauses
  have hstep : stepFrame (.worker slot ctx .pick) [] f t w =
      ({ t with frames := [.job ctx j, .worker slot ctx .serve], mode := .running .next }, v) := by
    simp only [stepFrame, stepWorker, onQueue_dequeue hq, hwork]
    rfl
  have hacts : Acts t w
      { t with frames := [.job ctx j, .worker slot ctx .serve], mode := .running .next } v := by
    refine ⟨rfl, rfl, fun i hi => Or.inl ?_, by rintro ⟨⟩, by rintro id ⟨⟩⟩
    rw [Thread.contexts, hframes]
    simpa [Thread.contexts, Frame.contexts] using hi
  have haway : ([.job ctx j, .worker slot ctx .serve] : List (Frame V)).filterMap
      Frame.paused? = t.away := by
    rw [Thread.away, hframes]
    rfl
  -- The entry leaves the queue, and an errand is about to arrive on the worker.
  have hcrew := h.sound.roster.takesOut (Queue.takesOut_of_dequeue hq hwork)
  rw [List.flatMap_cons, Thread.errands, hframes] at hcrew
  have hcrew₁ : CrewMatches d ((Job.coding.errand? j).toList ++ w.threads.flatMap Thread.errands)
      (w.looked q) := hcrew.congr rfl rfl rfl rfl rfl
  rw [hstep]
  cases j with
  | event ev =>
    have hnote : d.noteFrame (.worker slot ctx .pick) f t.id w = d.begin t.id none := by
      simp only [Docket.noteFrame, hq, Option.map_some, hwork]
    have hjobs : ∀ m i : Nat, (d.begin t.id none).jobs[m]? = some (some i) →
        i < (w.looked q).crew.size := fun m i hm => by
      rcases Docket.of_jobs_begin hm with hm | ⟨-, hi⟩
      · exact hcrew₁.jobs m i hm
      · cases hi
    have ha := h.after hpauses hacts haway
      ((hcrew₁.noted hjobs fun i => Docket.keeps_begin_shelf).keepsTasks hkept)
      (h.sound.logAccounted.begin hbody none) fun id hid => Docket.sameFor_begin hid none d
    rw [hnote]
    exact .silent ha (Or.inl (.push rfl
      (.served Docket.body_begin_self Docket.jobs_begin_self slot ctx)))
      (congrArg Crew.size hkept.crew) (fun i => congrArg (Crew.name i) hkept.crew)
      (fun _ _ hn => Docket.jobs_begin hn) rfl hkept.reports
  | errand er =>
    have hnote : d.noteFrame (.worker slot ctx .pick) f t.id w = d := by
      simp only [Docket.noteFrame, hq, Option.map_some, hwork]
    have ha := h.after hpauses hacts haway (hcrew₁.keepsTasks hkept) h.sound.logAccounted
      fun id _ => .refl id d
    rw [hnote]
    exact .silent ha (Or.inl (.errand hbody ctx er (.serve slot ctx)))
      (congrArg Crew.size hkept.crew) (fun i => congrArg (Crew.name i) hkept.crew)
      (fun _ _ hn => hn) rfl hkept.reports

end Pick

/-- A step on a worker in `.pick` is an `Advance`. -/
theorem advance_pick (h : Active d t w) (hframes : t.frames = .worker slot ctx .pick :: below)
    (hf : Footing d t.id (.worker slot ctx .pick :: below)) (f : Focus V) :
    Advance d t w (d.noteFrame (.worker slot ctx .pick) f t.id w)
      (stepFrame (.worker slot ctx .pick) below f t w).1
      (stepFrame (.worker slot ctx .pick) below f t w).2 := by
  obtain ⟨rfl, hbody⟩ := loop_inv hf (by simp)
  rcases hq : w.pool.queue.dequeue (w.now + 1) with ⟨⟨_ | e, popped⟩, q⟩
  · exact advance_pick_none h hframes (hframes.symm ▸ hf) hq f
  · cases hwork : e.work with
    | quit => exact advance_pick_quit h hframes hbody hq hwork f
    | event j => exact advance_pick_event h hframes hbody hq hwork f

/-- A step on a worker in `.serve`, the end of its event, is an `Advance`. -/
theorem advance_serve (h : Active d t w) (hframes : t.frames = .worker slot ctx .serve :: below)
    (hst : t.Stands d) {f : Focus V} (hmode : t.mode = .running f) :
    Advance d t w (d.noteFrame (.worker slot ctx .serve) f t.id w)
      (stepFrame (.worker slot ctx .serve) below f t w).1
      (stepFrame (.worker slot ctx .serve) below f t w).2 := by
  set rs := w.pool.leftOpen "dispatch"
  have hstep : stepFrame (.worker slot ctx .serve) below f t w =
      ({ t with frames := .worker slot ctx .tally :: below, mode := .waiting (.core .next) },
        ((w.unlock.found (f.panic?.map fun p => ("event", p.message)).toList).found rs)) := by
    cases f with
    | unwind p =>
      simp only [stepFrame, stepWorker, endEvent_eq]
      rfl
    | next | give a | granted r | late =>
      simp only [stepFrame, stepWorker, endEvent_eq]
      rw [show Focus.panic? _ = none from rfl, Option.map_none, Option.toList_none, found_nil]
      rfl
  rw [hstep]
  rcases hst with hf | ⟨hbody, hnext, slot', ctx', hserve⟩
  · rw [hframes] at hf
    cases hf with
    | push plain footing => cases plain
    | loop body _ _ between => exact absurd rfl between
    | @served n body job =>
      set p := f.panic?
      set rs₀ := (p.map fun p => ("event", p.message)).toList
      have hhand : d.keeps (.hand t.id) = none := by
        rw [Option.eq_none_iff_forall_ne_some]
        intro m hm
        obtain rfl := Option.some.inj ((h.sound.logAccounted.hand_body t.id m hm).symm.trans body)
        obtain ⟨task, hjob⟩ := h.sound.logAccounted.keeps_job _ m hm
        exact Option.some_ne_none task (Option.some.inj (hjob.symm.trans job))
      have horigin : d.origin w.crew.name n = "event" := by
        rw [Docket.origin, job]
      have hfree : Active d t w.unlock := h.keepsTasks .others
      have hended : Active (d.finish t.id p) t (w.unlock.found rs₀) :=
        hfree.meanwhile (keepsPauses_found rs₀ w.unlock)
          ((hfree.sound.roster.found rs₀).noted
            (fun m i hm => h.sound.roster.jobs m i (Docket.jobs_finish ▸ hm)) fun i => by simp)
          (h.sound.logAccounted.finish hhand p) fun id hid => Docket.sameFor_finish hid p d
      have hbody : ((d.finish t.id p).find rs).body t.id = none := Docket.body_finish_self
      have hsame : w.SameCrewAndQueue ((w.unlock.found rs₀).found rs) := ⟨rfl, rfl, rfl⟩
      refine {
        active := (hended.found rs).retop hframes rfl rfl rfl (by rintro id ⟨⟩)
        stands := Or.inl (.loop hbody slot ctx (by simp))
        size_le := Nat.le_refl _
        name := fun _ _ => rfl
        jobs := fun _ _ hn => Docket.jobs_finish.symm ▸ hn
        told := ⟨.ended n p :: rs.map fun r => .found r.1 r.2, ?_, ?_, ?_⟩ }
      · show ((d.finish t.id p).find rs).log = _
        rw [Docket.finish_of_some body]
        exact List.append_assoc _ _ _
      · rw [report_ended, Advance.report_find, horigin]
        exact List.append_assoc _ _ _
      · refine .served rs job ⟨body, f, hmode, rfl⟩ hsame hframes ?_ ?_ ?_ <;> rfl
  · obtain rfl : below = [] := (List.cons.inj (hframes.symm.trans hserve)).2
    obtain rfl := Mode.running.inj (hmode.symm.trans hnext)
    have hnote : d.noteFrame (.worker slot ctx .serve) .next t.id w = d.find rs := by
      rw [Docket.noteFrame, Docket.finish_of_none hbody]
    rw [hnote, show Focus.panic? (.next : Focus V) = none from rfl, Option.map_none,
      Option.toList_none, found_nil]
    exact .found rs (((h.keepsTasks .others).found rs).retop hframes rfl rfl rfl (by rintro id ⟨⟩))
      (Or.inl (Footing.loop (d := d.find rs) hbody slot ctx (by simp))) rfl rfl

/-- A step on a worker in `.tally`, which pushes the quits that were counted, is an `Advance`. -/
theorem advance_tally (h : Active d t w) (hframes : t.frames = .worker slot ctx .tally :: below)
    (hf : Footing d t.id (.worker slot ctx .tally :: below)) (f : Focus V) :
    Advance d t w d (stepFrame (.worker slot ctx .tally) below f t w).1
      (stepFrame (.worker slot ctx .tally) below f t w).2 := by
  obtain ⟨rfl, hbody⟩ := loop_inv hf (by simp)
  have hcount : KeepsTasks w { w with pool := w.pool.countQuits.2 } := .act .countQuits rfl rfl
  set v : Scene V := ({ w with pool := w.pool.countQuits.2 } : Scene V).unlock
  set quits := w.pool.countQuits.1
  have hpushed : KeepsTasks v (pushQuits quits v) := keepsTasks_pushQuits quits v
  have htold : KeepsTasks (pushQuits quits v)
    ((pushQuits quits v).modifyPool (·.tellShrink quits)) := by
    refine .act (.tellShrink quits) ?_ ?_ <;>
    · rw [Pool.perform, Pool.tellShrink]
      split <;> rfl
  have hkept : KeepsTasks w (if quits = 0 then pushQuits quits v
      else (pushQuits quits v).modifyPool (·.tellShrink quits)) := by
    have h₁ := hcount.trans (KeepsTasks.trans .others hpushed)
    split
    · exact h₁
    · exact h₁.trans htold
  exact .keepsTasks hkept ((h.keepsTasks hkept).retop hframes rfl rfl rfl (by rintro id ⟨⟩))
    (Or.inl (.loop hbody slot ctx (by simp)))

end Workers

/-! ### Agendas -/

/-- The first live entry of an agenda stands at some index. -/
theorem exists_takeAt {agenda : Option (Agenda (Job V))} {x : AgendaEntry (Job V) × Agenda (Job V)}
    (h : agenda.bind Agenda.takeFirst = some x) : ∃ a i, agenda = some a ∧ a.takeAt i = some x := by
  obtain ⟨a, ha, hx⟩ := Option.bind_eq_some_iff.1 h
  obtain ⟨i, -, hi⟩ := Option.bind_eq_some_iff.1 hx
  exact ⟨a, i, ha, hi⟩

/-- An entry of the agenda that is taken and **run** is an `Advance`. -/
theorem advance_runEntry {t₀ : Thread V} (h : Active d t₀ w)
    (hbelow : t₀.frames = [] ∨ ∃ left count, t₀.frames = [.drain left count])
    (hbody : d.body t₀.id = none) {agenda agenda' : Agenda (Job V)} {e : AgendaEntry (Job V)}
    {i : Nat}
    (ha : w.agenda = some agenda) (htake : agenda.takeAt i = some (e, agenda')) :
    Advance d t w d (runEntry (some (e, agenda')) t₀ w).1
      (runEntry (some (e, agenda')) t₀ w).2 := by
  set a : Answer V := .number (w.toldDelay e.delay)
  set w₁ : Scene V := { w with agenda := some agenda' }
  have hperch : Perch (.inline a :: t₀.frames) := by
    rcases hbelow with heq | ⟨left, count, heq⟩
    · rw [heq]
      exact .taken a
    · rw [heq]
      exact .drain a left count
  have hground : Footing d t₀.id t₀.frames := by
    rcases hbelow with heq | ⟨left, count, heq⟩
    · rw [heq]
      exact .ground hbody
    · rw [heq]
      exact .drain hbody left count
  have hcrew := h.sound.roster.takeAt ha (Agenda.takesOut_of_takeAt htake)
  have hkept : KeepsTasks w₁ _ := .addContext t₀.role.threadName e.priority w₁
  have hpauses : KeepsPauses w w₁ := .of_pool (.refl _) rfl rfl rfl rfl
  have hnew : ∀ j : Job V, Acts t₀ w ((t₀.push [.job w.pool.contexts.size j, .inline a]).await
      (.core .next)) (runEntry (some (e, agenda')) t₀ w).2 := fun j => by
    refine ⟨rfl, rfl, fun i hi => ?_, by rintro ⟨⟩, by rintro id ⟨⟩⟩
    rcases List.mem_cons.1 hi with rfl | hi
    · refine Or.inr ⟨Nat.le_refl _, ?_, fun u hu => Or.inl hu⟩
      show w.pool.contexts.size < ((w.pool.contexts.push _).modify _ _).size
      rw [Array.size_modify, Array.size_push]
      exact Nat.lt_succ_self _
    · exact Or.inl hi
  obtain ⟨handle, priority, delay, work, live⟩ := e
  cases work with
  | event ev =>
    refine .silent (h.after (hpauses.trans hkept.toKeepsPauses) (hnew (.event ev)) rfl
      (hcrew.keepsTasks hkept) h.sound.logAccounted fun id _ => .refl id d)
      (Or.inl (.push rfl (.push rfl hground))) (congrArg Crew.size hkept.crew)
      (fun i => congrArg (Crew.name i) hkept.crew) (fun _ _ hn => hn) rfl hkept.reports
  | errand er =>
    refine .silent (h.after (hpauses.trans hkept.toKeepsPauses) (hnew (.errand er)) rfl
      (hcrew.keepsTasks hkept) h.sound.logAccounted fun id _ => .refl id d)
      (Or.inl (.errand hbody _ er hperch)) (congrArg Crew.size hkept.crew)
      (fun i => congrArg (Crew.name i) hkept.crew) (fun _ _ hn => hn) rfl hkept.reports

/-- A step on a `.drain` is an `Advance`. -/
theorem advance_drain {left count : Nat} (h : Active d t w)
    (hframes : t.frames = .drain left count :: below)
    (hf : Footing d t.id (.drain left count :: below)) (hover : t.isOver = false) (f : Focus V) :
    Advance d t w d (stepFrame (.drain left count) below f t w).1
      (stepFrame (.drain left count) below f t w).2 := by
  cases hf with
  | push plain footing => cases plain
  | drain body =>
    have hover' : ∀ {m : Mode V}, m.Goes w.pool.ledger.tokens.size →
        Advance d t w d { t with frames := [], mode := m } w := fun hm =>
      advance_pop h hframes rfl rfl (.ground body) (.refl w) hm
    cases left with
    | zero => cases f <;> exact hover' (by rintro id ⟨⟩)
    | succ left =>
      have h₀ : Active d { t with frames := [.drain left (count + 1)] } w := by
        refine h.reframe (fun i hi => ?_) ?_ ?_ (h.goes hover)
        · cases hi
        · rw [Thread.away, hframes]
          rfl
        · rw [Thread.errands, hframes]
          rfl
      rw [stepFrame.eq_def]
      dsimp only
      split
      · exact hover' (by rintro id ⟨⟩)
      · exact hover' (by rintro id ⟨⟩)
      · rename_i hsucc
        cases hsucc
        split
        · exact hover' (by rintro id ⟨⟩)
        · rename_i hsome
          obtain ⟨x, htaken⟩ := Option.ne_none_iff_exists'.1 hsome
          obtain ⟨a, i, ha, hi⟩ := exists_takeAt htaken
          rw [htaken]
          exact advance_runEntry h₀ (Or.inr ⟨_, _, rfl⟩) body ha hi

/-! ### Steps -/

/-- **Every step** of a running thread is an `Advance`, with what the docket notes of it. -/
theorem advance_step (h : Active d t w) (hst : t.Stands d) {f : Focus V}
    (hmode : t.mode = .running f) :
    Advance d t w (d.noteStep f t w) (step f t w).1 (step f t w).2 := by
  have hover : t.isOver = false := by
    rw [Thread.isOver, hmode]
  rw [step, Docket.noteStep]
  cases hframes : t.frames with
  | nil =>
    have hcrew := h.sound.roster
    rw [List.flatMap_cons, Thread.errands, hframes] at hcrew
    refine .keepsTasks (.refl w) (h.after (.refl w) ⟨rfl, rfl, by rintro i ⟨⟩, fun _ => rfl,
      by rintro id ⟨⟩⟩ ?_ hcrew h.sound.logAccounted fun id _ => .refl id d) ?_
    · rw [Thread.away, Thread.away, hframes]
    · rcases hst with hf | ⟨-, -, slot, ctx, heq⟩
      · rw [hframes] at hf
        exact Or.inl hf
      · rw [hframes] at heq
        cases heq
  | cons fr below =>
    have hf : (∀ slot ctx, fr ≠ .worker slot ctx .serve) → Footing d t.id (fr :: below) :=
      hst.footing hframes
    cases fr with
    | ops place label current rest run =>
      exact advance_ops h hover hframes (hf (by simp)) hmode
    | batch rest answers =>
      exact advance_batch h hframes ((hf (by simp)).of_plain rfl) hover f
    | job ctx j => exact advance_job h hframes (hf (by simp)) f
    | inline a => exact advance_inline h hframes ((hf (by simp)).of_plain rfl) f
    | relock => exact advance_relock h hframes ((hf (by simp)).of_plain rfl) hmode
    | keep name => exact advance_keep h hframes ((hf (by simp)).of_plain rfl) hmode
    | pausing ctx token signal value =>
      exact advance_pausing h hframes ((hf (by simp)).of_plain rfl) hover f
    | worker slot ctx phase =>
      cases phase with
      | pick => exact advance_pick h hframes (hf (by simp)) f
      | serve => exact advance_serve h hframes hst hmode
      | tally => exact advance_tally h hframes (hf (by simp)) f
    | drain left count => exact advance_drain h hframes (hf (by simp)) hover f
    | deposit name => exact advance_deposit h hframes ((hf (by simp)).of_plain rfl) hmode

/-- A thread that **goes on** after waiting is an `Advance` that notes nothing. -/
theorem advance_resume (h : Active d t w) (hst : t.Stands d) {wait : Wait V}
    (hmode : t.mode = .waiting wait) :
    Advance d t w d (resume wait t w).1 (resume wait t w).2 := by
  have hf : Footing d t.id t.frames := by
    rcases hst with hf | ⟨-, hnext, -⟩
    · exact hf
    · rw [hmode] at hnext
      cases hnext
  exact .pushesPlain h hf (pushesPlain_resume hmode (h.sound.crowd.granted t List.mem_cons_self)
    h.sound.deposits)

/-- The **beginning of an operation** by a thread without frames is an `Advance`, with what the
docket notes of it. -/
theorem advance_beginOp (h : Active d t w) (hframes : t.frames = []) (hbody : d.body t.id = none)
    {place : Place} (hplace : place = .ground ∨ place = .bench) (op : Op V) :
    Advance d t w (d.noteOp place op w) (beginOp place "" op t w).1
      (beginOp place "" op t w).2 := by
  have hf : Footing d t.id t.frames := hframes ▸ .ground hbody
  have hnoEvent : ∀ ctx, place = .event ctx → ctx ∈ t.contexts ∧ t.isOver = false := by
    rcases hplace with rfl | rfl <;> simp
  rcases hplace with rfl | rfl
  · exact advance_comes h hf hnoEvent (comes_beginOp "" (by simp))
  · have hrun : ∀ {x : Option (AgendaEntry (Job V) × Agenda (Job V))},
        (∀ y, x = some y → ∃ a i, w.agenda = some a ∧ a.takeAt i = some y) →
          Advance d t w d (runEntry x t w).1 (runEntry x t w).2 := fun {x} hx => by
      cases x with
      | none => exact .pushesPlain h hf (.answer (.refl w) _)
      | some y =>
        obtain ⟨a, i, ha, hi⟩ := hx y rfl
        exact advance_runEntry h (Or.inl hframes) hbody ha hi
    cases op with
    | runNext => exact hrun fun y hy => exists_takeAt hy
    | runRaw i =>
      refine hrun fun y hy => ?_
      obtain ⟨a, ha, hi⟩ := Option.bind_eq_some_iff.1 hy
      exact ⟨a, i, ha, hi⟩
    | drain limit =>
      have hdrain : beginOp .bench "" (.drain limit) t w =
          ({ t with frames := [.drain limit 0], mode := .running .next }, w) := by
        show ((t.push [.drain limit 0]).go .next, w) = _
        rw [Thread.push, hframes]
        rfl
      have ha : Active d { t with frames := [.drain limit 0], mode := .running .next } w := by
        refine h.reframe (by rintro i ⟨⟩) ?_ ?_ (by rintro id ⟨⟩)
        · rw [Thread.away, hframes]
          rfl
        · rw [Thread.errands, hframes]
          rfl
      rw [hdrain]
      exact .keepsTasks (.refl w) ha (Or.inl (.drain hbody limit 0))
    | register key name script =>
      have ha : Active d t (w.register key name script) :=
        h.meanwhile (.of_pool (.refl _) rfl rfl rfl rfl)
          (h.sound.roster.register h.sound.logAccounted key name script) h.sound.logAccounted
          fun id _ => .refl id d
      exact {
        active := ha.mode (by rintro id ⟨⟩)
        stands := Or.inl hf
        size_le := by
          show w.crew.size ≤ (w.crew.register name).size
          rw [Crew.size_register]
          exact Nat.le_succ _
        name := fun i hi => Crew.name_register name hi
        jobs := fun _ _ hn => hn
        told := ⟨[], (List.append_nil _).symm, (List.append_nil _).symm, .found []⟩ }
    | _ => exact advance_comes h hf hnoEvent (comes_beginBench (by simp) (by simp))

end Scene

end TurnPool.Scenario
