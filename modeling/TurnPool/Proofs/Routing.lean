import TurnPool.Proofs.Stories

/-!
# What is reported as fatal

A fatal failure of a run is reported under the name of its task, and so is a panic that ends the
run. A panic that ends anything else that a worker serves is reported under a name of its own. Three
layers may catch a panic: the pause in whose body it is raised, the run, and the worker. The
completion of the run may be used, dropped or parked before, or be dropped by the panic itself.

However these come together, nothing is reported twice and nothing is lost. What is reported is what
is due for the runs and the events, each for itself: one report for a fatal failure that the
completion delivers, and one for a panic. By the time of a report the task has followed the outcome
that it is about, and the other tasks stand where they stood.

## Main results

* `Story.Routed`: what was reported is what was due.
* `Story.Follows`: what is noted when a story goes on, and what has happened by then.
* `Story.fatal_routing`: both hold in every story.
-/

namespace TurnPool.Scenario

variable {V : Type}

/-! ### Who is in the middle of a run -/

/-- The completion that a frame is to drop, if a run ends there. -/
def Frame.run? : Frame V → Option Completion
  | .ops _ _ _ _ run => run
  | _ => none

/-- The completion of the run that a thread is in the middle of. -/
def Thread.run? (t : Thread V) : Option Completion := t.frames.findSome? Frame.run?

variable {d : Docket} {id : Nat} {fs : List (Frame V)} {t : Thread V}

/-- A plain frame has no run. -/
theorem Frame.run?_of_isPlain {fr : Frame V} (h : fr.isPlain = true) : fr.run? = none := by
  cases fr with
  | ops place label current rest run =>
    exact Option.isNone_iff_eq_none.1 (Bool.and_eq_true_iff.1 h).1
  | _ => rfl

/-- A perch has no run. -/
theorem Perch.run? (h : Perch fs) : fs.findSome? Frame.run? = none := by
  cases h <;> rfl

/-- The run in the frames is **the one that the docket has for the thread**, and its completion is
kept in hand just while it is owed. -/
theorem Footing.run? (h : Footing d id fs) :
    (∀ c, fs.findSome? Frame.run? = some c → ∃ n, d.body id = some n ∧
      d.jobs[n]? = some (some c.task) ∧ d.keeps (.hand id) = if c.owed then some n else none) ∧
    ∀ n task, d.body id = some n → d.jobs[n]? = some (some task) →
      ∃ c, fs.findSome? Frame.run? = some c ∧ c.task = task := by
  have hidle : ∀ {fs : List (Frame V)}, d.body id = none → fs.findSome? Frame.run? = none →
      (∀ c, fs.findSome? Frame.run? = some c → ∃ n, d.body id = some n ∧
        d.jobs[n]? = some (some c.task) ∧ d.keeps (.hand id) = if c.owed then some n else none) ∧
      ∀ n task, d.body id = some n → d.jobs[n]? = some (some task) →
        ∃ c, fs.findSome? Frame.run? = some c ∧ c.task = task := fun hbody hnone =>
    ⟨fun c hc => absurd (hnone.symm.trans hc) (Option.some_ne_none c).symm,
      fun n _ hn => absurd (hbody.symm.trans hn) (Option.some_ne_none n).symm⟩
  induction h with
  | ground body => exact hidle body rfl
  | drain body left count => exact hidle body rfl
  | loop body slot ctx between => exact hidle body rfl
  | errand body ctx e perch => exact hidle body perch.run?
  | @served n body job slot ctx =>
    refine ⟨by rintro c ⟨⟩, fun m task hm htask => ?_⟩
    obtain rfl := Option.some.inj (body.symm.trans hm)
    cases Option.some.inj (job.symm.trans htask)
  | @run n c body job hand ctx label current rest below perch =>
    refine ⟨fun c' hc => ?_, fun m task hm htask => ⟨c, rfl, ?_⟩⟩
    · obtain rfl := Option.some.inj hc
      exact ⟨n, body, job, hand⟩
    · obtain rfl := Option.some.inj (body.symm.trans hm)
      exact Option.some.inj (Option.some.inj (job.symm.trans htask))
  | push plain footing ih =>
    rw [List.findSome?_cons, Frame.run?_of_isPlain plain]
    exact ih

/-- `Footing.run?` for a thread that stands. -/
theorem Thread.Stands.run? (h : t.Stands d) :
    (∀ c, t.run? = some c → ∃ n, d.body t.id = some n ∧ d.jobs[n]? = some (some c.task) ∧
      d.keeps (.hand t.id) = if c.owed then some n else none) ∧
    ∀ n task, d.body t.id = some n → d.jobs[n]? = some (some task) →
      ∃ c, t.run? = some c ∧ c.task = task := by
  rcases h with h | ⟨hbody, -, slot, ctx, hframes⟩
  · exact h.run?
  · refine ⟨fun c hc => ?_, fun n _ hn => absurd (hbody.symm.trans hn) (Option.some_ne_none n).symm⟩
    rw [Thread.run?, hframes] at hc
    cases hc

namespace Scene.Entails

variable {t' : Thread V} {w w' : Scene V} {es : List LogEntry} {n : Nat} {o : Outcome}
  {p : Option Panic}

/-- What was found open has no number. -/
theorem not_mem_found {rs : List (String × String)} {e : LogEntry} (hn : e.number? = some n) :
    e ∉ rs.map fun r => LogEntry.found r.1 r.2 := fun hmem => by
  obtain ⟨r, -, rfl⟩ := List.mem_map.1 hmem
  cases hn

/-- An outcome that was logged is that of a run, and **was delivered** to its task. -/
theorem delivered_of_mem (h : Entails d t w t' w' es) (hmem : .delivered n o ∈ es) :
    ∃ (task : Nat) (v : Scene V), d.jobs[n]? = some (some task) ∧ w.Delivered task o v ∧
      v.pool.reports = w.pool.reports ∧ v.SameCrewAndQueue w' := by
  cases h with
  | found rs => exact absurd hmem (not_mem_found rfl)
  | @delivered m task o' v rest job delivered silent same closing =>
    rcases List.mem_cons.1 hmem with heq | hmem
    · cases heq
      exact ⟨task, v, job, delivered, silent, same⟩
    · rcases closing with rfl | ⟨q, -, -, -, rfl⟩
      · cases hmem
      · cases List.mem_singleton.1 hmem
  | ended => cases List.mem_singleton.1 hmem
  | served rs =>
    rcases List.mem_cons.1 hmem with heq | hmem
    · cases heq
    · exact absurd hmem (not_mem_found rfl)

/-- An end that was logged is that of a run that dropped its completion then, of one that had used
or parked it, or of an event that a worker served. -/
theorem ended_cases (h : Entails d t w t' w' es) (hmem : .ended n p ∈ es) :
    Ends d t n p ∧
      (((∃ task : Nat, d.jobs[n]? = some (some task)) ∧ d.keeps (.hand t.id) = some n ∧
          .delivered n (Fate.ending p.isSome .abandon) ∈ es) ∨
        ((∃ task : Nat, d.jobs[n]? = some (some task)) ∧ d.keeps (.hand t.id) = none ∧
          w.SameCrewAndQueue w') ∨
        (d.jobs[n]? = some none ∧ w.SameCrewAndQueue w' ∧ t'.id = t.id ∧ ∃ slot ctx,
          t.frames = [.worker slot ctx .serve] ∧ t'.frames = [.worker slot ctx .tally] ∧
            t'.mode = .waiting (.core .next))) := by
  cases h with
  | found rs => exact absurd hmem (not_mem_found rfl)
  | @delivered m task o' v rest job delivered silent same closing =>
    rcases List.mem_cons.1 hmem with heq | hrest
    · cases heq
    · -- The run ends by the thread that had the completion in hand.
      rcases closing with rfl | ⟨q, hends, hhand, rfl, rfl⟩
      · cases hrest
      · cases List.mem_singleton.1 hrest
        exact ⟨hends, Or.inl ⟨⟨task, job⟩, hhand, List.mem_cons_self⟩⟩
  | @ended m task q job ends bereft same =>
    cases List.mem_singleton.1 hmem
    exact ⟨ends, Or.inr (Or.inl ⟨⟨task, job⟩, bereft, same⟩)⟩
  | @served m slot ctx q rs job ends same frames goes waits id =>
    rcases List.mem_cons.1 hmem with heq | hmem
    · cases heq
      exact ⟨ends, Or.inr (Or.inr ⟨job, same, id, slot, ctx, frames, goes, waits⟩)⟩
    · exact absurd hmem (not_mem_found rfl)

end Scene.Entails

namespace Story

variable {s s' : Story V}

/-! ### What was reported -/

/-- **The reports are those that are due**: for each run the fatal message of the outcome delivered
and the panic that ended it, under the name of its task; for each event the panic that ended it,
under `event`; and what was found open. -/
structure Routed (s : Story V) : Prop where
  /-- All that was reported, be it read or not, is what is due for everything that was begun, and
  what was found open. -/
  reports : (s.read ++ s.scene.pool.reports).Perm
    ((List.range s.docket.jobs.length).flatMap (fun n => s.docket.due s.scene.crew.name n) ++
      s.docket.findings)
  /-- The completion of a run delivers one outcome, unless somebody still keeps it, and the run ends
  once, unless a thread is in the middle of it. Under the name of the task the text of the outcome
  is due if it is a fatal failure, and that of the panic if the run ended by one. -/
  run : ∀ n task : Nat, s.docket.jobs[n]? = some (some task) →
    ∃ (o : Option Outcome) (p : Option (Option Panic)),
      s.docket.outcomes n = o.toList ∧ (o = none ↔ s.docket.IsKept n) ∧
        s.docket.ends n = p.toList ∧ (p = none ↔ ∃ id, s.docket.body id = some n) ∧
          s.docket.due s.scene.crew.name n =
            (o.bind Outcome.fatal?).toList.map (fun message => (s.scene.crew.name task, message)) ++
              p.join.toList.map fun p => (s.scene.crew.name task, p.message)
  /-- Anything else that a worker serves delivers nothing, and ends once. What is due is the text of
  the panic if it ended by one. -/
  event : ∀ n, s.docket.jobs[n]? = some none →
    ∃ p : Option (Option Panic),
      s.docket.ends n = p.toList ∧ (p = none ↔ ∃ id, s.docket.body id = some n) ∧
        s.docket.due s.scene.crew.name n = p.join.toList.map fun p => ("event", p.message)
  /-- A thread is in the middle of a run if its frames say so, and it keeps the completion unless
  that was used or parked. -/
  middle : ∀ t ∈ s.scene.threads,
    (∀ c, t.run? = some c → ∃ n, s.docket.body t.id = some n ∧
      s.docket.jobs[n]? = some (some c.task) ∧
        s.docket.keeps (.hand t.id) = if c.owed then some n else none) ∧
    ∀ n task, s.docket.body t.id = some n → s.docket.jobs[n]? = some (some task) →
      ∃ c, t.run? = some c ∧ c.task = task
  /-- Completions that are parked are those that the docket says. -/
  parked : ∀ task, s.scene.parked? task = (s.docket.keeps (.shelf task)).map fun _ => .fresh task

/-- The reports of a sound story are **those that are due**. -/
theorem Sound.routed (h : s.Sound) : s.Routed where
  reports := by
    rw [h.reports]
    exact h.consistent.sound.logAccounted.reports_perm _
  run n task hjob := by
    obtain ⟨o, ho, hopen⟩ := h.consistent.sound.logAccounted.outcomes_eq hjob
    obtain ⟨p, hp, hbody⟩ := h.consistent.sound.logAccounted.ends_eq hjob
    refine ⟨o, p, ho, hopen, hp, hbody, ?_⟩
    rw [Docket.due, ho, hp, Docket.origin_of_job _ hjob]
    cases o <;> cases p <;> rfl
  event n hjob := by
    obtain ⟨p, hp, hbody⟩ := h.consistent.sound.logAccounted.ends_eq hjob
    refine ⟨p, hp, hbody, ?_⟩
    have hnone : s.docket.outcomes n = [] :=
      h.consistent.sound.logAccounted.outcomes_of_no_run fun task hrun => by
        cases Option.some.inj (hjob.symm.trans hrun)
    rw [Docket.due, hnone, hp, Docket.origin, hjob]
    cases p <;> rfl
  middle t ht := (h.consistent.stands t ht).run?
  parked := h.consistent.sound.roster.parked

/-! ### What is noted -/

/-- **What a step logs**, and what has happened by then: the outcomes logged were delivered, the
ends logged are those of the threads' bodies, and the reports that were added are those of the
log. -/
structure Follows (s s' : Story V) (es : List LogEntry) : Prop where
  /-- This is noted. -/
  log : s'.docket.log = s.docket.log ++ es
  /-- It is what is reported. -/
  reports : s'.read ++ s'.scene.pool.reports =
    s.read ++ s.scene.pool.reports ++ es.filterMap (s.docket.report s.scene.crew.name)
  /-- An outcome that is delivered is that of a run. The task follows it, and is halted if it is a
  fatal failure or a panic; nothing is reported before, and nothing happens to the tasks after. -/
  delivered : ∀ n o, .delivered n o ∈ es → ∃ (task : Nat) (v : Scene V),
    s.docket.jobs[n]? = some (some task) ∧ s.scene.Delivered task o v ∧
      v.pool.reports = s.scene.pool.reports ∧ v.SameCrewAndQueue s'.scene
  /-- What ends is what a thread was in the middle of, by the panic that passed through. -/
  ended : ∀ n p, .ended n p ∈ es → ∃ t ∈ s.scene.threads, Scene.Ends s.docket t n p
  /-- A completion that its run still had goes with it: dropped, or by the panic. -/
  owned : ∀ n p id, .ended n p ∈ es → s.docket.keeps (.hand id) = some n →
    .delivered n (Fate.ending p.isSome .abandon) ∈ es
  /-- If it had none, the end of it, be it a panic, is no matter of any task. -/
  bereft : ∀ n p, .ended n p ∈ es → (∀ id, s.docket.keeps (.hand id) ≠ some n) →
    s.scene.SameCrewAndQueue s'.scene
  /-- After anything else that a worker served the worker goes on, be it after a panic. Its context
  runs, is not noted as paused, and has left every token; and just those are counted as paused that
  are noted. -/
  served : ∀ n p, .ended n p ∈ es → s.docket.jobs[n]? = some none →
    ∃ t ∈ s.scene.threads, Scene.Ends s.docket t n p ∧ ∃ t' ∈ s'.scene.threads, t'.id = t.id ∧
      ∃ slot ctx, t.frames = [.worker slot ctx .serve] ∧ t'.frames = [.worker slot ctx .tally] ∧
        t'.mode = .waiting (.core .next) ∧
          (s'.scene.pool.context ctx).running = true ∧ ctx ∉ s'.scene.pool.away ∧
            (s'.scene.pool.context ctx).heldToken = none ∧
              (∀ token, ctx ∉ s'.scene.pool.ledger.parked token) ∧
                s'.scene.pool.sizer.paused =
                  s'.scene.pool.away.countP fun i => (s'.scene.pool.context i).pooled

/-- A step that logs and reports nothing. -/
theorem follows_nil (h : s'.docket = s.docket)
    (hreports : s'.read ++ s'.scene.pool.reports = s.read ++ s.scene.pool.reports) :
    s.Follows s' [] where
  log := by rw [h, List.append_nil]
  reports := by rw [hreports, List.filterMap_nil, List.append_nil]
  delivered _ _ hmem := absurd hmem List.not_mem_nil
  ended _ _ hmem := absurd hmem List.not_mem_nil
  owned _ _ _ hmem := absurd hmem List.not_mem_nil
  bereft _ _ hmem := absurd hmem List.not_mem_nil
  served _ _ hmem := absurd hmem List.not_mem_nil

/-- What a thread does by an `Advance` is **logged as `Follows` says**. -/
theorem Sound.follows {t t' : Thread V} {w' : Scene V} {ts : List (Thread V)} {d' : Docket}
    (h : s.Sound) (us : List (Thread V))
    (ha : Scene.Advance s.docket t { s.scene with threads := us } d' t' w')
    (hts : ts.Perm (t' :: w'.threads))
    (hmem : ∀ f, t.mode = .running f → t ∈ s.scene.threads) :
    ∃ es, s.Follows ⟨{ w' with threads := ts }, d', s.read⟩ es := by
  obtain ⟨es, hlog, hnew, hentails⟩ := ha.told
  have haccounted := h.consistent.sound.logAccounted
  have hthread : ∀ {n p}, Scene.Ends s.docket t n p → t ∈ s.scene.threads := fun hends => by
    obtain ⟨f, hf, -⟩ := hends.focus
    exact hmem f hf
  exact ⟨es, {
    log := hlog
    reports := by
      dsimp only
      rw [hnew, List.append_assoc]
    delivered := fun n o he => by
      obtain ⟨task, v, hjob, hdelivered, hsilent, hsame⟩ := hentails.delivered_of_mem he
      exact ⟨task, v, hjob, ⟨hdelivered.lives, hdelivered.halted⟩, hsilent,
        ⟨hsame.crew, hsame.agenda, hsame.queue⟩⟩
    ended := fun n p he => by
      obtain ⟨hends, -⟩ := hentails.ended_cases he
      exact ⟨t, hthread hends, hends⟩
    owned := fun n p id he hid => by
      obtain ⟨hends, ⟨-, -, hout⟩ | ⟨-, hhand, -⟩ | ⟨hjob, -⟩⟩ := hentails.ended_cases he
      · exact hout
      · obtain rfl := haccounted.body_unique id t.id n (haccounted.hand_body id n hid) hends.body
        exact absurd (hhand.symm.trans hid) (Option.some_ne_none n).symm
      · obtain ⟨task, hrun⟩ := haccounted.keeps_job _ _ hid
        cases Option.some.inj (hjob.symm.trans hrun)
    bereft := fun n p he hno => by
      obtain ⟨-, ⟨-, hhand, -⟩ | ⟨-, -, hsame⟩ | ⟨-, hsame, -⟩⟩ := hentails.ended_cases he
      · exact absurd hhand (hno t.id)
      · exact ⟨hsame.crew, hsame.agenda, hsame.queue⟩
      · exact ⟨hsame.crew, hsame.agenda, hsame.queue⟩
    served := fun n p he hevent => by
      obtain ⟨hends, ⟨⟨task, hjob⟩, -⟩ | ⟨⟨task, hjob⟩, -⟩ | ⟨-, -, hid, slot, ctx, hframes, hgoes,
        hwaits⟩⟩ := hentails.ended_cases he
      · cases Option.some.inj (hevent.symm.trans hjob)
      · cases Option.some.inj (hevent.symm.trans hjob)
      · have hcontext : ctx ∈ t'.contexts := by
          rw [Thread.contexts, hgoes]
          exact List.mem_singleton.2 rfl
        have hnot : ctx ∉ t'.away := by
          rw [Thread.away, hgoes]
          exact List.not_mem_nil
        obtain ⟨hruns, haway, hheld, hparked⟩ := ha.active.running hcontext hnot
        exact ⟨t, hthread hends, hends, t', hts.mem_iff.2 List.mem_cons_self, hid, slot, ctx,
          hframes, hgoes, hwaits, hruns, haway, hheld, hparked, ha.active.sound.books.counted⟩ }⟩

/-- Every step of a sound story is logged as `Follows` says. -/
theorem Sound.follows_step (h : s.Sound) (hs : s.Step s') : ∃ es, s.Follows s' es := by
  cases hs with
  | runs threads mode acts after =>
    obtain ⟨ha, hst⟩ := h.consistent.active threads
    have hadv := Scene.advance_step ha hst mode
    rw [acts] at hadv
    exact h.follows _ hadv after fun _ _ => threads.mem_iff.2 List.mem_cons_self
  | resumes threads mode there acts after =>
    obtain ⟨ha, hst⟩ := h.consistent.active threads
    have hadv := Scene.advance_resume ha hst mode
    rw [acts] at hadv
    exact h.follows _ hadv after fun _ _ => threads.mem_iff.2 List.mem_cons_self
  | begins op nobody outside acts after =>
    obtain ⟨ha, hbody⟩ := h.consistent.join nobody
    have hadv := Scene.advance_beginOp ha rfl hbody outside op
    rw [acts] at hadv
    exact h.follows s.scene.threads hadv after fun f hf => by cases hf
  | leaves ended after => exact ⟨[], follows_nil rfl rfl⟩
  | passes now line later => exact ⟨[], follows_nil rfl rfl⟩
  | reads => exact ⟨[], follows_nil rfl (List.append_nil _)⟩

/-! ### A story goes on -/

/-- The first thread takes a step if it runs, or goes on if what it waits for is there. -/
def go (s : Story V) : Story V :=
  match s.scene.threads with
  | [] => s
  | t :: us =>
    let w : Scene V := { s.scene with threads := us }
    match t.mode with
    | .running f =>
      let (t', w') := step f t w
      ⟨{ w' with threads := t' :: w'.threads }, s.docket.noteStep f t w, s.read⟩
    | .waiting wait =>
      if ready t s.scene wait then
        let (t', w') := resume wait t w
        ⟨{ w' with threads := t' :: w'.threads }, s.docket, s.read⟩
      else s
    | .over _ => s

/-- Once the main thread is over, an operation begins on it. -/
def begun (place : Place) (op : Op V) (s : Story V) : Story V :=
  let w : Scene V := { s.scene with threads := s.scene.threads.filter (·.role != .main) }
  let (t', w') := beginOp place "" op mainThread w
  ⟨{ w' with threads := t' :: w'.threads }, s.docket.noteOp place op w, s.read⟩

/-- `go` leads to a reachable story. -/
theorem Reachable.go (h : s.Reachable) : s.go.Reachable := by
  rw [Story.go]
  split
  · exact h
  · rename_i t us hthreads
    dsimp only
    split
    · rename_i f hmode
      exact h.step (.runs (.of_eq hthreads) hmode rfl (.refl _))
    · rename_i wait hmode
      split
      · rename_i hready
        exact h.step (.resumes (.of_eq hthreads) hmode hready rfl (.refl _))
      · exact h
    · exact h

/-- `begun` leads to a reachable story, once the main thread is over. -/
theorem Reachable.begun (h : s.Reachable) {place : Place}
    (hplace : place = .ground ∨ place = .bench)
    (hover : ∀ t ∈ s.scene.threads, t.role = .main → t.isOver = true) (op : Op V) :
    (s.begun place op).Reachable := by
  have hidle := h.step (.leaves (p := fun t => t.role != .main)
    (fun t ht hmain => hover t ht (by simpa using hmain)) (.refl _))
  exact hidle.step (.begins op (fun t ht => by simpa using (List.mem_filter.1 ht).2) hplace rfl
    (.refl _))

/-! ### The routing of fatal reports -/

/-- **Fatal reports go where they should**, in every reachable story and with every step of it.

The reports are those that are due (`Routed`): for each run of a task, one under its name for a
fatal failure that its completion delivered and one for a panic that ended it; for each event, one
for a panic; and what was found open. So nothing of a run is reported for an event too.

What a step logs has happened (`Follows`). Before a fatal failure is reported, or the panic of a run
that still had its completion, the task is `Halted`: it is stopped, nothing is queued for it, and
the lifecycles and places of the others are unchanged. The end of a run that had used or parked its
completion changes no task, be it a panic. After the panic of an event the worker goes on, and its
context has no pause left. -/
theorem fatal_routing (h : s.Reachable) :
    s.Routed ∧ ∀ s', s.Step s' → ∃ es, s.Follows s' es :=
  ⟨h.sound.routed, fun _ => h.sound.follows_step⟩

/-- A task whose run fails for good, and panics after that. -/
def doomedSetup : BenchSetup Unit :=
  ⟨⟨quickBackoff, .normal⟩, true, [⟨"pull", "pull",
    [[.complete (.fail ⟨.fault (.fatal "disk gone"), []⟩), .panic (.text "boom")]]⟩]⟩

/-- It is scheduled, and its entry is run until the panic was reported. -/
def doomed (w : Scene Unit) : Story Unit :=
  go^[5] (begun .bench .runNext (go (begun .bench (.request .schedule "pull") ⟨w, .empty, []⟩)))

/-- After `doomed`, the fatal failure and the panic are reported, both under the name of the
task. -/
theorem fatal_routing_doomed : ∃ s : Story Unit, s.Reachable ∧ s.docket.jobs = [some 0] ∧
    s.scene.pool.reports = [("pull", "fatal: disk gone"), ("pull", "boom")] ∧ s.Routed ∧
      ∀ s', s.Step s' → ∃ es, s.Follows s' es := by
  obtain ⟨w, hw, hover, hover', hjobs, hreports⟩ : ∃ w : Scene Unit, doomedSetup.scene = .ok w ∧
      (∀ t ∈ w.threads, t.isOver = true) ∧
        (∀ t ∈ (go (begun .bench (.request .schedule "pull") ⟨w, .empty, []⟩)).scene.threads,
          t.isOver = true) ∧
        (doomed w).docket.jobs = [some 0] ∧
        (doomed w).scene.pool.reports = [("pull", "fatal: disk gone"), ("pull", "boom")] :=
    ⟨_, rfl, by decide, by decide, rfl, rfl⟩
  have hbegins : w.Begins := Or.inr ⟨doomedSetup, hw⟩
  have hscheduled := (Reachable.start hbegins).begun (Or.inr rfl) (fun t ht _ => hover t ht)
    (.request .schedule "pull")
  have hrun := hscheduled.go.begun (Or.inr rfl) (fun t ht _ => hover' t ht) .runNext
  have hdoomed : (doomed w).Reachable := hrun.go.go.go.go.go
  obtain ⟨hrouted, hfollows⟩ := fatal_routing hdoomed
  exact ⟨doomed w, hdoomed, hjobs, hreports, hrouted, hfollows⟩

end Story

end TurnPool.Scenario
