import TurnPool.Proofs.Threads

/-!
# What the threads come to

A thread takes one step, or goes on after it has waited. What is noted of it in the docket is told
by its top frame alone (`Docket.noteStep`): a run of a task begins when an errand claims one, and
anything else that a worker serves begins when the worker takes it; a completion is used by its
owner; a run ends where its operations end or where a panic leaves them, and anything else that a
worker serves ends in its loop. What is open is found at the end of an event and where a pause
begins or ends.

## Main results

* `Docket.noteStep`: what is noted of a step.
* `Entails`: what is noted, and what happens to the tasks and to the worker then.
* `Advance`: all is in order after a step, and what is reported is what was noted.
* `advance_stepOps`: a step of the operations of an event is an `Advance`.
-/

namespace TurnPool.Scenario

variable {V : Type}

/-! ### What is noted -/

/-- The panic that is passing through. -/
def Focus.panic? : Focus V → Option Panic
  | .unwind p => some p
  | _ => none

namespace Docket

/-- What the next of a list of operations is to the docket. A run that comes to its end drops the
completion that it has in hand. -/
def noteOps (place : Place) (rest : List (Op V)) (run : Option Completion) (id : Nat) (w : Scene V)
    (d : Docket) : Docket :=
  match run, rest with
  | none, [] => d
  | none, op :: _ => d.noteOp place op w
  | some _, [] => (d.use (.hand id) .dropped).finish id none
  | some _, .complete how :: _ => d.use (.hand id) (how.ending false)
  | some c, .park :: _ => d.shelve id c.task
  | some _, op :: _ => d.noteOp place op w

/-- What the top frame of a thread is to the docket. -/
def noteFrame (fr : Frame V) (f : Focus V) (id : Nat) (w : Scene V) (d : Docket) : Docket :=
  match fr with
  | .ops place _ _ rest run =>
    match f.panic?, run with
    | some p, some _ => (d.use (.hand id) .panicked).finish id (some p)
    | some _, none => d
    | none, _ => d.noteOps place rest run id w
  | .batch (op :: _) _ => if f.panic?.isSome then d else d.noteOp .locked op w
  | .job _ (.errand e) =>
    match (w.arrive e).1 with
    | some task => d.begin id (some task)
    | none => d
  | .inline _ => if f.panic?.isSome then d else d.find (w.pool.leftOpen "dispatch")
  | .pausing _ _ _ _ => d.find (w.pool.leftOpen "resume")
  | .worker _ _ .pick =>
    match (w.pool.queue.dequeue (w.now + 1)).1.1.map QueueEntry.work with
    | some (.event (.event _)) => d.begin id none
    | _ => d
  | .worker _ _ .serve => (d.finish id f.panic?).find (w.pool.leftOpen "dispatch")
  | _ => d

/-- What a step of a thread is to the docket. -/
def noteStep (f : Focus V) (t : Thread V) (w : Scene V) (d : Docket) : Docket :=
  match t.frames with
  | [] => d
  | fr :: _ => d.noteFrame fr f t.id w

end Docket

namespace Scene

variable {d d' : Docket} {t t' : Thread V} {w w' v : Scene V} {n task : Nat} {o : Outcome}

/-! ### What happens then -/

/-- The crew, the agenda and the queue are the same. -/
structure SameCrewAndQueue (w w' : Scene V) : Prop where
  /-- The tasks. -/
  crew : w'.crew = w.crew
  /-- The agenda. -/
  agenda : w'.agenda = w.agenda
  /-- The queue. -/
  queue : w'.pool.queue = w.pool.queue

/-- Thread `t` is about to **end** its body, the job `n`, by the panic `p` if one passes through. -/
structure Ends (d : Docket) (t : Thread V) (n : Nat) (p : Option Panic) : Prop where
  /-- It is in the middle of it. -/
  body : d.body t.id = some n
  /-- This passes through. -/
  focus : ∃ f, t.mode = .running f ∧ f.panic? = p

/-- What **happened** when the entries were logged: a report, an outcome that was delivered, a body
that ended, or an event that was served, each with what became of the tasks and their queue. -/
inductive Entails (d : Docket) (t : Thread V) (w : Scene V) (t' : Thread V) (w' : Scene V) :
    List LogEntry → Prop
  /-- Something may be found open. -/
  | found (rs : List (String × String)) : Entails d t w t' w' (rs.map fun r => .found r.1 r.2)
  /-- An outcome is delivered, and the task follows it before anything is reported. If a thread had
  the completion in hand at the end of the run, the run ends. -/
  | delivered {n task : Nat} {o : Outcome} {v : Scene V} {rest : List LogEntry}
      (job : d.jobs[n]? = some (some task)) (delivered : w.Delivered task o v)
      (silent : v.pool.reports = w.pool.reports) (same : v.SameCrewAndQueue w')
      (closing : rest = [] ∨ ∃ p, Ends d t n p ∧ d.keeps (.hand t.id) = some n ∧
        o = Fate.ending p.isSome .abandon ∧ rest = [.ended n p]) :
      Entails d t w t' w' (.delivered n o :: rest)
  /-- A run ends whose completion is used or parked. -/
  | ended {n task : Nat} {p : Option Panic} (job : d.jobs[n]? = some (some task))
      (ends : Ends d t n p) (bereft : d.keeps (.hand t.id) = none) (same : w.SameCrewAndQueue w') :
      Entails d t w t' w' [.ended n p]
  /-- Something else that a worker serves ends, and the worker goes on in its loop. -/
  | served {n slot ctx : Nat} {p : Option Panic} (rs : List (String × String))
      (job : d.jobs[n]? = some none) (ends : Ends d t n p) (same : w.SameCrewAndQueue w')
      (frames : t.frames = [.worker slot ctx .serve]) (goes : t'.frames = [.worker slot ctx .tally])
      (waits : t'.mode = .waiting (.core .next)) (id : t'.id = t.id) :
      Entails d t w t' w' (.ended n p :: rs.map fun r => .found r.1 r.2)

/-- The thread has **advanced** from `t` in `w` to `t'` in `w'`: everything is active and stands as
before, and the reports that were added are those of the entries that were logged. -/
structure Advance (d : Docket) (t : Thread V) (w : Scene V) (d' : Docket) (t' : Thread V)
    (w' : Scene V) : Prop where
  /-- All is in order. -/
  active : Active d' t' w'
  /-- The thread stands as it should. -/
  stands : t'.Stands d'
  /-- Tasks stay. -/
  size_le : w.crew.size ≤ w'.crew.size
  /-- They keep their names. -/
  name : ∀ i < w.crew.size, w'.crew.name i = w.crew.name i
  /-- What was begun stays so. -/
  jobs : ∀ (n : Nat) (what : Option Nat), d.jobs[n]? = some what → d'.jobs[n]? = some what
  /-- What is noted is reported. -/
  told : ∃ es, d'.log = d.log ++ es ∧
    w'.pool.reports = w.pool.reports ++ es.filterMap (d.report w.crew.name) ∧
      Entails d t w t' w' es

namespace Advance

/-- An `Advance` in which **nothing is logged** and nothing reported. -/
theorem silent (ha : Active d' t' w') (hst : t'.Stands d') (hsize : w'.crew.size = w.crew.size)
    (hname : ∀ i, w'.crew.name i = w.crew.name i)
    (hjobs : ∀ (n : Nat) (what : Option Nat), d.jobs[n]? = some what → d'.jobs[n]? = some what)
    (hlog : d'.log = d.log) (hreports : w'.pool.reports = w.pool.reports) :
    Advance d t w d' t' w' where
  active := ha
  stands := hst
  size_le := Nat.le_of_eq hsize.symm
  name i _ := hname i
  jobs := hjobs
  told := by
    refine ⟨[], ?_, ?_, .found []⟩
    · rw [hlog, List.append_nil]
    · rw [hreports, List.filterMap_nil, List.append_nil]

/-- `KeepsTasks` is an `Advance` that logs nothing, if the thread stands as before. -/
theorem keepsTasks (hc : KeepsTasks w w') (ha : Active d t' w') (hst : t'.Stands d) :
    Advance d t w d t' w' :=
  .silent ha hst (congrArg Crew.size hc.crew) (fun i => congrArg (Crew.name i) hc.crew)
    (fun _ _ h => h) rfl hc.reports

/-- `PushesPlain` is an `Advance` that logs nothing. -/
theorem pushesPlain {t₀ : Thread V} (h : Active d t₀ w) (hf : Footing d t₀.id t₀.frames)
    (ho : PushesPlain t₀ w t' w') : Advance d t w d t' w' :=
  .keepsTasks ho.keepsTasks (h.pushesPlain hf ho).1 (h.pushesPlain hf ho).2

/-- The reports of what was found are what was found. -/
theorem report_find (rs : List (String × String)) (name : Nat → String) (d : Docket) :
    (rs.map fun r => LogEntry.found r.1 r.2).filterMap (d.report name) = rs := by
  rw [List.filterMap_map]
  exact List.filterMap_some

/-- An `Advance` in which something is **found open** and reported. -/
theorem found (rs : List (String × String)) (ha : Active (d.find rs) t' w')
    (hst : t'.Stands (d.find rs)) (hcrew : w'.crew = w.crew)
    (hreports : w'.pool.reports = w.pool.reports ++ rs) : Advance d t w (d.find rs) t' w' where
  active := ha
  stands := hst
  size_le := Nat.le_of_eq (congrArg Crew.size hcrew.symm)
  name i _ := congrArg (Crew.name i) hcrew
  jobs _ _ h := h
  told := ⟨_, rfl, by rw [report_find, hreports], .found rs⟩

end Advance

/-! ### The scene changes, and the thread does not -/

/-- Adding reports keeps the pauses. -/
theorem keepsPauses_found (rs : List (String × String)) (w : Scene V) :
    KeepsPauses w (w.found rs) :=
  .of_pool (.of_eq rfl rfl rfl (.of_tokens rfl)) rfl rfl rfl rfl

namespace Active

/-- While thread `t` stands still, `Active` is kept by what keeps the pauses and the crew's match,
and the other threads' part of the docket. -/
theorem meanwhile (h : Active d t w) (hs : KeepsPauses w w')
    (hcrew : CrewMatches d' ((t :: w.threads).flatMap Thread.errands) w') (hd : d'.LogAccounted)
    (hagrees : ∀ id, id ≠ t.id → Docket.SameFor id d d') : Active d' t w' :=
  h.after hs ⟨rfl, rfl, fun _ hi => Or.inl hi, h.sound.crowd.emptied t List.mem_cons_self,
    fun id hid => Nat.lt_of_lt_of_le (h.sound.crowd.granted t List.mem_cons_self id hid)
      hs.samePauses.parked.size_le⟩ rfl hcrew hd hagrees

/-- `KeepsTasks` keeps `Active`. -/
theorem keepsTasks (h : Active d t w) (hc : KeepsTasks w w') : Active d t w' :=
  h.meanwhile hc.toKeepsPauses (h.sound.roster.keepsTasks hc) h.sound.logAccounted fun id _ =>
    .refl id d

/-- Something that is found open, logged and reported keeps `Active`. -/
theorem found (h : Active d t w) (rs : List (String × String)) :
    Active (d.find rs) t (w.found rs) :=
  h.meanwhile (keepsPauses_found rs w)
    ((h.sound.roster.found rs).noted h.sound.roster.jobs fun _ => rfl)
    (h.sound.logAccounted.find rs) fun id _ => Docket.sameFor_find id rs d

/-- The mode of an active thread that is not over names a token of the ledger, if any. -/
theorem goes (h : Active d t w) (hover : t.isOver = false) :
    t.mode.Goes w.pool.ledger.tokens.size := by
  have hgranted := h.sound.crowd.granted t List.mem_cons_self
  obtain ⟨id, role, frames, m⟩ := t
  cases m with
  | running f => exact hgranted
  | waiting x => exact hgranted
  | «over» r => cases hover

end Active

/-! ### Completions -/

/-- A completion was **used**: it had been used before, or its outcome is delivered, logged, and
reported if it is fatal. -/
inductive Spent (d : Docket) (n task : Nat) (o : Outcome) (w : Scene V) (d' : Docket)
    (w' : Scene V) : Prop
  /-- It was used, or parked, before. -/
  | before (docket : d' = d) (scene : w' = w)
  /-- It delivers its outcome. -/
  | now {v : Scene V} (job : d.jobs[n]? = some (some task)) (delivered : w.Delivered task o v)
      (silent : v.pool.reports = w.pool.reports)
      (size : v.crew.size = w.crew.size) (name : ∀ i, v.crew.name i = w.crew.name i)
      (told : w' = v.found (o.fatal?.map fun message => (w.crew.name task, message)).toList)
      (log : d'.log = d.log ++ [.delivered n o])

/-- Using a completion keeps the number of tasks. -/
theorem Spent.size (h : Spent d n task o w d' w') : w'.crew.size = w.crew.size := by
  cases h with
  | before docket scene => rw [scene]
  | now job delivered silent size name told log =>
    rw [told]
    exact size

/-- Using a completion keeps the names of tasks. -/
theorem Spent.name (h : Spent d n task o w d' w') (i : Nat) :
    w'.crew.name i = w.crew.name i := by
  cases h with
  | before docket scene => rw [scene]
  | now job delivered silent size name told log =>
    rw [told]
    exact name i

/-- A thread **uses** the completion that it has, or had, in hand: `Active` is kept, and it is
`Spent`. -/
theorem Active.spend (h : Active d t w) {c : Completion} (hjob : d.jobs[n]? = some (some c.task))
    (hhand : d.keeps (.hand t.id) = if c.owed then some n else none) (unwinding : Bool)
    (how : Fate) :
    Active (d.use (.hand t.id) (how.ending unwinding)) t (w.spend unwinding how c) ∧
      Spent d n c.task (how.ending unwinding) w (d.use (.hand t.id) (how.ending unwinding))
        (w.spend unwinding how c) := by
  set o := how.ending unwinding
  cases hc : c.owed with
  | false =>
    rw [hc] at hhand
    rw [spend_of_not_owed hc, Docket.use_of_none hhand]
    exact ⟨h, .before rfl rfl⟩
  | true =>
    rw [hc] at hhand
    have hlt : c.task < w.crew.size := h.sound.roster.jobs n c.task hjob
    have hworked := keepsReports_absorb c.task o w
    rw [spend_of_owed hc, deliver_eq hlt]
    refine ⟨h.meanwhile (hworked.toKeepsPauses.trans (keepsPauses_found _ _)) ?_
      (h.sound.logAccounted.use _ _) fun id hid => Docket.sameFor_use (by simpa using hid.symm) _ _,
      .now hjob (h.sound.roster.delivered hlt o) hworked.reports hworked.size hworked.name rfl ?_⟩
    · refine ((h.sound.roster.absorb hlt o).found _).noted ?_ fun i =>
        Docket.keeps_use_of_ne (by simp)
      rw [Docket.jobs_use]
      exact (h.sound.roster.absorb hlt o).jobs
    · rw [Docket.use_of_some hhand]
      rfl

/-- A completion that is parked under a task is **used**, and may be replaced: `Active` is kept, and
it is `Spent`. -/
theorem Active.spendShelf (h : Active d t w) (hn : d.keeps (.shelf task) = some n)
    {x : Option Nat} (hjobs : d'.jobs = d.jobs)
    (hkeeps : ∀ i, d'.keeps (.shelf i) = if i = task then x else d.keeps (.shelf i))
    (how : Fate) (hlog : d'.log = (d.use (.shelf task) (how.ending false)).log)
    (hd : d'.LogAccounted) (hagrees : ∀ id, id ≠ t.id → Docket.SameFor id d d') :
    Active d' t ((w.modifyScript task fun s =>
        { s with parked := x.map fun _ => .fresh task }).spend false how (.fresh task)) ∧
      Spent d n task (how.ending false) w d' ((w.modifyScript task fun s =>
        { s with parked := x.map fun _ => .fresh task }).spend false how (.fresh task)) := by
  have hjob := h.sound.logAccounted.shelf_job task n hn
  have hlt : task < w.crew.size := h.sound.roster.jobs n task hjob
  set w₁ := w.modifyScript task fun s => { s with parked := x.map fun _ => .fresh task }
  have hcrew : CrewMatches d' ((t :: w.threads).flatMap Thread.errands) w₁ :=
    h.sound.roster.shelved hlt hjobs x hkeeps
  have hworked := keepsReports_absorb task (how.ending false) w₁
  have hs : KeepsPauses w w₁ := .of_pool (.refl _) rfl rfl rfl rfl
  have hdelivered := hcrew.delivered (show task < w₁.crew.size from hlt) (how.ending false)
  have heq : w₁.spend false how (.fresh task) = _ :=
    (spend_of_owed rfl false how w₁).trans (deliver_eq (show task < w₁.crew.size from hlt) _)
  rw [heq]
  refine ⟨h.meanwhile (hs.trans (hworked.toKeepsPauses.trans (keepsPauses_found _ _)))
    ((hcrew.absorb hlt _).found _) hd hagrees, ?_⟩
  refine .now hjob ⟨hdelivered.lives, hdelivered.halted⟩ hworked.reports hworked.size hworked.name
    rfl ?_
  rw [hlog, Docket.use_of_some hn]
  rfl

/-- `resolve` **uses** the completion that a task has parked, if there is one. -/
theorem Active.resolve (h : Active d t w) (task : Nat) (how : Fate) :
    Active (d.use (.shelf task) (how.ending false)) t (w.resolve task how).2 ∧
      ∃ n, Spent d n task (how.ending false) w (d.use (.shelf task) (how.ending false))
        (w.resolve task how).2 := by
  have hparked := h.sound.roster.parked task
  cases hn : d.keeps (.shelf task) with
  | none =>
    rw [hn] at hparked
    rw [Scene.resolve, hparked, Docket.use_of_none hn]
    exact ⟨h, 0, .before rfl rfl⟩
  | some n =>
    rw [hn] at hparked
    rw [Scene.resolve, hparked]
    have hkeeps : ∀ i, (d.use (.shelf task) (how.ending false)).keeps (.shelf i) =
        if i = task then none else d.keeps (.shelf i) := fun i => by
      by_cases hi : i = task
      · rw [hi, Docket.keeps_use_self, if_pos rfl]
      · rw [Docket.keeps_use_of_ne (by simpa using hi), if_neg hi]
    obtain ⟨ha, hspent⟩ := h.spendShelf hn Docket.jobs_use hkeeps how rfl
      (h.sound.logAccounted.use _ _) fun id _ => Docket.sameFor_use (by simp) _ _
    exact ⟨ha, n, hspent⟩

/-- `park` **uses** the completion that is parked already, if there is one, and parks the one in
hand. -/
theorem Active.park (h : Active d t w) (hn : d.keeps (.hand t.id) = some n)
    (hjob : d.jobs[n]? = some (some task)) :
    Active (d.shelve t.id task) t (w.park (.fresh task)) ∧
      ∃ m, Spent d m task .dropped w (d.shelve t.id task) (w.park (.fresh task)) ∨
        ((d.shelve t.id task).log = d.log ∧ (w.park (.fresh task)).crew = w.crew ∧
          (w.park (.fresh task)).pool.reports = w.pool.reports) := by
  have hparked := h.sound.roster.parked task
  have hd : (d.shelve t.id task).LogAccounted := h.sound.logAccounted.shelve fun m hm => by
    obtain rfl := Option.some.inj (hn.symm.trans hm)
    exact hjob
  have hkeeps : ∀ i, (d.shelve t.id task).keeps (.shelf i) =
      if i = task then some n else d.keeps (.shelf i) := (Docket.keeps_shelve hn).2
  cases hm : d.keeps (.shelf task) with
  | none =>
    rw [hm] at hparked
    rw [Scene.park, show (Completion.fresh task).task = task from rfl, hparked]
    have hlt : task < w.crew.size := h.sound.roster.jobs n task hjob
    refine ⟨h.meanwhile (.of_pool (.refl _) rfl rfl rfl rfl)
      (h.sound.roster.shelved hlt (by simp) (some n) hkeeps) hd
      fun id hid => Docket.sameFor_shelve hid task d, 0, Or.inr ⟨?_, rfl, rfl⟩⟩
    rw [Docket.log_shelve hn, Docket.use_of_none hm]
  | some m =>
    rw [hm] at hparked
    rw [Scene.park, show (Completion.fresh task).task = task from rfl, hparked]
    obtain ⟨ha, hspent⟩ := h.spendShelf hm (by simp) hkeeps .abandon
      (Docket.log_shelve hn) hd fun id hid => Docket.sameFor_shelve hid task d
    exact ⟨ha, m, Or.inl hspent⟩

/-! ### Runs -/

/-- What is reported of a delivered outcome is its fatal message, under the name of the task. -/
theorem report_delivered (name : Nat → String) (hjob : d.jobs[n]? = some (some task)) (o : Outcome)
    (es : List LogEntry) : (LogEntry.delivered n o :: es).filterMap (d.report name) =
      (o.fatal?.map fun message => (name task, message)).toList ++
        es.filterMap (d.report name) := by
  have hreport : d.report name (.delivered n o) =
      o.fatal?.map fun message => (name task, message) := by
    rw [Docket.report, Docket.origin_of_job name hjob]
  cases ho : o.fatal? with
  | none =>
    rw [ho] at hreport
    exact List.filterMap_cons_none hreport
  | some message =>
    rw [ho] at hreport
    exact List.filterMap_cons_some hreport

/-- What is reported of a body that ended is its panic, under its origin. -/
theorem report_ended (name : Nat → String) (p : Option Panic) (es : List LogEntry) :
    (LogEntry.ended n p :: es).filterMap (d.report name) =
      (p.map fun p => (d.origin name n, p.message)).toList ++ es.filterMap (d.report name) := by
  cases p with
  | none => rfl
  | some p => rfl

/-- A completion that is used, with **nothing else** happening to the tasks, is an `Advance`. -/
theorem Advance.spent (hs : Spent d n task o w d' v) (hsame : v.SameCrewAndQueue w')
    (hreports : w'.pool.reports = v.pool.reports) (ha : Active d' t' w') (hst : t'.Stands d')
    (hjobs : d'.jobs = d.jobs) : Advance d t w d' t' w' := by
  cases hs with
  | before docket scene =>
    subst docket scene
    exact .silent ha hst (congrArg Crew.size hsame.crew)
      (fun i => congrArg (Crew.name i) hsame.crew) (fun _ _ h => h) rfl hreports
  | @now v' job delivered silent size name told log =>
    subst told
    have hcrew : w'.crew = v'.crew := hsame.crew
    exact {
      active := ha
      stands := hst
      size_le := Nat.le_of_eq (by rw [hcrew, size])
      name := fun i _ => by rw [hcrew, name]
      jobs := fun _ _ h => hjobs.symm ▸ h
      told := by
        refine ⟨[.delivered n o], log, ?_, .delivered job delivered silent
          ⟨hcrew, hsame.agenda, hsame.queue⟩ (Or.inl rfl)⟩
        rw [report_delivered _ job, List.filterMap_nil, List.append_nil, hreports, ← silent]
        rfl }

/-- When its body is over the thread **stands** on the frames below. -/
theorem stands_of_perch {below : List (Frame V)} (hbody : d.body t.id = none) (hp : Perch below) :
    ({ t with frames := below, mode := .running .next } : Thread V).Stands d := by
  rcases Footing.of_perch hbody hp with hf | ⟨slot, ctx, rfl⟩
  · exact Or.inl hf
  · exact Or.inr ⟨hbody, rfl, slot, ctx, rfl⟩

/-- The end of a run, with a panic or without, **is an `Advance`**; a completion that it has in hand
is dropped. -/
theorem advance_end (h : Active d t w) {ctx : Nat} {label : String} {current : Option String}
    {rest : List (Op V)} {c : Completion} {below : List (Frame V)}
    (hframes : t.frames = .ops (.event ctx) label current rest (some c) :: below)
    (hbody : d.body t.id = some n) (hjob : d.jobs[n]? = some (some c.task))
    (hhand : d.keeps (.hand t.id) = if c.owed then some n else none) (hp : Perch below)
    {p : Option Panic} (hfocus : ∃ f, t.mode = .running f ∧ f.panic? = p) :
    Advance d t w ((d.use (.hand t.id) (Fate.ending p.isSome .abandon)).finish t.id p)
      { t with frames := below, mode := .running .next }
      ((w.spend p.isSome .abandon c).found
        (p.map fun p => (w.crew.name c.task, p.message)).toList) := by
  set o := Fate.ending p.isSome .abandon
  obtain ⟨ha, hs⟩ := h.spend hjob hhand p.isSome .abandon
  set w₁ := w.spend p.isSome .abandon c
  set d₁ := d.use (.hand t.id) o
  set rs := (p.map fun p => (w.crew.name c.task, p.message)).toList
  have hbody₁ : d₁.body t.id = some n := (congrFun Docket.body_use t.id).trans hbody
  have hlog : (d₁.finish t.id p).log = d₁.log ++ [.ended n p] := by
    rw [Docket.finish_of_some hbody₁]
    rfl
  have hover : Active (d₁.finish t.id p) t (w₁.found rs) :=
    ha.meanwhile (keepsPauses_found rs w₁)
      ((ha.sound.roster.found rs).noted
        (fun m i hm => ha.sound.roster.jobs m i (Docket.jobs_finish ▸ hm)) fun i => by simp)
      (ha.sound.logAccounted.finish Docket.keeps_use_self p)
      fun id hid => Docket.sameFor_finish hid p d₁
  have horigin : d.origin w.crew.name n = w.crew.name c.task :=
    Docket.origin_of_job _ hjob
  have hended : ([.ended n p] : List LogEntry).filterMap (d.report w.crew.name) = rs := by
    rw [report_ended, List.filterMap_nil, List.append_nil, horigin]
  refine {
    active := hover.pop hframes rfl rfl (by rintro id ⟨⟩)
    stands := stands_of_perch Docket.body_finish_self hp
    size_le := Nat.le_of_eq hs.size.symm
    name := fun i _ => hs.name i
    jobs := fun _ _ hn => by simpa [d₁] using hn
    told := ?_ }
  · cases hs with
    | before docket scene =>
      refine ⟨[.ended n p], ?_, ?_, .ended hjob ⟨hbody, hfocus⟩ ?_ ?_⟩
      · rw [hlog, docket]
      · rw [hended, scene]
        rfl
      · exact docket ▸ (Docket.keeps_use_self : d₁.keeps (.hand t.id) = none)
      · rw [scene]
        exact ⟨rfl, rfl, rfl⟩
    | @now v job delivered silent size name told log =>
      have howed : d.keeps (.hand t.id) = some n := by
        rw [hhand]
        refine if_pos (Bool.of_not_eq_false fun hc => ?_)
        rw [hc] at hhand
        have hsame : d₁ = d := Docket.use_of_none hhand
        rw [hsame] at log
        exact absurd log (by simp)
      refine ⟨[.delivered n o, .ended n p], ?_, ?_, .delivered job delivered silent ?_
        (Or.inr ⟨p, ⟨hbody, hfocus⟩, howed, rfl, rfl⟩)⟩
      · rw [hlog, log, List.append_assoc]
        rfl
      · rw [report_delivered _ job, hended, told, ← List.append_assoc, ← silent]
        rfl
      · rw [told]
        exact ⟨rfl, rfl, rfl⟩

/-! ### Operations -/

/-- A new mode on the same frames keeps `Active`. -/
theorem Active.mode (h : Active d t w) {m : Mode V} (hm : m.Goes w.pool.ledger.tokens.size) :
    Active d { t with mode := m } w :=
  h.reframe (fun _ hi => hi) rfl rfl hm

/-- A task that is found by its key has joined. -/
theorem lt_of_task? {key : String} {i : Nat} (h : w.task? key = some i) : i < w.scripts.size := by
  have hmem := List.mem_of_find?_eq_some h
  exact List.mem_range.1 (List.mem_reverse.1 hmem)

/-- What an operation **comes to** is an `Advance`. -/
theorem advance_comes {t₀ : Thread V} {place : Place} {op : Op V} (h : Active d t₀ w)
    (hf : Footing d t₀.id t₀.frames)
    (hctx : ∀ ctx, place = .event ctx → ctx ∈ t₀.contexts ∧ t₀.isOver = false)
    (hc : Comes place op t₀ w t' w') :
    Advance d t w (d.noteOp place op w) t' w' := by
  cases hc with
  | pushesPlain pushes noted =>
    rw [noted]
    exact .pushesPlain h hf pushes
  | @request what key i found goes requested noted =>
    subst goes requested
    have hlt : i < w.crew.size := h.sound.roster.size ▸ lt_of_task? found
    have hworked := keepsReports_request what i w
    have hw : Active d t₀ (w.request what i) :=
      h.meanwhile hworked.toKeepsPauses (h.sound.roster.request hlt what) h.sound.logAccounted
        fun id _ => .refl id d
    rw [noted]
    exact .silent (hw.mode (by rintro id ⟨⟩)) (Or.inl hf) hworked.size hworked.name
      (fun _ _ hn => hn) rfl hworked.reports
  | @resolve how key i a found goes resolved noted =>
    subst goes resolved
    obtain ⟨hw, n, hs⟩ := h.resolve i how
    rw [noted]
    exact .spent hs ⟨rfl, rfl, rfl⟩ rfl (hw.mode (by rintro id ⟨⟩))
      (Or.inl (hf.congr (Docket.sameFor_use (by simp) _ _))) Docket.jobs_use
  | @refused ctx pushes noted =>
    obtain ⟨hw, hst⟩ := (h.found (w.pool.refusal ctx)).pushesPlain
      (hf.congr (Docket.sameFor_find _ _ _)) pushes
    rw [noted]
    exact .found _ hw hst pushes.keepsTasks.crew pushes.keepsTasks.reports
  | @paused ctx token signal name reason value here named running pushes noted =>
    obtain ⟨hmem, hover⟩ := hctx ctx here
    have hw := h.pauses hmem running (h.sound.tokens _ (mem_of_lookup named)) hover reason signal
      value
    have hplain : ∀ fr ∈ [Frame.relock, .pausing ctx token signal value], fr.isPlain = true := by
      simp [Frame.isPlain]
    obtain ⟨hw', hst⟩ := hw.pushesPlain (hf.append hplain) pushes
    rw [noted]
    exact .silent hw' hst (congrArg Crew.size pushes.keepsTasks.crew)
      (fun i => congrArg (Crew.name i) pushes.keepsTasks.crew) (fun _ _ hn => hn) rfl
      pushes.keepsTasks.reports

/-! ### Lists of operations -/

section Frames

variable {f : Focus V} {place : Place} {label : String} {current : Option String}
  {rest : List (Op V)} {run : Option Completion} {below : List (Frame V)}

/-- A note in the trace does not matter to an advance. -/
theorem Advance.noted {e : TraceEntry V} (h : Advance d t (w.note label e) d' t' w') :
    Advance d t w d' t' w' := by
  obtain ⟨es, hlog, hreports, hentails⟩ := h.told
  refine { h with told := ⟨es, hlog, hreports, ?_⟩ }
  cases hentails with
  | found rs => exact .found rs
  | delivered job delivered silent same closing =>
    exact .delivered job ⟨delivered.lives, delivered.halted⟩ silent same closing
  | ended job ends bereft same => exact .ended job ends bereft ⟨same.crew, same.agenda, same.queue⟩
  | served rs job ends same frames goes waits id =>
    exact .served rs job ends ⟨same.crew, same.agenda, same.queue⟩ frames goes waits id

/-- The beginning of an operation of a list **is an `Advance`**. -/
theorem advance_begin (h : Active d t w) (hover : t.isOver = false)
    (hframes : t.frames = .ops place label current rest run :: below) (hplace : place ≠ .bench)
    {op : Op V} {current' : Option String} {rest' : List (Op V)}
    (hf : Footing d t.id (.ops place label current' rest' run :: below)) :
    Advance d t w (d.noteOp place op w)
      (beginOp place label op
        { t with frames := .ops place label current' rest' run :: below } w).1
      (beginOp place label op
        { t with frames := .ops place label current' rest' run :: below } w).2 := by
  have h₀ : Active d { t with frames := .ops place label current' rest' run :: below } w :=
    h.retop hframes (by cases place <;> rfl) rfl rfl (h.goes hover)
  refine advance_comes h₀ hf (fun ctx hctx => ?_) (comes_beginOp label hplace)
  subst hctx
  exact ⟨List.mem_cons_self, hover⟩

/-- The next operation of a list, or **the end of the list**, is an `Advance`. -/
theorem advance_stepOps (h : Active d t w) (hover : t.isOver = false)
    (hfocus : ∃ f, t.mode = .running f ∧ f.panic? = none)
    (hframes : t.frames = .ops place label current rest run :: below)
    (hf : Footing d t.id (.ops place label current rest run :: below)) :
    Advance d t w (d.noteOps place rest run t.id w)
      (stepOps place label rest run below { t with frames := below } w).1
      (stepOps place label rest run below { t with frames := below } w).2 := by
  cases hf with
  | push plain footing =>
    obtain ⟨hrun, hplace⟩ := Bool.and_eq_true_iff.1 plain
    obtain rfl := Option.isNone_iff_eq_none.1 hrun
    cases rest with
    | nil => exact .keepsTasks (.refl w) (h.pop hframes rfl rfl (by rintro id ⟨⟩)) (Or.inl footing)
    | cons op rest =>
      exact advance_begin h hover hframes (of_decide_eq_true hplace) (.push plain footing)
  | @run n c body job hand ctx _ _ _ _ perch =>
    have hbegin : ∀ {op : Op V} {rest' : List (Op V)}, rest = op :: rest' →
        Advance d t w (d.noteOp (.event ctx) op w)
          (beginOp (.event ctx) label op { t with
            frames := .ops (.event ctx) label (some op.name) rest' (some c) :: below } w).1
          (beginOp (.event ctx) label op { t with
            frames := .ops (.event ctx) label (some op.name) rest' (some c) :: below } w).2 :=
      fun _ => advance_begin h hover hframes (by simp) (.run body job hand ctx _ _ _ perch)
    -- After the completion was used or parked the run goes on without it.
    have hbereft : ∀ {d' : Docket} {w' : Scene V} {rest' : List (Op V)}, Active d' t w' →
        d'.body = d.body → d'.jobs = d.jobs → d'.keeps (.hand t.id) = none →
          Active d' (t.goOn (.ops (.event ctx) label none rest' (some { c with owed := false }) ::
            below) .next) w' ∧
          (t.goOn (.ops (.event ctx) label none rest' (some { c with owed := false }) ::
            below) .next).Stands d' := fun {d' w' rest'} ha hbody hjobs hkeeps => by
      refine ⟨ha.retop hframes rfl rfl rfl (by rintro id ⟨⟩), Or.inl ?_⟩
      exact .run ((congrFun hbody t.id).trans body) (hjobs ▸ job) (by exact hkeeps) ctx label none
        rest' perch
    cases rest with
    | nil =>
      have hend := advance_end h hframes body job hand perch hfocus
      rw [Option.map_none, Option.toList_none, found_nil] at hend
      exact hend
    | cons op rest =>
      cases op with
      | complete how =>
        obtain ⟨ha, hs⟩ := h.spend job hand false how
        obtain ⟨ha, hst⟩ := hbereft ha Docket.body_use Docket.jobs_use Docket.keeps_use_self
        exact .spent hs ⟨rfl, rfl, rfl⟩ rfl ha hst Docket.jobs_use
      | park =>
        obtain ⟨task, owed⟩ := c
        cases owed with
        | false =>
          obtain ⟨ha, hst⟩ := hbereft h rfl rfl hand
          have hnone : d.shelve t.id task = d := Docket.shelve_of_none hand
          rw [Docket.noteOps, hnone]
          exact .keepsTasks (.refl w) ha hst
        | true =>
          obtain ⟨ha, m, hs⟩ := h.park hand job
          obtain ⟨ha, hst⟩ := hbereft (ha.keepsTasks .others) Docket.body_shelve Docket.jobs_shelve
            (Docket.keeps_shelve hand).1
          rcases hs with hs | ⟨hlog, hcrew, hreports⟩
          · exact .spent hs ⟨rfl, rfl, rfl⟩ rfl ha hst Docket.jobs_shelve
          · exact .silent ha hst (congrArg Crew.size hcrew) (fun i => congrArg (Crew.name i) hcrew)
              (fun _ _ hn => Docket.jobs_shelve.symm ▸ hn) hlog hreports
      | _ => exact hbegin rfl

/-- A step on a list of operations is an `Advance`, also when a **panic** passes through. -/
theorem advance_ops (h : Active d t w) (hover : t.isOver = false)
    (hframes : t.frames = .ops place label current rest run :: below)
    (hf : Footing d t.id (.ops place label current rest run :: below))
    (hmode : t.mode = .running f) :
    Advance d t w (d.noteFrame (.ops place label current rest run) f t.id w)
      (stepFrame (.ops place label current rest run) below f t w).1
      (stepFrame (.ops place label current rest run) below f t w).2 := by
  cases f with
  | unwind p =>
    cases hf with
    | push plain footing =>
      obtain rfl := Option.isNone_iff_eq_none.1 (Bool.and_eq_true_iff.1 plain).1
      exact .keepsTasks (.refl w) (h.pop hframes rfl rfl (by rintro id ⟨⟩)) (Or.inl footing)
    | @run n c body job hand ctx _ _ _ _ perch =>
      have hend := advance_end h hframes body job hand perch ⟨_, hmode, rfl⟩
      rw [← (h.spend job hand (some p).isSome .abandon).2.name c.task] at hend
      exact hend
  | give a =>
    cases current with
    | none => exact advance_stepOps h hover ⟨_, hmode, rfl⟩ hframes hf
    | some name =>
      exact (advance_stepOps (h.keepsTasks .others) hover ⟨_, hmode, rfl⟩ hframes hf).noted
  | next | granted r | late => exact advance_stepOps h hover ⟨_, hmode, rfl⟩ hframes hf

end Frames

end Scene

end TurnPool.Scenario
