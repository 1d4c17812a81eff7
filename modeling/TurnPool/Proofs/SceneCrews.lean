import TurnPool.Proofs.KeptTasks
import TurnPool.Proofs.Halts
import TurnPool.Proofs.Renewals

/-!
# The tasks of a scene

The tasks of a scene use its queue, or its agenda if there is one, and their completions may be
parked beside them. `CrewMatches` says that all of this is in order: the entries of the tasks with
the errands that were taken out and are about to arrive on some thread, the completions with what a
docket says of them, and the names of entries, which are those of others.

## Main results

* `CrewMatches.keepsTasks`: `KeepsTasks` keeps `CrewMatches`.
* `CrewMatches.request`, `arrive`, `absorb`, `register`: what happens to the tasks keeps it.
* `CrewMatches.takesOut`, `takeAt`: entries are taken out of the queue, or of the agenda.
* `CrewMatches.shelved`: the place of a task for a parked completion changes.
* `Delivered`: what an outcome does.
-/

namespace TurnPool

open LawfulTimetable

/-! ### What the schedulers make of the queue -/

section Queue

variable {ω : Type} {c : Coding ω} {priority : Priority} {entry : Nat → ω}
  {q q' : Queue (Work ω)}

/-- What a scheduler adds to the queue has a number that is new. -/
theorem Uses.entries (h : Uses priority entry q q') : q.nextNumber ≤ q'.nextNumber ∧
    ∀ e ∈ q'.entries, e ∈ q.entries ∨ q.nextNumber ≤ e.number := by
  induction h with
  | refl => exact ⟨Nat.le_refl _, fun e he => Or.inl he⟩
  | @schedule q' used now delay epoch ih =>
    refine ⟨?_, fun e he => ?_⟩
    · show q.nextNumber ≤ (q'.push now priority delay _).2.nextNumber
      rw [Queue.nextNumber_push]
      omega
    · rcases List.mem_cons.1 ((Queue.entries_push now priority delay _ q').mem_iff.1 he) with
        rfl | he
      · exact Or.inr ih.1
      · exact ih.2 e he
  | @cancel q' used handle ih =>
    refine ⟨?_, fun e he => ih.2 e ?_⟩
    · show q.nextNumber ≤ (q'.cancel handle).nextNumber
      rw [Queue.nextNumber_cancel]
      exact ih.1
    · exact Queue.entries_cancel handle q' ▸ he

end Queue

namespace Scenario

variable {V : Type}

namespace Scene

variable {w w' : Scene V} {d d' : Docket} {es es' : List Errand} {task i : Nat}

/-- `HandlesTheirs` is kept when a scheduler uses the queue. -/
theorem HandlesTheirs.uses {priority : Priority} {entry : Nat → Job V} (h : w.HandlesTheirs)
    (hu : Uses priority entry w.pool.queue w'.pool.queue) (hhandles : w'.handles = w.handles) :
    w'.HandlesTheirs := by
  intro x hx
  obtain ⟨hlt, htheirs⟩ := h x (hhandles ▸ hx)
  obtain ⟨hle, hentries⟩ := hu.entries
  refine ⟨Nat.lt_of_lt_of_le hlt hle, fun s hs heq hmine => ?_⟩
  obtain ⟨e, he, hnumber, hwork, -⟩ := Queue.mem_slips.1 hs
  rcases hentries e he with he | hge
  · exact htheirs ⟨e.number, s.work, w.pool.queue.isLive e⟩
      (Queue.mem_slips.2 ⟨e, he, rfl, hwork, rfl⟩) (hnumber.trans heq) hmine
  · omega

/-! ### The entries of the tasks -/

/-- The **entries of the tasks** are in order, with the errands `es` about to arrive: in the agenda
if there is one, and then none of them is in the queue, and in the queue otherwise. -/
def TasksInOrder (w : Scene V) (es : List Errand) : Prop :=
  match w.agenda with
  | some agenda => Crew.EntriesInOrder Job.coding w.crew agenda es ∧
      ∀ s ∈ w.pool.queue.slips, ¬ Job.coding.IsMine s.work
  | none => Crew.EntriesInOrder Job.coding w.crew w.pool.queue es

/-- `TasksInOrder` where there is an agenda. -/
theorem tasksInOrder_of_some {agenda : Agenda (Job V)} (h : w.agenda = some agenda) :
    w.TasksInOrder es ↔ Crew.EntriesInOrder Job.coding w.crew agenda es ∧
      ∀ s ∈ w.pool.queue.slips, ¬ Job.coding.IsMine s.work := by
  rw [TasksInOrder, h]

/-- `TasksInOrder` where there is none. -/
theorem tasksInOrder_of_none (h : w.agenda = none) :
    w.TasksInOrder es ↔ Crew.EntriesInOrder Job.coding w.crew w.pool.queue es := by
  rw [TasksInOrder, h]

/-- What keeps the schedulers' entries in the queue keeps `TasksInOrder`. -/
theorem TasksInOrder.keepsMine (h : w.TasksInOrder es) (hsound : w.pool.queue.Sound)
    (hst : KeepsMine Job.coding.IsMine w.pool.queue w'.pool.queue) (hcrew : w'.crew = w.crew)
    (hagenda : w'.agenda = w.agenda) : w'.TasksInOrder es := by
  cases ha : w.agenda with
  | some agenda =>
    obtain ⟨horder, hno⟩ := (tasksInOrder_of_some ha).1 h
    refine (tasksInOrder_of_some (hagenda.trans ha)).2 ⟨hcrew ▸ horder, fun s hs hmine => ?_⟩
    exact hno s (hst.mem_of_mem hsound s hmine hs) hmine
  | none =>
    have horder := (tasksInOrder_of_none ha).1 h
    exact (tasksInOrder_of_none (hagenda.trans ha)).2 (hcrew ▸ horder.keepsMine hst)

/-- `TasksInOrder` does not depend on the order of `es`. -/
theorem TasksInOrder.perm (h : w.TasksInOrder es) (hes : es'.Perm es) : w.TasksInOrder es' := by
  cases ha : w.agenda with
  | some agenda =>
    obtain ⟨horder, hno⟩ := (tasksInOrder_of_some ha).1 h
    exact (tasksInOrder_of_some ha).2 ⟨horder.perm hes, hno⟩
  | none => exact (tasksInOrder_of_none ha).2 (((tasksInOrder_of_none ha).1 h).perm hes)

/-! ### What a scene and its docket agree on -/

/-- The tasks of a scene **match the docket** `d`, with the errands `es` about to arrive: every task
has a script, every job is a run of a task, the completions that are parked are those the docket
keeps, and the entries are in order. -/
structure CrewMatches (d : Docket) (es : List Errand) (w : Scene V) : Prop where
  /-- Something is said of each task. -/
  size : w.scripts.size = w.crew.size
  /-- Runs are of tasks that have joined. -/
  jobs : ∀ n task : Nat, d.jobs[n]? = some (some task) → task < w.crew.size
  /-- What is parked under a task is a completion that was not used. -/
  parked : ∀ i, w.parked? i = (d.keeps (.shelf i)).map fun _ => .fresh i
  /-- Names of entries are those of others. -/
  theirs : w.HandlesTheirs
  /-- The queue is as it should be. -/
  sound : w.pool.queue.Sound
  /-- The entries of the tasks are in order. -/
  tasksInOrder : w.TasksInOrder es

namespace CrewMatches

/-- `CrewMatches` does not depend on the order of `es`. -/
theorem perm (h : CrewMatches d es w) (hes : es'.Perm es) : CrewMatches d es' w :=
  { h with tasksInOrder := h.tasksInOrder.perm hes }

/-- What is noted keeps `CrewMatches` if its jobs are runs of tasks and what is parked is the
same. -/
theorem noted (h : CrewMatches d es w)
    (hjobs : ∀ n task : Nat, d'.jobs[n]? = some (some task) → task < w.crew.size)
    (hshelf : ∀ i, d'.keeps (.shelf i) = d.keeps (.shelf i)) : CrewMatches d' es w :=
  { h with
    jobs := hjobs
    parked := fun i => by rw [hshelf, h.parked] }

/-- `KeepsTasks` **keeps `CrewMatches`**. -/
theorem keepsTasks (h : CrewMatches d es w) (hc : KeepsTasks w w') : CrewMatches d es w' := by
  obtain ⟨hst, htheirs⟩ := hc.queue h.theirs h.sound
  exact {
    size := by rw [hc.size, hc.crew, h.size]
    jobs := fun n task hn => hc.crew ▸ h.jobs n task hn
    parked := fun i => (hc.parked i).trans (h.parked i)
    theirs := htheirs
    sound := hst.sound h.sound
    tasksInOrder := h.tasksInOrder.keepsMine h.sound hst hc.crew hc.agenda }

/-- `CrewMatches` depends on the crew, the scripts, the agenda, the handles and the queue only. -/
theorem congr (h : CrewMatches d es w) (hcrew : w'.crew = w.crew)
    (hscripts : w'.scripts = w.scripts)
    (hagenda : w'.agenda = w.agenda) (hhandles : w'.handles = w.handles)
    (hqueue : w'.pool.queue = w.pool.queue) : CrewMatches d es w' where
  size := by rw [hscripts, hcrew, h.size]
  jobs n task hn := hcrew ▸ h.jobs n task hn
  parked i := by rw [parked?, hscripts, ← h.parked, parked?]
  theirs := by
    rw [HandlesTheirs, hhandles, hqueue]
    exact h.theirs
  sound := hqueue ▸ h.sound
  tasksInOrder := by
    rw [TasksInOrder, hagenda, hcrew, hqueue]
    exact h.tasksInOrder

/-- If a scheduler uses its entries, `CrewMatches` holds again once `TasksInOrder` does. -/
theorem used (h : CrewMatches d es w) (hsize : w'.crew.size = w.crew.size)
    (hscripts : w'.scripts = w.scripts) (htheirs : w'.HandlesTheirs)
    (hsound : w'.pool.queue.Sound) (horder : w'.TasksInOrder es') : CrewMatches d es' w' where
  size := by rw [hscripts, hsize, h.size]
  jobs n task hn := hsize ▸ h.jobs n task hn
  parked i := by rw [parked?, hscripts, ← h.parked, parked?]
  theirs := htheirs
  sound := hsound
  tasksInOrder := horder

end CrewMatches

/-! ### What can happen to the tasks -/

section OnCrew

variable {α : Type} {f : (Q : Type) → [Timetable Q (Job V)] → Crew × Q → α × (Crew × Q)}

/-- `onCrew` where there is an agenda works on the agenda. -/
theorem onCrew_of_some {agenda : Agenda (Job V)} (h : w.agenda = some agenda) :
    w.onCrew f = ((f _ (w.crew, agenda)).1,
      { w with
        crew := (f _ (w.crew, agenda)).2.1
        agenda := some (f _ (w.crew, agenda)).2.2 }) := by
  simp only [onCrew, h]

/-- `onCrew` where there is none works on the queue. -/
theorem onCrew_of_none (h : w.agenda = none) :
    w.onCrew f = ((f _ (w.crew, w.pool.queue)).1,
      { w with
        crew := (f _ (w.crew, w.pool.queue)).2.1
        pool := { w.pool with queue := (f _ (w.crew, w.pool.queue)).2.2 } }) := by
  simp only [onCrew, h]

end OnCrew

/-- `KeepsPauses`, and the reports, the number of tasks and their names are the same. -/
structure KeepsReports (w w' : Scene V) : Prop extends KeepsPauses w w' where
  /-- Nothing is reported. -/
  reports : w'.pool.reports = w.pool.reports
  /-- There are as many tasks. -/
  size : w'.crew.size = w.crew.size
  /-- They keep their names. -/
  name : ∀ i, w'.crew.name i = w.crew.name i

/-- Whatever a scheduler does keeps the reports, if it keeps the number of tasks and their names. -/
theorem keepsReports_onCrew {α : Type}
    {f : (Q : Type) → [Timetable Q (Job V)] → Crew × Q → α × (Crew × Q)}
    (hsize : ∀ {Q : Type} [Timetable Q (Job V)] (q : Q),
      (f Q (w.crew, q)).2.1.size = w.crew.size)
    (hname : ∀ {Q : Type} [Timetable Q (Job V)] (q : Q) (i : Nat),
      (f Q (w.crew, q)).2.1.name i = w.crew.name i) : KeepsReports w (w.readings.2.onCrew f).2 := by
  cases ha : w.agenda with
  | some agenda =>
    rw [onCrew_of_some (w := w.readings.2) ha]
    exact {
      toKeepsPauses := .of_pool (.refl _) rfl rfl rfl rfl
      reports := rfl
      size := hsize agenda
      name := hname agenda }
  | none =>
    rw [onCrew_of_none (w := w.readings.2) ha]
    exact {
      toKeepsPauses := .of_pool (.queue _ w.pool) rfl rfl rfl rfl
      reports := rfl
      size := hsize w.pool.queue
      name := hname w.pool.queue }

/-- A request keeps the reports. -/
theorem keepsReports_request (what : Request) (task : Nat) (w : Scene V) :
    KeepsReports w (w.request what task) :=
  keepsReports_onCrew (fun _ => Crew.size_request ..) fun _ _ => Crew.name_request ..

/-- An arrival keeps the reports. -/
theorem keepsReports_arrive (e : Errand) (w : Scene V) : KeepsReports w (w.arrive e).2 :=
  keepsReports_onCrew (fun _ => Crew.size_arrive ..) fun _ _ => Crew.name_arrive ..

/-- Reading the clock keeps `CrewMatches`. -/
theorem CrewMatches.readings (h : CrewMatches d es w) : CrewMatches d es w.readings.2 :=
  h.congr rfl rfl rfl rfl rfl

/-- A **request** to a task that has joined keeps `CrewMatches`. -/
theorem CrewMatches.request (h : CrewMatches d es w) (hlt : task < w.crew.size) (what : Request) :
    CrewMatches d es (w.request what task) := by
  have hv := h.readings
  rw [Scene.request]
  dsimp only
  cases ha : w.agenda with
  | some agenda =>
    obtain ⟨horder, hno⟩ := (tasksInOrder_of_some ha).1 h.tasksInOrder
    rw [onCrew_of_some (w := w.readings.2) ha]
    exact hv.used (Crew.size_request ..) rfl hv.theirs hv.sound
      ((tasksInOrder_of_some rfl).2 ⟨horder.request hlt w.options w.readings.1 what, hno⟩)
  | none =>
    have horder :=
      ((tasksInOrder_of_none ha).1 h.tasksInOrder).request hlt w.options w.readings.1 what
    rw [onCrew_of_none (w := w.readings.2) ha]
    exact hv.used (Crew.size_request ..) rfl
      (hv.theirs.uses (Crew.uses_request w.readings.1 what hlt) rfl) horder.sound
      ((tasksInOrder_of_none (by exact ha)).2 horder)

/-- The **arrival** of an errand that was about to arrive keeps `CrewMatches` without it. -/
theorem CrewMatches.arrive (h : CrewMatches d es w) {e : Errand} (he : e ∈ es) :
    CrewMatches d (es.erase e) (w.arrive e).2 := by
  have hv := h.readings
  rw [Scene.arrive]
  dsimp only
  cases ha : w.agenda with
  | some agenda =>
    obtain ⟨horder, hno⟩ := (tasksInOrder_of_some ha).1 h.tasksInOrder
    rw [onCrew_of_some (w := w.readings.2) ha]
    exact hv.used (Crew.size_arrive ..) rfl hv.theirs hv.sound
      ((tasksInOrder_of_some rfl).2 ⟨horder.arrive he w.options w.readings.1, hno⟩)
  | none =>
    have horder := ((tasksInOrder_of_none ha).1 h.tasksInOrder).arrive he w.options w.readings.1
    rw [onCrew_of_none (w := w.readings.2) ha]
    exact hv.used (Crew.size_arrive ..) rfl
      (hv.theirs.uses (Crew.uses_arrive w.readings.1 e w.crew) rfl) horder.sound
      ((tasksInOrder_of_none (by exact ha)).2 horder)

/-- The task whose run an arrival claims has joined. -/
theorem lt_of_arrive {e : Errand} (h : (w.arrive e).1 = some task) :
    task < (w.arrive e).2.crew.size := by
  have hclaims : ∀ {Q : Type} [Timetable Q (Job V)] (q : Q),
      (Crew.arrive w.options Job.errand w.readings.1 e (w.crew, q)).1 = some task →
        task < (Crew.arrive w.options Job.errand w.readings.1 e (w.crew, q)).2.1.size :=
    fun q hq => by
    refine Crew.lt_size_of_lives_ne fun hl => ?_
    have hstate := ((Crew.claimsRun_arrive w.options Job.errand w.readings.1 e (w.crew, q)).begun
      task hq).2
    rw [hl] at hstate
    cases hstate
  rw [Scene.arrive] at h ⊢
  dsimp only at h ⊢
  cases ha : w.agenda with
  | some agenda =>
    rw [onCrew_of_some (w := w.readings.2) ha] at h ⊢
    exact hclaims _ h
  | none =>
    rw [onCrew_of_none (w := w.readings.2) ha] at h ⊢
    exact hclaims _ h

/-! ### Outcomes -/

/-- Task `task` was **halted**, and the entries of the others were kept. -/
def Halted (task : Nat) (w w' : Scene V) : Prop :=
  match w.agenda, w'.agenda with
  | some agenda, some agenda' =>
    Crew.Halted Job.coding task (w.crew, agenda) (w'.crew, agenda')
  | none, none => Crew.Halted Job.coding task (w.crew, w.pool.queue) (w'.crew, w'.pool.queue)
  | _, _ => False

/-- The outcome `o` was **delivered** to `task`: its lifecycle is the one `deliver` gives, the
others are unchanged, and if `o` halts then `Halted` holds. -/
structure Delivered (task : Nat) (o : Outcome) (w w' : Scene V) : Prop where
  /-- What the tasks follow. -/
  lives : w'.crew.lives = Function.update w.crew.lives task
    ((w.crew.life task).deliver w.options.backoff o).1.1
  /-- The task may be halted. -/
  halted : o.halts = true → w.Halted task w'

/-- The outcome of a run arrives at the scheduler, without what is to be reported of it. -/
def absorb (task : Nat) (o : Outcome) (w : Scene V) : Scene V :=
  (w.readings.2.onCrew fun _ _ p => Crew.deliver w.options Job.errand w.readings.1 task o p).2

/-- `absorb` keeps the reports. -/
theorem keepsReports_absorb (task : Nat) (o : Outcome) (w : Scene V) :
    KeepsReports w (w.absorb task o) :=
  keepsReports_onCrew (fun _ => Crew.size_deliver ..) fun _ _ => Crew.name_deliver ..

/-- Finding nothing leaves the scene as it is. -/
theorem found_nil (w : Scene V) : w.found [] = w := by
  rw [found, List.append_nil]

/-- `deliver` is `absorb`, and the fatal failure is reported under the name of the task. -/
theorem deliver_eq (hlt : task < w.crew.size) (o : Outcome) :
    w.deliver task o =
      (w.absorb task o).found (o.fatal?.map fun message => (w.crew.name task, message)).toList := by
  have hfst : (w.readings.2.onCrew fun _ _ p =>
      Crew.deliver w.options Job.errand w.readings.1 task o p).1 = o.fatal? := by
    cases ha : w.agenda with
    | some agenda =>
      rw [onCrew_of_some (w := w.readings.2) ha]
      exact Crew.deliver_fst (p := (w.crew, agenda)) w.options Job.errand w.readings.1 o hlt
    | none =>
      rw [onCrew_of_none (w := w.readings.2) ha]
      exact Crew.deliver_fst (p := (w.crew, w.pool.queue)) w.options Job.errand w.readings.1 o hlt
  rw [← (keepsReports_absorb task o w).name task, ← hfst, deliver, absorb]
  dsimp only
  rw [show w.readings.2.options = w.options from rfl]
  generalize (w.readings.2.onCrew fun _ _ p =>
    Crew.deliver w.options Job.errand w.readings.1 task o p) = x
  obtain ⟨fatal, v⟩ := x
  cases fatal with
  | none => exact (found_nil v).symm
  | some message => rfl

/-- What was reported does not matter to `CrewMatches`. -/
theorem CrewMatches.found (h : CrewMatches d es w) (rs : List (String × String)) :
    CrewMatches d es (w.found rs) :=
  h.congr rfl rfl rfl rfl rfl

/-- `absorb` for a task that has joined keeps `CrewMatches`. -/
theorem CrewMatches.absorb (h : CrewMatches d es w) (hlt : task < w.crew.size) (o : Outcome) :
    CrewMatches d es (w.absorb task o) := by
  have hv := h.readings
  rw [Scene.absorb]
  cases ha : w.agenda with
  | some agenda =>
    obtain ⟨horder, hno⟩ := (tasksInOrder_of_some ha).1 h.tasksInOrder
    rw [onCrew_of_some (w := w.readings.2) ha]
    exact hv.used (Crew.size_deliver ..) rfl hv.theirs hv.sound
      ((tasksInOrder_of_some rfl).2 ⟨horder.deliver hlt w.options w.readings.1 o, hno⟩)
  | none =>
    have horder := ((tasksInOrder_of_none ha).1 h.tasksInOrder).deliver hlt w.options w.readings.1 o
    rw [onCrew_of_none (w := w.readings.2) ha]
    exact hv.used (Crew.size_deliver ..) rfl
      (hv.theirs.uses (Crew.uses_deliver w.readings.1 o hlt) rfl) horder.sound
      ((tasksInOrder_of_none (by exact ha)).2 horder)

/-- `absorb` for a task that has joined **delivers** the outcome. -/
theorem CrewMatches.delivered (h : CrewMatches d es w) (hlt : task < w.crew.size) (o : Outcome) :
    w.Delivered task o (w.absorb task o) := by
  rw [Scene.absorb]
  cases ha : w.agenda with
  | some agenda =>
    obtain ⟨horder, -⟩ := (tasksInOrder_of_some ha).1 h.tasksInOrder
    rw [onCrew_of_some (w := w.readings.2) ha]
    refine ⟨Crew.lives_deliver w.options Job.errand w.readings.1 o (p := (w.crew, agenda)) hlt,
      fun ho => ?_⟩
    rw [Scene.Halted, ha]
    exact horder.halted hlt w.options w.readings.1 ho
  | none =>
    have horder := (tasksInOrder_of_none ha).1 h.tasksInOrder
    rw [onCrew_of_none (w := w.readings.2) ha]
    refine ⟨Crew.lives_deliver w.options Job.errand w.readings.1 o
      (p := (w.crew, w.pool.queue)) hlt, fun ho => ?_⟩
    have ha' : w.readings.2.agenda = none := ha
    simp only [Scene.Halted, ha, ha']
    exact horder.halted hlt w.options w.readings.1 ho

/-! ### Completions -/

/-- A completion that is not owed **delivers nothing**. -/
theorem spend_of_not_owed {c : Completion} (hc : c.owed = false) (unwinding : Bool) (how : Fate)
    (w : Scene V) : w.spend unwinding how c = w := by
  obtain ⟨task, owed⟩ := c
  obtain rfl : owed = false := hc
  cases how <;> rfl

/-- A completion that is owed delivers the outcome of its ending. -/
theorem spend_of_owed {c : Completion} (hc : c.owed = true) (unwinding : Bool) (how : Fate)
    (w : Scene V) : w.spend unwinding how c = w.deliver c.task (how.ending unwinding) := by
  rw [spend, Completion.spend_of_owed hc]
  rfl

/-- What is parked after the script of `task` was changed. -/
theorem parked?_modifyScript (task : Nat) (x : Option Completion) (w : Scene V) (i : Nat) :
    (w.modifyScript task fun s => { s with parked := x }).parked? i =
      if i = task ∧ i < w.scripts.size then x else w.parked? i := by
  rw [parked?, parked?, modifyScript, Array.getElem?_modify]
  by_cases hi : task = i
  · subst hi
    rw [if_pos rfl]
    rcases Nat.lt_or_ge task w.scripts.size with hlt | hge
    · rw [Array.getElem?_eq_getElem hlt, if_pos ⟨rfl, hlt⟩]
      rfl
    · rw [Array.getElem?_eq_none hge, if_neg fun h => absurd h.2 (Nat.not_lt.2 hge)]
      rfl
  · rw [if_neg hi, if_neg fun h => hi h.1.symm]

/-- Parking a completion under a task, or taking it, keeps `CrewMatches` if the docket keeps the
same. -/
theorem CrewMatches.shelved (h : CrewMatches d es w) (hlt : task < w.crew.size)
    (hjobs : d'.jobs = d.jobs)
    (x : Option Nat)
    (hkeeps : ∀ i, d'.keeps (.shelf i) = if i = task then x else d.keeps (.shelf i)) :
    CrewMatches d' es
      (w.modifyScript task fun s => { s with parked := x.map fun _ => .fresh task }) where
  size := Array.size_modify.trans h.size
  jobs n i hn := h.jobs n i (hjobs ▸ hn)
  parked i := by
    rw [parked?_modifyScript, hkeeps, h.size]
    by_cases hi : i = task
    · subst hi
      rw [if_pos ⟨rfl, hlt⟩, if_pos rfl]
    · rw [if_neg fun hand => hi hand.1, if_neg hi]
      exact h.parked i
  theirs := h.theirs
  sound := h.sound
  tasksInOrder := h.tasksInOrder

/-- A task under which the docket keeps a completion has joined. -/
theorem CrewMatches.lt_of_shelf {n : Nat} (h : CrewMatches d es w) (ha : d.LogAccounted)
    (hn : d.keeps (.shelf task) = some n) : task < w.crew.size :=
  h.jobs n task (ha.shelf_job task n hn)

/-! ### Tasks that join, and entries that are taken out -/

/-- `register` keeps `CrewMatches`. -/
theorem CrewMatches.register (h : CrewMatches d es w) (ha : d.LogAccounted) (key name : String)
    (runs : List (List (Op V))) : CrewMatches d es (w.register key name runs) where
  size := by
    show (w.scripts.push _).size = (w.crew.register name).size
    rw [Array.size_push, Crew.size_register, h.size]
  jobs n i hn := by
    show i < (w.crew.register name).size
    rw [Crew.size_register]
    exact Nat.lt_succ_of_lt (h.jobs n i hn)
  parked i := by
    show (w.scripts.push _)[i]?.bind TaskScript.parked = _
    rw [Array.getElem?_push]
    by_cases hi : i = w.scripts.size
    · rw [if_pos hi]
      cases hn : d.keeps (.shelf i) with
      | none => rfl
      | some n =>
        have hlt := h.lt_of_shelf ha hn
        rw [hi, h.size] at hlt
        exact absurd hlt (Nat.lt_irrefl _)
    · rw [if_neg hi]
      exact h.parked i
  theirs := h.theirs
  sound := h.sound
  tasksInOrder := by
    cases hagenda : w.agenda with
    | some agenda =>
      obtain ⟨horder, hno⟩ := (tasksInOrder_of_some hagenda).1 h.tasksInOrder
      exact (tasksInOrder_of_some (by exact hagenda)).2 ⟨horder.register name, hno⟩
    | none =>
      exact (tasksInOrder_of_none (by exact hagenda)).2
        (((tasksInOrder_of_none hagenda).1 h.tasksInOrder).register name)

/-- Taking an entry **out of the queue** keeps `CrewMatches`, with its errand about to arrive. -/
theorem CrewMatches.takesOut (h : CrewMatches d es w) {x : Slip (Job V)} {q : Queue (Work (Job V))}
    (ht : TakesOut x w.pool.queue q) :
    CrewMatches d ((Job.coding.errand? x.work).toList ++ es)
      { w with pool := { w.pool with queue := q } } where
  size := h.size
  jobs := h.jobs
  parked := h.parked
  theirs y hy := by
    obtain ⟨hlt, hno⟩ := h.theirs y hy
    exact ⟨Nat.lt_of_lt_of_eq hlt ht.next_eq.symm,
      fun s hs => hno s (ht.mem_of_mem h.sound s hs).1⟩
  sound := ht.sound h.sound
  tasksInOrder := by
    cases ha : w.agenda with
    | some agenda =>
      obtain ⟨horder, hno⟩ := (tasksInOrder_of_some ha).1 h.tasksInOrder
      have hx : Job.coding.errand? x.work = none :=
        Option.not_isSome_iff_eq_none.1 (hno x ht.there)
      rw [hx]
      exact (tasksInOrder_of_some rfl).2
        ⟨horder, fun s hs => hno s (ht.mem_of_mem h.sound s hs).1⟩
    | none =>
      exact (tasksInOrder_of_none rfl).2 (((tasksInOrder_of_none ha).1 h.tasksInOrder).takesOut ht)

/-- Taking an entry out of the agenda keeps `CrewMatches`, with its errand about to arrive. -/
theorem CrewMatches.takeAt (h : CrewMatches d es w) {agenda agenda' : Agenda (Job V)}
    (ha : w.agenda = some agenda) {x : Slip (Job V)} (ht : TakesOut x agenda agenda') :
    CrewMatches d ((Job.coding.errand? x.work).toList ++ es) { w with agenda := some agenda' } where
  size := h.size
  jobs := h.jobs
  parked := h.parked
  theirs := h.theirs
  sound := h.sound
  tasksInOrder := by
    obtain ⟨horder, hno⟩ := (tasksInOrder_of_some ha).1 h.tasksInOrder
    exact (tasksInOrder_of_some rfl).2 ⟨horder.takesOut ht, hno⟩

end Scene

end Scenario

end TurnPool
