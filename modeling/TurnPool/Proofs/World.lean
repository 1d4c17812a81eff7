import TurnPool.Proofs.CrewLives
import TurnPool.Proofs.Entries
import TurnPool.Proofs.QueueEntries

/-!
# A crew among others

What a crew goes through is not up to it. Requests come from anywhere, the timetable is used by
others as well, entries are taken out and arrive later or never, and the completion of a run is
resolved by whoever has it, at any time. A `World` is a crew with all of that around it, and `Step`
is one thing that happens; the settings and the readings of the clock are arbitrary at each step.

## What a step is

The scheduler of a task holds its lock during an operation, so that an operation is one step: the
change of state, the entry that is called off and the entry that is made go together. An arriving
entry is such an operation, apart from its being taken out of the timetable, so that anything may
happen in between. A run is begun by the arrival that claims it; its completion is *held* from then
on until it comes to its end, one way or another.

## The diary

Requests, claims and outcomes are noted in a diary, latest first, and runs are numbered in the order
of their claims. Nothing reads the diary; it is what theorems about a whole run are stated in.

## Main results

* `World.Reachable`: the states that a crew can come to.
* `World.Step.effect`: what a step does to the lifecycles, the completions and the diary.
* `World.Reachable.effect_induction`: what every such effect keeps is so in every state.
-/

namespace TurnPool

/-! ### Completions -/

/-- The outcome of a run whose completion comes to its end. -/
def Fate.ending (unwinding : Bool) : Fate → Outcome
  | .abandon => if unwinding then .panicked else .dropped
  | how => how.outcome

/-- A completion that is owed delivers **exactly one** outcome, whatever its owner does with it. -/
theorem Completion.spend_of_owed {c : Completion} (h : c.owed = true) (unwinding : Bool)
    (how : Fate) : c.spend unwinding how = [how.ending unwinding] := by
  obtain ⟨task, owed⟩ := c
  obtain rfl : owed = true := h
  cases how <;> rfl

/-! ### The world of a crew -/

/-- Something that happened to a task. -/
inductive Happening where
  /-- Something was asked of it; `stopped` tells whether it was stopped then. -/
  | requested (task : Nat) (what : Request) (stopped : Bool)
  /-- A run of it was claimed. -/
  | claimed (task run : Nat)
  /-- The outcome of a run of it was delivered. -/
  | delivered (task run : Nat) (o : Outcome)
deriving DecidableEq, Repr

/-- A crew with its timetable, the entries in transit, the completions that are held, and a diary of
what happened, latest first. -/
structure World (Q ω : Type) where
  /-- The tasks. -/
  crew : Crew
  /-- The timetable, with a record of its use. -/
  desk : Recorded Q ω
  /-- The entries that were taken out of the timetable and have not arrived yet. -/
  transit : List (Nat × Errand)
  /-- The completions that were not used up yet, with the numbers of their runs. -/
  held : List (Nat × Completion)
  /-- How many runs were claimed. -/
  runs : Nat
  /-- What happened, latest first. -/
  diary : List Happening

namespace World

variable {Q ω : Type} [Timetable Q ω]

/-- A crew without tasks, at a timetable. -/
def new (grouped : Bool) (table : Q) : World Q ω :=
  { crew := .empty grouped, desk := ⟨table, [], []⟩, transit := [], held := [], runs := 0,
    diary := [] }

/-- The lifecycles of the tasks. -/
def lives (w : World Q ω) : Nat → Lifecycle := w.crew.lives

section Operations

variable (c : Coding ω) (opts : SchedulerOptions) (r : Readings)

/-- A request is made of a task. -/
def request (what : Request) (task : Nat) (w : World Q ω) : World Q ω :=
  let (crew, desk) := Crew.request opts c.job r what task (w.crew, w.desk)
  { w with
    crew, desk
    diary := .requested task what (w.lives task).state.isStopped :: w.diary }

/-- An entry that was in transit arrives. If it claims a run, the completion of the run is held. -/
def arrive (h : Nat) (e : Errand) (w : World Q ω) : World Q ω :=
  let (claimed, crew, desk) := Crew.arrive opts c.job r e (w.crew, w.desk)
  let w' := { w with crew, desk, transit := w.transit.erase (h, e) }
  match claimed with
  | some task =>
    { w' with
      held := (w.runs, .fresh task) :: w.held
      runs := w.runs + 1
      diary := .claimed task w.runs :: w.diary }
  | none => w'

/-- The outcome of a run is delivered. -/
def deliver (task run : Nat) (o : Outcome) (w : World Q ω) : World Q ω :=
  let (_, crew, desk) := Crew.deliver opts c.job r task o (w.crew, w.desk)
  { w with crew, desk, diary := .delivered task run o :: w.diary }

/-- A completion comes to its end. -/
def spend (unwinding : Bool) (how : Fate) (x : Nat × Completion) (w : World Q ω) : World Q ω :=
  (x.2.spend unwinding how).foldl (fun w o => w.deliver c opts r x.2.task x.1 o)
    { w with held := w.held.erase x }

end Operations

variable {c : Coding ω} {w w' : World Q ω}

/-! ### What an operation does -/

/-- Every completion that is held is owed, and belongs to a task that has joined. -/
def HeldOwed (w : World Q ω) : Prop :=
  ∀ x ∈ w.held, x.2.owed = true ∧ x.2.task < w.crew.size

/-- What a step does to the lifecycles, the completions and the diary: no run is claimed and nothing
noted, or a request, a claim or an outcome is noted and done. -/
inductive Effect (w w' : World Q ω) : Prop
  /-- Nothing, or the delays of some tasks are over. -/
  | rested (lives : ClaimsRun w.lives none w'.lives) (held : w'.held = w.held)
      (runs : w'.runs = w.runs) (diary : w'.diary = w.diary)
  /-- Something was asked of a task. -/
  | asked (bounds : BackoffConfig) (what : Request) {task : Nat}
      (lives : w'.lives =
        Function.update w.lives task ((w.lives task).request bounds what).1)
      (held : w'.held = w.held) (runs : w'.runs = w.runs)
      (diary : w'.diary = .requested task what (w.lives task).state.isStopped :: w.diary)
  /-- A run was claimed. -/
  | began {task : Nat} (lives : ClaimsRun w.lives (some task) w'.lives)
      (held : w'.held = (w.runs, .fresh task) :: w.held) (runs : w'.runs = w.runs + 1)
      (diary : w'.diary = .claimed task w.runs :: w.diary)
  /-- A completion came to its end, and one outcome was delivered. -/
  | ended (bounds : BackoffConfig) (o : Outcome) {x : Nat × Completion} (there : x ∈ w.held)
      (lives : w'.lives =
        Function.update w.lives x.2.task ((w.lives x.2.task).deliver bounds o).1.1)
      (held : w'.held = w.held.erase x) (runs : w'.runs = w.runs)
      (diary : w'.diary = .delivered x.2.task x.1 o :: w.diary)

/-- A completion that is owed delivers one outcome. -/
theorem spend_of_owed {x : Nat × Completion} (hx : x.2.owed = true) (opts : SchedulerOptions)
    (r : Readings) (unwinding : Bool) (how : Fate) :
    w.spend c opts r unwinding how x =
      ({ w with held := w.held.erase x } : World Q ω).deliver c opts r x.2.task x.1
        (how.ending unwinding) := by
  rw [spend, Completion.spend_of_owed hx]
  rfl

/-- An arrival has the effect of a claim, or of nothing. -/
theorem effect_arrive (opts : SchedulerOptions) (r : Readings) (h : Nat) (e : Errand) :
    Effect w (w.arrive c opts r h e) := by
  have hclaims := Crew.claimsRun_arrive opts c.job r e (w.crew, w.desk)
  cases hc : (Crew.arrive opts c.job r e (w.crew, w.desk)).1 with
  | none =>
    rw [hc] at hclaims
    have heq : w.arrive c opts r h e =
        { w with
          crew := (Crew.arrive opts c.job r e (w.crew, w.desk)).2.1
          desk := (Crew.arrive opts c.job r e (w.crew, w.desk)).2.2
          transit := w.transit.erase (h, e) } := by
      simp only [arrive, hc]
    rw [heq]
    exact .rested hclaims rfl rfl rfl
  | some task =>
    rw [hc] at hclaims
    have heq : w.arrive c opts r h e =
        { crew := (Crew.arrive opts c.job r e (w.crew, w.desk)).2.1
          desk := (Crew.arrive opts c.job r e (w.crew, w.desk)).2.2
          transit := w.transit.erase (h, e)
          held := (w.runs, .fresh task) :: w.held
          runs := w.runs + 1
          diary := .claimed task w.runs :: w.diary } := by
      simp only [arrive, hc]
    rw [heq]
    exact .began hclaims rfl rfl rfl

/-- What an arrival does to the crew, the timetable and the entries in transit does not depend on
what it claims. -/
theorem arrive_eq (opts : SchedulerOptions) (r : Readings) (h : Nat) (e : Errand) :
    (w.arrive c opts r h e).crew = (Crew.arrive opts c.job r e (w.crew, w.desk)).2.1 ∧
      (w.arrive c opts r h e).desk = (Crew.arrive opts c.job r e (w.crew, w.desk)).2.2 ∧
      (w.arrive c opts r h e).transit = w.transit.erase (h, e) := by
  cases hc : (Crew.arrive opts c.job r e (w.crew, w.desk)).1 <;>
    exact ⟨by simp only [arrive, hc], by simp only [arrive, hc], by simp only [arrive, hc]⟩

/-- An arrival adds no task. -/
theorem size_arrive (opts : SchedulerOptions) (r : Readings) (h : Nat) (e : Errand) :
    (w.arrive c opts r h e).crew.size = w.crew.size := by
  rw [(arrive_eq opts r h e).1]
  exact Crew.size_arrive opts c.job r e (w.crew, w.desk)

/-! ### Steps -/

variable [LawfulTimetable Q ω]

/-- One thing that **happens**. -/
inductive Step (c : Coding ω) : World Q ω → World Q ω → Prop
  /-- A task joins. -/
  | register {w : World Q ω} (name : String) : Step c w { w with crew := w.crew.register name }
  /-- Something is asked of a task. -/
  | request {w : World Q ω} (opts : SchedulerOptions) (r : Readings) (what : Request) {task : Nat}
      (joined : task < w.crew.size) : Step c w (w.request c opts r what task)
  /-- An entry is taken out of the timetable, of the crew or not. -/
  | take {w : World Q ω} {s : Slip ω} {table : Q}
      (taken : LawfulTimetable.TakesOut s w.desk.table table) :
      Step c w
        { w with desk := { w.desk with table }, transit := Recorded.transitOf c s w.transit }
  /-- An entry of the crew arrives. -/
  | arrive {w : World Q ω} (opts : SchedulerOptions) (r : Readings) {h : Nat} {e : Errand}
      (there : (h, e) ∈ w.transit) : Step c w (w.arrive c opts r h e)
  /-- A completion comes to its end. -/
  | spend {w : World Q ω} (opts : SchedulerOptions) (r : Readings) (unwinding : Bool) (how : Fate)
      {x : Nat × Completion} (there : x ∈ w.held) : Step c w (w.spend c opts r unwinding how x)
  /-- Others use the timetable. -/
  | stir {w : World Q ω} {table : Q}
      (stirred : LawfulTimetable.KeepsMine c.IsMine w.desk.table table) :
      Step c w { w with desk := { w.desk with table } }

/-- The states that a crew **can come to**, from a timetable with no entries of its own. -/
inductive Reachable (c : Coding ω) : World Q ω → Prop
  | new (grouped : Bool) {table : Q} (sound : LawfulTimetable.Sound table)
      (theirs : ∀ s ∈ LawfulTimetable.slips table, ¬ c.IsMine s.work) :
      Reachable c (World.new grouped table)
  | step {w w' : World Q ω} (reached : Reachable c w) (step : Step c w w') : Reachable c w'

/-- Every step has **one of the four effects**. -/
theorem Step.effect (hheld : w.HeldOwed) (step : Step c w w') : Effect w w' := by
  cases step with
  | register name =>
    refine .rested ?_ rfl rfl rfl
    rw [lives, lives, Crew.lives_register]
    exact .refl _
  | request opts r what joined =>
    exact .asked opts.backoff what
      (Crew.lives_request opts c.job r what (p := (w.crew, w.desk)) joined) rfl rfl rfl
  | take taken => exact .rested (.refl _) rfl rfl rfl
  | arrive opts r there => exact effect_arrive opts r _ _
  | spend opts r unwinding how there =>
    obtain ⟨howed, hlt⟩ := hheld _ there
    rw [spend_of_owed howed]
    exact .ended opts.backoff _ there
      (Crew.lives_deliver opts c.job r _ (p := (w.crew, w.desk)) hlt) rfl rfl rfl
  | stir stirred => exact .rested (.refl _) rfl rfl rfl

/-- No step removes a task. -/
theorem Step.size_le (hheld : w.HeldOwed) (step : Step c w w') : w.crew.size ≤ w'.crew.size := by
  cases step with
  | register name =>
    show w.crew.size ≤ (w.crew.register name).size
    rw [Crew.size_register]
    omega
  | @request opts r what task joined =>
    exact Nat.le_of_eq (Crew.size_request opts c.job r what task (w.crew, w.desk)).symm
  | take taken => exact Nat.le_refl _
  | arrive opts r there => exact Nat.le_of_eq (size_arrive opts r _ _).symm
  | @spend opts r unwinding how x there =>
    rw [spend_of_owed (hheld _ there).1]
    exact Nat.le_of_eq
      (Crew.size_deliver opts c.job r (how.ending unwinding) x.2.task (w.crew, w.desk)).symm
  | stir stirred => exact Nat.le_refl _

/-- Every step keeps `HeldOwed`. -/
theorem HeldOwed.step (hheld : w.HeldOwed) (step : Step c w w') : w'.HeldOwed := by
  intro x hx
  have hle := step.size_le hheld
  have hold : x ∈ w.held → x.2.owed = true ∧ x.2.task < w'.crew.size := by
    intro hx
    obtain ⟨howed, hlt⟩ := hheld x hx
    exact ⟨howed, by omega⟩
  cases step.effect hheld with
  | rested lives held runs diary => exact hold (held ▸ hx)
  | asked bounds what lives held runs diary => exact hold (held ▸ hx)
  | ended bounds o there lives held runs diary => exact hold (List.mem_of_mem_erase (held ▸ hx))
  | @began task lives held runs diary =>
    rcases List.mem_cons.1 (held ▸ hx) with rfl | hx
    · refine ⟨rfl, Crew.lt_size_of_lives_ne fun hl => ?_⟩
      have hstate := (lives.begun task rfl).2
      exact nomatch hstate.symm.trans (congrArg Lifecycle.state hl)
    · exact hold hx

/-- Every reachable world has `HeldOwed`. -/
theorem Reachable.heldOwed (h : Reachable c w) : w.HeldOwed := by
  induction h with
  | new grouped sound theirs => exact fun _ hx => nomatch hx
  | step _ step ih => exact ih.step step

/-- **What every effect keeps** holds in every reachable world. -/
theorem Reachable.effect_induction {P : World Q ω → Prop} (h : Reachable c w)
    (new : ∀ grouped table, P (World.new grouped table))
    (effect : ∀ w w' : World Q ω, P w → Effect w w' → P w') : P w := by
  induction h with
  | new grouped sound theirs => exact new grouped _
  | step reached step ih => exact effect _ _ ih (step.effect reached.heldOwed)

/-! ### A crew at the event queue

The smallest world in which a run is under way: one task, of either kind of scheduler, at the event
queue, with all work of the queue its own. -/

/-- The world of one task that was started. -/
def started (grouped : Bool) : World (Queue (Work Errand)) Errand :=
  let w := World.new grouped (Queue.new 8)
  request .self default ⟨0, 0, 0⟩ .start 0 { w with crew := w.crew.register "task" }

/-- The first entry of the task. -/
def firstErrand (grouped : Bool) : Errand := if grouped then .dispatch 1 else .run 0 1

/-- The same world when the entry was taken out of the queue. -/
def underway (grouped : Bool) : World (Queue (Work Errand)) Errand :=
  let w := started grouped
  { w with
    desk := { w.desk with table := (w.desk.table.dequeue 0).2 }
    transit := [(0, firstErrand grouped)] }

/-- The same world when the entry has arrived, and the run of the task has begun. -/
def begun (grouped : Bool) : World (Queue (Work Errand)) Errand :=
  (underway grouped).arrive .self default ⟨0, 0, 0⟩ 0 (firstErrand grouped)

/-- The same world when the task was stopped before the entry arrived. -/
def stoppedUnderway (grouped : Bool) : World (Queue (Work Errand)) Errand :=
  (underway grouped).request .self default ⟨0, 0, 0⟩ .stop 0

/-- `started` is reachable. -/
theorem reachable_started (grouped : Bool) : Reachable .self (started grouped) := by
  have hnew : Reachable .self (World.new grouped (Queue.new 8 : Queue (Work Errand))) :=
    .new grouped ⟨nofun, List.nodup_nil, nofun⟩ nofun
  refine .step (.step hnew (.register "task")) (.request default _ .start ?_)
  cases grouped <;> decide

/-- The entry that `started` dequeues. -/
theorem dequeue_started (grouped : Bool) :
    (started grouped).desk.table.dequeue 0 =
      ((some ⟨default, 0, .event (firstErrand grouped)⟩, true),
        ((started grouped).desk.table.dequeue 0).2) := by
  cases grouped <;> rfl

/-- `underway` is reachable. -/
theorem reachable_underway (grouped : Bool) : Reachable .self (underway grouped) :=
  .step (reachable_started grouped)
    (.take (Queue.takesOut_of_dequeue (dequeue_started grouped) rfl))

/-- `begun` is reachable. -/
theorem reachable_begun (grouped : Bool) : Reachable .self (begun grouped) :=
  .step (reachable_underway grouped) (.arrive default _ List.mem_cons_self)

/-- `stoppedUnderway` is reachable. -/
theorem reachable_stoppedUnderway (grouped : Bool) : Reachable .self (stoppedUnderway grouped) := by
  refine .step (reachable_underway grouped) (.request default _ .stop ?_)
  cases grouped <;> decide

end World

end TurnPool
