import Mathlib.Data.List.Pairwise
import TurnPool.Proofs.World

/-!
# Every run delivers one outcome

A run is claimed once, delivers one outcome, and its task is in flight in between. What ties the
state of a task to a run is the completion: it is outside of the scheduler, may be kept for as long
as somebody likes, and is the only way to an outcome. The invariant (`RunsAccounted`) therefore
speaks of the completions that are held: there is one for each task in flight, and no other.

## Main results

* `RunsAccounted`: completions, states and diary agree.
* `RunsAccounted.effect`: whatever happens keeps it so.
* `run_accounting`: in every state, what is under way and what was delivered.
-/

namespace TurnPool

/-- The outcome of `run`, if it was delivered here. -/
def Happening.outcome? (run : Nat) : Happening → Option Outcome
  | .delivered _ run' o => if run' = run then some o else none
  | _ => none

/-- The run that was claimed here, if one was. -/
def Happening.run? : Happening → Option Nat
  | .claimed _ run => some run
  | _ => none

/-- `run?` finds the run that was claimed. -/
theorem Happening.run?_eq_some {e : Happening} {run : Nat} :
    e.run? = some run ↔ ∃ task, e = .claimed task run := by
  cases e <;> simp [run?]

namespace World

variable {Q ω : Type} {w w' : World Q ω}

/-- The outcomes that were delivered of `run`. -/
def outcomes (run : Nat) (w : World Q ω) : List Outcome :=
  w.diary.filterMap (Happening.outcome? run)

/-- `run` is **under way**: it was claimed for `task`, and no outcome of it was delivered. -/
def Open (task run : Nat) (w : World Q ω) : Prop :=
  .claimed task run ∈ w.diary ∧ w.outcomes run = []

/-- The **completions** that are held are those of the runs under way, one for each task in flight;
every other run that was claimed has one outcome, and no run was claimed twice. -/
structure RunsAccounted (w : World Q ω) : Prop where
  /-- The tasks in flight are those that have a completion held. -/
  inFlight_iff : ∀ i, (w.lives i).state.isInFlight = true ↔ i ∈ w.held.map (·.2.task)
  /-- A task has one completion held. -/
  nodup_tasks : (w.held.map (·.2.task)).Nodup
  /-- A run has one completion. -/
  nodup_runs : (w.held.map (·.1)).Nodup
  /-- What is held belongs to a run that is under way. -/
  open_of_mem : ∀ x ∈ w.held, w.Open x.2.task x.1
  /-- Any other run has delivered one outcome. -/
  spent : ∀ task run, .claimed task run ∈ w.diary → run ∉ w.held.map (·.1) →
    ∃ o, w.outcomes run = [o]
  /-- The numbers of runs were given out. -/
  claimed_lt : ∀ task run, .claimed task run ∈ w.diary → run < w.runs
  /-- A number was given out once. -/
  claimed_nodup : (w.diary.filterMap Happening.run?).Nodup
  /-- Outcomes are those of runs. -/
  claimed_of_delivered : ∀ task run o, .delivered task run o ∈ w.diary → .claimed task run ∈ w.diary

/-- What `f` gives for the rest of a list with distinct values, after `a` was erased. -/
theorem mem_map_erase {α β : Type} [BEq α] [LawfulBEq α] {f : α → β} {l : List α} {a : α} {b : β}
    (hl : (l.map f).Nodup) (ha : a ∈ l) : b ∈ (l.erase a).map f ↔ b ∈ l.map f ∧ b ≠ f a := by
  simp only [List.mem_map, (List.Nodup.of_map _ hl).mem_erase_iff]
  constructor
  · rintro ⟨x, ⟨hne, hx⟩, rfl⟩
    exact ⟨⟨x, hx, rfl⟩, fun heq => hne (List.inj_on_of_nodup_map hl hx ha heq)⟩
  · rintro ⟨⟨x, hx, rfl⟩, hne⟩
    exact ⟨x, ⟨fun heq => hne (heq ▸ rfl), hx⟩, rfl⟩

/-- No outcome was delivered of a run that was not claimed. -/
theorem RunsAccounted.outcomes_eq_nil (h : w.RunsAccounted) {run : Nat} (hle : w.runs ≤ run) :
    w.outcomes run = [] := by
  refine List.filterMap_eq_nil_iff.2 fun e he => ?_
  cases e with
  | requested task what stopped => rfl
  | claimed task run' => rfl
  | delivered task run' o =>
    have hlt := h.claimed_lt task run' (h.claimed_of_delivered task run' o he)
    exact if_neg (by omega)

/-- A new world is accounted. -/
theorem runsAccounted_new (grouped : Bool) (table : Q) :
    (World.new grouped table : World Q ω).RunsAccounted where
  inFlight_iff i := by
    refine iff_of_false ?_ List.not_mem_nil
    cases grouped <;> exact Bool.false_ne_true
  nodup_tasks := List.nodup_nil
  nodup_runs := List.nodup_nil
  open_of_mem _ hx := nomatch hx
  spent _ _ hr := nomatch hr
  claimed_lt _ _ hr := nomatch hr
  claimed_nodup := List.nodup_nil
  claimed_of_delivered _ _ _ ho := nomatch ho

namespace RunsAccounted

/-- A run was claimed for one task. -/
theorem task_unique (h : w.RunsAccounted) {task task' run : Nat}
    (hc : .claimed task run ∈ w.diary) (hc' : .claimed task' run ∈ w.diary) : task = task' := by
  have hpair := List.pairwise_filterMap.1 h.claimed_nodup
  have hsymm : Std.Symm fun e e' : Happening =>
      ∀ run, e.run? = some run → ∀ run', e'.run? = some run' → run ≠ run' :=
    ⟨fun _ _ hee' run hr run' hr' => (hee' run' hr' run hr).symm⟩
  by_contra hne
  have hdistinct : Happening.claimed task run ≠ .claimed task' run :=
    fun heq => hne (Happening.claimed.inj heq).1
  exact hpair.forall hc hc' hdistinct run rfl run rfl rfl

/-- `RunsAccounted` is kept where the completions and the diary are the same, and the same tasks are
in flight. -/
theorem congr (h : w.RunsAccounted) (held : w'.held = w.held) (runs : w'.runs = w.runs)
    (diary : w'.diary = w.diary)
    (hlives : ∀ i, (w'.lives i).state.isInFlight = (w.lives i).state.isInFlight) :
    w'.RunsAccounted := by
  have hout : ∀ run, w'.outcomes run = w.outcomes run := fun run => by
    rw [outcomes, outcomes, diary]
  exact {
    inFlight_iff := fun i => by
      rw [hlives, held]
      exact h.inFlight_iff i
    nodup_tasks := held ▸ h.nodup_tasks
    nodup_runs := held ▸ h.nodup_runs
    open_of_mem := fun x hx => by
      obtain ⟨hc, ho⟩ := h.open_of_mem x (held ▸ hx)
      exact ⟨diary ▸ hc, (hout _).trans ho⟩
    spent := fun task run hr hh => by
      rw [hout]
      exact h.spent task run (diary ▸ hr) (held ▸ hh)
    claimed_lt := fun task run hr => runs ▸ h.claimed_lt task run (diary ▸ hr)
    claimed_nodup := diary ▸ h.claimed_nodup
    claimed_of_delivered := fun task run o ho =>
      diary ▸ h.claimed_of_delivered task run o (diary ▸ ho) }

/-- A request in the diary keeps `RunsAccounted`. -/
theorem noteRequest (h : w.RunsAccounted) (task : Nat) (what : Request) (stopped : Bool) :
    ({ w with diary := .requested task what stopped :: w.diary } : World Q ω).RunsAccounted where
  inFlight_iff := h.inFlight_iff
  nodup_tasks := h.nodup_tasks
  nodup_runs := h.nodup_runs
  open_of_mem x hx := ⟨List.mem_cons_of_mem _ (h.open_of_mem x hx).1, (h.open_of_mem x hx).2⟩
  spent task run hr hh := h.spent task run ((List.mem_cons.1 hr).resolve_left nofun) hh
  claimed_lt task run hr := h.claimed_lt task run ((List.mem_cons.1 hr).resolve_left nofun)
  claimed_nodup := h.claimed_nodup
  claimed_of_delivered task run o ho := by
    have hbefore := (List.mem_cons.1 ho).resolve_left nofun
    exact List.mem_cons_of_mem _ (h.claimed_of_delivered task run o hbefore)

/-- A **claim** keeps `RunsAccounted`, with the new run under way. -/
theorem begin (h : w.RunsAccounted) {task : Nat} (hlives : ClaimsRun w.lives (some task) w'.lives)
    (held : w'.held = (w.runs, .fresh task) :: w.held) (runs : w'.runs = w.runs + 1)
    (diary : w'.diary = .claimed task w.runs :: w.diary) : w'.RunsAccounted := by
  have hfree : task ∉ w.held.map (·.2.task) := fun hmem =>
    hlives.ne_of_isInFlight ((h.inFlight_iff task).2 hmem) rfl
  have hnew : w.runs ∉ w.held.map (·.1) := fun hmem => by
    obtain ⟨x, hx, heq⟩ := List.mem_map.1 hmem
    exact absurd (h.claimed_lt _ _ (h.open_of_mem x hx).1) (by omega)
  have hout : ∀ run, w'.outcomes run = w.outcomes run := fun run => by
    rw [outcomes, outcomes, diary]
    rfl
  exact {
    inFlight_iff := fun i => by
      rw [held, List.map_cons, List.mem_cons]
      by_cases hi : i = task
      · rw [hi, (hlives.begun task rfl).2]
        exact iff_of_true rfl (Or.inl rfl)
      · rw [hlives.isInFlight_other fun heq => hi (Option.some.inj heq).symm, h.inFlight_iff]
        exact (or_iff_right hi).symm
    nodup_tasks := by
      rw [held]
      exact List.nodup_cons.2 ⟨hfree, h.nodup_tasks⟩
    nodup_runs := by
      rw [held]
      exact List.nodup_cons.2 ⟨hnew, h.nodup_runs⟩
    open_of_mem := fun x hx => by
      rw [Open, hout, diary]
      rcases List.mem_cons.1 (held ▸ hx) with rfl | hx
      · exact ⟨List.mem_cons_self, h.outcomes_eq_nil (Nat.le_refl _)⟩
      · exact ⟨List.mem_cons_of_mem _ (h.open_of_mem x hx).1, (h.open_of_mem x hx).2⟩
    spent := fun task' run hr hh => by
      rw [held, List.map_cons, List.mem_cons, not_or] at hh
      rw [hout]
      rcases List.mem_cons.1 (diary ▸ hr) with heq | hr
      · exact absurd (Happening.claimed.inj heq).2 hh.1
      · exact h.spent task' run hr hh.2
    claimed_lt := fun task' run hr => by
      rw [runs]
      rcases List.mem_cons.1 (diary ▸ hr) with heq | hr
      · rw [(Happening.claimed.inj heq).2]
        omega
      · have hlt := h.claimed_lt task' run hr
        omega
    claimed_nodup := by
      rw [diary]
      refine List.nodup_cons.2 ⟨fun hmem => ?_, h.claimed_nodup⟩
      obtain ⟨e, he, hrun⟩ := List.mem_filterMap.1 hmem
      obtain ⟨task', rfl⟩ := Happening.run?_eq_some.1 hrun
      exact Nat.lt_irrefl _ (h.claimed_lt task' _ he)
    claimed_of_delivered := fun task' run o ho => by
      rw [diary] at ho ⊢
      exact List.mem_cons_of_mem _
        (h.claimed_of_delivered task' run o ((List.mem_cons.1 ho).resolve_left nofun)) }

/-- An **outcome** keeps `RunsAccounted`, with its run ended. -/
theorem finish (h : w.RunsAccounted) {x : Nat × Completion} (hx : x ∈ w.held) {o : Outcome}
    {bounds : BackoffConfig}
    (hlives : w'.lives =
      Function.update w.lives x.2.task ((w.lives x.2.task).deliver bounds o).1.1)
    (held : w'.held = w.held.erase x) (runs : w'.runs = w.runs)
    (diary : w'.diary = .delivered x.2.task x.1 o :: w.diary) : w'.RunsAccounted := by
  obtain ⟨hclaimed, hnone⟩ := h.open_of_mem x hx
  have hruns : ∀ run, run ∈ w'.held.map (·.1) ↔ run ∈ w.held.map (·.1) ∧ run ≠ x.1 := fun run => by
    rw [held]
    exact mem_map_erase h.nodup_runs hx
  have hself : w'.outcomes x.1 = [o] := by
    rw [outcomes, diary, List.filterMap_cons, Happening.outcome?, if_pos rfl]
    exact congrArg (o :: ·) hnone
  have hother : ∀ run, run ≠ x.1 → w'.outcomes run = w.outcomes run := fun run hne => by
    rw [outcomes, diary, List.filterMap_cons, Happening.outcome?, if_neg hne.symm]
    rfl
  exact {
    inFlight_iff := fun i => by
      rw [hlives, held, mem_map_erase h.nodup_tasks hx, Function.update_apply]
      split
      · rename_i hi
        rw [Lifecycle.isInFlight_deliver]
        exact iff_of_false Bool.false_ne_true fun hn => hn.2 hi
      · rename_i hi
        rw [h.inFlight_iff]
        exact (and_iff_left hi).symm
    nodup_tasks := by
      rw [held]
      exact (List.erase_sublist.map _).nodup h.nodup_tasks
    nodup_runs := by
      rw [held]
      exact (List.erase_sublist.map _).nodup h.nodup_runs
    open_of_mem := fun y hy => by
      have hne := ((hruns y.1).1 (List.mem_map_of_mem hy)).2
      obtain ⟨hc, ho⟩ := h.open_of_mem y (List.mem_of_mem_erase (held ▸ hy))
      rw [Open, hother _ hne, diary]
      exact ⟨List.mem_cons_of_mem _ hc, ho⟩
    spent := fun task run hr hh => by
      rw [diary] at hr
      by_cases heq : run = x.1
      · exact ⟨o, heq ▸ hself⟩
      · rw [hother run heq]
        exact h.spent task run ((List.mem_cons.1 hr).resolve_left nofun) fun hmem =>
          hh ((hruns run).2 ⟨hmem, heq⟩)
    claimed_lt := fun task run hr => by
      rw [diary] at hr
      exact runs ▸ h.claimed_lt task run ((List.mem_cons.1 hr).resolve_left nofun)
    claimed_nodup := by
      rw [diary]
      exact h.claimed_nodup
    claimed_of_delivered := fun task run o' ho => by
      rw [diary] at ho ⊢
      rcases List.mem_cons.1 ho with heq | ho
      · obtain ⟨rfl, rfl, -⟩ := Happening.delivered.inj heq
        exact List.mem_cons_of_mem _ hclaimed
      · exact List.mem_cons_of_mem _ (h.claimed_of_delivered task run o' ho) }

/-- **Every effect** keeps `RunsAccounted`. -/
theorem effect [Timetable Q ω] (h : w.RunsAccounted) (he : Effect w w') : w'.RunsAccounted := by
  cases he with
  | rested lives held runs diary =>
    exact h.congr held runs diary fun i => lives.isInFlight_other nofun
  | @asked bounds what task lives held runs diary =>
    refine (h.noteRequest task what _).congr held runs diary fun i => ?_
    rw [lives]
    show (Function.update w.lives task _ i).state.isInFlight = (w.lives i).state.isInFlight
    rw [Function.update_apply]
    split
    · rename_i hi
      rw [Lifecycle.state_request, TaskState.isInFlight_request, hi]
    · rfl
  | began lives held runs diary => exact h.begin lives held runs diary
  | ended bounds o there lives held runs diary => exact h.finish there lives held runs diary

end RunsAccounted

/-! ### What is under way, in every state -/

variable [Timetable Q ω] [LawfulTimetable Q ω] {c : Coding ω}

/-- Every reachable world is accounted. -/
theorem Reachable.runsAccounted (h : Reachable c w) : w.RunsAccounted :=
  h.effect_induction runsAccounted_new fun _ _ => RunsAccounted.effect

/-- In every reachable world a task `isInFlight` **just while one run of it is `Open`**: the run was
claimed, and no outcome of it was delivered. No two runs of a task are open, and while one is,
`beginRun` answers `none` and no entry that arrives claims a run of the task. No run is claimed
twice, every outcome is that of a run that was claimed, and each claimed run has **one outcome**
once its completion is not `held` any more, and none before. -/
theorem run_accounting (h : Reachable c w) :
    (∀ task, (w.lives task).state.isInFlight = true ↔ ∃ run, w.Open task run) ∧
    (∀ task run run', w.Open task run → w.Open task run' → run = run') ∧
    (∀ task run, w.Open task run → (w.lives task).state.beginRun = none ∧
      ∀ opts r e, (Crew.arrive opts c.job r e (w.crew, w.desk)).1 ≠ some task) ∧
    (w.diary.filterMap Happening.run?).Nodup ∧
    (∀ task run o, .delivered task run o ∈ w.diary → .claimed task run ∈ w.diary) ∧
    (∀ task run, .claimed task run ∈ w.diary →
      (w.outcomes run).length = if run ∈ w.held.map (·.1) then 0 else 1) := by
  have ha := h.runsAccounted
  -- A run that is under way has its completion held, and what is held is of its own task.
  have hheld : ∀ task run, w.Open task run → ∃ x ∈ w.held, x.1 = run ∧ x.2.task = task := by
    rintro task run ⟨hc, ho⟩
    by_cases hmem : run ∈ w.held.map (·.1)
    · obtain ⟨x, hx, rfl⟩ := List.mem_map.1 hmem
      exact ⟨x, hx, rfl, ha.task_unique (ha.open_of_mem x hx).1 hc⟩
    · obtain ⟨o, hone⟩ := ha.spent task run hc hmem
      exact nomatch ho.symm.trans hone
  have hflight : ∀ task run, w.Open task run → (w.lives task).state.isInFlight = true := by
    intro task run hopen
    obtain ⟨x, hx, -, rfl⟩ := hheld task run hopen
    exact (ha.inFlight_iff _).2 (List.mem_map_of_mem hx)
  refine ⟨fun task => ⟨fun hi => ?_, fun ⟨run, hopen⟩ => hflight task run hopen⟩, ?_, ?_,
    ha.claimed_nodup, ha.claimed_of_delivered, ?_⟩
  · obtain ⟨x, hx, rfl⟩ := List.mem_map.1 ((ha.inFlight_iff task).1 hi)
    exact ⟨x.1, ha.open_of_mem x hx⟩
  · intro task run run' hopen hopen'
    obtain ⟨x, hx, rfl, htask⟩ := hheld task run hopen
    obtain ⟨x', hx', rfl, htask'⟩ := hheld task run' hopen'
    rw [List.inj_on_of_nodup_map ha.nodup_tasks hx hx' (htask.trans htask'.symm)]
  · intro task run hopen
    have hi := hflight task run hopen
    refine ⟨?_, fun opts r e =>
      (Crew.claimsRun_arrive opts c.job r e (w.crew, w.desk)).ne_of_isInFlight hi⟩
    exact TaskState.beginRun_eq_none.2 (TaskState.isScheduled_of_isInFlight hi)
  · intro task run hc
    split
    · rename_i hmem
      obtain ⟨x, hx, rfl⟩ := List.mem_map.1 hmem
      rw [(ha.open_of_mem x hx).2]
      rfl
    · rename_i hmem
      obtain ⟨o, hone⟩ := ha.spent task run hc hmem
      rw [hone]
      rfl

/-- While the first run of a task is under way, its task is in flight, no other run of it is under
way, and its outcome is still owed. -/
theorem run_accounting_begun :
    (begun true).Open 0 0 ∧ ((begun true).lives 0).state.beginRun = none ∧
      (∀ run, (begun true).Open 0 run → run = 0) ∧ ((begun true).outcomes 0).length = 0 := by
  have hopen : (begun true).Open 0 0 := ⟨List.mem_cons_self, rfl⟩
  have hall := run_accounting (reachable_begun true)
  exact ⟨hopen, (hall.2.2.1 0 0 hopen).1, fun run hrun => hall.2.1 0 run 0 hrun hopen,
    hall.2.2.2.2.2 0 0 hopen.1⟩

end World

end TurnPool
