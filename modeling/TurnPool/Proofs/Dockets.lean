import Mathlib.Data.List.Perm.Basic
import Mathlib.Logic.Function.Basic
import TurnPool.Pool.Pause
import TurnPool.Proofs.Lifecycle

/-!
# A docket of what was begun

What a worker serves, and the runs of tasks wherever they take place, are numbered in the order in
which they begin. A docket says of each of them where it is: which thread is in the middle of it,
and, for a run, who keeps its completion. That may be the thread itself, or it is parked under the
task, or it was used. The docket also has a log of what is a reason for a report: completions that
delivered an outcome, ends of what was begun, and what the pool finds open.

A completion is used by whoever keeps it, and a thread that is in the middle of nothing ends
nothing. So nothing is noted where there is nothing to note.

## Main results

* `Docket.LogAccounted`: the docket and its log agree.
* `LogAccounted.begin`, `LogAccounted.use`, `LogAccounted.shelve`, `LogAccounted.finish`: they do so
  after anything that is noted.
* `Docket.reports`: what is reported of all that is in the log.
* `Docket.LogAccounted.reports_perm`: that is what is due for each number, and what was found open.
* `Docket.LogAccounted.outcomes_eq`, `Docket.LogAccounted.ends_eq`: a run delivers once, and ends
  once.
-/

namespace TurnPool

/-- The text of a fatal failure. -/
def Outcome.fatal? : Outcome → Option String
  | .failure e => if e.isFatal then some e.wording else none
  | _ => none

/-- What `deliver` reports is the text of a fatal outcome. -/
theorem Lifecycle.deliver_snd_eq (bounds : BackoffConfig) (o : Outcome) (l : Lifecycle) :
    (l.deliver bounds o).2 = o.fatal? := by
  cases o with
  | success more => rfl
  | failure e =>
    rw [deliver, Outcome.fatal?]
    split <;> rfl
  | panicked => rfl

namespace Scenario

/-- Something that is a reason for a report: an outcome that was delivered, a body that ended, or
what was found open. -/
inductive LogEntry where
  /-- The completion of a run delivered an outcome. -/
  | delivered (n : Nat) (o : Outcome)
  /-- What was begun has ended, with a panic or without one. -/
  | ended (n : Nat) (p : Option Panic)
  /-- Something was found open. -/
  | found (origin message : String)
deriving DecidableEq

namespace LogEntry

/-- The job that the entry is about. -/
def number? : LogEntry → Option Nat
  | delivered n _ | ended n _ => some n
  | found _ _ => none

/-- The outcome of job `n`, if the entry is its delivery. -/
def outcome? (n : Nat) : LogEntry → Option Outcome
  | delivered m o => if m = n then some o else none
  | _ => none

/-- The end of job `n`, if the entry is that. -/
def end? (n : Nat) : LogEntry → Option (Option Panic)
  | ended m p => if m = n then some p else none
  | _ => none

/-- What was found open, if the entry is that. -/
def finding? : LogEntry → Option (String × String)
  | found origin message => some (origin, message)
  | _ => none

end LogEntry

/-- Who keeps the completion of a run. -/
inductive Keeper where
  /-- A thread that is in the middle of the run. -/
  | hand (thread : Nat)
  /-- It is parked under its task. -/
  | shelf (task : Nat)
deriving DecidableEq

/-- The jobs that were begun, each a run of a task or an event; the body that each thread is in the
middle of; who keeps which completion; and the log. -/
structure Docket where
  /-- What was begun: runs of tasks, and other things. -/
  jobs : List (Option Nat)
  /-- What each thread is in the middle of. -/
  body : Nat → Option Nat
  /-- The run whose completion somebody keeps. -/
  keeps : Keeper → Option Nat
  /-- What was a reason for a report, in order. -/
  log : List LogEntry

namespace Docket

/-- The docket of no job. -/
def empty : Docket := ⟨[], fun _ => none, fun _ => none, []⟩

/-- The outcomes of job `n` that were delivered. -/
def outcomes (n : Nat) (d : Docket) : List Outcome := d.log.filterMap (LogEntry.outcome? n)

/-- How job `n` ended. -/
def ends (n : Nat) (d : Docket) : List (Option Panic) := d.log.filterMap (LogEntry.end? n)

/-! ### What is noted -/

/-- Adds entries to the log. -/
def note (es : List LogEntry) (d : Docket) : Docket := { d with log := d.log ++ es }

/-- Logs what was found open. -/
def find (rs : List (String × String)) (d : Docket) : Docket :=
  d.note (rs.map fun r => .found r.1 r.2)

/-- Thread `id` begins a run of a task, or an event. -/
def begin (id : Nat) (what : Option Nat) (d : Docket) : Docket :=
  { d with
    jobs := d.jobs ++ [what]
    body := Function.update d.body id (some d.jobs.length)
    keeps := Function.update d.keeps (.hand id) (what.map fun _ => d.jobs.length) }

/-- Keeper `k` uses the completion that it keeps. -/
def use (k : Keeper) (o : Outcome) (d : Docket) : Docket :=
  match d.keeps k with
  | some n => { d.note [.delivered n o] with keeps := Function.update d.keeps k none }
  | none => d

/-- The completion of job `n` goes over from thread `id` to the shelf of `task`. -/
def handOver (id task n : Nat) (d : Docket) : Docket :=
  { d with
    keeps := Function.update (Function.update d.keeps (.hand id) none) (.shelf task) (some n) }

/-- Thread `id` parks the completion that it has in hand. One that is parked already is dropped. -/
def shelve (id task : Nat) (d : Docket) : Docket :=
  match d.keeps (.hand id) with
  | some n =>
    let d := d.use (.shelf task) .dropped
    { d with
      keeps := Function.update (Function.update d.keeps (.hand id) none) (.shelf task) (some n) }
  | none => d

/-- The body of thread `id` has ended. -/
def finish (id : Nat) (p : Option Panic) (d : Docket) : Docket :=
  match d.body id with
  | some n => { d.note [.ended n p] with body := Function.update d.body id none }
  | none => d

variable {d : Docket} {k : Keeper} {id task n m : Nat} {o : Outcome} {p : Option Panic}
  {what : Option Nat}

/-- A value of an updated function is the new one or an old one. -/
theorem update_eq_some {α : Type} [DecidableEq α] {f : α → Option Nat} {i j : α} {x : Option Nat} :
    Function.update f i x j = some n ↔ (j = i ∧ x = some n) ∨ (j ≠ i ∧ f j = some n) := by
  by_cases h : j = i
  · subst h
    simp
  · rw [Function.update_of_ne h]
    simp [h]

/-- A value of a function with one place cleared is one of another place. -/
theorem update_none_eq_some {α : Type} [DecidableEq α] {f : α → Option Nat} {i j : α} :
    Function.update f i none j = some n ↔ j ≠ i ∧ f j = some n := by
  simp [update_eq_some]

/-- `use` of a keeper that keeps nothing changes nothing. -/
theorem use_of_none (h : d.keeps k = none) : d.use k o = d := by
  rw [use, h]

/-- `use` of a keeper that keeps `n` logs the outcome of `n`, and the keeper keeps nothing. -/
theorem use_of_some (h : d.keeps k = some n) : d.use k o =
    { d.note [.delivered n o] with keeps := Function.update d.keeps k none } := by
  rw [use, h]

/-- `begin` keeps the jobs that were begun. -/
theorem jobs_begin (h : d.jobs[n]? = some what) {new : Option Nat} :
    (d.begin id new).jobs[n]? = some what := by
  obtain ⟨hlt, -⟩ := List.getElem?_eq_some_iff.1 h
  exact (List.getElem?_append_left hlt).trans h

/-- A job after `begin` is one from before, or the new one in the last place. -/
theorem of_jobs_begin {new : Option Nat} (h : (d.begin id new).jobs[n]? = some what) :
    d.jobs[n]? = some what ∨ (n = d.jobs.length ∧ what = new) := by
  rcases Nat.lt_trichotomy n d.jobs.length with hlt | rfl | hgt
  · exact Or.inl ((List.getElem?_append_left hlt).symm.trans h)
  · exact Or.inr ⟨rfl, (Option.some.inj (List.getElem?_concat_length.symm.trans h)).symm⟩
  · rw [begin, List.getElem?_eq_none (by simp; omega)] at h
    cases h

/-- After `begin` the thread's body is the new job. -/
@[simp] theorem body_begin_self : (d.begin id what).body id = some d.jobs.length :=
  Function.update_self _ _ _

/-- After `begin` the thread has the completion of the new job in hand, if it is a run. -/
theorem keeps_begin_hand : (d.begin id what).keeps (.hand id) = what.map fun _ => d.jobs.length :=
  Function.update_self _ _ _

/-- `begin` keeps what is parked. -/
theorem keeps_begin_shelf : (d.begin id what).keeps (.shelf task) = d.keeps (.shelf task) := by
  rw [begin]
  dsimp only
  rw [Function.update_of_ne (by simp)]

/-- `begin` adds the job in the last place. -/
theorem jobs_begin_self : (d.begin id what).jobs[d.jobs.length]? = some what :=
  List.getElem?_concat_length

/-- The bodies after `begin`. -/
theorem body_begin_iff {id' : Nat} : (d.begin id what).body id' = some n ↔
    (id' = id ∧ n = d.jobs.length) ∨ (id' ≠ id ∧ d.body id' = some n) := by
  rw [begin, update_eq_some]
  simp [eq_comm]

/-- The keepers after `begin`. -/
theorem keeps_begin_iff : (d.begin id what).keeps k = some n ↔
    (k = .hand id ∧ n = d.jobs.length ∧ what.isSome = true) ∨
      (k ≠ .hand id ∧ d.keeps k = some n) := by
  rw [begin, update_eq_some]
  cases what <;> simp [eq_comm]

/-- `use` keeps the jobs. -/
@[simp] theorem jobs_use : (d.use k o).jobs = d.jobs := by
  rw [use]
  split <;> rfl

/-- `use` keeps the bodies. -/
@[simp] theorem body_use : (d.use k o).body = d.body := by
  rw [use]
  split <;> rfl

/-- After `use` the keeper keeps nothing. -/
@[simp] theorem keeps_use_self : (d.use k o).keeps k = none := by
  rw [use]
  split
  · exact Function.update_self _ _ _
  · assumption

/-- `use` keeps the other keepers. -/
theorem keeps_use_of_ne {k' : Keeper} (h : k' ≠ k) : (d.use k o).keeps k' = d.keeps k' := by
  rw [use]
  split
  · dsimp only
    rw [Function.update_of_ne h]
  · rfl

/-- `shelve` keeps the jobs. -/
@[simp] theorem jobs_shelve : (d.shelve id task).jobs = d.jobs := by
  rw [shelve]
  split
  · exact jobs_use
  · rfl

/-- `shelve` keeps the bodies. -/
@[simp] theorem body_shelve : (d.shelve id task).body = d.body := by
  rw [shelve]
  split
  · exact body_use
  · rfl

/-- `shelve` of a thread with no completion in hand changes nothing. -/
theorem shelve_of_none (h : d.keeps (.hand id) = none) : d.shelve id task = d := by
  rw [shelve, h]

/-- `shelve` drops what is parked under the task, and then hands over. -/
theorem shelve_of_some (h : d.keeps (.hand id) = some n) :
    d.shelve id task = (d.use (.shelf task) .dropped).handOver id task n := by
  rw [shelve, h]
  rfl

/-- The keepers after `handOver`. -/
theorem keeps_handOver_iff (h : d.keeps (.shelf task) = none) :
    (d.handOver id task n).keeps k = some m ↔
      (k = .shelf task ∧ m = n) ∨ (k ≠ .hand id ∧ d.keeps k = some m) := by
  rw [handOver, update_eq_some, update_none_eq_some]
  by_cases hk : k = .shelf task
  · subst hk
    simp [h, eq_comm]
  · simp [hk]

/-- After `shelve` the thread has nothing in hand, and only what is parked under the task has
changed. -/
theorem keeps_shelve (h : d.keeps (.hand id) = some n) :
    (d.shelve id task).keeps (.hand id) = none ∧
      ∀ i, (d.shelve id task).keeps (.shelf i) =
        if i = task then some n else d.keeps (.shelf i) := by
  rw [shelve, h]
  dsimp only
  constructor
  · rw [Function.update_of_ne (by simp), Function.update_self]
  · intro i
    by_cases hi : i = task
    · rw [hi, Function.update_self, if_pos rfl]
    · have hne : Keeper.shelf i ≠ .shelf task := by simpa using hi
      rw [Function.update_of_ne hne, Function.update_of_ne (by simp), keeps_use_of_ne hne,
        if_neg hi]

/-- `shelve` logs what dropping the parked completion logs. -/
theorem log_shelve (h : d.keeps (.hand id) = some n) :
    (d.shelve id task).log = (d.use (.shelf task) .dropped).log := by
  rw [shelve, h]

/-- `finish` keeps the jobs. -/
@[simp] theorem jobs_finish : (d.finish id p).jobs = d.jobs := by
  rw [finish]
  split <;> rfl

/-- `finish` keeps the keepers. -/
@[simp] theorem keeps_finish : (d.finish id p).keeps = d.keeps := by
  rw [finish]
  split <;> rfl

/-- After `finish` the thread has no body. -/
@[simp] theorem body_finish_self : (d.finish id p).body id = none := by
  rw [finish]
  split
  · exact Function.update_self _ _ _
  · assumption

/-- `finish` of a thread without a body changes nothing. -/
theorem finish_of_none (h : d.body id = none) : d.finish id p = d := by
  rw [finish, h]

/-- `finish` of a thread with body `n` logs the end of `n`. -/
theorem finish_of_some (h : d.body id = some n) : d.finish id p =
    { d.note [.ended n p] with body := Function.update d.body id none } := by
  rw [finish, h]

/-! ### Docket and log agree -/

/-- The completion of job `n` is kept. -/
def IsKept (n : Nat) (d : Docket) : Prop := ∃ k, d.keeps k = some n

/-- The docket and its log **agree**: of every run one outcome was delivered or its completion is
kept, and every job has ended once or is the body of a thread. -/
structure LogAccounted (d : Docket) : Prop where
  /-- What a thread is in the middle of was begun. -/
  body_lt : ∀ id n, d.body id = some n → n < d.jobs.length
  /-- Two threads are not in the middle of the same. -/
  body_unique : ∀ id id' n, d.body id = some n → d.body id' = some n → id = id'
  /-- A thread has the completion of what it is in the middle of. -/
  hand_body : ∀ id n, d.keeps (.hand id) = some n → d.body id = some n
  /-- Only runs have completions. -/
  keeps_job : ∀ k n, d.keeps k = some n → ∃ task, d.jobs[n]? = some (some task)
  /-- What is parked under a task is of a run of it. -/
  shelf_job : ∀ task n, d.keeps (.shelf task) = some n → d.jobs[n]? = some (some task)
  /-- A completion is kept by one. -/
  keeps_unique : ∀ k k' n, d.keeps k = some n → d.keeps k' = some n → k = k'
  /-- Outcomes are those of runs. -/
  delivered_job : ∀ n o, .delivered n o ∈ d.log → ∃ task, d.jobs[n]? = some (some task)
  /-- What has ended was begun. -/
  ended_lt : ∀ n p, .ended n p ∈ d.log → n < d.jobs.length
  /-- A completion that somebody keeps was not used. -/
  outcomes_open : ∀ n, d.IsKept n → d.outcomes n = []
  /-- Any other one was used once. -/
  outcomes_spent : ∀ n task, d.jobs[n]? = some (some task) → ¬ d.IsKept n → ∃ o, d.outcomes n = [o]
  /-- What a thread is in the middle of has not ended. -/
  ends_body : ∀ id n, d.body id = some n → d.ends n = []
  /-- Anything else has ended once. -/
  ends_over : ∀ n < d.jobs.length, (∀ id, d.body id ≠ some n) → ∃ p, d.ends n = [p]

/-- The empty docket agrees with its log. -/
theorem logAccounted_empty : empty.LogAccounted where
  body_lt := by rintro _ _ ⟨⟩
  body_unique := by rintro _ _ _ ⟨⟩
  hand_body := by rintro _ _ ⟨⟩
  keeps_job := by rintro _ _ ⟨⟩
  shelf_job := by rintro _ _ ⟨⟩
  keeps_unique := by rintro _ _ _ ⟨⟩
  delivered_job := by rintro _ _ ⟨⟩
  ended_lt := by rintro _ _ ⟨⟩
  outcomes_open _ _ := rfl
  outcomes_spent n task h := by simp [empty] at h
  ends_body _ _ _ := rfl
  ends_over n h := absurd h (Nat.not_lt_zero n)

/-- The outcomes after entries were logged. -/
theorem outcomes_append {es : List LogEntry} {d' : Docket} (h : d'.log = d.log ++ es) (n : Nat) :
    d'.outcomes n = d.outcomes n ++ es.filterMap (LogEntry.outcome? n) := by
  rw [outcomes, h, List.filterMap_append]
  rfl

/-- The ends after entries were logged. -/
theorem ends_append {es : List LogEntry} {d' : Docket} (h : d'.log = d.log ++ es) (n : Nat) :
    d'.ends n = d.ends n ++ es.filterMap (LogEntry.end? n) := by
  rw [ends, h, List.filterMap_append]
  rfl

namespace LogAccounted

/-- Every entry of the log is about a job that was begun. -/
theorem number_lt (h : d.LogAccounted) :
    ∀ e ∈ d.log, ∀ n, e.number? = some n → n < d.jobs.length := by
  intro e he m hm
  cases e with
  | delivered n o =>
    obtain ⟨task, hjob⟩ := h.delivered_job n o he
    exact Option.some.inj hm ▸ (List.getElem?_eq_some_iff.1 hjob).1
  | ended n p => exact Option.some.inj hm ▸ h.ended_lt n p he
  | found origin message => cases hm

/-- A job that is no run **delivers nothing**. -/
theorem outcomes_of_no_run (h : d.LogAccounted) (hn : ∀ task, d.jobs[n]? ≠ some (some task)) :
    d.outcomes n = [] := by
  refine List.filterMap_eq_nil_iff.2 fun e he => ?_
  cases e with
  | delivered m o =>
    obtain ⟨task, hjob⟩ := h.delivered_job m o he
    refine if_neg ?_
    rintro rfl
    exact hn task hjob
  | ended m p => rfl
  | found origin message => rfl

/-- A job that was not begun has not ended. -/
theorem ends_of_le (h : d.LogAccounted) (hn : d.jobs.length ≤ n) : d.ends n = [] := by
  refine List.filterMap_eq_nil_iff.2 fun e he => ?_
  cases e with
  | delivered m o => rfl
  | ended m p =>
    have hlt := h.ended_lt m p he
    exact if_neg (by omega)
  | found origin message => rfl

/-- `find` keeps `LogAccounted`. -/
theorem find (h : d.LogAccounted) (rs : List (String × String)) : (d.find rs).LogAccounted := by
  have hlog : (d.find rs).log = d.log ++ rs.map fun r => LogEntry.found r.1 r.2 := rfl
  have houtcomes : ∀ n, (d.find rs).outcomes n = d.outcomes n := fun n => by
    rw [outcomes_append hlog, List.filterMap_map]
    simp [Function.comp_def, LogEntry.outcome?]
  have hends : ∀ n, (d.find rs).ends n = d.ends n := fun n => by
    rw [ends_append hlog, List.filterMap_map]
    simp [Function.comp_def, LogEntry.end?]
  exact { h with
    delivered_job := fun n o hmem => by
      refine h.delivered_job n o ?_
      simpa [hlog] using hmem
    ended_lt := fun n p hmem => by
      refine h.ended_lt n p ?_
      simpa [hlog] using hmem
    outcomes_open := fun n hopen => (houtcomes n).trans (h.outcomes_open n hopen)
    outcomes_spent := fun n task hjob hnot => by
      rw [houtcomes]
      exact h.outcomes_spent n task hjob hnot
    ends_body := fun id n hbody => (hends n).trans (h.ends_body id n hbody)
    ends_over := fun n hlt hnot => by
      rw [hends]
      exact h.ends_over n hlt hnot }

/-- `use` keeps `LogAccounted`. -/
theorem use (h : d.LogAccounted) (k : Keeper) (o : Outcome) : (d.use k o).LogAccounted := by
  cases hk : d.keeps k with
  | none =>
    rw [use_of_none hk]
    exact h
  | some n =>
    rw [use_of_some hk]
    set d' : Docket := { d.note [.delivered n o] with keeps := Function.update d.keeps k none }
    have hlog : d'.log = d.log ++ [.delivered n o] := rfl
    have hkeeps : ∀ {k' m}, d'.keeps k' = some m ↔ k' ≠ k ∧ d.keeps k' = some m :=
      update_none_eq_some
    have houtcomes : ∀ m, d'.outcomes m = d.outcomes m ++ if n = m then [o] else [] := fun m => by
      rw [outcomes_append hlog]
      by_cases hnm : n = m <;> simp [LogEntry.outcome?, hnm]
    have hends : ∀ m, d'.ends m = d.ends m := fun m =>
      (ends_append hlog m).trans (List.append_nil _)
    have hopen : ∀ m, d'.IsKept m ↔ d.IsKept m ∧ m ≠ n := fun m => by
      constructor
      · rintro ⟨k', hm'⟩
        obtain ⟨hne, hm⟩ := hkeeps.1 hm'
        refine ⟨⟨k', hm⟩, ?_⟩
        rintro rfl
        exact hne (h.keeps_unique k' k m hm hk)
      · rintro ⟨⟨k', hm⟩, hne⟩
        refine ⟨k', hkeeps.2 ⟨?_, hm⟩⟩
        rintro rfl
        exact hne (Option.some.inj (hm.symm.trans hk))
    exact {
      body_lt := h.body_lt
      body_unique := h.body_unique
      hand_body := fun id m hm => h.hand_body id m (hkeeps.1 hm).2
      keeps_job := fun k' m hm => h.keeps_job k' m (hkeeps.1 hm).2
      shelf_job := fun task m hm => h.shelf_job task m (hkeeps.1 hm).2
      keeps_unique := fun k₁ k₂ m h₁ h₂ => h.keeps_unique k₁ k₂ m (hkeeps.1 h₁).2 (hkeeps.1 h₂).2
      delivered_job := fun m o' hmem => by
        rcases List.mem_append.1 hmem with hmem | hmem
        · exact h.delivered_job m o' hmem
        · cases List.mem_singleton.1 hmem
          exact h.keeps_job k n hk
      ended_lt := fun m p hmem => by
        rcases List.mem_append.1 hmem with hmem | hmem
        · exact h.ended_lt m p hmem
        · cases List.mem_singleton.1 hmem
      outcomes_open := fun m hm => by
        obtain ⟨hm, hne⟩ := (hopen m).1 hm
        rw [houtcomes, h.outcomes_open m hm, if_neg hne.symm]
        rfl
      outcomes_spent := fun m task hjob hnot => by
        rw [houtcomes]
        by_cases hnm : n = m
        · subst hnm
          refine ⟨o, ?_⟩
          rw [h.outcomes_open n ⟨k, hk⟩, if_pos rfl]
          rfl
        · rw [if_neg hnm, List.append_nil]
          exact h.outcomes_spent m task hjob fun hm => hnot ((hopen m).2 ⟨hm, Ne.symm hnm⟩)
      ends_body := fun id m hbody => (hends m).trans (h.ends_body id m hbody)
      ends_over := fun m hlt hnot => by
        rw [hends]
        exact h.ends_over m hlt hnot }

/-- `handOver` keeps `LogAccounted` if nothing is parked under the task. -/
theorem handOver (h : d.LogAccounted) (hhand : d.keeps (.hand id) = some n)
    (hshelf : d.keeps (.shelf task) = none) (hrun : d.jobs[n]? = some (some task)) :
    (d.handOver id task n).LogAccounted := by
  have hkeeps : ∀ {k m}, (d.handOver id task n).keeps k = some m ↔
      (k = .shelf task ∧ m = n) ∨ (k ≠ .hand id ∧ d.keeps k = some m) := keeps_handOver_iff hshelf
  have hopen : ∀ m, (d.handOver id task n).IsKept m ↔ d.IsKept m := fun m => by
    constructor
    · rintro ⟨k, hm⟩
      rcases hkeeps.1 hm with ⟨-, rfl⟩ | ⟨-, hm⟩
      · exact ⟨_, hhand⟩
      · exact ⟨k, hm⟩
    · rintro ⟨k, hm⟩
      by_cases hki : k = .hand id
      · subst hki
        exact ⟨.shelf task, hkeeps.2 (Or.inl ⟨rfl, Option.some.inj (hm.symm.trans hhand)⟩)⟩
      · exact ⟨k, hkeeps.2 (Or.inr ⟨hki, hm⟩)⟩
  exact { h with
    hand_body := fun id' m hm => by
      rcases hkeeps.1 hm with ⟨hne, -⟩ | ⟨-, hm⟩
      · cases hne
      · exact h.hand_body id' m hm
    keeps_job := fun k m hm => by
      rcases hkeeps.1 hm with ⟨-, rfl⟩ | ⟨-, hm⟩
      · exact ⟨task, hrun⟩
      · exact h.keeps_job k m hm
    shelf_job := fun task' m hm => by
      rcases hkeeps.1 hm with ⟨heq, rfl⟩ | ⟨-, hm⟩
      · cases heq
        exact hrun
      · exact h.shelf_job task' m hm
    keeps_unique := fun k₁ k₂ m h₁' h₂' => by
      rcases hkeeps.1 h₁' with ⟨rfl, rfl⟩ | ⟨hne₁, h₁⟩
      · rcases hkeeps.1 h₂' with ⟨rfl, -⟩ | ⟨hne₂, h₂⟩
        · rfl
        · exact absurd (h.keeps_unique _ _ _ h₂ hhand) hne₂
      · rcases hkeeps.1 h₂' with ⟨rfl, rfl⟩ | ⟨-, h₂⟩
        · exact absurd (h.keeps_unique _ _ _ h₁ hhand) hne₁
        · exact h.keeps_unique k₁ k₂ m h₁ h₂
    outcomes_open := fun m hm => h.outcomes_open m ((hopen m).1 hm)
    outcomes_spent := fun m task' hj hnot =>
      h.outcomes_spent m task' hj fun hm => hnot ((hopen m).2 hm) }

/-- `shelve` of a run of the task keeps `LogAccounted`. -/
theorem shelve (h : d.LogAccounted)
    (hjob : ∀ n, d.keeps (.hand id) = some n → d.jobs[n]? = some (some task)) :
    (d.shelve id task).LogAccounted := by
  cases hk : d.keeps (.hand id) with
  | none =>
    rw [shelve_of_none hk]
    exact h
  | some n =>
    rw [shelve_of_some hk]
    refine (h.use (.shelf task) .dropped).handOver ?_ keeps_use_self ?_
    · rw [keeps_use_of_ne (by simp), hk]
    · rw [jobs_use, hjob n hk]

/-- `finish` keeps `LogAccounted` for a thread with no completion in hand. -/
theorem finish (h : d.LogAccounted) (hhand : d.keeps (.hand id) = none) (p : Option Panic) :
    (d.finish id p).LogAccounted := by
  cases hb : d.body id with
  | none =>
    rw [finish_of_none hb]
    exact h
  | some n =>
    rw [finish_of_some hb]
    set d' : Docket := { d.note [.ended n p] with body := Function.update d.body id none }
    have hlog : d'.log = d.log ++ [.ended n p] := rfl
    have hbody : ∀ {id' m}, d'.body id' = some m ↔ id' ≠ id ∧ d.body id' = some m :=
      update_none_eq_some
    have hends : ∀ m, d'.ends m = d.ends m ++ if n = m then [p] else [] := fun m => by
      rw [ends_append hlog]
      by_cases hnm : n = m <;> simp [LogEntry.end?, hnm]
    have houtcomes : ∀ m, d'.outcomes m = d.outcomes m := fun m =>
      (outcomes_append hlog m).trans (List.append_nil _)
    exact {
      body_lt := fun id' m hm => h.body_lt id' m (hbody.1 hm).2
      body_unique := fun i j m hi hj => h.body_unique i j m (hbody.1 hi).2 (hbody.1 hj).2
      hand_body := fun id' m hm => by
        refine hbody.2 ⟨?_, h.hand_body id' m hm⟩
        rintro rfl
        exact Option.some_ne_none m (hm.symm.trans hhand)
      keeps_job := h.keeps_job
      shelf_job := h.shelf_job
      keeps_unique := h.keeps_unique
      delivered_job := fun m o hmem => by
        rcases List.mem_append.1 hmem with hmem | hmem
        · exact h.delivered_job m o hmem
        · cases List.mem_singleton.1 hmem
      ended_lt := fun m p' hmem => by
        rcases List.mem_append.1 hmem with hmem | hmem
        · exact h.ended_lt m p' hmem
        · cases List.mem_singleton.1 hmem
          exact h.body_lt id n hb
      outcomes_open := fun m hm => (houtcomes m).trans (h.outcomes_open m hm)
      outcomes_spent := fun m task hjob hnot => by
        rw [houtcomes]
        exact h.outcomes_spent m task hjob hnot
      ends_body := fun id' m hm => by
        obtain ⟨hne, hm⟩ := hbody.1 hm
        have hnm : n ≠ m := by
          rintro rfl
          exact hne (h.body_unique id' id n hm hb)
        rw [hends, h.ends_body id' m hm, if_neg hnm]
        rfl
      ends_over := fun m hlt hnot => by
        rw [hends]
        by_cases hnm : n = m
        · subst hnm
          refine ⟨p, ?_⟩
          rw [h.ends_body id n hb, if_pos rfl]
          rfl
        · rw [if_neg hnm, List.append_nil]
          refine h.ends_over m hlt fun id' hm => hnot id' (hbody.2 ⟨?_, hm⟩)
          rintro rfl
          exact hnm (Option.some.inj (hb.symm.trans hm)) }

/-- `begin` keeps `LogAccounted` for a thread without a body. -/
theorem begin (h : d.LogAccounted) (hb : d.body id = none) (what : Option Nat) :
    (d.begin id what).LogAccounted := by
  set d' := d.begin id what
  set new := d.jobs.length with hnew
  have hjob : ∀ {n x}, d.jobs[n]? = some x → d'.jobs[n]? = some x := fun hx => jobs_begin hx
  have hlength : d'.jobs.length = new + 1 := List.length_append
  have hbody : ∀ {id' n}, d'.body id' = some n ↔
      (id' = id ∧ n = new) ∨ (id' ≠ id ∧ d.body id' = some n) := body_begin_iff
  have hkeeps : ∀ {k n}, d'.keeps k = some n ↔
      (k = .hand id ∧ n = new ∧ what.isSome = true) ∨ (k ≠ .hand id ∧ d.keeps k = some n) :=
    keeps_begin_iff
  have hold : ∀ {k n}, d.keeps k = some n → n < new := fun {k n} hk => by
    obtain ⟨task, hx⟩ := h.keeps_job k n hk
    exact (List.getElem?_eq_some_iff.1 hx).1
  have hfresh : ∀ task, d.jobs[new]? ≠ some (some task) := fun task hx =>
    Nat.lt_irrefl new (List.getElem?_eq_some_iff.1 hx).1
  -- The thread has nothing in hand, since it is in the middle of nothing.
  have hhand : d.keeps (.hand id) = none := by
    by_contra hne
    obtain ⟨n, hn⟩ := Option.ne_none_iff_exists'.1 hne
    exact Option.some_ne_none n ((h.hand_body id n hn).symm.trans hb)
  exact {
    body_lt := fun id' n hn => by
      rw [hlength]
      rcases hbody.1 hn with ⟨-, rfl⟩ | ⟨-, hn⟩
      · exact Nat.lt_succ_self _
      · exact Nat.lt_succ_of_lt (h.body_lt id' n hn)
    body_unique := fun i j n hi' hj' => by
      rcases hbody.1 hi' with ⟨rfl, rfl⟩ | ⟨-, hi⟩
      · rcases hbody.1 hj' with ⟨rfl, -⟩ | ⟨-, hj⟩
        · rfl
        · exact absurd (h.body_lt j _ hj) (Nat.lt_irrefl _)
      · rcases hbody.1 hj' with ⟨rfl, rfl⟩ | ⟨-, hj⟩
        · exact absurd (h.body_lt i _ hi) (Nat.lt_irrefl _)
        · exact h.body_unique i j n hi hj
    hand_body := fun id' n hn => by
      rcases hkeeps.1 hn with ⟨heq, rfl, -⟩ | ⟨hne, hn⟩
      · cases heq
        exact hbody.2 (Or.inl ⟨rfl, rfl⟩)
      · refine hbody.2 (Or.inr ⟨?_, h.hand_body id' n hn⟩)
        rintro rfl
        exact hne rfl
    keeps_job := fun k n hn => by
      rcases hkeeps.1 hn with ⟨-, rfl, hsome⟩ | ⟨-, hn⟩
      · obtain ⟨task, rfl⟩ := Option.isSome_iff_exists.1 hsome
        exact ⟨task, List.getElem?_concat_length⟩
      · obtain ⟨task, hx⟩ := h.keeps_job k n hn
        exact ⟨task, hjob hx⟩
    shelf_job := fun task n hn => by
      rcases hkeeps.1 hn with ⟨heq, -⟩ | ⟨-, hn⟩
      · cases heq
      · exact hjob (h.shelf_job task n hn)
    keeps_unique := fun k₁ k₂ n h₁' h₂' => by
      rcases hkeeps.1 h₁' with ⟨rfl, rfl, -⟩ | ⟨-, h₁⟩
      · rcases hkeeps.1 h₂' with ⟨rfl, -⟩ | ⟨-, h₂⟩
        · rfl
        · exact absurd (hold h₂) (Nat.lt_irrefl _)
      · rcases hkeeps.1 h₂' with ⟨rfl, rfl, -⟩ | ⟨-, h₂⟩
        · exact absurd (hold h₁) (Nat.lt_irrefl _)
        · exact h.keeps_unique k₁ k₂ n h₁ h₂
    delivered_job := fun n o hmem => by
      obtain ⟨task, hx⟩ := h.delivered_job n o hmem
      exact ⟨task, hjob hx⟩
    ended_lt := fun n p hmem => hlength ▸ Nat.lt_succ_of_lt (h.ended_lt n p hmem)
    outcomes_open := fun n hn => by
      obtain ⟨k, hn⟩ := hn
      rcases hkeeps.1 hn with ⟨-, rfl, -⟩ | ⟨-, hn⟩
      · exact h.outcomes_of_no_run hfresh
      · exact h.outcomes_open n ⟨k, hn⟩
    outcomes_spent := fun n task hx hnot => by
      rcases of_jobs_begin hx with hx | ⟨rfl, rfl⟩
      · refine h.outcomes_spent n task hx fun ⟨k, hn⟩ => hnot ⟨k, hkeeps.2 (Or.inr ⟨?_, hn⟩)⟩
        rintro rfl
        exact Option.some_ne_none n (hn.symm.trans hhand)
      · exact absurd ⟨.hand id, hkeeps.2 (Or.inl ⟨rfl, rfl, rfl⟩)⟩ hnot
    ends_body := fun id' n hn => by
      rcases hbody.1 hn with ⟨-, rfl⟩ | ⟨-, hn⟩
      · exact h.ends_of_le (Nat.le_refl new)
      · exact h.ends_body id' n hn
    ends_over := fun n hlt hnot => by
      rw [hlength] at hlt
      rcases Nat.lt_succ_iff_lt_or_eq.1 hlt with hlt | rfl
      · refine h.ends_over n hlt fun id' hn => hnot id' (hbody.2 (Or.inr ⟨?_, hn⟩))
        rintro rfl
        exact Option.some_ne_none n (hn.symm.trans hb)
      · exact absurd (hbody.2 (Or.inl ⟨rfl, rfl⟩)) (hnot id) }

end LogAccounted

/-! ### Reports -/

/-- The name under which a job is reported: that of its task, or `event`. -/
def origin (name : Nat → String) (n : Nat) (d : Docket) : String :=
  match d.jobs[n]? with
  | some (some task) => name task
  | _ => "event"

/-- A run is reported under the name of its task. -/
theorem origin_of_job (name : Nat → String) (hjob : d.jobs[n]? = some (some task)) :
    d.origin name n = name task := by
  rw [origin, hjob]

/-- What is reported of an entry. -/
def report (name : Nat → String) (d : Docket) : LogEntry → Option (String × String)
  | .delivered n o => o.fatal?.map fun message => (d.origin name n, message)
  | .ended n p => p.map fun p => (d.origin name n, p.message)
  | .found origin message => some (origin, message)

/-- What is reported of the whole log. -/
def reports (name : Nat → String) (d : Docket) : List (String × String) :=
  d.log.filterMap (d.report name)

/-- What is reported of the entries about job `n`. -/
def reportsOf (name : Nat → String) (n : Nat) (d : Docket) : List (String × String) :=
  (d.log.filter fun e => e.number? = some n).filterMap (d.report name)

/-- What was found open, in order. -/
def findings (d : Docket) : List (String × String) := d.log.filterMap LogEntry.finding?

/-- What is **due** for job `n`: one report for a fatal failure that was delivered, and one for a
panic that ended it. -/
def due (name : Nat → String) (n : Nat) (d : Docket) : List (String × String) :=
  ((d.outcomes n).filterMap Outcome.fatal?).map (fun message => (d.origin name n, message)) ++
    ((d.ends n).filterMap fun p => p).map fun p => (d.origin name n, p.message)

/-- **What is reported of job `n`** is what is due for it. -/
theorem reportsOf_perm (name : Nat → String) (n : Nat) (d : Docket) :
    (d.reportsOf name n).Perm (d.due name n) := by
  rw [reportsOf, due, outcomes, ends]
  induction d.log with
  | nil => exact .refl _
  | cons e es ih =>
    simp only [List.filter_cons, List.filterMap_cons]
    cases e with
    | delivered m o =>
      by_cases hm : m = n
      · subst hm
        cases ho : o.fatal? <;>
          simpa [LogEntry.number?, LogEntry.outcome?, LogEntry.end?, report, ho] using ih
      · simpa [LogEntry.number?, LogEntry.outcome?, LogEntry.end?, hm] using ih
    | ended m p =>
      by_cases hm : m = n
      · subst hm
        simp only [LogEntry.number?, LogEntry.outcome?, LogEntry.end?, report, decide_true, if_true,
          List.filterMap_cons]
        cases p with
        | none => exact ih
        | some p => exact (ih.cons _).trans List.perm_middle.symm
      · simpa [LogEntry.number?, LogEntry.outcome?, LogEntry.end?, hm] using ih
    | found origin message => simpa [LogEntry.number?, LogEntry.outcome?, LogEntry.end?] using ih

/-- A list whose elements have numbers below a bound, or none, is a permutation of its parts
**number by number**. -/
theorem filterMap_perm_range {α β : Type} (key : α → Option Nat) (g : α → Option β) (bound : Nat) :
    ∀ l : List α, (∀ a ∈ l, ∀ n, key a = some n → n < bound) →
      (l.filterMap g).Perm
        ((List.range bound).flatMap (fun n => (l.filter fun a => key a = some n).filterMap g) ++
          (l.filter fun a => key a = none).filterMap g) := by
  induction bound with
  | zero =>
    intro l hl
    have hnone : ∀ a ∈ l, decide (key a = none) = true := fun a ha => by
      rw [decide_eq_true_eq, Option.eq_none_iff_forall_ne_some]
      exact fun n hn => Nat.not_lt_zero n (hl a ha n hn)
    rw [List.filter_eq_self.2 hnone]
    exact .refl _
  | succ bound ih =>
    intro l hl
    -- Those with the last number go first, and the others are fewer.
    set others := l.filter fun a => !decide (key a = some bound) with hothers
    have hother : ∀ a ∈ others, ∀ n, key a = some n → n < bound := fun a ha n hn => by
      obtain ⟨hmem, hne⟩ := List.mem_filter.1 ha
      have hnb : n ≠ bound := fun heq => by simp [hn, heq] at hne
      exact Nat.lt_of_le_of_ne (Nat.le_of_lt_succ (hl a hmem n hn)) hnb
    have hsame : ∀ x : Option Nat, x ≠ some bound →
        (others.filter fun a => key a = x) = l.filter fun a => key a = x := fun x hx => by
      rw [hothers, List.filter_filter]
      refine List.filter_congr fun a _ => ?_
      by_cases hk : key a = x <;> simp [hk, hx]
    have hsplit := (List.filter_append_perm (fun a => decide (key a = some bound)) l).filterMap g
    rw [List.filterMap_append] at hsplit
    refine hsplit.symm.trans (List.perm_append_comm.trans
      (((ih others hother).append_right _).trans ?_))
    rw [List.range_succ, List.flatMap_append, List.flatMap_singleton, hsame none (by simp),
      List.flatMap_congr fun n hn => by
        rw [hsame (some n) (by simpa using Nat.ne_of_lt (List.mem_range.1 hn))], List.append_assoc,
      List.append_assoc]
    exact List.perm_append_comm.append_left _

/-- **All that is reported** is what is due for each job, and what was found open. -/
theorem LogAccounted.reports_perm (h : d.LogAccounted) (name : Nat → String) :
    (d.reports name).Perm ((List.range d.jobs.length).flatMap (fun n => d.due name n) ++
      d.findings) := by
  have hfindings : (d.log.filter fun e => e.number? = none).filterMap (d.report name) =
      d.findings := by
    rw [findings, List.filterMap_filter]
    refine List.filterMap_congr fun e _ => ?_
    cases e <;> rfl
  have hperm :=
    filterMap_perm_range LogEntry.number? (d.report name) d.jobs.length d.log h.number_lt
  rw [hfindings] at hperm
  refine hperm.trans (List.Perm.append_right _ ?_)
  exact List.Perm.flatMap_left _ fun n _ => reportsOf_perm name n d

/-- A run has delivered **one outcome**, or none while its completion is kept. -/
theorem LogAccounted.outcomes_eq (h : d.LogAccounted) (hjob : d.jobs[n]? = some (some task)) :
    ∃ o : Option Outcome, d.outcomes n = o.toList ∧ (o = none ↔ d.IsKept n) := by
  by_cases hopen : d.IsKept n
  · exact ⟨none, h.outcomes_open n hopen, iff_of_true rfl hopen⟩
  · obtain ⟨o, ho⟩ := h.outcomes_spent n task hjob hopen
    exact ⟨some o, ho, iff_of_false (by simp) hopen⟩

/-- A job has **ended once**, or not while it is the body of a thread. -/
theorem LogAccounted.ends_eq (h : d.LogAccounted) (hjob : d.jobs[n]? = some what) :
    ∃ p : Option (Option Panic), d.ends n = p.toList ∧
      (p = none ↔ ∃ id, d.body id = some n) := by
  by_cases hbody : ∃ id, d.body id = some n
  · obtain ⟨id, hid⟩ := hbody
    exact ⟨none, h.ends_body id n hid, iff_of_true rfl ⟨id, hid⟩⟩
  · obtain ⟨p, hp⟩ := h.ends_over n (List.getElem?_eq_some_iff.1 hjob).1 fun id hid =>
      hbody ⟨id, hid⟩
    exact ⟨some p, hp, iff_of_false (by simp) hbody⟩

end Docket
end Scenario
end TurnPool
