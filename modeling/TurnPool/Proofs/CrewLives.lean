import TurnPool.Proofs.GroupTidy
import TurnPool.Task.Crew

/-!
# The lifecycles of a crew

Both schedulers act on the same rules, and what an operation of a crew does to the lifecycles of its
tasks is the same for both: a request and an outcome change that of one task, as the rules say, and
an arriving entry claims a run.

## Main results

* `Crew.lives_request`, `Crew.lives_deliver`: one task follows the rules, the others stay.
* `Crew.claimsRun_arrive`: an arriving entry claims at most one run, where one is queued.
-/

namespace TurnPool

variable {Q ω : Type} [Timetable Q ω]

/-! ### One task -/

namespace Single

/-- `Single.place` keeps the lifecycle. -/
theorem life_place (opts : SchedulerOptions) (entry : Nat → ω) (now : Nat)
    (placement : Placement) (p : Single × Q) :
    (place opts entry now placement p).1.life = p.1.life := by
  cases placement <;> rfl

/-- `Single.enact` makes the lifecycle the changed one. -/
theorem life_enact (opts : SchedulerOptions) (entry : Nat → ω) (now : Nat)
    (change : Lifecycle × Placement) (p : Single × Q) :
    (enact opts entry now change p).1.life = change.1 :=
  life_place ..

/-- `Single.claim` claims a run that is scheduled, or changes no lifecycle. -/
theorem life_claim (epoch : Nat) (s : Single) :
    ((s.claim epoch).1 = true ∧ s.life.state.isScheduled = true ∧
      (s.claim epoch).2.life.state = .inFlight false) ∨
    ((s.claim epoch).1 = false ∧ (s.claim epoch).2.life = s.life) := by
  rw [claim]
  split
  · cases hl : s.life.claim with
    | some l =>
      obtain ⟨hs, rfl⟩ := Lifecycle.claim_eq_some.1 hl
      exact Or.inl ⟨rfl, hs, rfl⟩
    | none => exact Or.inr ⟨rfl, rfl⟩
  · exact Or.inr ⟨rfl, rfl⟩

/-- `claim` of the current epoch **begins** a run if one is scheduled. -/
theorem claim_epoch {s : Single} (h : s.life.state.isScheduled = true) :
    s.claim s.epoch = (true, { s with
      pending := none, life := { s.life with state := .inFlight false } }) := by
  rw [claim, if_pos rfl, Lifecycle.claim_eq_some.2 ⟨h, rfl⟩]

/-- `claim` of **another epoch** claims nothing and changes nothing. -/
theorem claim_of_ne {s : Single} {epoch : Nat} (h : s.epoch ≠ epoch) :
    s.claim epoch = (false, s) := by
  rw [claim, if_neg h]

/-- `claim` keeps the epoch. -/
theorem epoch_claim (epoch : Nat) (s : Single) : (s.claim epoch).2.epoch = s.epoch := by
  rw [claim]
  split
  · cases s.life.claim <;> rfl
  · rfl

end Single

/-! ### Many tasks -/

namespace Crew

variable {α : Type} {tasks : Array Single} {task : Nat} {s : Single}

/-- The lifecycles of the tasks. -/
def lives (crew : Crew) : Nat → Lifecycle := fun i => crew.life i

/-- The lifecycle of a task with its own scheduler is the scheduler's. -/
theorem lives_apart (hs : tasks[task]? = some s) : (apart tasks).lives task = s.life := by
  rw [lives, life, hs]
  rfl

/-- `onSingle` works on the scheduler of the task. -/
theorem onSingle_of_some (hs : tasks[task]? = some s) (q : Q) (other : α)
    (f : Single × Q → α × (Single × Q)) :
    onSingle task tasks q other f =
      ((f (s, q)).1, apart (tasks.setIfInBounds task (f (s, q)).2.1), (f (s, q)).2.2) := by
  rw [onSingle, hs]

/-- A scheduler in the place of another changes the lifecycle of its task only. -/
theorem lives_set (hs : tasks[task]? = some s) (s' : Single) :
    (apart (tasks.setIfInBounds task s')).lives =
      Function.update (apart tasks).lives task s'.life := by
  obtain ⟨hlt, -⟩ := Array.getElem?_eq_some_iff.1 hs
  funext i
  rw [lives, life, Array.getElem?_setIfInBounds, Function.update_apply]
  by_cases h : task = i
  · rw [if_pos h, if_pos hlt, if_pos h.symm]
    rfl
  · rw [if_neg h, if_neg (Ne.symm h)]
    rfl

/-- Putting a scheduler in its own place changes nothing. -/
theorem setIfInBounds_self (hs : tasks[task]? = some s) : tasks.setIfInBounds task s = tasks := by
  refine Array.ext_getElem? fun i => ?_
  rw [Array.getElem?_setIfInBounds]
  split
  · rename_i h
    rw [if_pos (Array.getElem?_eq_some_iff.1 hs).1, ← h, hs]
  · rfl

/-- A task that has joined has a scheduler. -/
theorem exists_single (hlt : task < tasks.size) : ∃ s, tasks[task]? = some s :=
  ⟨_, Array.getElem?_eq_getElem hlt⟩

section Operations

variable (opts : SchedulerOptions) (job : Errand → ω) (r : Readings)

/-! ### The operations of a crew are those of its schedulers -/

/-- `request` where every task has its own scheduler is `Single.request`. -/
theorem request_apart (hs : tasks[task]? = some s) (what : Request) (q : Q) :
    request opts job r what task (apart tasks, q) =
      (apart (tasks.setIfInBounds task
        (Single.request opts (fun n => job (.run task n)) r.entry what (s, q)).1),
      (Single.request opts (fun n => job (.run task n)) r.entry what (s, q)).2) := by
  simp only [request, onSingle_of_some hs]

/-- `deliver` where every task has its own scheduler is `Single.deliver`. -/
theorem deliver_apart (hs : tasks[task]? = some s) (o : Outcome) (q : Q) :
    (deliver opts job r task o (apart tasks, q)).2 =
      (apart (tasks.setIfInBounds task
        (Single.deliver opts (fun n => job (.run task n)) r.entry o (s, q)).1.1),
      (Single.deliver opts (fun n => job (.run task n)) r.entry o (s, q)).1.2) := by
  simp only [deliver, onSingle_of_some hs]

/-- `arrive` of a run is `Single.claim`. -/
theorem arrive_run (hs : tasks[task]? = some s) (epoch : Nat) (q : Q) :
    arrive opts job r (.run task epoch) (apart tasks, q) =
      (if (s.claim epoch).1 then some task else none,
        apart (tasks.setIfInBounds task (s.claim epoch).2), q) := by
  simp only [arrive, onSingle_of_some hs]

/-- `arrive` of the group's entry is `Group.dispatch`. -/
theorem arrive_dispatch (epoch : Nat) (g : Group) (q : Q) :
    arrive opts job r (.dispatch epoch) (together g, q) =
      ((Group.dispatch opts (fun n => job (.dispatch n)) r epoch (g, q)).1,
        together (Group.dispatch opts (fun n => job (.dispatch n)) r epoch (g, q)).2.1,
        (Group.dispatch opts (fun n => job (.dispatch n)) r epoch (g, q)).2.2) := rfl

/-! ### What happens to the lifecycles -/

/-- `register` keeps the lifecycles: a new task is idle. -/
theorem lives_register (name : String) (crew : Crew) : (crew.register name).lives = crew.lives := by
  cases crew with
  | apart tasks =>
    funext i
    rw [lives, lives, register, life, life, Array.getElem?_push]
    split
    · rename_i h
      rw [h, Array.getElem?_eq_none (Nat.le_refl _)]
      rfl
    · rfl
  | together g => exact Group.life_register name

/-- `request` makes the lifecycle of the task what `Lifecycle.request` says, **and changes no
other**. -/
theorem lives_request (what : Request) {p : Crew × Q} (hlt : task < p.1.size) :
    (request opts job r what task p).1.lives =
      Function.update p.1.lives task ((p.1.lives task).request opts.backoff what).1 := by
  obtain ⟨tasks | g, q⟩ := p
  · obtain ⟨s, hs⟩ := exists_single hlt
    rw [request_apart opts job r hs, lives_set hs, lives_apart hs, Single.request,
      Single.life_enact]
  · exact Group.life_enact opts (fun n => job (.dispatch n)) r hlt
      ((g.life task).request opts.backoff what) q

/-- `deliver` makes the lifecycle of the task what `Lifecycle.deliver` says, **and changes no
other**. -/
theorem lives_deliver (o : Outcome) {p : Crew × Q} (hlt : task < p.1.size) :
    (deliver opts job r task o p).2.1.lives =
      Function.update p.1.lives task ((p.1.lives task).deliver opts.backoff o).1.1 := by
  obtain ⟨tasks | g, q⟩ := p
  · obtain ⟨s, hs⟩ := exists_single hlt
    rw [deliver_apart opts job r hs, lives_set hs, lives_apart hs, Single.deliver,
      Single.life_enact]
  · exact Group.life_enact opts (fun n => job (.dispatch n)) r hlt
      ((g.life task).deliver opts.backoff o).1 q

/-- `arrive` claims **at most one run**, of a task that had one scheduled. -/
theorem claimsRun_arrive (e : Errand) (p : Crew × Q) :
    ClaimsRun p.1.lives (arrive opts job r e p).1 (arrive opts job r e p).2.1.lives := by
  obtain ⟨crew, q⟩ := p
  match e, crew with
  | .run task epoch, .apart tasks =>
    cases hs : tasks[task]? with
    | none =>
      simp only [arrive, onSingle, hs]
      exact .refl _
    | some s =>
      rw [arrive_run opts job r hs, lives_set hs]
      rcases s.life_claim epoch with ⟨hc, hsched, hl⟩ | ⟨hc, hl⟩
      · rw [hc, if_pos rfl]
        refine ⟨?_, fun i hi => Or.inl (Function.update_of_ne ?_ ..)⟩
        · rintro _ ⟨⟩
          rw [lives_apart hs, Function.update_self]
          exact ⟨hsched, hl⟩
        · rintro rfl
          exact hi rfl
      · rw [hc, if_neg Bool.false_ne_true, hl, ← lives_apart hs, Function.update_eq_self]
        exact .refl _
  | .dispatch epoch, .together g =>
    exact Group.claimsRun_dispatch opts (fun n => job (.dispatch n)) r epoch g q
  | .run _ _, .together _ => exact .refl _
  | .dispatch _, .apart _ => exact .refl _

/-! ### Numbers of tasks -/

/-- `register` adds one task. -/
theorem size_register (name : String) (crew : Crew) :
    (crew.register name).size = crew.size + 1 := by
  cases crew <;> exact Array.size_push _

/-- `onSingle` adds no task. -/
theorem size_onSingle (task : Nat) (tasks : Array Single) (q : Q) (other : α)
    (f : Single × Q → α × (Single × Q)) :
    (onSingle task tasks q other f).2.1.size = tasks.size := by
  rw [onSingle]
  split
  · exact Array.size_setIfInBounds
  · rfl

/-- `request` adds no task. -/
theorem size_request (what : Request) (task : Nat) (p : Crew × Q) :
    (request opts job r what task p).1.size = p.1.size := by
  obtain ⟨tasks | g, q⟩ := p
  · exact size_onSingle ..
  · exact Group.size_enact opts (fun n => job (.dispatch n)) r
      ((g.life task).request opts.backoff what) q

/-- `deliver` adds no task. -/
theorem size_deliver (o : Outcome) (task : Nat) (p : Crew × Q) :
    (deliver opts job r task o p).2.1.size = p.1.size := by
  obtain ⟨tasks | g, q⟩ := p
  · exact size_onSingle ..
  · exact Group.size_enact opts (fun n => job (.dispatch n)) r
      ((g.life task).deliver opts.backoff o).1 q

/-- `arrive` adds no task. -/
theorem size_arrive (e : Errand) (p : Crew × Q) :
    (arrive opts job r e p).2.1.size = p.1.size := by
  obtain ⟨crew, q⟩ := p
  match e, crew with
  | .run task epoch, .apart tasks => exact size_onSingle ..
  | .dispatch epoch, .together g =>
    exact Group.size_dispatch opts (fun n => job (.dispatch n)) r epoch g q
  | .run _ _, .together _ => rfl
  | .dispatch _, .apart _ => rfl

/-- A task whose lifecycle is not the one of a new task has joined. -/
theorem lt_size_of_lives_ne {crew : Crew} {i : Nat} (h : crew.lives i ≠ default) :
    i < crew.size := by
  cases crew with
  | apart tasks =>
    refine Nat.lt_of_not_le fun hle => h ?_
    rw [lives, life, Array.getElem?_eq_none hle]
    rfl
  | together g => exact Group.lt_size_of_life_ne h

end Operations

end Crew

end TurnPool
