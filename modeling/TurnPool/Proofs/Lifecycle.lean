import TurnPool.Task.Lifecycle

/-!
# What a lifecycle promises

A change of state comes with a placement, and the two have to agree: whatever holds the queued run
of a task is changed by the placement alone. `TaskState.queued?` is what a state says about the
queued run, `Placement.queued?` what a placement makes of it, and a request or an outcome keeps the
one in step with the other.

A state can also *promise* a run without having one queued: a run under way that will be followed by
another one. What makes a state promise a run, and what ends a promise, is told here one change at a
time; the diary of a program is read with these facts.

## Main results

* `Lifecycle.queued?_request`, `Lifecycle.queued?_deliver`: state and placement agree.
* `TaskState.isInFlight_request`, `Lifecycle.isInFlight_deliver`: a run under way ends with its
  outcome, and with nothing else.
* `Lifecycle.owesRun_deliver`, `Lifecycle.promisesRun_deliver`: what an outcome does to a promise.
-/

namespace TurnPool

/-- What a state says about the queued run of a task: none, or one that is delayed or not. -/
def TaskState.queued? : TaskState → Option Bool
  | .scheduled delayed => some delayed
  | _ => none

/-- What a placement makes of the queued run, given what it was before. -/
def Placement.queued? (before : Option Bool) : Placement → Option Bool
  | .unchanged => before
  | .now => some false
  | .after _ => some true
  | .dropped => none

/-- Whether a run is to follow without delay: it is queued at once, or a rerun was asked for while
one is in flight. -/
def TaskState.owesRun : TaskState → Bool
  | .scheduled false | .inFlight true => true
  | _ => false

/-- Whether a run is to follow, with or without delay. -/
def TaskState.promisesRun : TaskState → Bool
  | .scheduled _ | .inFlight true => true
  | _ => false

/-- Whether the outcome of a run halts its task. -/
def Outcome.halts : Outcome → Bool
  | .success _ => false
  | .failure e => e.isFatal
  | .panicked => true

/-- Whether the outcome of a run is itself a reason for another one. -/
def Outcome.leadsOn : Outcome → Bool
  | .success more => more
  | .failure e => !e.isFatal
  | .panicked => false

/-- An outcome halts the task, or is a success, or a failure that may be retried. -/
theorem Outcome.kinds (o : Outcome) :
    o.halts = true ∨ (∃ more, o = .success more) ∨ ∃ e, e.isFatal = false ∧ o = .failure e := by
  cases o with
  | success more => exact Or.inr (Or.inl ⟨more, rfl⟩)
  | failure e =>
    cases he : e.isFatal with
    | true => exact Or.inl he
    | false => exact Or.inr (Or.inr ⟨e, he, rfl⟩)
  | panicked => exact Or.inl rfl

/-- Whether a task takes a request for a run; a stopped one has to be started. -/
def Request.accepted (stopped : Bool) : Request → Bool
  | .schedule => !stopped
  | .start => true
  | .stop => false

namespace TaskState

/-- A run is queued just in the state `scheduled`. -/
theorem queued?_eq_some {s : TaskState} {delayed : Bool} :
    s.queued? = some delayed ↔ s = .scheduled delayed := by
  cases s <;> simp [queued?]

/-- `isScheduled` says that a run is queued. -/
theorem isScheduled_iff {s : TaskState} :
    s.isScheduled = true ↔ s.queued?.isSome = true := by
  cases s <;> simp [queued?, isScheduled]

/-- No run is queued just if the state is not `scheduled`. -/
theorem queued?_eq_none {s : TaskState} : s.queued? = none ↔ s.isScheduled = false := by
  cases s <;> simp [queued?, isScheduled]

/-- While a run is in flight none is queued. -/
theorem isScheduled_of_isInFlight {s : TaskState} (h : s.isInFlight = true) :
    s.isScheduled = false := by
  revert h
  cases s <;> simp [isInFlight, isScheduled]

/-- The two states that owe a run. -/
theorem owesRun_iff {s : TaskState} :
    s.owesRun = true ↔ s = .scheduled false ∨ s = .inFlight true := by
  rcases s with _ | (_ | _) | (_ | _) | _ | _ <;> simp [owesRun]

/-- A scheduled task promises a run. -/
theorem promisesRun_of_isScheduled {s : TaskState} (h : s.isScheduled = true) :
    s.promisesRun = true := by
  revert h
  cases s <;> simp [isScheduled, promisesRun]

/-! ### Requests -/

/-- A request neither begins nor ends a run. -/
theorem isInFlight_request (what : Request) (s : TaskState) :
    (s.request what).1.isInFlight = s.isInFlight := by
  cases what <;> rcases s with _ | (_ | _) | _ | _ | _ <;> rfl

/-- After a request that is accepted a run **is owed**. -/
theorem owesRun_request_of_accepted {what : Request} {s : TaskState}
    (h : what.accepted s.isStopped = true) : (s.request what).1.owesRun = true := by
  revert h
  cases what <;> rcases s with _ | (_ | _) | (_ | _) | _ | _ <;> decide

/-- `schedule` of a stopped task is ignored. -/
theorem schedule_of_isStopped {s : TaskState} (h : s.isStopped = true) :
    s.request .schedule = (s, .none) := by
  revert h
  rcases s with _ | _ | _ | _ | _ <;> simp [isStopped, request, schedule]

/-- After `stop` no run is promised. -/
theorem promisesRun_stop (s : TaskState) : (s.request .stop).1.promisesRun = false := by
  cases s <;> rfl

/-- A success with nothing more to do promises a run only if one was promised before. -/
theorem promisesRun_of_succeed {s : TaskState} (h : (s.succeed false).1.promisesRun = true) :
    s.promisesRun = true := by
  revert h
  rcases s with _ | (_ | _) | (_ | _) | _ | _ <;> decide

/-! ### Delays and claims -/

/-- `ripen` neither begins nor ends a run. -/
@[simp] theorem isInFlight_ripen (s : TaskState) : s.ripen.isInFlight = s.isInFlight := by
  rcases s with _ | (_ | _) | _ | _ | _ <;> rfl

/-- `ripen` keeps whether a run is queued. -/
@[simp] theorem isScheduled_ripen (s : TaskState) : s.ripen.isScheduled = s.isScheduled := by
  rcases s with _ | (_ | _) | _ | _ | _ <;> rfl

/-- `ripen` keeps whether a run is promised. -/
@[simp] theorem promisesRun_ripen (s : TaskState) : s.ripen.promisesRun = s.promisesRun := by
  rcases s with _ | (_ | _) | (_ | _) | _ | _ <;> rfl

/-- `ripen` keeps a run that is owed. -/
theorem owesRun_ripen {s : TaskState} (h : s.owesRun = true) : s.ripen.owesRun = true := by
  rcases owesRun_iff.1 h with rfl | rfl <;> rfl

/-- A run begins just from `scheduled`, and is in flight then. -/
theorem beginRun_eq_some {s s' : TaskState} :
    s.beginRun = some s' ↔ s.isScheduled = true ∧ s' = .inFlight false := by
  cases s <;> simp [beginRun, isScheduled, eq_comm]

/-- No run begins just if none is scheduled. -/
theorem beginRun_eq_none {s : TaskState} : s.beginRun = none ↔ s.isScheduled = false := by
  cases s <;> simp [beginRun, isScheduled]

end TaskState

namespace Lifecycle

variable (bounds : BackoffConfig)

/-- The state after `enact` is the one that was decided. -/
@[simp] theorem state_enact (l : Lifecycle) (change : TaskState × Move) :
    (l.enact bounds change).1.state = change.1 := by
  obtain ⟨s, m⟩ := change
  cases m <;> rfl

/-- The state after a request is the one that the state machine decides. -/
@[simp] theorem state_request (what : Request) (l : Lifecycle) :
    (l.request bounds what).1.state = (l.state.request what).1 :=
  state_enact bounds l _

/-- The state after `ripen` is the ripened one. -/
@[simp] theorem state_ripen (l : Lifecycle) : l.ripen.state = l.state.ripen := rfl

/-- `ripen` twice is `ripen`. -/
theorem ripen_ripen {l : Lifecycle} : l.ripen.ripen = l.ripen := by
  rcases l with ⟨_ | (_ | _) | _ | _ | _, b⟩ <;> rfl

/-- A run is claimed just if one is scheduled, and the state is `inFlight false` then. -/
theorem claim_eq_some {l l' : Lifecycle} :
    l.claim = some l' ↔ l.state.isScheduled = true ∧ l' = { l with state := .inFlight false } := by
  simp only [claim, Option.map_eq_some_iff, TaskState.beginRun_eq_some]
  constructor
  · rintro ⟨s, ⟨hs, rfl⟩, rfl⟩
    exact ⟨hs, rfl⟩
  · rintro ⟨hs, rfl⟩
    exact ⟨_, ⟨hs, rfl⟩, rfl⟩

/-- No run is claimed just if none is scheduled. -/
theorem claim_eq_none {l : Lifecycle} : l.claim = none ↔ l.state.isScheduled = false := by
  rw [Option.eq_none_iff_forall_ne_some, ← Bool.not_eq_true]
  exact ⟨fun h hs => h _ (claim_eq_some.2 ⟨hs, rfl⟩), fun h l' hl => h (claim_eq_some.1 hl).1⟩

/-! ### The three kinds of outcomes -/

/-- An outcome that halts is `halt`. -/
theorem deliver_of_halts {o : Outcome} (ho : o.halts = true) (l : Lifecycle) :
    (l.deliver bounds o).1 = l.halt := by
  cases o with
  | success more => cases ho
  | failure e => exact congrArg Prod.fst (if_pos ho)
  | panicked => rfl

/-- A success resets the backoff and succeeds. -/
theorem deliver_success (more : Bool) (l : Lifecycle) :
    (l.deliver bounds (.success more)).1 =
      ({ l with backoff := ⟨0⟩ } : Lifecycle).enact bounds (l.state.succeed more) := rfl

/-- A failure that may be retried fails. -/
theorem deliver_failure {e : Failure} (he : e.isFatal = false) (l : Lifecycle) :
    (l.deliver bounds (.failure e)).1 = l.enact bounds l.state.fail :=
  congrArg Prod.fst (if_neg (ne_true_of_eq_false he))

/-! ### State and placement agree -/

/-- After a **request** the placement tells where the queued run of the new state is. -/
theorem queued?_request (what : Request) (l : Lifecycle) :
    (l.request bounds what).1.state.queued? =
      (l.request bounds what).2.queued? l.state.queued? := by
  obtain ⟨s, b⟩ := l
  cases what <;> rcases s with _ | (_ | _) | _ | _ | _ <;> rfl

/-- After an **outcome** the placement tells where the queued run of the new state is. -/
theorem queued?_deliver (o : Outcome) (l : Lifecycle) :
    (l.deliver bounds o).1.1.state.queued? =
      (l.deliver bounds o).1.2.queued? l.state.queued? := by
  rcases o.kinds with ho | ⟨more, rfl⟩ | ⟨e, he, rfl⟩
  · rw [deliver_of_halts bounds ho]
    rfl
  · rw [deliver_success]
    rcases l with ⟨_ | (_ | _) | (_ | _) | _ | _, b⟩ <;> cases more <;> rfl
  · rw [deliver_failure bounds he]
    rcases l with ⟨_ | (_ | _) | (_ | _) | _ | _, b⟩ <;> rfl

/-! ### Outcomes -/

/-- After its outcome a run is **in flight no more**. -/
theorem isInFlight_deliver (o : Outcome) (l : Lifecycle) :
    (l.deliver bounds o).1.1.state.isInFlight = false := by
  rcases o.kinds with ho | ⟨more, rfl⟩ | ⟨e, he, rfl⟩
  · rw [deliver_of_halts bounds ho]
    rfl
  · rw [deliver_success, state_enact]
    rcases l.state with _ | _ | (_ | _) | _ | _ <;> cases more <;> rfl
  · rw [deliver_failure bounds he, state_enact]
    rcases l.state with _ | _ | (_ | _) | _ | _ <;> rfl

/-- A run that is owed is **owed after every outcome** that does not halt the task. -/
theorem owesRun_deliver {o : Outcome} {l : Lifecycle} (ho : o.halts = false)
    (h : l.state.owesRun = true) : (l.deliver bounds o).1.1.state.owesRun = true := by
  rcases o.kinds with ho' | ⟨more, rfl⟩ | ⟨e, he, rfl⟩
  · exact nomatch ho.symm.trans ho'
  · rw [deliver_success, state_enact]
    rcases TaskState.owesRun_iff.1 h with hs | hs <;> rw [hs] <;> cases more <;> rfl
  · rw [deliver_failure bounds he, state_enact]
    rcases TaskState.owesRun_iff.1 h with hs | hs <;> rw [hs] <;> rfl

/-- A run is promised after an outcome only if the outcome does not halt and **a run was promised
before or the outcome leads on**. -/
theorem promisesRun_deliver {o : Outcome} {l : Lifecycle}
    (h : (l.deliver bounds o).1.1.state.promisesRun = true) :
    o.halts = false ∧ (l.state.promisesRun = true ∨ o.leadsOn = true) := by
  rcases o.kinds with ho | ⟨more, rfl⟩ | ⟨e, he, rfl⟩
  · rw [deliver_of_halts bounds ho] at h
    cases h
  · rw [deliver_success, state_enact] at h
    refine ⟨rfl, ?_⟩
    cases more with
    | true => exact Or.inr rfl
    | false => exact Or.inl (TaskState.promisesRun_of_succeed h)
  · exact ⟨he, Or.inr (congrArg Bool.not he)⟩

end Lifecycle

/-! ### Claiming among many tasks -/

/-- What **claiming** does to the lifecycles: the claimed task had a run scheduled and is in flight,
and every other one is as it was or has ripened. -/
structure ClaimsRun (before : Nat → Lifecycle) (claimed : Option Nat) (after : Nat → Lifecycle) :
    Prop where
  /-- The task whose run is claimed. -/
  begun : ∀ j, claimed = some j →
    (before j).state.isScheduled = true ∧ (after j).state = .inFlight false
  /-- The others. -/
  other : ∀ i, claimed ≠ some i → after i = before i ∨ after i = (before i).ripen

namespace ClaimsRun

variable {before between after : Nat → Lifecycle} {claimed : Option Nat}

/-- If none is claimed nothing may have changed. -/
theorem refl (before : Nat → Lifecycle) : ClaimsRun before none before :=
  ⟨nofun, fun _ _ => Or.inl rfl⟩

/-- Lifecycles may ripen before one is claimed. -/
theorem trans (h : ClaimsRun before none between) (h' : ClaimsRun between claimed after) :
    ClaimsRun before claimed after where
  begun j hj := by
    obtain ⟨hs, hl⟩ := h'.begun j hj
    refine ⟨?_, hl⟩
    rcases h.other j nofun with heq | heq <;> rw [heq] at hs
    · exact hs
    · rwa [Lifecycle.state_ripen, TaskState.isScheduled_ripen] at hs
  other i hi := by
    rcases h.other i nofun with heq | heq <;> rcases h'.other i hi with heq' | heq' <;>
      rw [heq', heq]
    · exact Or.inl rfl
    · exact Or.inr rfl
    · exact Or.inr rfl
    · exact Or.inr Lifecycle.ripen_ripen

/-- A task in flight is not claimed. -/
theorem ne_of_isInFlight (h : ClaimsRun before claimed after) {i : Nat}
    (hi : (before i).state.isInFlight = true) : claimed ≠ some i := by
  intro hc
  have hs := (h.begun i hc).1
  rw [TaskState.isScheduled_of_isInFlight hi] at hs
  cases hs

/-- A task that is not claimed is in flight just if it was before. -/
theorem isInFlight_other (h : ClaimsRun before claimed after) {i : Nat} (hi : claimed ≠ some i) :
    (after i).state.isInFlight = (before i).state.isInFlight := by
  rcases h.other i hi with heq | heq <;> rw [heq]
  exact TaskState.isInFlight_ripen _

end ClaimsRun

end TurnPool
