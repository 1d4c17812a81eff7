import TurnPool.Proofs.GroupTidy

/-!
# Histories of a group

What a group goes through is a list of events: tasks join, are asked for runs and are stopped,
entries arrive, and outcomes are delivered. Every event comes with the readings of the clock it
takes and with the timetable it finds, which is at the mercy of others between two events. Nothing
is asked of the order of the events: an entry of any epoch may arrive at any time, and so may an
outcome for a task that has no run under way.

## Main results

* `Group.tidy_history`: a group is tidy at all times.
* `Group.history_places`: where its tasks stand, collection by collection.
-/

namespace TurnPool

namespace Group

variable {Q ω : Type}

/-- Something that happens to a group. -/
inductive GroupEvent where
  /-- A task joins. -/
  | register (name : String)
  /-- Something is asked of a task. -/
  | request (id : Nat) (what : Request)
  /-- An entry of an epoch arrives. -/
  | dispatch (epoch : Nat)
  /-- The outcome of a run arrives. -/
  | deliver (id : Nat) (o : Outcome)

/-- An event with all that it finds. -/
structure Moment (Q ω : Type) where
  /-- The settings. -/
  opts : SchedulerOptions
  /-- The work of an entry of an epoch. -/
  entry : Nat → ω
  /-- The readings of the clock. -/
  readings : Readings
  /-- The timetable. -/
  table : Q
  /-- The event. -/
  event : GroupEvent

variable [Timetable Q ω]

/-- The group after an event. A number that was not given to a task names none, and nothing can be
asked of it. -/
def after (g : Group) (m : Moment Q ω) : Group :=
  match m.event with
  | .register name => (g.register name).2
  | .request id what =>
    if id < g.members.size then (request m.opts m.entry m.readings id what (g, m.table)).1 else g
  | .dispatch epoch => (dispatch m.opts m.entry m.readings epoch (g, m.table)).2.1
  | .deliver id o =>
    if id < g.members.size then (deliver m.opts m.entry m.readings id o (g, m.table)).1.1 else g

/-- The group that a list of events leads to. -/
def history (ms : List (Moment Q ω)) : Group := ms.foldl after empty

/-- Every event keeps a group tidy. -/
theorem Tidy.after {g : Group} (h : g.Tidy) (m : Moment Q ω) : (g.after m).Tidy := by
  obtain ⟨opts, entry, r, q, event⟩ := m
  rw [Group.after]
  cases event with
  | register name => exact h.register name
  | request id what =>
    dsimp only
    split
    · rename_i hlt
      exact h.request hlt opts entry r what q
    · exact h
  | dispatch epoch => exact h.dispatch opts entry r epoch q
  | deliver id o =>
    dsimp only
    split
    · rename_i hlt
      exact h.deliver hlt opts entry r o q
    · exact h

/-- A group is **tidy** after any list of moments. -/
theorem tidy_history (ms : List (Moment Q ω)) : (history ms).Tidy :=
  List.foldlRecOn ms Group.after Tidy.empty fun _ h m _ => h.after m

/-- **Where the tasks of a group stand** after any list of moments. The cursor is within the batch,
and no task stands twice in what is left of the batch, the next batch and `delayed`. A task stands
in one of the batches just if it is `scheduled false`, and in `delayed` just if it is `scheduled
true`; the key it has there is its own deadline, number and name, and no other task has a deadline.
A task that is not scheduled stands nowhere. -/
theorem history_places (ms : List (Moment Q ω)) :
    let g := history ms
    let batches := g.active.drop g.cursor ++ g.scheduled
    let waiting := g.delayed.map Delayed.task
    g.cursor ≤ g.active.length ∧
    (batches ++ waiting).Nodup ∧
    (∀ i, i ∈ batches ↔ (g.life i).state = .scheduled false) ∧
    (∀ i, i ∈ waiting ↔ (g.life i).state = .scheduled true) ∧
    (∀ k ∈ g.delayed, ∃ m, g.members[k.task]? = some m ∧ m.deadline = some k.deadline ∧
      m.name = k.name) ∧
    (∀ i m, g.members[i]? = some m → (m.deadline.isSome = true ↔ i ∈ waiting)) ∧
    (∀ i, (g.life i).state.isScheduled = false → i ∉ batches ++ waiting) := by
  intro g batches waiting
  have h : g.Tidy := tidy_history ms
  have hbatches : ∀ i, i ∈ batches ↔ (g.life i).state = .scheduled false := fun i =>
    (h.mem_ready i).trans TaskState.queued?_eq_some
  have hwaiting : ∀ i, i ∈ waiting ↔ (g.life i).state = .scheduled true := fun i =>
    h.mem_waiting.trans TaskState.queued?_eq_some
  refine ⟨h.cursor_le, ?_, hbatches, hwaiting, ?_, ?_, ?_⟩
  · refine List.nodup_append.2 ⟨h.nodup_ready, h.nodup_delayed, ?_⟩
    rintro i hi j hj rfl
    have := (hbatches i).1 hi
    rw [(hwaiting i).1 hj] at this
    cases this
  · exact fun k hk => key?_eq_some.1 ((h.mem_delayed k).1 hk)
  · intro i m hm
    rw [hwaiting, ← TaskState.queued?_eq_some, ← h.isSome_key, key?, hm, Option.bind_some,
      Option.isSome_map]
  · intro i hi hmem
    rcases List.mem_append.1 hmem with hmem | hmem
    · rw [(hbatches i).1 hmem] at hi
      cases hi
    · rw [(hwaiting i).1 hmem] at hi
      cases hi

end Group

end TurnPool
