import Mathlib.Data.List.TakeWhile
import TurnPool.Proofs.GroupHistory
import TurnPool.Proofs.GroupSlot

/-!
# Whose turn it is in a group

A group has two lists and a cursor, and still its tasks take turns as in a single line: what is left
of the batch, and the next batch behind it. A task that becomes ready joins the line at its end, and
nothing is ever put in ahead of a task that stands in it. Every entry that arrives lets the first of
the line run.

A task that waits out a retry delay does not stand in the line. When its delay is over it joins the
line, but not before the batch is worked off: those of the batch run first, and then those that have
joined the next batch before it. So it is passed over twice by another task, at most.

## What is counted

`starts` are the tasks whose runs start, one after the other, in a stretch of a history, and
`arrivals` is the number of entries that arrive in the epoch of the entry that the group has. What
is said about a task holds while it has not started, so a stretch ends with the last event before
that.

## Main results

* `Group.Tidy.nextReady_collections`: what claiming a run does to the collections.
* `Group.Tidy.lineStep`: what an event may come to, for a task with a queued run.
* `Group.ahead_after`, `Group.starts_of_ready`: nothing is put in ahead of a task in the line.
* `Group.waits_after`, `Group.starts_of_waits`: those that run while a task waits.
* `Group.turns_in_line`: **nobody is passed over** more than that.
-/

namespace TurnPool

/-! ### Lines -/

/-- The tasks ahead of `u` in `line`. -/
def ahead (u : Nat) (line : List Nat) : List Nat := line.takeWhile (· ≠ u)

section Lines

variable {u id : Nat} {line : List Nat}

/-- Another task at the head of the line is ahead of `u`. -/
theorem ahead_cons (h : id ≠ u) : ahead u (id :: line) = id :: ahead u line :=
  List.takeWhile_cons_of_pos (decide_eq_true h)

/-- What stands behind a line with `u` in it is not ahead of `u`. -/
theorem ahead_append_of_mem (h : u ∈ line) (rest : List Nat) :
    ahead u (line ++ rest) = ahead u line := by
  induction line with
  | nil => cases h
  | cons v line ih =>
    rw [ahead, ahead, List.cons_append, List.takeWhile_cons, List.takeWhile_cons]
    split
    · rename_i hne
      have hmem : u ∈ line := (List.mem_cons.1 h).resolve_left fun heq => by simp [heq] at hne
      exact congrArg (v :: ·) (ih hmem)
    · rfl

/-- A task that was claimed and is not `u` stood ahead of `u`. -/
theorem ahead_toList_append {claimed : Option Nat} (h : claimed ≠ some u) :
    ahead u (claimed.toList ++ line) = claimed.toList ++ ahead u line := by
  cases claimed with
  | none => rfl
  | some id => exact ahead_cons fun heq => h (congrArg some heq)

/-- When another task leaves the line, no task comes ahead of `u`. -/
theorem ahead_erase_sublist (h : id ≠ u) : (ahead u (line.erase id)).Sublist (ahead u line) := by
  induction line with
  | nil => exact .refl _
  | cons v line ih =>
    rw [List.erase_cons]
    split
    · rename_i heq
      obtain rfl : v = id := eq_of_beq heq
      rw [ahead_cons h]
      exact List.sublist_cons_self _ _
    · rw [ahead, ahead, List.takeWhile_cons, List.takeWhile_cons]
      split
      · exact ih.cons_cons v
      · exact .refl _

/-- A duplicate-free list of tasks below `n` that leaves `u` out is shorter than `n`. -/
theorem length_lt_of_nodup {n : Nat} (hnodup : line.Nodup) (hlt : ∀ v ∈ line, v < n) (hu : u < n)
    (hnot : u ∉ line) : line.length < n := by
  have hcons : (u :: line).Nodup := List.nodup_cons.2 ⟨hnot, hnodup⟩
  have hrange : u :: line ⊆ List.range n := fun v hv => List.mem_range.2 <| by
    rcases List.mem_cons.1 hv with rfl | hv
    · exact hu
    · exact hlt v hv
  have hle := (List.subperm_of_subset hcons hrange).length_le
  rwa [List.length_range] at hle

end Lines

/-! ### What leaves the place of a task alone -/

namespace Lifecycle

variable (bounds : BackoffConfig) {l : Lifecycle}

/-- A request other than `stop` leaves the queued run of a ready task **where it is**. -/
theorem request_of_ready {what : Request} (hwhat : what ≠ .stop) (h : l.state = .scheduled false) :
    (l.request bounds what).2 = .unchanged := by
  obtain ⟨s, b⟩ := l
  obtain rfl : s = .scheduled false := h
  cases what with
  | schedule => rfl
  | start => rfl
  | stop => exact absurd rfl hwhat

/-- An outcome that does not halt the task leaves its queued run **where it is**. -/
theorem deliver_of_isScheduled {o : Outcome} (ho : o.halts = false)
    (h : l.state.isScheduled = true) : (l.deliver bounds o).1.2 = .unchanged := by
  obtain ⟨s, b⟩ := l
  rcases o.kinds with hhalts | ⟨more, rfl⟩ | ⟨e, he, rfl⟩
  · exact nomatch ho.symm.trans hhalts
  · rw [deliver_success]
    cases s with
    | scheduled delayed => rfl
    | _ => cases h
  · rw [deliver_failure bounds he]
    cases s with
    | scheduled delayed => rfl
    | _ => cases h

end Lifecycle

namespace Group

variable {Q ω : Type} [Timetable Q ω] {g g' : Group} {u id : Nat}

/-! ### Moves and the collections -/

/-- `unlink id` takes `id` out of what is left of the batch. -/
theorem left_unlink (hc : g.cursor ≤ g.active.length) : (g.unlink id).left = g.left.erase id := by
  have hwaits : (g.unlinkDelayed id).active = g.active ∧
      (g.unlinkDelayed id).cursor = g.cursor := by
    rw [unlinkDelayed]
    split <;> exact ⟨rfl, rfl⟩
  have hleft : (g.unlinkDelayed id).left = g.left := by rw [left, left, hwaits.1, hwaits.2]
  rw [unlink, Placed.left_unlinkReady (by rwa [hwaits.1, hwaits.2]), hleft]

/-- `unlink id` takes `id` out of the **line**. -/
theorem ready_unlink {spot : Nat → Option Bool} (h : g.Placed spot) :
    (g.unlink id).ready = g.ready.erase id := by
  have hscheduled : (g.unlink id).scheduled = g.scheduled.filter (· ≠ id) := by
    rw [unlink, unlinkDelayed]
    split <;> rfl
  have hnodup := List.nodup_append.1 h.nodup_ready
  rw [ready, left_unlink h.cursor_le, hscheduled, ready, List.erase_append]
  split
  · rename_i hleft
    rw [List.filter_eq_self.2]
    exact fun i hi => decide_eq_true fun heq => hnodup.2.2 id hleft i hi heq.symm
  · rename_i hleft
    rw [List.erase_of_not_mem hleft, hnodup.2.1.erase_eq_filter]
    refine congrArg (g.left ++ ·) (List.filter_congr fun i _ => ?_)
    rw [bne, Bool.eq_iff_iff]
    simp

/-- `unlink id` keeps the keys of other tasks among the delayed ones. -/
theorem mem_delayed_unlink {k : Delayed} (hk : k ∈ g.delayed) (hid : id ≠ k.task) :
    k ∈ (g.unlink id).delayed := by
  rw [unlink, unlinkDelayed]
  split
  · rename_i k' hk'
    refine (List.mem_erase_of_ne fun heq => hid ?_).2 hk
    rw [heq, task_of_key? hk']
  · exact hk

/-- The place of `u` is **kept**: if it is ready it stays so and no task comes ahead of it, if it is
delayed it stays so under the same key, and no task joins what is left of the batch. -/
structure KeepsPlace (u : Nat) (g g' : Group) : Prop where
  mem : u ∈ g.ready → u ∈ g'.ready
  ahead : u ∈ g.ready → (ahead u g'.ready).Sublist (ahead u g.ready)
  waits : ∀ k ∈ g.delayed, k.task = u → k ∈ g'.delayed
  left : g'.left.Sublist g.left

namespace KeepsPlace

/-- `KeepsPlace` holds if the collections are the same. -/
theorem of_eq (ha : g'.active = g.active) (hc : g'.cursor = g.cursor)
    (hs : g'.scheduled = g.scheduled) (hd : g'.delayed = g.delayed) : KeepsPlace u g g' := by
  have hl : g'.left = g.left := by rw [Group.left, Group.left, ha, hc]
  have hr : g'.ready = g.ready := by rw [ready, ready, hl, hs]
  exact {
    mem := hr ▸ id
    ahead := fun _ => hr ▸ .refl _
    waits := fun k hk _ => hd ▸ hk
    left := hl ▸ .refl _ }

/-- `KeepsPlace` is transitive. -/
theorem trans {g'' : Group} (h : KeepsPlace u g g') (h' : KeepsPlace u g' g'') :
    KeepsPlace u g g'' where
  mem hu := h'.mem (h.mem hu)
  ahead hu := (h'.ahead (h.mem hu)).trans (h.ahead hu)
  waits k hk hku := h'.waits k (h.waits k hk hku) hku
  left := h'.left.trans h.left

/-- `unlink` of another task keeps the place of `u`. -/
theorem unlink {spot : Nat → Option Bool} (h : g.Placed spot) (hid : id ≠ u) :
    KeepsPlace u g (g.unlink id) where
  mem hu := by
    rw [ready_unlink h]
    exact (List.mem_erase_of_ne hid.symm).2 hu
  ahead _ := by
    rw [ready_unlink h]
    exact ahead_erase_sublist hid
  waits k hk hku := mem_delayed_unlink hk (hku ▸ hid)
  left := left_unlink h.cursor_le ▸ List.erase_sublist

/-- `pushReady` keeps the place of `u`. -/
theorem pushReady (g : Group) : KeepsPlace u g (g.pushReady id) where
  mem hu := by
    rw [show (g.pushReady id).ready = g.ready ++ [id] from (List.append_assoc ..).symm]
    exact List.mem_append_left _ hu
  ahead hu := by
    rw [show (g.pushReady id).ready = g.ready ++ [id] from (List.append_assoc ..).symm,
      ahead_append_of_mem hu]
  waits _ hk _ := hk
  left := .refl _

/-- `pushDelayed` keeps the place of `u`. -/
theorem pushDelayed (g : Group) (deadline : Nat) : KeepsPlace u g (g.pushDelayed id deadline) := by
  rw [Group.pushDelayed]
  split
  · exact { (of_eq rfl rfl rfl rfl : KeepsPlace u g g) with
      waits := fun k hk _ => mem_insertBy_of_mem (fun _ => eq_of_beq) hk }
  · exact of_eq rfl rfl rfl rfl

/-- `enact` keeps the place of `u` if it changes **another task**, or leaves the queued run where it
is. -/
theorem enact (h : g.Tidy) {change : Lifecycle × Placement}
    (hchange : id ≠ u ∨ change.2 = .unchanged) (opts : SchedulerOptions) (entry : Nat → ω)
    (r : Readings) (q : Q) : KeepsPlace u g (enact opts entry r id change (g, q)).1 := by
  have hset : (g.modify id fun m => { m with life := change.1 }).Placed fun i =>
      (g.life i).state.queued? :=
    Placed.congr h rfl rfl rfl rfl fun _ => key?_modify_of_keeps (fun _ => rfl) fun _ => rfl
  have hmodify : KeepsPlace u g (g.modify id fun m => { m with life := change.1 }) :=
    of_eq rfl rfl rfl rfl
  have hrelocate : KeepsPlace u (g.modify id fun m => { m with life := change.1 })
      ((g.modify id fun m => { m with life := change.1 }).relocate r.deadline id change.2) := by
    rcases hchange with hid | hunchanged
    · cases change.2 with
      | unchanged => exact of_eq rfl rfl rfl rfl
      | now => exact (unlink hset hid).trans (pushReady _)
      | after ms => exact (unlink hset hid).trans (pushDelayed _ _)
      | dropped => exact unlink hset hid
    · rw [hunchanged]
      exact of_eq rfl rfl rfl rfl
  refine (hmodify.trans hrelocate).trans ?_
  obtain ⟨armed, epoch, heq⟩ := rearm_eq opts entry r
    ((g.modify id fun m => { m with life := change.1 }).relocate r.deadline id change.2) q
  rw [Group.enact, place, heq]
  exact of_eq rfl rfl rfl rfl

end KeepsPlace

/-! ### Claiming and the collections -/

/-- After `ripen now` the keys with deadlines after `now` are left. -/
theorem delayed_ripen (now : Nat) (ks : List Delayed) (g : Group) :
    (ripen now ks g).delayed = ks.dropWhile fun k => k.deadline ≤ now := by
  induction ks generalizing g with
  | nil => rfl
  | cons k ks ih =>
    rw [ripen, List.dropWhile_cons]
    by_cases hlt : now < k.deadline
    · rw [if_pos hlt, if_neg (by simpa using hlt)]
    · rw [if_neg hlt, ih, if_pos (by simpa using hlt)]

namespace Tidy

/-- `claimFirst` of a tidy group claims **the first of the batch**, and moves no other task. -/
theorem claimFirst_collections (h : g.Tidy) :
    (Group.claimFirst g.left g).1.toList ++ (Group.claimFirst g.left g).2.left = g.left ∧
      (Group.claimFirst g.left g).2.scheduled = g.scheduled ∧
      (Group.claimFirst g.left g).2.delayed = g.delayed := by
  cases hleft : g.left with
  | nil => exact ⟨rfl, rfl, rfl⟩
  | cons id ids =>
    obtain ⟨-, l, -, heq⟩ := h.claimFirst_of_cons hleft
    rw [← hleft, heq]
    refine ⟨?_, rfl, rfl⟩
    have hrest : ids = g.active.drop (g.cursor + 1) := by
      rw [← List.drop_drop]
      exact (congrArg (List.drop 1) hleft).symm
    rw [hleft, hrest]
    rfl

/-- What `nextReady` **does to the collections**: it claims the first that is left of the batch; or
nothing was left, and the next batch, which the tasks with deadlines up to `now` have joined, takes
its place, and its first is claimed. -/
theorem nextReady_collections (h : g.Tidy) (now : Nat) {claimed : Option Nat}
    (hnext : Group.nextReady now g = (claimed, g')) :
    (claimed.toList ++ g'.left = g.left ∧ claimed.isSome = true ∧ g'.scheduled = g.scheduled ∧
      g'.delayed = g.delayed) ∨
    (g.left = [] ∧ g'.scheduled = [] ∧ (claimed = none → g'.left = []) ∧
      claimed.toList ++ g'.left = g.scheduled ++
        (g.delayed.takeWhile fun k => k.deadline ≤ now).map Delayed.task ∧
      g'.delayed = g.delayed.dropWhile fun k => k.deadline ≤ now) := by
  rw [Group.nextReady] at hnext
  by_cases hleft : g.left = []
  · right
    have hclear : ({ g with active := [], cursor := 0 } : Group).Tidy := Placed.clear h hleft
    have hrenewed := hclear.renew now rfl
    obtain ⟨htaken, hscheduled, hdelayed⟩ := hrenewed.claimFirst_collections
    have hfirst := hrenewed.claimFirst.2
    rw [hleft] at hnext
    rw [show Group.claimFirst _ _ = (claimed, g') from hnext] at htaken hscheduled hdelayed hfirst
    exact ⟨hleft, hscheduled, hfirst, htaken.trans (scheduled_ripen now g.delayed _),
      hdelayed.trans (delayed_ripen now g.delayed _)⟩
  · left
    have hsome := h.isSome_claimFirst hleft
    obtain ⟨htaken, hscheduled, hdelayed⟩ := h.claimFirst_collections
    generalize Group.claimFirst g.left g = r at hnext hsome htaken hscheduled hdelayed
    obtain ⟨_ | id, g₁⟩ := r
    · cases hsome
    · obtain ⟨rfl, rfl⟩ := Prod.mk.inj hnext
      exact ⟨htaken, hsome, hscheduled, hdelayed⟩

end Tidy

/-! ### Runs that start -/

/-- Whether an event halts task `u`. -/
def GroupEvent.stops (u : Nat) : GroupEvent → Bool
  | .request id what => id == u && what == .stop
  | .deliver id o => id == u && o.halts
  | _ => false

/-- Whether an event asks for a run of task `u`. -/
def GroupEvent.asks (u : Nat) : GroupEvent → Bool
  | .request id what => id == u && what != .stop
  | _ => false

/-- The task whose run the event starts. -/
def Moment.started? (g : Group) (m : Moment Q ω) : Option Nat :=
  match m.event with
  | .dispatch epoch => (dispatch m.opts m.entry m.readings epoch (g, m.table)).1
  | _ => none

/-- Whether the event is the arrival of the entry that the group is armed with. -/
def Moment.arrives (g : Group) (m : Moment Q ω) : Bool :=
  match m.event with
  | .dispatch epoch => g.armed.map Armed.epoch == some epoch
  | _ => false

/-- The tasks whose runs start, one after the other. -/
def starts (g : Group) : List (Moment Q ω) → List Nat
  | [] => []
  | m :: ms => (m.started? g).toList ++ starts (g.after m) ms

/-- How many of the events are arrivals of the armed entry. -/
def arrivals (g : Group) : List (Moment Q ω) → Nat
  | [] => 0
  | m :: ms => (m.arrives g).toNat + arrivals (g.after m) ms

/-- What an event can come to for a group with task `u`: it starts nothing and keeps the place of
`u`; or the armed entry arrives and starts the first that is left of the batch; or it arrives when
nothing is left, and the next batch takes its place. -/
inductive LineStep (u : Nat) (g : Group) (m : Moment Q ω) : Prop
  /-- No run starts, and the place of the task is left alone. -/
  | aside (harrives : m.arrives g = false) (hstarted : m.started? g = none)
      (hplace : KeepsPlace u g (g.after m))
  /-- The first of the batch is taken. -/
  | taken (id : Nat) (harrives : m.arrives g = true) (hstarted : m.started? g = some id)
      (hleft : g.left = id :: (g.after m).left) (hscheduled : (g.after m).scheduled = g.scheduled)
      (hdelayed : (g.after m).delayed = g.delayed)
  /-- The batch is worked off. The next one takes its place, the tasks whose delay is over join it,
  and the first of it is taken, if there is one. -/
  | renewed (harrives : m.arrives g = true) (hleft : g.left = [])
      (hscheduled : (g.after m).scheduled = [])
      (hfirst : m.started? g = none → (g.after m).left = [])
      (htaken : (m.started? g).toList ++ (g.after m).left = g.scheduled ++
        (g.delayed.takeWhile fun k => k.deadline ≤ m.readings.deadline).map Delayed.task)
      (hdelayed : (g.after m).delayed =
        g.delayed.dropWhile fun k => k.deadline ≤ m.readings.deadline)

/-- A dispatch **starts the first that is left, or renews the batch**, unless it is stale and then
does nothing. -/
theorem Tidy.lineStep_dispatch (h : g.Tidy) (u : Nat) {m : Moment Q ω} {epoch : Nat}
    (hm : m.event = .dispatch epoch) : LineStep u g m := by
  obtain ⟨opts, entry, r, q, event⟩ := m
  obtain rfl : event = .dispatch epoch := hm
  by_cases hepoch : g.armed.map Armed.epoch = some epoch
  · cases hnext : Group.nextReady r.deadline { g with armed := none } with
    | mk claimed g' =>
      have hcurrent : Group.dispatch opts entry r epoch (g, q) =
          (claimed, Group.rearm opts entry r (g', q)) := by
        rw [Group.dispatch]
        dsimp only
        rw [if_pos hepoch, hnext]
      obtain ⟨armed, epoch', hrearm⟩ := rearm_eq opts entry r g' q
      have hafter : g.after ⟨opts, entry, r, q, .dispatch epoch⟩ =
          { g' with armed, epoch := epoch' } := (congrArg (·.2.1) hcurrent).trans hrearm
      have hstarted : Moment.started? g ⟨opts, entry, r, q, .dispatch epoch⟩ = claimed :=
        congrArg Prod.fst hcurrent
      have harrives : Moment.arrives g ⟨opts, entry, r, q, .dispatch epoch⟩ = true :=
        beq_iff_eq.2 hepoch
      rcases (h.setEntry none g.epoch).nextReady_collections r.deadline hnext with
        ⟨htaken, hsome, hscheduled, hdelayed⟩ | ⟨hleft, hscheduled, hfirst, htaken, hdelayed⟩
      · obtain ⟨id, rfl⟩ := Option.isSome_iff_exists.1 hsome
        exact .taken id harrives hstarted (hafter ▸ htaken.symm) (hafter ▸ hscheduled)
          (hafter ▸ hdelayed)
      · exact .renewed harrives hleft (hafter ▸ hscheduled) (by rw [hstarted, hafter]; exact hfirst)
          (by rw [hstarted, hafter]; exact htaken) (hafter ▸ hdelayed)
  · have hstale : Group.dispatch opts entry r epoch (g, q) = (none, g, q) := by
      rw [Group.dispatch]
      exact if_neg hepoch
    refine .aside (beq_eq_false_iff_ne.2 hepoch) (congrArg Prod.fst hstale) ?_
    rw [show g.after _ = g from congrArg (·.2.1) hstale]
    exact .of_eq rfl rfl rfl rfl

/-- Every event is a `LineStep` for a task with a queued run, unless it halts the task, or asks for
a run of it while it is delayed. -/
theorem Tidy.lineStep (h : g.Tidy) (m : Moment Q ω) (hstops : m.event.stops u = false)
    (hqueued : (g.life u).state = .scheduled false ∨
      (g.life u).state = .scheduled true ∧ m.event.asks u = false) : LineStep u g m := by
  have hscheduled : (g.life u).state.isScheduled = true := by
    rcases hqueued with hs | ⟨hs, -⟩ <;> rw [hs] <;> rfl
  obtain ⟨opts, entry, r, q, event⟩ := m
  cases event with
  | register name => exact .aside rfl rfl (.of_eq rfl rfl rfl rfl)
  | request id what =>
    refine .aside rfl rfl ?_
    rw [Group.after]
    dsimp only
    split
    · refine .enact h ?_ opts entry r q
      rw [or_iff_not_imp_left, not_ne_iff]
      rintro rfl
      have hwhat : what ≠ .stop := by simpa [GroupEvent.stops] using hstops
      refine Lifecycle.request_of_ready opts.backoff hwhat (hqueued.resolve_right fun hwaits => ?_)
      exact hwhat (by simpa [GroupEvent.asks] using hwaits.2)
    · exact .of_eq rfl rfl rfl rfl
  | dispatch epoch => exact h.lineStep_dispatch u rfl
  | deliver id o =>
    refine .aside rfl rfl ?_
    rw [Group.after]
    dsimp only
    split
    · refine .enact h ?_ opts entry r q
      rw [or_iff_not_imp_left, not_ne_iff]
      rintro rfl
      have ho : o.halts = false := by simpa [GroupEvent.stops] using hstops
      exact Lifecycle.deliver_of_isScheduled opts.backoff ho hscheduled
    · exact .of_eq rfl rfl rfl rfl

/-! ### A task in the line -/

/-- While `u` is ready an event **puts no task ahead** of it, the one that starts stood ahead of it,
and an arrival starts a run. -/
theorem ahead_after (h : g.Tidy) (hu : u ∈ g.ready) (m : Moment Q ω)
    (hstops : m.event.stops u = false) (hnot : m.started? g ≠ some u) :
    u ∈ (g.after m).ready ∧
      ((m.started? g).toList ++ ahead u (g.after m).ready).Sublist (ahead u g.ready) ∧
      (m.arrives g).toNat = (m.started? g).toList.length := by
  cases h.lineStep m hstops (Or.inl (h.state_of_mem_ready hu)) with
  | aside harrives hstarted hplace =>
    rw [harrives, hstarted]
    exact ⟨hplace.mem hu, hplace.ahead hu, rfl⟩
  | taken id harrives hstarted hleft hscheduled hdelayed =>
    have hne : id ≠ u := fun heq => hnot (heq ▸ hstarted)
    have hready : g.ready = id :: (g.after m).ready := by
      rw [ready, ready, hleft, hscheduled]
      rfl
    rw [hready] at hu ⊢
    rw [harrives, hstarted, ahead_cons hne]
    exact ⟨(List.mem_cons.1 hu).resolve_left hne.symm, .refl _, rfl⟩
  | renewed harrives hleft hscheduled hfirst htaken hdelayed =>
    have hready : (m.started? g).toList ++ (g.after m).ready = g.ready ++
        (g.delayed.takeWhile fun k => k.deadline ≤ m.readings.deadline).map Delayed.task := by
      rw [ready, ready, hleft, hscheduled, List.append_nil, List.nil_append, htaken]
    have hmem : u ∈ (m.started? g).toList ++ (g.after m).ready :=
      hready ▸ List.mem_append_left _ hu
    refine ⟨(List.mem_append.1 hmem).resolve_left fun hclaimed => ?_, ?_, ?_⟩
    · exact hnot (Option.mem_toList.1 hclaimed)
    · rw [← ahead_toList_append hnot, hready, ahead_append_of_mem hu]
    · cases hclaimed : m.started? g with
      | some id => rw [harrives]; rfl
      | none =>
        rw [hclaimed, ready, hscheduled, hfirst hclaimed] at hmem
        cases hmem

/-- While `u` is ready and has not started, the runs that started and the tasks that are still ahead
are **a sublist of those that were ahead**, and every arrival started a run. -/
theorem starts_of_ready (h : g.Tidy) (hu : u ∈ g.ready) (ms : List (Moment Q ω))
    (hstops : ∀ m ∈ ms, m.event.stops u = false) (hnot : u ∉ starts g ms) :
    u ∈ (ms.foldl after g).ready ∧
      (starts g ms ++ ahead u (ms.foldl after g).ready).Sublist (ahead u g.ready) ∧
      arrivals g ms = (starts g ms).length := by
  induction ms generalizing g with
  | nil => exact ⟨hu, .refl _, rfl⟩
  | cons m ms ih =>
    rw [List.forall_mem_cons] at hstops
    rw [starts, List.mem_append, Option.mem_toList, not_or] at hnot
    obtain ⟨hready, hline, harrives⟩ := ahead_after h hu m hstops.1 hnot.1
    obtain ⟨hlast, hrest, hcount⟩ := ih (h.after m) hready hstops.2 hnot.2
    refine ⟨hlast, ?_, ?_⟩
    · rw [starts, List.append_assoc]
      exact (hrest.append_left _).trans hline
    · rw [starts, arrivals, List.length_append, harrives, hcount]

/-! ### A task that waits -/

/-- In the order of the deadlines, a key whose deadline is up to `now` is among those that are
taken. -/
theorem mem_takeWhile_of_deadline_le {k : Delayed} {ks : List Delayed} {now : Nat}
    (hascending : ks.Pairwise (·.deadline ≤ ·.deadline)) (hk : k ∈ ks) (hle : k.deadline ≤ now) :
    k ∈ ks.takeWhile fun k => k.deadline ≤ now := by
  induction ks with
  | nil => cases hk
  | cons m ks ih =>
    obtain ⟨hm, hks⟩ := List.pairwise_cons.1 hascending
    have hfirst : m.deadline ≤ now := by
      rcases List.mem_cons.1 hk with rfl | hk
      · exact hle
      · exact (hm k hk).trans hle
    rw [List.takeWhile_cons, if_pos (decide_eq_true hfirst)]
    exact List.mem_cons.2 ((List.mem_cons.1 hk).imp_right (ih hks))

/-- A key whose deadline is after `now` is among those that are left. -/
theorem mem_dropWhile_of_lt_deadline {k : Delayed} {ks : List Delayed} {now : Nat} (hk : k ∈ ks)
    (hlt : now < k.deadline) : k ∈ ks.dropWhile fun k => k.deadline ≤ now :=
  mem_dropWhile_of_not hk (decide_eq_false (Nat.not_le.2 hlt))

/-- The task whose run an event starts **is in flight** afterwards. -/
theorem state_of_started {m : Moment Q ω} (hstarted : m.started? g = some id) :
    ((g.after m).life id).state = .inFlight false := by
  obtain ⟨opts, entry, r, q, event⟩ := m
  cases event with
  | dispatch epoch => exact ((claimsRun_dispatch opts entry r epoch g q).begun id hstarted).2
  | _ => cases hstarted

/-- An event **keeps `k` delayed**, and from its deadline on the run that starts is the first that
is left of the batch; or nothing was left and the deadline has come, and its task **becomes ready or
starts**. -/
theorem waits_after (h : g.Tidy) {k : Delayed} (hk : k ∈ g.delayed) (m : Moment Q ω)
    (hstops : m.event.stops k.task = false) (hasks : m.event.asks k.task = false) :
    (k ∈ (g.after m).delayed ∧ (k.deadline ≤ m.readings.deadline →
      ((m.started? g).toList ++ (g.after m).left).Sublist g.left ∧
        (m.arrives g).toNat = (m.started? g).toList.length)) ∨
    (k.deadline ≤ m.readings.deadline ∧ g.left = [] ∧ m.arrives g = true ∧
      (m.started? g).isSome = true ∧ k.task ∈ (m.started? g).toList ++ (g.after m).ready) := by
  cases h.lineStep m hstops (Or.inr ⟨h.state_of_mem_delayed hk, hasks⟩) with
  | aside harrives hstarted hplace =>
    rw [harrives, hstarted]
    exact Or.inl ⟨hplace.waits k hk rfl, fun _ => ⟨hplace.left, rfl⟩⟩
  | taken id harrives hstarted hleft hscheduled hdelayed =>
    rw [harrives, hstarted, hdelayed, hleft]
    exact Or.inl ⟨hk, fun _ => ⟨.refl _, rfl⟩⟩
  | renewed harrives hleft hscheduled hfirst htaken hdelayed =>
    by_cases hle : k.deadline ≤ m.readings.deadline
    · have hmem : k.task ∈ (m.started? g).toList ++ (g.after m).left := by
        rw [htaken]
        exact List.mem_append_right _
          (List.mem_map_of_mem (mem_takeWhile_of_deadline_le h.ascending hk hle))
      refine Or.inr ⟨hle, hleft, harrives, ?_, ?_⟩
      · rw [Option.isSome_iff_ne_none]
        intro hnone
        rw [hnone, hfirst hnone] at hmem
        cases hmem
      · rwa [ready, hscheduled, List.append_nil]
    · rw [hdelayed]
      exact Or.inl ⟨mem_dropWhile_of_lt_deadline hk (Nat.lt_of_not_le hle),
        fun hle' => absurd hle' hle⟩

/-- `k` **stays delayed** while no dispatch is at or after its deadline. -/
theorem waits_until (h : g.Tidy) {k : Delayed} (hk : k ∈ g.delayed) (ms : List (Moment Q ω))
    (hquiet : ∀ m ∈ ms, m.event.stops k.task = false ∧ m.event.asks k.task = false)
    (hbefore : ∀ m ∈ ms, ∀ epoch, m.event = .dispatch epoch → m.readings.deadline < k.deadline) :
    k ∈ (ms.foldl after g).delayed ∧ k.task ∉ starts g ms := by
  induction ms generalizing g with
  | nil => exact ⟨hk, List.not_mem_nil⟩
  | cons m ms ih =>
    rw [List.forall_mem_cons] at hquiet hbefore
    rcases waits_after h hk m hquiet.1.1 hquiet.1.2 with ⟨hwaits, -⟩ | ⟨hle, -, harrives, -⟩
    · obtain ⟨hlast, hnot⟩ := ih (h.after m) hwaits hquiet.2 hbefore.2
      refine ⟨hlast, fun hmem => ?_⟩
      rcases List.mem_append.1 hmem with hmem | hmem
      · have hstate := state_of_started (Option.mem_toList.1 hmem)
        rw [(h.after m).state_of_mem_delayed hwaits] at hstate
        cases hstate
      · exact hnot hmem
    · cases hevent : m.event with
      | dispatch epoch => exact absurd (hbefore.1 epoch hevent) (Nat.not_lt.2 hle)
      | _ =>
        rw [Moment.arrives, hevent] at harrives
        cases harrives

/-- An event takes no member away. -/
theorem size_le_after (g : Group) (m : Moment Q ω) :
    g.members.size ≤ (g.after m).members.size := by
  obtain ⟨opts, entry, r, q, event⟩ := m
  rw [Group.after]
  cases event with
  | register name =>
    show _ ≤ (g.members.push _).size
    rw [Array.size_push]
    exact Nat.le_succ _
  | request id what =>
    dsimp only
    split
    · exact (size_enact opts entry r _ q).ge
    · exact Nat.le_refl _
  | dispatch epoch => exact (size_dispatch opts entry r epoch g q).ge
  | deliver id o =>
    dsimp only
    split
    · exact (size_enact opts entry r _ q).ge
    · exact Nat.le_refl _

/-- A list of events takes no member away. -/
theorem size_le_foldl_after (g : Group) (ms : List (Moment Q ω)) :
    g.members.size ≤ (ms.foldl after g).members.size := by
  induction ms generalizing g with
  | nil => exact Nat.le_refl _
  | cons m ms ih => exact (size_le_after g m).trans (ih _)

/-- From the deadline of `k` on, until its task starts, the runs that start are **a sublist of what
was left of the batch** and then one of the tasks that were ahead in the next batch, none of them
twice in either. -/
theorem starts_of_waits (h : g.Tidy) {k : Delayed} (hk : k ∈ g.delayed) (ms : List (Moment Q ω))
    (hquiet : ∀ m ∈ ms, m.event.stops k.task = false ∧ m.event.asks k.task = false)
    (hover : ∀ m ∈ ms, k.deadline ≤ m.readings.deadline) (hnot : k.task ∉ starts g ms) :
    (k ∈ (ms.foldl after g).delayed ∨ k.task ∈ (ms.foldl after g).ready) ∧
      arrivals g ms = (starts g ms).length ∧
      ∃ first second, starts g ms = first ++ second ∧ first.Sublist g.left ∧ second.Nodup ∧
        ∀ v ∈ second, v < (ms.foldl after g).members.size := by
  induction ms generalizing g with
  | nil => exact ⟨Or.inl hk, rfl, [], [], rfl, List.nil_sublist _, .nil, nofun⟩
  | cons m ms ih =>
    rw [List.forall_mem_cons] at hquiet hover
    rw [starts, List.mem_append, Option.mem_toList, not_or] at hnot
    rcases waits_after h hk m hquiet.1.1 hquiet.1.2 with
      ⟨hwaits, hbatch⟩ | ⟨-, hleft, harrives, hsome, hmem⟩
    · obtain ⟨htaken, hone⟩ := hbatch hover.1
      obtain ⟨hlast, hcount, first, second, hsplit, hfirst, hsecond, hlt⟩ :=
        ih (h.after m) hwaits hquiet.2 hover.2 hnot.2
      refine ⟨hlast, ?_, (m.started? g).toList ++ first, second, ?_, ?_, hsecond, hlt⟩
      · rw [starts, arrivals, List.length_append, hone, hcount]
      · rw [starts, hsplit, List.append_assoc]
      · exact (hfirst.append_left _).trans htaken
    · obtain ⟨id, hid⟩ := Option.isSome_iff_exists.1 hsome
      have hready : k.task ∈ (g.after m).ready :=
        (List.mem_append.1 hmem).resolve_left fun hclaimed => hnot.1 (Option.mem_toList.1 hclaimed)
      obtain ⟨hlast, hline, hcount⟩ := starts_of_ready (h.after m) hready ms
        (fun m' hm' => (hquiet.2 m' hm').1) hnot.2
      have hsub : (starts (g.after m) ms).Sublist (g.after m).ready :=
        ((List.sublist_append_left _ _).trans hline).trans (List.takeWhile_sublist _)
      have hsize := size_le_foldl_after (g.after m) ms
      have hstate := state_of_started hid
      refine ⟨Or.inr hlast, ?_, [], id :: starts (g.after m) ms, ?_, List.nil_sublist _, ?_, ?_⟩
      · rw [starts, arrivals, harrives, hid, hcount]
        exact Nat.add_comm _ _
      · rw [starts, hid]
        rfl
      · refine List.nodup_cons.2 ⟨fun hmem => ?_, hsub.nodup (h.after m).nodup_ready⟩
        rw [(h.after m).state_of_mem_ready (hsub.subset hmem)] at hstate
        cases hstate
      · rw [List.forall_mem_cons]
        have hlt : id < (g.after m).members.size :=
          lt_size_of_state_ne (by rw [hstate]; exact nofun)
        exact ⟨Nat.lt_of_lt_of_le hlt hsize, fun v hv =>
          Nat.lt_of_lt_of_le ((h.after m).lt_size_of_mem_ready (hsub.subset hv)) hsize⟩

/-! ### In every history -/

/-- Every event keeps `Matched`. -/
theorem Matched.after (h : g.Matched) (m : Moment Q ω) : (g.after m).Matched := by
  obtain ⟨opts, entry, r, q, event⟩ := m
  rw [Group.after]
  cases event with
  | register name => exact h
  | request id what =>
    dsimp only
    split
    · exact matched_rearm ..
    · exact h
  | dispatch epoch =>
    dsimp only [Group.dispatch]
    split
    · exact matched_rearm ..
    · exact h
  | deliver id o =>
    dsimp only
    split
    · exact matched_rearm ..
    · exact h

/-- The entry of a group matches its queued runs after any list of moments. -/
theorem matched_history (ms : List (Moment Q ω)) : (history ms).Matched :=
  List.foldlRecOn ms Group.after rfl fun _ h m _ => h.after m

/-- The history of two lists of moments is the second one run on the history of the first. -/
theorem history_append (past ms : List (Moment Q ω)) :
    history (past ++ ms) = ms.foldl after (history past) :=
  List.foldl_append

/-- **Whose turn it is** in a group, after any moments `past`, and over any moments that follow.

* While task `u` is `scheduled false`, is not halted and does not start, those that start are a
  sublist of the tasks ahead of it in what is left of the batch and the next batch. They are
  distinct, so fewer than there are tasks. The group stays armed with an entry that is due at once,
  and every arrival of it starts a run.
* While task `u` is delayed until `deadline`, and is neither halted nor asked for a run, it does not
  start as long as every dispatch is before `deadline`. From the first moment on that is not, if the
  clock does not go back, each other task starts at most twice before `u`, so at most `2 * n - 2`
  runs of `n` tasks do. The group stays armed, and every arrival of its entry starts a run. -/
theorem turns_in_line (past : List (Moment Q ω)) (u : Nat) :
    (∀ ms : List (Moment Q ω), ((history past).life u).state = .scheduled false →
      (∀ m ∈ ms, m.event.stops u = false) → u ∉ starts (history past) ms →
      let g := history past
      let others := (g.active.drop g.cursor ++ g.scheduled).takeWhile (· ≠ u)
      (starts g ms).Sublist others ∧ others.Nodup ∧
      (starts g ms).length ≤ g.members.size - 1 ∧
      (∃ a, (history (past ++ ms)).armed = some a ∧ a.due = none) ∧
      arrivals g ms = (starts g ms).length) ∧
    ∀ (early later : List (Moment Q ω)) (first : Moment Q ω) (deadline : Nat),
      (history past).members[u]?.bind Member.deadline = some deadline →
      (∀ m ∈ early ++ first :: later, m.event.stops u = false ∧ m.event.asks u = false) →
      (∀ m ∈ early, ∀ epoch, m.event = .dispatch epoch → m.readings.deadline < deadline) →
      deadline ≤ first.readings.deadline →
      (first :: later).Pairwise (·.readings.deadline ≤ ·.readings.deadline) →
      u ∉ starts (history (past ++ early)) (first :: later) →
      let g := history (past ++ early)
      let last := history (past ++ early ++ first :: later)
      u ∉ starts (history past) early ∧
      (starts g (first :: later)).length ≤ 2 * last.members.size - 2 ∧
      (∀ v, (starts g (first :: later)).count v ≤ 2) ∧
      last.armed.isSome = true ∧
      arrivals g (first :: later) = (starts g (first :: later)).length := by
  have htidy : (history past).Tidy := tidy_history past
  constructor
  · intro ms hstate hstops hnot g others
    have hu : u ∈ g.ready := (htidy.mem_ready u).2 (TaskState.queued?_eq_some.2 hstate)
    obtain ⟨hlast, hline, hcount⟩ := starts_of_ready htidy hu ms hstops hnot
    have hsub : (starts g ms).Sublist others := (List.sublist_append_left _ _).trans hline
    have hothers : others.Nodup := (List.takeWhile_sublist _).nodup htidy.nodup_ready
    refine ⟨hsub, hothers, ?_, ?_, hcount⟩
    · have hlt := length_lt_of_nodup (hsub.nodup hothers)
        (fun v hv => htidy.lt_size_of_mem_ready
          ((List.takeWhile_sublist _).subset (hsub.subset hv)))
        (htidy.lt_size_of_mem_ready hu) hnot
      exact Nat.le_sub_one_of_lt hlt
    · refine (matched_history (past ++ ms)).due_of_ready (hasReady_iff.2 ?_)
      rw [history_append]
      exact List.ne_nil_of_mem hlast
  · intro early later first deadline hdeadline hquiet hbefore hcome hclock hnot g last
    obtain ⟨m, hm, hd⟩ := Option.bind_eq_some_iff.1 hdeadline
    have hkey : (history past).key? u = some ⟨deadline, u, m.name⟩ := by
      rw [key?, hm, Option.bind_some, hd, Option.map_some]
    have hk : ⟨deadline, u, m.name⟩ ∈ (history past).delayed := (htidy.mem_delayed _).2 hkey
    rw [List.forall_mem_append] at hquiet
    obtain ⟨hwaits, hearly⟩ := waits_until htidy hk early hquiet.1 hbefore
    rw [← history_append] at hwaits
    -- The clock has come to the deadline from the first event on.
    have hover : ∀ m ∈ first :: later, deadline ≤ m.readings.deadline :=
      List.forall_mem_cons.2 ⟨hcome, fun m' hm' =>
        hcome.trans ((List.pairwise_cons.1 hclock).1 m' hm')⟩
    have hg : g.Tidy := tidy_history (past ++ early)
    obtain ⟨hplace, hcount, batch, next, hsplit, hbatch, hnext, hlt⟩ :=
      starts_of_waits hg hwaits (first :: later) hquiet.2 hover hnot
    have hlast : last = (first :: later).foldl after g := history_append ..
    rw [← hlast] at hplace hlt
    have hsize : g.members.size ≤ last.members.size := hlast ▸ size_le_foldl_after g _
    have hu : u < last.members.size :=
      Nat.lt_of_lt_of_le (hg.lt_size_of_mem_delayed hwaits) hsize
    have hline : batch.Sublist g.ready := hbatch.trans (List.sublist_append_left _ _)
    have hbatchNodup : batch.Nodup := hline.nodup hg.nodup_ready
    rw [hsplit, List.mem_append, not_or] at hnot
    have hfirstRound := length_lt_of_nodup hbatchNodup (fun v hv =>
      Nat.lt_of_lt_of_le (hg.lt_size_of_mem_ready (hline.subset hv)) hsize) hu hnot.1
    have hsecondRound := length_lt_of_nodup hnext hlt hu hnot.2
    refine ⟨hearly, ?_, fun v => ?_, ?_, hcount⟩
    · rw [hsplit, List.length_append]
      omega
    · rw [hsplit, List.count_append]
      exact Nat.add_le_add (List.nodup_iff_count_le_one.1 hbatchNodup v)
        (List.nodup_iff_count_le_one.1 hnext v)
    · refine (matched_history (past ++ early ++ first :: later)).isSome_armed.2 ?_
      rw [hasReady_iff]
      exact hplace.symm.imp List.ne_nil_of_mem List.ne_nil_of_mem

/-- Something happens at an instant. -/
def Moment.atTime (now : Nat) (event : GroupEvent) : Moment (Agenda Unit) Unit :=
  ⟨default, fun _ => (), ⟨now, now, now⟩, .empty, event⟩

/-- Three tasks are started, the last one first. -/
def allStarted : List (Moment (Agenda Unit) Unit) :=
  [.atTime 0 (.register "first"), .atTime 0 (.register "second"), .atTime 0 (.register "third"),
    .atTime 0 (.request 2 .start), .atTime 0 (.request 0 .start), .atTime 0 (.request 1 .start)]

/-- The third task runs and has more to do, and then the first one runs. -/
def twoTurns : List (Moment (Agenda Unit) Unit) :=
  [.atTime 1 (.dispatch 1), .atTime 2 (.deliver 2 (.success true)), .atTime 3 (.dispatch 2)]

/-- Two tasks have run. The second one failed, and the first one has more to do. -/
def oneFailed : List (Moment (Agenda Unit) Unit) :=
  [.atTime 0 (.register "first"), .atTime 0 (.register "second"), .atTime 0 (.request 0 .start),
    .atTime 0 (.request 1 .start), .atTime 1 (.dispatch 1), .atTime 2 (.dispatch 2),
    .atTime 3 (.deliver 1 .dropped), .atTime 4 (.deliver 0 (.success true))]

/-- The first task runs again, and has even more to do. -/
def oneTurn : List (Moment (Agenda Unit) Unit) :=
  [.atTime 5 (.dispatch 4), .atTime 6 (.deliver 0 (.success true))]

/-- The second of three tasks stands behind the two others, and the one that has more to do does not
come ahead of it. A task that failed waits for its deadline, and then for one run of the other,
which has joined the next batch before it. -/
theorem turns_in_line_waited :
    (starts (history allStarted) twoTurns = [2, 0] ∧
      arrivals (history allStarted) twoTurns = (starts (history allStarted) twoTurns).length) ∧
    1 ∉ starts (history oneFailed) oneTurn ∧
    starts (history (oneFailed ++ oneTurn)) [.atTime (millis 9000) (.dispatch 6)] = [0] ∧
    (starts (history (oneFailed ++ oneTurn)) [.atTime (millis 9000) (.dispatch 6)]).length ≤ 2 := by
  have hready := (turns_in_line allStarted 1).1 twoTurns rfl (by decide)
    (show 1 ∉ [2, 0] by decide)
  have hbefore : ∀ m ∈ oneTurn, ∀ epoch, m.event = .dispatch epoch →
      m.readings.deadline < 3 + millis 1000 :=
    List.forall_mem_cons.2 ⟨fun _ _ => by decide, List.forall_mem_cons.2 ⟨nofun, nofun⟩⟩
  have hwaits := (turns_in_line oneFailed 1).2 oneTurn [] (.atTime (millis 9000) (.dispatch 6))
    (3 + millis 1000) rfl (by decide) hbefore (by decide) (List.pairwise_singleton _ _)
    (show 1 ∉ [0] by decide)
  exact ⟨⟨rfl, hready.2.2.2.2⟩, hwaits.1, rfl, hwaits.2.1⟩

end Group

end TurnPool
