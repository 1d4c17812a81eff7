import TurnPool.Pool.Basic
import TurnPool.Proofs.CrewLives
import TurnPool.Proofs.GroupHistory

/-!
# A group and a scheduler of its own

Each task of a group could as well have a scheduler of its own. Take what a group goes through,
leave out what is not about one task, and tell the rest to a scheduler that has that task alone: the
two report the same, grow the same retry delay, and are in the same state at all times. But a group
ends the delays that are over whenever it renews its batch, whoever's run it claims, while a
scheduler of one task does so when the run begins. In between the group has the run queued without
delay and the other scheduler with one, and that is all there is of a difference.

## What is compared

There are four kinds of `TaskEvent`: something is asked of a task, a run of it begins, the outcome
of a run arrives, and a run panics. `Episode.turn?` says which of them, if any, an episode of the
group is for a task. A `Twin` is a group with a scheduler that is told the events of one of its
tasks, in the order in which they come, at a clock and a timetable of its own.

## Main results

* `Lifecycle.UpToRipening`: a lifecycle is another one, or what becomes of it when its delay is
  over.
* `TaskEvent.upToRipening_act`: so it is after the same `TaskEvent`.
* `Group.Keeps`: the names and the retry delays that an operation leaves alone.
* `after_of_turn?_eq_none`: what is no event of a task ends its delay or leaves it alone.
* `after_of_turn?`: what is an event of a task makes of it what the event says.
* `Solo.meet_eq`: it makes the same of a scheduler that has the task alone.
* `Twin.follows_single`: **a group is as many schedulers** as it has tasks.
-/

namespace TurnPool

/-! ### One lifecycle behind another -/

namespace Lifecycle

variable (bounds : BackoffConfig) {l s : Lifecycle}

/-- A lifecycle is another one, or what becomes of it when its delay is over. -/
def UpToRipening (l s : Lifecycle) : Prop := l = s ∨ l = s.ripen

/-- A request makes the same of a lifecycle whether its delay is over or not. -/
theorem request_ripen (what : Request) (l : Lifecycle) :
    (l.ripen.request bounds what).1 = (l.request bounds what).1 := by
  obtain ⟨s, b⟩ := l
  cases what <;> rcases s with _ | (_ | _) | _ | _ | _ <;> rfl

/-- `ripen` changes only a delayed run. -/
theorem ripen_of_ne {l : Lifecycle} (h : l.state ≠ .scheduled true) : l.ripen = l := by
  rcases l with ⟨_ | (_ | _) | _ | _ | _, b⟩ <;> first | rfl | exact absurd rfl h

/-- An outcome makes the same of a lifecycle whether its delay is over or not, up to the end of that
delay. -/
theorem deliver_ripen (o : Outcome) (l : Lifecycle) :
    UpToRipening (l.ripen.deliver bounds o).1.1 (l.deliver bounds o).1.1 := by
  rcases o.kinds with ho | ⟨more, rfl⟩ | ⟨e, he, rfl⟩
  · rw [deliver_of_halts bounds ho, deliver_of_halts bounds ho]
    exact Or.inl rfl
  · rw [deliver_success, deliver_success]
    rcases l with ⟨_ | (_ | _) | _ | _ | _, b⟩ <;> first | exact Or.inl rfl | exact Or.inr rfl
  · rw [deliver_failure bounds he, deliver_failure bounds he]
    rcases l with ⟨_ | (_ | _) | (_ | _) | _ | _, b⟩ <;> first | exact Or.inl rfl | exact Or.inr rfl

/-- The text of a fatal failure does not depend on the lifecycle. -/
theorem deliver_snd (o : Outcome) (l s : Lifecycle) :
    (l.deliver bounds o).2 = (s.deliver bounds o).2 := by
  cases o with
  | success more => rfl
  | failure e =>
    cases he : e.isFatal with
    | true => simp only [deliver, he, if_true]
    | false => simp only [deliver, he]; rfl
  | panicked => rfl

namespace UpToRipening

/-- A request keeps `UpToRipening`. -/
theorem request (h : l.UpToRipening s) (what : Request) :
    (l.request bounds what).1.UpToRipening (s.request bounds what).1 := by
  rcases h with rfl | rfl
  · exact Or.inl rfl
  · exact Or.inl (request_ripen bounds what s)

/-- An outcome keeps `UpToRipening`. -/
theorem deliver (h : l.UpToRipening s) (o : Outcome) :
    (l.deliver bounds o).1.1.UpToRipening (s.deliver bounds o).1.1 := by
  rcases h with rfl | rfl
  · exact Or.inl rfl
  · exact deliver_ripen bounds o s

/-- `ripen` on the left keeps `UpToRipening`. -/
theorem ripen (h : l.UpToRipening s) : l.ripen.UpToRipening s := by
  rcases h with rfl | rfl
  · exact Or.inr rfl
  · exact Or.inr ripen_ripen

/-- Up to ripening, a run is scheduled in both or in neither. -/
theorem isScheduled (h : l.UpToRipening s) : l.state.isScheduled = s.state.isScheduled := by
  rcases h with rfl | rfl
  · rfl
  · exact TaskState.isScheduled_ripen _

/-- Up to ripening, the backoffs are equal. -/
theorem backoff (h : l.UpToRipening s) : l.backoff = s.backoff := by
  rcases h with rfl | rfl <;> rfl

/-- Up to ripening, the states are equal, **or the run is delayed in `s` and not in `l`**. -/
theorem state (h : l.UpToRipening s) :
    l.state = s.state ∨ (s.state = .scheduled true ∧ l.state = .scheduled false) := by
  rcases h with rfl | rfl
  · exact Or.inl rfl
  · rcases s with ⟨_ | (_ | _) | _ | _ | _, b⟩ <;>
      first | exact Or.inl rfl | exact Or.inr ⟨rfl, rfl⟩

end UpToRipening

end Lifecycle

/-! ### What an operation of a group leaves alone -/

namespace Group

variable {Q ω : Type} [Timetable Q ω] {g g₁ g₂ : Group} {id i : Nat}

/-- What `f` tells of the members is the same in `g` and `g'`. -/
def Keeps {α : Type} (f : Member → α) (g g' : Group) : Prop :=
  ∀ i : Nat, g'.members[i]?.map f = g.members[i]?.map f

namespace Keeps

variable {α : Type} {f : Member → α}

/-- `Keeps` is reflexive. -/
theorem refl (g : Group) : Keeps f g g := fun _ => rfl

/-- `Keeps` is transitive. -/
theorem trans (h₁ : Keeps f g g₁) (h₂ : Keeps f g₁ g₂) : Keeps f g g₂ := fun i =>
  (h₂ i).trans (h₁ i)

/-- `modify id u` keeps `f` if `u` does. -/
theorem modify {u : Member → Member} (hu : ∀ m, f (u m) = f m) : Keeps f g (g.modify id u) :=
  fun i => by
    rw [getElem?_modify]
    split
    · rw [Option.map_map]
      exact congrArg (Option.map · _) (funext hu)
    · rfl

section Moves

variable (hdeadline : ∀ m d, f { m with deadline := d } = f m)
include hdeadline

/-- `unlink` keeps what does not depend on the deadline. -/
theorem unlink : Keeps f g (g.unlink id) := by
  rw [Group.unlink, unlinkDelayed]
  split
  · exact modify fun m => hdeadline m none
  · exact refl g

/-- `pushDelayed` keeps what does not depend on the deadline. -/
theorem pushDelayed (d : Nat) : Keeps f g (g.pushDelayed id d) := by
  rw [Group.pushDelayed]
  split
  · exact modify fun m => hdeadline m (some d)
  · exact refl g

/-- `relocate` keeps what does not depend on the deadline. -/
theorem relocate (now : Nat) (placement : Placement) : Keeps f g (g.relocate now id placement) := by
  cases placement with
  | unchanged => exact refl g
  | now => exact unlink hdeadline
  | after ms => exact (unlink hdeadline).trans (pushDelayed hdeadline _)
  | dropped => exact unlink hdeadline

variable (hstate : ∀ m s, f { m with life := { m.life with state := s } } = f m)
include hstate

/-- `ripen` keeps names and backoffs. -/
theorem ripen (now : Nat) (ks : List Delayed) (g : Group) : Keeps f g (Group.ripen now ks g) := by
  induction ks generalizing g with
  | nil => exact refl g
  | cons k ks ih =>
    rw [Group.ripen]
    split
    · exact refl g
    · have hhead : Keeps f g (g.modify k.task fun m =>
          { m with deadline := none, life := m.life.ripen }) :=
        modify fun m => (hdeadline { m with life := m.life.ripen } none).trans
          (hstate m m.life.state.ripen)
      exact hhead.trans (ih _)

omit hdeadline in
/-- `claimFirst` keeps names and backoffs. -/
theorem claimFirst (ids : List Nat) (g : Group) : Keeps f g (Group.claimFirst ids g).2 := by
  induction ids generalizing g with
  | nil => exact refl g
  | cons id ids ih =>
    rw [Group.claimFirst]
    split
    · rename_i l hl
      obtain ⟨m, hm, hl⟩ := Option.bind_eq_some_iff.1 hl
      obtain ⟨-, rfl⟩ := Lifecycle.claim_eq_some.1 hl
      intro i
      rw [getElem?_modify]
      split
      · rename_i heq
        subst heq
        change Option.map f (g.members[id]?.map _) = _
        rw [hm]
        exact congrArg some (hstate m (.inFlight false))
      · rfl
    · exact ih { g with cursor := g.cursor + 1 }

/-- `nextReady` keeps names and backoffs. -/
theorem nextReady (now : Nat) (g : Group) : Keeps f g (Group.nextReady now g).2 := by
  have hfirst := claimFirst hstate g.left g
  rw [Group.nextReady]
  generalize Group.claimFirst g.left g = r at hfirst
  obtain ⟨_ | id, g'⟩ := r
  · have hswap : Keeps f g (Group.ripen now g'.delayed g').swap :=
      hfirst.trans (ripen hdeadline hstate now g'.delayed g')
    exact hswap.trans (claimFirst hstate _ _)
  · exact hfirst

end Moves

/-- `rearm` keeps every member. -/
theorem rearm (opts : SchedulerOptions) (entry : Nat → ω) (r : Readings) (g : Group) (q : Q) :
    Keeps f g (Group.rearm opts entry r (g, q)).1 := by
  obtain ⟨_, _, heq⟩ := rearm_eq opts entry r g q
  rw [heq]
  exact refl g

/-- `enact` keeps names. -/
theorem enact (opts : SchedulerOptions) (entry : Nat → ω) (r : Readings)
    (change : Lifecycle × Placement) (g : Group) (q : Q) :
    Keeps Member.name g (Group.enact opts entry r id change (g, q)).1 := by
  have hmodify : Keeps Member.name g (g.modify id fun m => { m with life := change.1 }) :=
    modify fun _ => rfl
  exact (hmodify.trans (relocate (fun _ _ => rfl) r.deadline change.2)).trans
    (rearm opts entry r _ q)

/-- `dispatch` keeps names and backoffs. -/
theorem dispatch (opts : SchedulerOptions) (entry : Nat → ω) (r : Readings) (epoch : Nat)
    (g : Group) (q : Q) :
    Keeps (fun m => (m.name, m.life.backoff)) g (Group.dispatch opts entry r epoch (g, q)).2.1 := by
  rw [Group.dispatch]
  dsimp only
  split
  · have hclaim : Keeps (fun m : Member => (m.name, m.life.backoff)) g
        (Group.nextReady r.deadline { g with armed := none }).2 :=
      nextReady (fun _ _ => rfl) (fun _ _ => rfl) r.deadline { g with armed := none }
    exact hclaim.trans (rearm opts entry r _ q)
  · exact refl g

/-- What keeps names and backoffs keeps names. -/
theorem name {g' : Group} (h : Keeps (fun m => (m.name, m.life.backoff)) g g') :
    Keeps Member.name g g' := fun i => by
  have hi := congrArg (Option.map Prod.fst) (h i)
  rwa [Option.map_map, Option.map_map] at hi

/-- What keeps names and backoffs keeps the backoff of every task. -/
theorem backoff {g' : Group} (h : Keeps (fun m => (m.name, m.life.backoff)) g g') (i : Nat) :
    (g'.life i).backoff = (g.life i).backoff := by
  have hi := congrArg (Option.map Prod.snd) (h i)
  rw [Option.map_map, Option.map_map] at hi
  have hlife : ∀ g : Group, (g.life i).backoff =
      (g.members[i]?.map fun m => m.life.backoff).getD default := fun g => by
    rw [life]
    cases g.members[i]? <;> rfl
  rw [hlife, hlife]
  exact congrArg (Option.getD · default) hi

end Keeps

/-! ### The events of a task -/

/-- The name of task `id`, or the empty string. -/
def name (g : Group) (id : Nat) : String := (g.members[id]?.map Member.name).getD ""

/-- Something that happens to a group, or a panic of a run that it has begun. -/
inductive Episode (Q ω : Type) where
  /-- Something happens to the group. -/
  | moment (m : Moment Q ω)
  /-- A run of a task panics. -/
  | panic (id : Nat) (p : Panic)

/-- Something that happens to one task, with the bounds of its backoff. -/
inductive TaskEvent where
  /-- Something is asked of it. -/
  | asked (bounds : BackoffConfig) (what : Request)
  /-- A run of it begins. -/
  | begun
  /-- The outcome of a run of it arrives. -/
  | ended (bounds : BackoffConfig) (o : Outcome)
  /-- A run of it panics. -/
  | panicked (p : Panic)

namespace TaskEvent

/-- The lifecycle after the event. -/
def act (l : Lifecycle) : TaskEvent → Lifecycle
  | .asked bounds what => (l.request bounds what).1
  | .begun => { l with state := .inFlight false }
  | .ended bounds o => (l.deliver bounds o).1.1
  | .panicked _ => l

/-- What the event reports as fatal. -/
def fatal : TaskEvent → Option String
  | .ended bounds o => ((default : Lifecycle).deliver bounds o).2
  | .panicked p => some p.message
  | _ => none

/-- A run may begin just if one is scheduled; everything else may happen at any time. -/
def MayHappen (l : Lifecycle) (t : TaskEvent) : Prop := t = .begun → l.state.isScheduled = true

/-- The **same event** keeps `UpToRipening`. -/
theorem upToRipening_act {l s : Lifecycle} (h : l.UpToRipening s) (t : TaskEvent) :
    (t.act l).UpToRipening (t.act s) := by
  cases t with
  | asked bounds what => exact h.request bounds what
  | begun => exact Or.inl (congrArg (Lifecycle.mk _) h.backoff)
  | ended bounds o => exact h.deliver bounds o
  | panicked p => exact h

end TaskEvent

namespace Episode

/-- The group after the episode; a panic is caught outside of it. -/
def after (g : Group) : Episode Q ω → Group
  | .moment m => g.after m
  | .panic _ _ => g

/-- Whether a queue entry of the group arrives. -/
def isDispatch : Episode Q ω → Bool
  | .moment m =>
    match m.event with
    | .dispatch _ => true
    | _ => false
  | .panic _ _ => false

/-- The `TaskEvent` that the episode is for task `i`, if it is one. -/
def turn? (i : Nat) (g : Group) : Episode Q ω → Option TaskEvent
  | .moment m =>
    match m.event with
    | .register _ => none
    | .request id what =>
      if id = i ∧ i < g.members.size then some (.asked m.opts.backoff what) else none
    | .dispatch epoch =>
      if (Group.dispatch m.opts m.entry m.readings epoch (g, m.table)).1 = some i then some .begun
      else none
    | .deliver id o =>
      if id = i ∧ i < g.members.size then some (.ended m.opts.backoff o) else none
  | .panic id p => if id = i ∧ i < g.members.size then some (.panicked p) else none

/-- What the group reports as fatal of task `i`, and under which name. -/
def fatal? (i : Nat) (g : Group) : Episode Q ω → Option (String × String)
  | .moment m =>
    match m.event with
    | .deliver id o =>
      if id = i ∧ i < g.members.size then
        (Group.deliver m.opts m.entry m.readings i o (g, m.table)).2.map (g.name i, ·)
      else none
    | _ => none
  | .panic id p => if id = i ∧ i < g.members.size then some (g.name i, p.message) else none

end Episode

end Group

/-! ### A scheduler that has one task -/

namespace Single

variable {Q ω : Type} [Timetable Q ω]

/-- The readings and the table that a scheduler of one task finds when an event comes. -/
structure Occasion (Q ω : Type) where
  /-- The priority of its entries. -/
  priority : Priority
  /-- The work of an entry of an epoch. -/
  entry : Nat → ω
  /-- The clock. -/
  now : Nat
  /-- The timetable. -/
  table : Q

/-- A scheduler of one task, with what it has reported, and whether a run began that it would not
have accepted. -/
structure Solo where
  /-- The scheduler. -/
  single : Single
  /-- What it has reported as fatal, and under which name, oldest first. -/
  reports : List (String × String)
  /-- Whether a run was to begin and it did not accept that. -/
  refused : Bool

/-- The scheduler after an event of its task. A run begins when its entry arrives. -/
def Solo.meet (w : Solo) (o : Occasion Q ω) : Group.TaskEvent → Solo
  | .asked bounds what =>
    { w with
      single := (Single.request ⟨bounds, o.priority⟩ o.entry o.now what (w.single, o.table)).1 }
  | .begun =>
    let (accepted, single) := w.single.claim w.single.epoch
    { w with single, refused := w.refused || !accepted }
  | .ended bounds outcome =>
    let ((single, _), fatal) :=
      Single.deliver ⟨bounds, o.priority⟩ o.entry o.now outcome (w.single, o.table)
    { w with single, reports := w.reports ++ (fatal.map (w.single.name, ·)).toList }
  | .panicked p => { w with reports := w.reports ++ [(w.single.name, p.message)] }

/-- The scheduler has the name `name`, and an entry pending just while a run is scheduled. -/
structure Sound (name : String) (s : Single) : Prop where
  /-- The name. -/
  named : s.name = name
  /-- The entry. -/
  pending : s.pending.isSome = s.life.state.isScheduled

/-- `enact` keeps `Sound` if the new state agrees with the placement. -/
theorem Sound.enact {name : String} {s : Single} (h : s.Sound name)
    {change : Lifecycle × Placement}
    (hagree : change.1.state.queued? = change.2.queued? s.life.state.queued?)
    (opts : SchedulerOptions) (entry : Nat → ω) (now : Nat) (q : Q) :
    (Single.enact opts entry now change (s, q)).1.Sound name where
  named := by
    obtain ⟨l, placement⟩ := change
    cases placement <;> exact h.named
  pending := by
    rw [life_enact, Bool.eq_iff_iff, TaskState.isScheduled_iff, hagree]
    obtain ⟨l, placement⟩ := change
    cases placement with
    | unchanged =>
      rw [Placement.queued?, ← TaskState.isScheduled_iff, ← Bool.eq_iff_iff]
      exact h.pending
    | now => exact iff_of_true rfl rfl
    | after ms => exact iff_of_true rfl rfl
    | dropped => exact iff_of_false Bool.false_ne_true Bool.false_ne_true

/-- An event that `MayHappen` keeps the scheduler `Sound`, makes `t.act` of its lifecycle, reports
`t.fatal` under its name, and **is accepted**. -/
theorem Solo.meet_eq {name : String} {w : Solo} (h : w.single.Sound name) (o : Occasion Q ω)
    {t : Group.TaskEvent} (hfits : t.MayHappen w.single.life) :
    (w.meet o t).single.Sound name ∧ (w.meet o t).single.life = t.act w.single.life ∧
      (w.meet o t).refused = w.refused ∧
      (w.meet o t).reports = w.reports ++ (t.fatal.map (name, ·)).toList := by
  cases t with
  | asked bounds what =>
    exact ⟨h.enact (Lifecycle.queued?_request bounds what _) _ o.entry o.now o.table,
      life_enact .., rfl, (List.append_nil _).symm⟩
  | begun =>
    have hclaim := claim_epoch (hfits rfl)
    have hmeet : w.meet o .begun = { w with
        refused := w.refused || !true
        single := { w.single with
          pending := none, life := { w.single.life with state := .inFlight false } } } := by
      rw [meet, hclaim]
    rw [hmeet]
    exact ⟨⟨h.named, rfl⟩, rfl, Bool.or_false _, (List.append_nil _).symm⟩
  | ended bounds outcome =>
    refine ⟨h.enact (Lifecycle.queued?_deliver bounds outcome _) _ o.entry o.now o.table,
      life_enact .., rfl, congrArg (w.reports ++ Option.toList ·) ?_⟩
    rw [h.named]
    exact congrArg (Option.map _) (Lifecycle.deliver_snd bounds outcome _ _)
  | panicked p =>
    refine ⟨h, rfl, rfl, ?_⟩
    rw [meet, h.named]
    rfl

end Single

namespace Group

variable {Q ω Q' ω' : Type} [Timetable Q ω] [Timetable Q' ω'] {i : Nat} {name : String}

/-! ### The two of them -/

/-- A group, with what it has reported of one task, and a scheduler that has this task alone. -/
structure Twin where
  /-- The group. -/
  group : Group
  /-- What the group has reported of the task, oldest first. -/
  reports : List (String × String)
  /-- The scheduler of the task, with what it has reported. -/
  alone : Single.Solo

namespace Twin

/-- Both after an episode: the scheduler gets the `TaskEvent`s of task `i`. -/
def after (i : Nat) (t : Twin) (e : Episode Q ω × Single.Occasion Q' ω') : Twin :=
  { group := e.1.after t.group
    reports := t.reports ++ (e.1.fatal? i t.group).toList
    alone :=
      match e.1.turn? i t.group with
      | some turn => t.alone.meet e.2 turn
      | none => t.alone }

/-- Both after a list of episodes, from the empty group and a new scheduler. -/
def history (i : Nat) (name : String) (es : List (Episode Q ω × Single.Occasion Q' ω')) : Twin :=
  es.foldl (after i) ⟨.empty, [], ⟨.new name, [], false⟩⟩

end Twin

/-! ### One episode -/

/-- An episode that is **no `TaskEvent`** of `i` keeps its lifecycle, or is a dispatch that ends its
delay; and reports nothing of it. -/
theorem after_of_turn?_eq_none {g : Group} {e : Episode Q ω} (he : e.turn? i g = none) :
    ((e.after g).life i = g.life i ∨
      (e.isDispatch = true ∧ (g.life i).state = .scheduled true ∧
        (e.after g).life i = (g.life i).ripen)) ∧ e.fatal? i g = none := by
  cases e with
  | panic id p =>
    refine ⟨Or.inl rfl, ?_⟩
    rw [Episode.turn?] at he
    split at he
    · exact nomatch he
    · exact if_neg ‹_›
  | moment m =>
    obtain ⟨opts, entry, r, q, event⟩ := m
    cases event with
    | register name => exact ⟨Or.inl (congrFun (life_register name) i), rfl⟩
    | request id what =>
      refine ⟨Or.inl ?_, rfl⟩
      dsimp only [Episode.after, Group.after]
      split
      · rename_i hlt
        have hne : i ≠ id := fun heq => by
          subst heq
          exact nomatch he.symm.trans (if_pos ⟨rfl, hlt⟩)
        rw [Group.request, life_enact opts entry r hlt, Function.update_of_ne hne]
      · rfl
    | dispatch epoch =>
      refine ⟨?_, rfl⟩
      have hclaims := claimsRun_dispatch opts entry r epoch g q
      have hother : (Group.dispatch opts entry r epoch (g, q)).1 ≠ some i := fun heq =>
        nomatch he.symm.trans (if_pos heq)
      -- The entry has claimed a run of another task, or none, and may have renewed the batch for
      -- it.
      rcases hclaims.other i hother with heq | heq
      · exact Or.inl heq
      · rcases Decidable.em ((g.life i).state = .scheduled true) with hs | hs
        · exact Or.inr ⟨rfl, hs, heq⟩
        · exact Or.inl (heq.trans (Lifecycle.ripen_of_ne hs))
    | deliver id o =>
      by_cases hand : id = i ∧ i < g.members.size
      · exact nomatch he.symm.trans (if_pos hand)
      · refine ⟨Or.inl ?_, if_neg hand⟩
        dsimp only [Episode.after, Group.after]
        split
        · rename_i hlt
          have hne : i ≠ id := fun heq => hand ⟨heq.symm, heq ▸ hlt⟩
          rw [Group.deliver]
          exact congrFun (life_enact opts entry r hlt _ q) i |>.trans (Function.update_of_ne hne ..)
        · rfl

/-- An episode that **is `t`** for task `i` may happen to it, makes `t.act` of its lifecycle and
reports `t.fatal` under its name. -/
theorem after_of_turn? {g : Group} {e : Episode Q ω} {t : TaskEvent} (he : e.turn? i g = some t) :
    i < g.members.size ∧ t.MayHappen (g.life i) ∧ (e.after g).life i = t.act (g.life i) ∧
      e.fatal? i g = t.fatal.map (g.name i, ·) := by
  cases e with
  | panic id p =>
    rw [Episode.turn?, Option.ite_none_right_eq_some] at he
    obtain ⟨hand, ⟨⟩⟩ := he
    exact ⟨hand.2, nofun, rfl, if_pos hand⟩
  | moment m =>
    obtain ⟨opts, entry, r, q, event⟩ := m
    cases event with
    | register name => exact nomatch he
    | request id what =>
      obtain ⟨⟨rfl, hlt⟩, ⟨⟩⟩ := Option.ite_none_right_eq_some.1 he
      refine ⟨hlt, nofun, ?_, rfl⟩
      dsimp only [Episode.after, Group.after]
      rw [if_pos hlt, Group.request, life_enact opts entry r hlt, Function.update_self]
      rfl
    | dispatch epoch =>
      obtain ⟨hclaimed, ⟨⟩⟩ := Option.ite_none_right_eq_some.1 he
      obtain ⟨hs, hstate⟩ := (claimsRun_dispatch opts entry r epoch g q).begun i hclaimed
      have hbackoff := (Keeps.dispatch opts entry r epoch g q).backoff i
      have hlt : i < g.members.size := lt_size_of_life_ne fun hnew => by
        rw [hnew] at hs
        cases hs
      exact ⟨hlt, fun _ => hs, congrArg₂ Lifecycle.mk hstate hbackoff, rfl⟩
    | deliver id o =>
      obtain ⟨⟨rfl, hlt⟩, ⟨⟩⟩ := Option.ite_none_right_eq_some.1 he
      refine ⟨hlt, nofun, ?_, ?_⟩
      · dsimp only [Episode.after, Group.after]
        rw [if_pos hlt, Group.deliver]
        exact (congrFun (life_enact opts entry r hlt _ q) id).trans (Function.update_self ..)
      · refine (if_pos ⟨rfl, hlt⟩).trans (congrArg (Option.map _) ?_)
        exact Lifecycle.deliver_snd opts.backoff o _ _

/-- Every episode keeps the name of a member. -/
theorem name_after {g : Group} (e : Episode Q ω) {m : Member} (hm : g.members[i]? = some m) :
    ∃ m', (e.after g).members[i]? = some m' ∧ m'.name = m.name := by
  have hkeeps : ∀ {g' : Group}, Keeps Member.name g g' →
      ∃ m', g'.members[i]? = some m' ∧ m'.name = m.name := fun h => by
    have hi := h i
    rw [hm, Option.map_some, Option.map_eq_some_iff] at hi
    exact hi
  cases e with
  | panic id p => exact ⟨m, hm, rfl⟩
  | moment mo =>
    obtain ⟨opts, entry, r, q, event⟩ := mo
    cases event with
    | register name =>
      refine ⟨m, ?_, rfl⟩
      have hlt : i < g.members.size := (Array.getElem?_eq_some_iff.1 hm).1
      exact (Array.getElem?_push_lt hlt).trans ((Array.getElem?_eq_getElem hlt).symm.trans hm)
    | request id what =>
      dsimp only [Episode.after, Group.after]
      split
      · exact hkeeps (Keeps.enact opts entry r _ g q)
      · exact hkeeps (Keeps.refl g)
    | dispatch epoch => exact hkeeps (Keeps.dispatch opts entry r epoch g q).name
    | deliver id o =>
      dsimp only [Episode.after, Group.after]
      split
      · exact hkeeps (Keeps.enact opts entry r _ g q)
      · exact hkeeps (Keeps.refl g)

/-! ### All episodes -/

/-- How the two stand to each other: the group is tidy, task `i` is `UpToRipening` the scheduler's,
every event was accepted, and the reports are the same if the task has the scheduler's name. -/
structure Twin.Mirrors (i : Nat) (name : String) (t : Twin) : Prop where
  /-- Every task of the group stands where its state says. -/
  tidy : t.group.Tidy
  /-- The task of the group is behind the one that is alone. -/
  life : (t.group.life i).UpToRipening t.alone.single.life
  /-- The scheduler of the latter is sound. -/
  sound : t.alone.single.Sound name
  /-- It has accepted every run that was to begin. -/
  accepted : t.alone.refused = false
  /-- If the task of the group has the name of the other one, if any, they have reported the
  same. -/
  reports : (∀ m, t.group.members[i]? = some m → m.name = name) → t.reports = t.alone.reports

/-- Every episode keeps `Mirrors`. -/
theorem Twin.Mirrors.after {t : Twin} (h : t.Mirrors i name)
    (e : Episode Q ω × Single.Occasion Q' ω') : (t.after i e).Mirrors i name := by
  obtain ⟨e, o⟩ := e
  have htidy : (e.after t.group).Tidy := by
    cases e with
    | moment m => exact h.tidy.after m
    | panic id p => exact h.tidy
  -- The task may come under its name later, but a name that it has now is one that it keeps.
  have hname : (∀ m, (e.after t.group).members[i]? = some m → m.name = name) →
      ∀ m, t.group.members[i]? = some m → m.name = name := fun hafter m hm => by
    obtain ⟨m', hm', heq⟩ := name_after e hm
    exact heq.symm.trans (hafter m' hm')
  cases hturn : e.turn? i t.group with
  | none =>
    obtain ⟨hlife, hfatal⟩ := after_of_turn?_eq_none hturn
    have halone : (t.after i (e, o)).alone = t.alone := by simp only [Twin.after, hturn]
    exact {
      tidy := htidy
      life := by
        rw [halone]
        rcases hlife with heq | ⟨-, -, heq⟩
        · exact heq.symm ▸ h.life
        · exact heq.symm ▸ h.life.ripen
      sound := halone ▸ h.sound
      accepted := halone ▸ h.accepted
      reports := fun hafter => by
        rw [halone, Twin.after, hfatal]
        exact (List.append_nil _).trans (h.reports (hname hafter)) }
  | some turn =>
    obtain ⟨hlt, hfits, hlife, hfatal⟩ := after_of_turn? hturn
    have hfits' : turn.MayHappen t.alone.single.life := fun hbegun =>
      h.life.isScheduled.symm.trans (hfits hbegun)
    obtain ⟨hsound, hact, hrefused, hreports⟩ := Single.Solo.meet_eq h.sound o hfits'
    have halone : (t.after i (e, o)).alone = t.alone.meet o turn := by
      simp only [Twin.after, hturn]
    exact {
      tidy := htidy
      life := by
        rw [halone, hact]
        exact hlife.symm ▸ TaskEvent.upToRipening_act h.life turn
      sound := halone ▸ hsound
      accepted := halone ▸ hrefused.trans h.accepted
      reports := fun hafter => by
        obtain ⟨m, hm, -⟩ := exists_member hlt
        have hnamed : t.group.name i = name := by
          rw [Group.name, hm]
          exact hname hafter m hm
        rw [halone, hreports, Twin.after, hfatal, h.reports (hname hafter), hnamed] }

/-- `Mirrors` holds after any list of episodes. -/
theorem Twin.mirrors_history (i : Nat) (name : String)
    (es : List (Episode Q ω × Single.Occasion Q' ω')) : (history i name es).Mirrors i name :=
  List.foldlRecOn es (Twin.after i)
    { tidy := Tidy.empty
      life := Or.inl rfl
      sound := ⟨rfl, rfl⟩
      accepted := rfl
      reports := fun _ => rfl }
    fun _ h e _ => h.after e

/-- **A group is as many schedulers as it has tasks.** After any episodes, compare task `i` of the
group with a `Single` of its name that was told the `TaskEvent`s of the task, in their order.

* It has accepted every one, and has an entry pending just while a run is scheduled.
* The backoffs are equal, and so are the states, but that the task may be `scheduled false` in the
  group, and is not delayed there any more, while it is `scheduled true` in the `Single`.
* The same was reported as fatal, under the same name.
* An episode that is no `TaskEvent` of the task keeps its lifecycle; or it is a dispatch, and ends
  the delay of the task. -/
theorem Twin.follows_single (i : Nat) (name : String)
    (es : List (Episode Q ω × Single.Occasion Q' ω'))
    (hname : (history i name es).group.members[i]?.map Member.name = some name) :
    let t := history i name es
    let l := t.group.life i
    let s := t.alone.single
    (t.alone.refused = false ∧ s.pending.isSome = s.life.state.isScheduled) ∧
    l.backoff = s.life.backoff ∧
    (l.state = s.life.state ∨
      (s.life.state = .scheduled true ∧ l.state = .scheduled false ∧
        i ∉ t.group.delayed.map Delayed.task)) ∧
    t.reports = t.alone.reports ∧
    ∀ e : Episode Q ω, e.turn? i t.group = none →
      (e.after t.group).life i = l ∨
        (e.isDispatch = true ∧ l.state = .scheduled true ∧
          (e.after t.group).life i = { l with state := .scheduled false }) := by
  intro t l s
  have h : t.Mirrors i name := mirrors_history i name es
  refine ⟨⟨h.accepted, h.sound.pending⟩, h.life.backoff, ?_, h.reports fun m hm => ?_,
    fun e he => ?_⟩
  · refine h.life.state.imp_right fun ⟨hs, hl⟩ => ⟨hs, hl, fun hwaits => ?_⟩
    have hspot := h.tidy.mem_waiting.1 hwaits
    rw [TaskState.queued?_eq_some.2 hl] at hspot
    cases hspot
  · rw [hm] at hname
    exact Option.some.inj hname
  · refine (after_of_turn?_eq_none he).1.imp_right fun ⟨hdispatch, hl, heq⟩ =>
      ⟨hdispatch, hl, heq.trans ?_⟩
    rw [Lifecycle.ripen, hl]
    rfl

/-- Something happens at an instant, to both of them. -/
def Episode.atTime (now : Nat) (event : GroupEvent) :
    Episode (Agenda Unit) Unit × Single.Occasion (Agenda Unit) Unit :=
  (.moment ⟨default, fun _ => (), ⟨now, now, now⟩, .empty, event⟩,
    ⟨.normal, fun _ => (), now, .empty⟩)

/-- Two tasks fail, the second one after a panic as well. When their delays are over, the entry that
arrives begins a run of the first one. -/
def bothRetried : List (Episode (Agenda Unit) Unit × Single.Occasion (Agenda Unit) Unit) :=
  [Episode.atTime 0 (.register "first"), Episode.atTime 0 (.register "second"),
    Episode.atTime 0 (.request 0 .start), Episode.atTime 0 (.request 1 .start),
    Episode.atTime 1 (.dispatch 1), Episode.atTime 2 (.dispatch 2),
    Episode.atTime 3 (.deliver 0 .dropped),
    (.panic 1 (.text "late"), ⟨.normal, fun _ => (), 4, .empty⟩),
    Episode.atTime 4 (.deliver 1 .dropped), Episode.atTime (millis 9000) (.dispatch 3)]

/-- Task 1 of the group is scheduled without delay and the scheduler that has it alone still with
it; both have reported the panic. -/
theorem Twin.follows_single_promoted :
    ((history 1 "second" bothRetried).group.life 1).state = .scheduled false ∧
      (history 1 "second" bothRetried).alone.single.life.state = .scheduled true ∧
      (history 1 "second" bothRetried).reports = [("second", "late")] ∧
      (history 1 "second" bothRetried).reports =
        (history 1 "second" bothRetried).alone.reports ∧
      ((history 1 "second" bothRetried).group.life 1).backoff =
        (history 1 "second" bothRetried).alone.single.life.backoff :=
  have h := follows_single 1 "second" bothRetried rfl
  ⟨rfl, rfl, rfl, h.2.2.2.1, h.2.1⟩

end Group

end TurnPool
