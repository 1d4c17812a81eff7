import TurnPool.Proofs.CrewEntries
import TurnPool.Proofs.Dockets
import TurnPool.Proofs.GroupMirror
import TurnPool.Proofs.Stops

/-!
# A crew at a timetable without a record

That the entries of a crew are in order is told with a record of its timetable, and with the handles
of the entries in transit. Nothing reads either, so the same is told here of the timetable alone and
of the errands that are on their way (`Crew.EntriesInOrder`): some record agrees with it.

What comes of it when an outcome halts a task: the task is stopped and nothing is queued for it, and
all other tasks are where they were.

## Main results

* `Crew.EntriesInOrder.request`, `deliver`, `arrive`, `takesOut`, `keepsMine`: the entries stay in
  order.
* `Crew.EntriesInOrder.halted`: what an outcome does that halts a task.
* `Crew.name_deliver` and others: a task keeps its name.
-/

namespace TurnPool

open LawfulTimetable Recorded

variable {Q ω : Type} [Timetable Q ω]

/-! ### Forgetting the record -/

/-- The result with the table alone, without the record of what was made. -/
def forget {α : Type} (p : α × Recorded Q ω) : α × Q := (p.1, p.2.table)

namespace Single

/-- `Single.disarm` does not look at the record. -/
theorem disarm_forget (p : Single × Recorded Q ω) : disarm (forget p) = forget (disarm p) := by
  obtain ⟨s, t⟩ := p
  cases hp : s.pending with
  | none => simp only [disarm, forget, hp]
  | some h =>
    simp only [disarm, forget, hp]
    rfl

/-- `Single.arm` does not look at the record. -/
theorem arm_forget (opts : SchedulerOptions) (entry : Nat → ω) (now delay : Nat)
    (p : Single × Recorded Q ω) :
    arm opts entry now delay (forget p) = forget (arm opts entry now delay p) := by
  rw [arm, disarm_forget]
  rfl

/-- `Single.place` does not look at the record. -/
theorem place_forget (opts : SchedulerOptions) (entry : Nat → ω) (now : Nat) (placement : Placement)
    (p : Single × Recorded Q ω) :
    place opts entry now placement (forget p) = forget (place opts entry now placement p) := by
  cases placement with
  | unchanged => rfl
  | now => exact arm_forget opts entry now 0 p
  | after ms => exact arm_forget opts entry now (millis ms) p
  | dropped => exact disarm_forget p

/-- `Single.enact` does not look at the record. -/
theorem enact_forget (opts : SchedulerOptions) (entry : Nat → ω) (now : Nat)
    (change : Lifecycle × Placement) (p : Single × Recorded Q ω) :
    enact opts entry now change (forget p) = forget (enact opts entry now change p) :=
  place_forget opts entry now change.2 ({ p.1 with life := change.1 }, p.2)

end Single

namespace Group

/-- `Group.disarm` does not look at the record. -/
theorem disarm_forget (p : Group × Recorded Q ω) : disarm (forget p) = forget (disarm p) := by
  obtain ⟨g, t⟩ := p
  cases hp : g.armed with
  | none => simp only [disarm, forget, hp]
  | some a =>
    simp only [disarm, forget, hp]
    rfl

/-- `Group.rearm` does not look at the record. -/
theorem rearm_forget (opts : SchedulerOptions) (entry : Nat → ω) (r : Readings)
    (p : Group × Recorded Q ω) :
    rearm opts entry r (forget p) = forget (rearm opts entry r p) := by
  rw [rearm, rearm, disarm_forget]
  have hfst : (forget p).1 = p.1 := rfl
  rw [hfst]
  split
  · rfl
  · split <;> rfl

/-- `Group.enact` does not look at the record. -/
theorem enact_forget (opts : SchedulerOptions) (entry : Nat → ω) (r : Readings) (id : Nat)
    (change : Lifecycle × Placement) (p : Group × Recorded Q ω) :
    enact opts entry r id change (forget p) = forget (enact opts entry r id change p) :=
  rearm_forget opts entry r
    ((p.1.modify id fun m => { m with life := change.1 }).relocate r.deadline id change.2, p.2)

/-- `Group.dispatch` does not look at the record. -/
theorem dispatch_forget (opts : SchedulerOptions) (entry : Nat → ω) (r : Readings) (epoch : Nat)
    (p : Group × Recorded Q ω) :
    dispatch opts entry r epoch (forget p) =
      ((dispatch opts entry r epoch p).1, forget (dispatch opts entry r epoch p).2) := by
  obtain ⟨g, t⟩ := p
  have hopen : ∀ {Q' : Type} [Timetable Q' ω] (q : Q'), dispatch opts entry r epoch (g, q) =
      if g.armed.map Armed.epoch = some epoch then
        ((nextReady r.deadline { g with armed := none }).1,
          rearm opts entry r ((nextReady r.deadline { g with armed := none }).2, q))
      else (none, g, q) := fun _ => rfl
  rw [show forget (g, t) = (g, t.table) from rfl, hopen, hopen]
  split
  · have h := rearm_forget opts entry r ((nextReady r.deadline { g with armed := none }).2, t)
    exact congrArg (Prod.mk _) h
  · rfl

/-- `unlink id` takes `id` out of each collection and leaves the others **in their order**. -/
theorem Placed.places_unlink {g : Group} {spot : Nat → Option Bool} (h : g.Placed spot) (id : Nat) :
    (g.unlink id).left = g.left.filter (· ≠ id) ∧
      (g.unlink id).scheduled = g.scheduled.filter (· ≠ id) ∧
      (g.unlink id).delayed = g.delayed.filter (·.task ≠ id) := by
  have hleft : g.left.erase id = g.left.filter (· ≠ id) := by
    rw [(List.nodup_append.1 h.nodup_ready).1.erase_eq_filter]
    exact List.filter_congr fun i _ => Bool.eq_iff_iff.2 (bne_iff_ne.trans decide_eq_true_iff.symm)
  rw [Group.unlink]
  cases hk : g.key? id with
  | none =>
    have hsame : g.unlinkDelayed id = g := by
      rw [Group.unlinkDelayed, hk]
    rw [hsame]
    refine ⟨(Placed.left_unlinkReady h.cursor_le).trans hleft, rfl, ?_⟩
    refine (List.filter_eq_self.2 fun k hmem => ?_).symm
    rw [decide_eq_true_eq]
    intro heq
    have hkey := (h.mem_delayed k).1 hmem
    rw [heq, hk] at hkey
    cases hkey
  | some k =>
    have hid : k.task = id := task_of_key? hk
    have hopen : g.unlinkDelayed id =
        { g.modify id fun m => { m with deadline := none } with delayed := g.delayed.erase k } := by
      rw [Group.unlinkDelayed, hk]
    rw [hopen]
    refine ⟨(Placed.left_unlinkReady h.cursor_le).trans hleft, rfl, ?_⟩
    show g.delayed.erase k = _
    rw [(List.Nodup.of_map _ h.nodup_delayed).erase_eq_filter]
    refine List.filter_congr fun m hmem => Bool.eq_iff_iff.2 (bne_iff_ne.trans ?_)
    rw [decide_eq_true_eq]
    refine not_congr ⟨fun heq => heq ▸ hid, fun heq => ?_⟩
    exact List.inj_on_of_nodup_map h.nodup_delayed hmem
      ((h.mem_delayed k).2 (hid.symm ▸ hk)) (heq.trans hid.symm)

end Group

namespace Crew

variable (opts : SchedulerOptions) (job : Errand → ω) (r : Readings)

/-- `Crew.request` does not look at the record. -/
theorem request_forget (what : Request) (task : Nat) (p : Crew × Recorded Q ω) :
    request opts job r what task (forget p) = forget (request opts job r what task p) := by
  obtain ⟨crew, t⟩ := p
  cases crew with
  | apart tasks =>
    cases hs : tasks[task]? with
    | none => simp only [request, onSingle, hs, forget]
    | some s =>
      have h := Single.enact_forget opts (fun n => job (.run task n)) r.entry
        (s.life.request opts.backoff what) (s, t)
      rw [show forget (Crew.apart tasks, t) = (Crew.apart tasks, t.table) from rfl,
        request_apart opts job r hs, request_apart opts job r hs]
      exact congrArg (fun x : Single × Q => (Crew.apart (tasks.setIfInBounds task x.1), x.2)) h
  | together g =>
    have h := Group.enact_forget opts (fun n => job (.dispatch n)) r task
      ((g.life task).request opts.backoff what) (g, t)
    exact congrArg (fun x : Group × Q => (Crew.together x.1, x.2)) h

/-- `Crew.deliver` does not look at the record. -/
theorem deliver_forget (task : Nat) (o : Outcome) (p : Crew × Recorded Q ω) :
    deliver opts job r task o (forget p) =
      ((deliver opts job r task o p).1, forget (deliver opts job r task o p).2) := by
  obtain ⟨crew, t⟩ := p
  cases crew with
  | apart tasks =>
    cases hs : tasks[task]? with
    | none => simp only [deliver, onSingle, hs, forget]
    | some s =>
      have h := Single.enact_forget opts (fun n => job (.run task n)) r.entry
        (s.life.deliver opts.backoff o).1 (s, t)
      have hopen : ∀ {Q' : Type} [Timetable Q' ω] (q : Q'),
          deliver opts job r task o (Crew.apart tasks, q) =
            ((s.life.deliver opts.backoff o).2,
              Crew.apart (tasks.setIfInBounds task (Single.enact opts (fun n => job (.run task n))
                r.entry (s.life.deliver opts.backoff o).1 (s, q)).1),
              (Single.enact opts (fun n => job (.run task n)) r.entry
                (s.life.deliver opts.backoff o).1 (s, q)).2) := fun q => by
        simp only [deliver, onSingle_of_some hs]
        rfl
      rw [show forget (Crew.apart tasks, t) = (Crew.apart tasks, t.table) from rfl, hopen, hopen]
      exact congrArg (fun x : Single × Q => ((s.life.deliver opts.backoff o).2,
        Crew.apart (tasks.setIfInBounds task x.1), x.2)) h
  | together g =>
    have h := Group.enact_forget opts (fun n => job (.dispatch n)) r task
      ((g.life task).deliver opts.backoff o).1 (g, t)
    exact congrArg (fun x : Group × Q =>
      (((g.life task).deliver opts.backoff o).2, Crew.together x.1, x.2)) h

/-- `Crew.arrive` does not look at the record. -/
theorem arrive_forget (e : Errand) (p : Crew × Recorded Q ω) :
    arrive opts job r e (forget p) =
      ((arrive opts job r e p).1, forget (arrive opts job r e p).2) := by
  obtain ⟨crew, t⟩ := p
  match e, crew with
  | .run task epoch, .apart tasks =>
    cases hs : tasks[task]? with
    | none => simp only [arrive, onSingle, hs, forget]
    | some s =>
      rw [show forget (Crew.apart tasks, t) = (Crew.apart tasks, t.table) from rfl,
        arrive_run opts job r hs, arrive_run opts job r hs]
      rfl
  | .dispatch epoch, .together g =>
    have h := Group.dispatch_forget opts (fun n => job (.dispatch n)) r epoch (g, t)
    exact congrArg (fun x : Option Nat × (Group × Q) => (x.1, Crew.together x.2.1, x.2.2)) h
  | .run task epoch, .together g => rfl
  | .dispatch epoch, .apart tasks => rfl

/-- What `deliver` answers is the text of a fatal outcome. -/
theorem deliver_fst {task : Nat} (o : Outcome) {p : Crew × Q} (hlt : task < p.1.size) :
    (deliver opts job r task o p).1 = o.fatal? := by
  obtain ⟨crew, q⟩ := p
  cases crew with
  | apart tasks =>
    obtain ⟨s, hs⟩ := exists_single hlt
    simp only [deliver, onSingle_of_some hs]
    exact Lifecycle.deliver_snd_eq opts.backoff o s.life
  | together g => exact Lifecycle.deliver_snd_eq opts.backoff o (g.life task)

/-! ### Names -/

/-- `Single.enact` keeps the name. -/
theorem name_enact (entry : Nat → ω) (now : Nat) (change : Lifecycle × Placement)
    (p : Single × Q) : (Single.enact opts entry now change p).1.name = p.1.name := by
  obtain ⟨l, placement⟩ := change
  cases placement <;> rfl

/-- A scheduler in the place of one of the same name changes no name. -/
theorem name_set {tasks : Array Single} {task : Nat} {s s' : Single} (hs : tasks[task]? = some s)
    (hname : s'.name = s.name) (i : Nat) :
    (apart (tasks.setIfInBounds task s')).name i = (apart tasks).name i := by
  rw [name, name, Array.getElem?_setIfInBounds]
  split
  · rename_i heq
    subst heq
    rw [if_pos (Array.getElem?_eq_some_iff.1 hs).1, hs]
    exact hname
  · rfl

/-- A group that keeps the names of its members keeps those of the crew. -/
theorem name_keeps {g g' : Group} (h : Group.Keeps Member.name g g') (i : Nat) :
    (together g').name i = (together g).name i :=
  congrArg (Option.getD · "") (h i)

/-- `request` keeps **every name**. -/
theorem name_request (what : Request) (task : Nat) (p : Crew × Q) (i : Nat) :
    (request opts job r what task p).1.name i = p.1.name i := by
  obtain ⟨crew, q⟩ := p
  cases crew with
  | apart tasks =>
    cases hs : tasks[task]? with
    | none => simp only [request, onSingle, hs]
    | some s =>
      rw [request_apart opts job r hs]
      exact name_set hs (name_enact opts _ r.entry _ (s, q)) i
  | together g => exact name_keeps (.enact opts _ r _ g q) i

/-- `deliver` keeps every name. -/
theorem name_deliver (task : Nat) (o : Outcome) (p : Crew × Q) (i : Nat) :
    (deliver opts job r task o p).2.1.name i = p.1.name i := by
  obtain ⟨crew, q⟩ := p
  cases crew with
  | apart tasks =>
    cases hs : tasks[task]? with
    | none => simp only [deliver, onSingle, hs]
    | some s =>
      rw [deliver_apart opts job r hs]
      exact name_set hs (name_enact opts _ r.entry _ (s, q)) i
  | together g => exact name_keeps (.enact opts _ r _ g q) i

/-- `arrive` keeps every name. -/
theorem name_arrive (e : Errand) (p : Crew × Q) (i : Nat) :
    (arrive opts job r e p).2.1.name i = p.1.name i := by
  obtain ⟨crew, q⟩ := p
  match e, crew with
  | .run task epoch, .apart tasks =>
    cases hs : tasks[task]? with
    | none => simp only [arrive, onSingle, hs]
    | some s =>
      rw [arrive_run opts job r hs]
      refine name_set hs ?_ i
      rw [Single.claim]
      split
      · cases s.life.claim <;> rfl
      · rfl
  | .dispatch epoch, .together g =>
    exact name_keeps (Group.Keeps.dispatch opts _ r epoch g q).name i
  | .run task epoch, .together g => rfl
  | .dispatch epoch, .apart tasks => rfl

/-- `register` keeps the names of those that have joined. -/
theorem name_register (name : String) {crew : Crew} {i : Nat} (hlt : i < crew.size) :
    (crew.register name).name i = crew.name i := by
  cases crew with
  | apart tasks =>
    have hne : i ≠ tasks.size := Nat.ne_of_lt hlt
    rw [register, Crew.name, Crew.name, Array.getElem?_push, if_neg hne]
  | together g =>
    have hne : i ≠ g.members.size := Nat.ne_of_lt hlt
    rw [register, Crew.name, Crew.name, Group.register, Array.getElem?_push, if_neg hne]

/-! ### The entries of a crew, without a record -/

variable [LawfulTimetable Q ω] {c : Coding ω} {crew : Crew} {table table' : Q} {es : List Errand}
  {task : Nat}

/-- The **entries** of a crew are in order, with the errands `es` on their way: for some record and
some transit with these errands, `EntriesSettled` holds. -/
def EntriesInOrder (c : Coding ω) (crew : Crew) (table : Q) (es : List Errand) : Prop :=
  ∃ (made : List (Made ω)) (calledOff : List Nat) (tr : List (Nat × Errand)),
    crew.EntriesSettled c ⟨table, made, calledOff⟩ tr ∧ es.Perm (tr.map Prod.snd)

namespace EntriesInOrder

/-- Settled entries are in order, with the errands that are in transit. -/
theorem of_entriesSettled {t : Recorded Q ω}
    {tr : List (Nat × Errand)} (h : crew.EntriesSettled c t tr)
    (hes : es.Perm (tr.map Prod.snd)) : EntriesInOrder c crew t.table es :=
  ⟨t.made, t.calledOff, tr, h, hes⟩

/-- If the entries are in order the table is sound. -/
theorem sound (h : EntriesInOrder c crew table es) : Sound table := by
  obtain ⟨made, calledOff, tr, h, -⟩ := h
  exact h.accurate.sound

/-- `EntriesInOrder` does not depend on the order of `es`. -/
theorem perm {es' : List Errand} (h : EntriesInOrder c crew table es) (hes : es'.Perm es) :
    EntriesInOrder c crew table es' := by
  obtain ⟨made, calledOff, tr, h, htr⟩ := h
  exact ⟨made, calledOff, tr, h, hes.trans htr⟩

/-- The entries of a crew without tasks are in order, if the table has none of its own. -/
theorem empty (grouped : Bool) (sound : Sound table)
    (theirs : ∀ s ∈ slips table, ¬ c.IsMine s.work) :
    EntriesInOrder c (Crew.empty grouped) table [] := by
  obtain ⟨hkept, hno⟩ := World.accurate_new sound theirs
  exact ⟨[], [], [], .empty grouped hkept hno, .refl _⟩

/-- `register` keeps the entries in order. -/
theorem register (h : EntriesInOrder c crew table es) (name : String) :
    EntriesInOrder c (crew.register name) table es := by
  obtain ⟨made, calledOff, tr, h, hes⟩ := h
  exact ⟨made, calledOff, tr, h.register name, hes⟩

/-- `request` keeps the entries in order. -/
theorem request (h : EntriesInOrder c crew table es) (hlt : task < crew.size)
    (opts : SchedulerOptions)
    (r : Readings) (what : Request) :
    EntriesInOrder c (Crew.request opts c.job r what task (crew, table)).1
      (Crew.request opts c.job r what task (crew, table)).2 es := by
  obtain ⟨made, calledOff, tr, h, hes⟩ := h
  have hforget := request_forget opts c.job r what task
    (crew, (⟨table, made, calledOff⟩ : Recorded Q ω))
  rw [show (crew, table) = forget (crew, (⟨table, made, calledOff⟩ : Recorded Q ω)) from rfl,
    hforget]
  exact of_entriesSettled (h.request hlt opts r what) hes

/-- `deliver` keeps the entries in order. -/
theorem deliver (h : EntriesInOrder c crew table es) (hlt : task < crew.size)
    (opts : SchedulerOptions)
    (r : Readings) (o : Outcome) :
    EntriesInOrder c (Crew.deliver opts c.job r task o (crew, table)).2.1
      (Crew.deliver opts c.job r task o (crew, table)).2.2 es := by
  obtain ⟨made, calledOff, tr, h, hes⟩ := h
  have hforget := deliver_forget opts c.job r task o
    (crew, (⟨table, made, calledOff⟩ : Recorded Q ω))
  rw [show (crew, table) = forget (crew, (⟨table, made, calledOff⟩ : Recorded Q ω)) from rfl,
    hforget]
  exact of_entriesSettled (h.deliver hlt opts r o) hes

/-- An errand of `es` that **arrives** keeps the entries in order without it. -/
theorem arrive (h : EntriesInOrder c crew table es) {e : Errand} (he : e ∈ es)
    (opts : SchedulerOptions)
    (r : Readings) :
    EntriesInOrder c (Crew.arrive opts c.job r e (crew, table)).2.1
      (Crew.arrive opts c.job r e (crew, table)).2.2 (es.erase e) := by
  obtain ⟨made, calledOff, tr, h, hes⟩ := h
  obtain ⟨⟨k, e'⟩, htr, heq⟩ := List.mem_map.1 (hes.subset he)
  obtain rfl : e' = e := heq
  have hforget := arrive_forget opts c.job r e'
    (crew, (⟨table, made, calledOff⟩ : Recorded Q ω))
  rw [show (crew, table) = forget (crew, (⟨table, made, calledOff⟩ : Recorded Q ω)) from rfl,
    hforget]
  refine of_entriesSettled (h.arrive htr opts r) ?_
  have hsplit : (tr.map Prod.snd).Perm (e' :: (tr.erase (k, e')).map Prod.snd) :=
    (List.perm_cons_erase htr).map Prod.snd
  have hcons := (hes.trans hsplit).erase e'
  rwa [List.erase_cons_head] at hcons

/-- An entry that is **taken out** keeps the entries in order, with its errand on the way if it is
the crew's. -/
theorem takesOut {s : Slip ω} (h : EntriesInOrder c crew table es)
    (htaken : TakesOut s table table') :
    EntriesInOrder c crew table' ((c.errand? s.work).toList ++ es) := by
  obtain ⟨made, calledOff, tr, h, hes⟩ := h
  have hkept : Accurate c (⟨table, made, calledOff⟩ : Recorded Q ω) tr := h.accurate
  refine ⟨made, calledOff, transitOf c s tr,
    h.passes (hkept.takesOut htaken) (passes_takesOut hkept htaken), ?_⟩
  rw [transitOf]
  cases c.errand? s.work with
  | none => exact hes
  | some e => exact hes.cons e

/-- What keeps the crew's entries in the table keeps them in order. -/
theorem keepsMine (h : EntriesInOrder c crew table es) (hst : KeepsMine c.IsMine table table') :
    EntriesInOrder c crew table' es := by
  obtain ⟨made, calledOff, tr, h, hes⟩ := h
  have hkept : Accurate c (⟨table, made, calledOff⟩ : Recorded Q ω) tr := h.accurate
  exact ⟨made, calledOff, tr, h.passes (hkept.keepsMine hst) (passes_keepsMine hkept hst), hes⟩

end EntriesInOrder

/-! ### A task is halted -/

/-- **Nothing is queued** for a task: its scheduler waits for no entry and none is live in the
table, or it has no place in the group. -/
def Unqueued (c : Coding ω) (task : Nat) (crew : Crew) (table : Q) : Prop :=
  match crew with
  | .apart tasks => (∀ s, tasks[task]? = some s → s.pending = none) ∧
      ∀ s ∈ slips table, ∀ n, s.work = c.job (.run task n) → s.live = false
  | .together g => task ∉ g.ready ∧ task ∉ g.delayed.map Delayed.task

/-- The other tasks stand **where they stood**: they have the same entries, of which none was called
off, or the same order in the batches and among the delayed ones of the group. -/
def SamePlaces (c : Coding ω) (task : Nat) (p p' : Crew × Q) : Prop :=
  match p.1, p'.1 with
  | .apart tasks, .apart tasks' => (∀ i, i ≠ task → tasks'[i]? = tasks[i]?) ∧
      (p'.2 = p.2 ∨ ∃ h, p'.2 = Timetable.cancel h p.2 ∧
        ∀ s ∈ slips p.2, s.handle = h → c.IsMine s.work → ∃ n, s.work = c.job (.run task n))
  | .together g, .together g' => g'.left = g.left.filter (· ≠ task) ∧
      g'.scheduled = g.scheduled.filter (· ≠ task) ∧
      g'.delayed = g.delayed.filter (·.task ≠ task)
  | _, _ => False

/-- Task `task` was **halted**: it is stopped with its backoff, nothing is queued for it, and the
others keep their lifecycles and places. -/
structure Halted (c : Coding ω) (task : Nat) (p p' : Crew × Q) : Prop where
  /-- It is stopped. -/
  stopped : p'.1.life task = { p.1.life task with state := .stopped }
  /-- Nothing is queued for it. -/
  unqueued : p'.1.Unqueued c task p'.2
  /-- The others have the same states and retry delays. -/
  others : ∀ i, i ≠ task → p'.1.life i = p.1.life i
  /-- They stand where they stood. -/
  places : SamePlaces c task p p'

/-- For a task that is not scheduled nothing is queued. -/
theorem EntriesInOrder.unqueued (h : EntriesInOrder c crew table es)
    (hstate : (crew.life task).state.isScheduled = false) : crew.Unqueued c task table := by
  obtain ⟨made, calledOff, tr, h, -⟩ := h
  cases crew with
  | apart tasks =>
    have hpending : ∀ s, tasks[task]? = some s → s.pending = none := fun s hs => by
      have hiff := (SinglesInOrder.ordered h task s hs).pending_iff
      rw [life, hs] at hstate
      rw [← Option.not_isSome_iff_eq_none, hiff, show s.life.state.isScheduled = false from hstate]
      exact Bool.false_ne_true
    refine ⟨hpending, fun s hs n hwork => Bool.eq_false_iff.2 fun hlive => ?_⟩
    obtain ⟨handle, work, live⟩ := s
    obtain rfl : work = c.job (.run task n) := hwork
    obtain rfl : live = true := hlive
    have hundelivered : Undelivered c (⟨table, made, calledOff⟩ : Recorded Q ω) tr handle
      (.run task n) := Or.inl ⟨true, hs⟩
    obtain ⟨i, m, heq, hlt⟩ := SinglesInOrder.run_of_undelivered h handle _ hundelivered
    rw [← (Errand.run.inj heq).1] at hlt
    obtain ⟨single, hsingle⟩ := exists_single hlt
    have hcurrent :=
      (SinglesInOrder.ordered h task single hsingle).anchored.only handle n hundelivered
      (((SinglesInOrder.accurate h).live_iff handle _ true hs).1 rfl)
    rw [Single.current_eq_none (hpending single hsingle)] at hcurrent
    cases hcurrent
  | together g =>
    have htidy : g.Tidy := Group.TidyInOrder.tidy h
    have hspot : (g.life task).state.queued? = none := TaskState.queued?_eq_none.2 hstate
    constructor
    · intro hmem
      have hready := (htidy.mem_ready task).1 hmem
      rw [hspot] at hready
      cases hready
    · intro hmem
      have hwaits := htidy.mem_waiting.1 hmem
      rw [hspot] at hwaits
      cases hwaits

/-- An outcome that `halts` **halts** its task, and no other. -/
theorem EntriesInOrder.halted (h : EntriesInOrder c crew table es) (hlt : task < crew.size)
    (opts : SchedulerOptions) (r : Readings) {o : Outcome} (ho : o.halts = true) :
    Halted c task (crew, table) (Crew.deliver opts c.job r task o (crew, table)).2 := by
  have hlives := lives_deliver opts c.job r o (p := (crew, table)) hlt
  have hstopped : (Crew.deliver opts c.job r task o (crew, table)).2.1.life task =
      { crew.life task with state := .stopped } := by
    refine (congrFun hlives task).trans ?_
    rw [Function.update_self, Lifecycle.deliver_of_halts opts.backoff ho]
    rfl
  refine ⟨hstopped, (h.deliver hlt opts r o).unqueued ?_, fun i hi => ?_, ?_⟩
  · rw [hstopped]
    rfl
  · exact (congrFun hlives i).trans (Function.update_of_ne hi _ _)
  · obtain ⟨made, calledOff, tr, h, -⟩ := h
    cases crew with
    | apart tasks =>
      obtain ⟨s, hs⟩ := exists_single hlt
      have hdisarm : (Single.deliver opts (fun n => c.job (.run task n)) r.entry o (s, table)).1 =
          Single.disarm ({ s with life := s.life.halt.1 }, table) := by
        show Single.enact opts _ r.entry (s.life.deliver opts.backoff o).1 (s, table) = _
        rw [Lifecycle.deliver_of_halts opts.backoff ho]
        rfl
      rw [deliver_apart opts c.job r hs, hdisarm]
      refine ⟨fun i hi => ?_, ?_⟩
      · rw [Array.getElem?_setIfInBounds, if_neg (Ne.symm hi)]
      · show (Single.disarm ({ s with life := s.life.halt.1 }, table)).2 = table ∨ _
        cases hp : s.pending with
        | none =>
          left
          simp only [Single.disarm]
        | some k =>
          right
          refine ⟨k, ?_, fun slip hslip hk hmine => ?_⟩
          · simp only [Single.disarm]
          · have ho := SinglesInOrder.ordered h task s hs
            have hcurrent := Single.current_of_pending hp
            obtain ⟨e, he⟩ := Option.isSome_iff_exists.1 hmine
            have hjob := c.errand?_eq_some.1 he
            obtain ⟨handle, work, live⟩ := slip
            obtain rfl : c.job e = work := hjob
            obtain rfl : handle = k := hk
            have hsame := (SinglesInOrder.accurate h).errand_unique (Or.inl ⟨live, hslip⟩)
              (ho.anchored.there handle s.epoch hcurrent)
            exact ⟨s.epoch, congrArg c.job hsame⟩
    | together g =>
      have htidy : g.Tidy := Group.TidyInOrder.tidy h
      let g₀ := g.modify task fun m => { m with life := (g.life task).halt.1 }
      have hunlink : (Group.deliver opts (fun n => c.job (.dispatch n)) r task o (g, table)).1 =
          Group.rearm opts (fun n => c.job (.dispatch n)) r (g₀.unlink task, table) := by
        show Group.enact opts _ r task ((g.life task).deliver opts.backoff o).1 (g, table) = _
        rw [Lifecycle.deliver_of_halts opts.backoff ho]
        rfl
      obtain ⟨armed, epoch, heq⟩ := Group.rearm_eq opts (fun n => c.job (.dispatch n)) r
        (g₀.unlink task) table
      show SamePlaces c task (.together g, table)
        (.together (Group.deliver opts (fun n => c.job (.dispatch n)) r task o (g, table)).1.1, _)
      rw [hunlink, heq]
      -- The lifecycle of the task is no matter of where it stands.
      have hplaced : g₀.Placed fun i => (g.life i).state.queued? :=
        Group.Placed.congr htidy rfl rfl rfl rfl fun i =>
          Group.key?_modify_of_keeps (fun _ => rfl) fun _ => rfl
      exact hplaced.places_unlink task

end Crew

end TurnPool
