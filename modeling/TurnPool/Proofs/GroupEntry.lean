import TurnPool.Proofs.Entries
import TurnPool.Proofs.GroupTidy

/-!
# The one entry of a group

However many tasks a group has, one entry of the timetable stands for all of them: it is due at once
while a task is ready, at the earliest deadline while tasks only wait, and there is none otherwise.
Whatever changes the collections ends with making the entry match, and an entry that is replaced was
called off or is stale.

## Main results

* `Group.DispatchesInOrder`: the entries of a group are in order.
* `Group.TidyInOrder`: so they are between two operations, and the entry matches the tasks.
* `Group.TidyInOrder.request`, `deliver`, `dispatch`: every operation settles a group.
-/

namespace TurnPool

open Recorded

namespace Group

variable {Q ω : Type} [Timetable Q ω] [LawfulTimetable Q ω] {c : Coding ω} {g g' : Group}
  {t t' : Recorded Q ω} {tr tr' : List (Nat × Errand)} {id : Nat}

/-- The handle and the epoch of the entry that a group waits for. -/
def current (g : Group) : Option (Nat × Nat) := g.armed.map fun a => (a.handle, a.epoch)

/-- An armed group waits for the entry it is armed with. -/
theorem current_of_armed {a : Armed} (ha : g.armed = some a) :
    g.current = some (a.handle, a.epoch) := by
  rw [current, ha]
  rfl

/-- The **entries** of a group: the record is accurate, the armed entry is the current one of
`Anchored`, and no other entry of the crew is undelivered. -/
structure DispatchesInOrder (c : Coding ω) (g : Group) (t : Recorded Q ω)
    (tr : List (Nat × Errand)) :
    Prop where
  accurate : Accurate c t tr
  anchored : Anchored c .dispatch g.current g.epoch t tr
  no_run : ∀ h i n, ¬ Undelivered c t tr h (.run i n)

namespace DispatchesInOrder

/-- `DispatchesInOrder` depends on the armed entry and the epoch only. -/
theorem congr (h : DispatchesInOrder c g t tr) (ha : g'.armed = g.armed) (he : g'.epoch = g.epoch) :
    DispatchesInOrder c g' t tr where
  accurate := h.accurate
  anchored := by
    rw [current, ha, he]
    exact h.anchored
  no_run := h.no_run

/-- `disarm` keeps `DispatchesInOrder`, with none waited for. -/
theorem disarm (h : DispatchesInOrder c g t tr) :
    DispatchesInOrder c { g with armed := none } (Group.disarm (g, t)).2 tr := by
  cases ha : g.armed with
  | none =>
    simp only [Group.disarm, ha]
    exact h.congr ha.symm rfl
  | some a =>
    simp only [Group.disarm, ha]
    have hcurrent := current_of_armed ha
    have hthere := h.anchored.there a.handle a.epoch hcurrent
    exact {
      accurate := h.accurate.cancel (h.accurate.handle_lt hthere)
      anchored := Anchored.cancel (hcurrent ▸ h.anchored)
      no_run := fun k i n hu => h.no_run k i n (undelivered_cancel.1 hu) }

/-- `arm` keeps `DispatchesInOrder` where none was waited for. -/
theorem arm (h : DispatchesInOrder c { g with armed := none } t tr) (opts : SchedulerOptions)
    (r : Readings)
    (due : Option Nat) :
    DispatchesInOrder c
      (Group.arm opts (fun n => c.job (.dispatch n)) r due ({ g with armed := none }, t)).1
      (Group.arm opts (fun n => c.job (.dispatch n)) r due ({ g with armed := none }, t)).2 tr := by
  obtain ⟨delay, heq⟩ :=
    arm_eq opts (fun n => c.job (.dispatch n)) r due ({ g with armed := none }, t)
  have hinj : Function.Injective Errand.dispatch := fun _ _ => Errand.dispatch.inj
  rw [heq]
  exact {
    accurate := h.accurate.schedule r.entry opts.priority delay _
    anchored := by
      rw [current, schedule_fst]
      exact Anchored.schedule h.accurate h.anchored hinj (Nat.lt_succ_self _) r.entry opts.priority
        delay
    no_run := fun k i n hu => by
      rcases (undelivered_schedule r.entry opts.priority delay h.accurate).1 hu with ⟨-, he⟩ | hu
      · cases he
      · exact h.no_run k i n hu }

/-- `rearm` keeps `DispatchesInOrder`. -/
theorem rearm (h : DispatchesInOrder c g t tr) (opts : SchedulerOptions) (r : Readings) :
    DispatchesInOrder c (Group.rearm opts (fun n => c.job (.dispatch n)) r (g, t)).1
      (Group.rearm opts (fun n => c.job (.dispatch n)) r (g, t)).2 tr := by
  have hdisarm : Group.disarm (g, t) = ({ g with armed := none }, (Group.disarm (g, t)).2) :=
    Prod.ext (disarm_eq g t) rfl
  rw [Group.rearm]
  split
  · exact h
  · split
    · rw [hdisarm]
      exact h.disarm
    · rw [hdisarm]
      exact h.disarm.arm opts r _

/-- `Passes` keeps `DispatchesInOrder`. -/
theorem passes (h : DispatchesInOrder c g t tr) (hkept : Accurate c t' tr')
    (hp : Passes c t tr t' tr') :
    DispatchesInOrder c g t' tr' where
  accurate := hkept
  anchored := h.anchored.passes hp
  no_run k i n hu := h.no_run k i n (hp.sub _ _ hu)

end DispatchesInOrder

/-! ### The entry matches the tasks -/

/-- The entry of a group is due **when `g.want` says**, and there is none if it says so. -/
def Matched (g : Group) : Prop := g.armed.map Armed.due = g.want

omit [LawfulTimetable Q ω] in
/-- After `rearm` a group is matched. -/
theorem matched_rearm (opts : SchedulerOptions) (entry : Nat → ω) (r : Readings) (g : Group)
    (q : Q) : (rearm opts entry r (g, q)).1.Matched := by
  obtain ⟨armed, epoch, heq⟩ := rearm_eq opts entry r g q
  have hwant : (rearm opts entry r (g, q)).1.want = g.want := by
    rw [heq]
    rfl
  rw [Matched, hwant, rearm]
  split
  · rename_i hkeep
    exact hkeep.2
  · split
    · rename_i hnone
      rw [disarm_eq]
      exact hnone.symm
    · rename_i due hsome
      obtain ⟨delay, harm⟩ := arm_eq opts entry r due (disarm (g, q))
      rw [harm]
      exact hsome.symm

/-- What holds of a group **between two operations**: its entries are in order, it is matched, and
it is tidy. -/
structure TidyInOrder (c : Coding ω) (g : Group) (t : Recorded Q ω) (tr : List (Nat × Errand)) :
    Prop where
  ordered : DispatchesInOrder c g t tr
  matched : g.Matched
  tidy : g.Tidy

namespace TidyInOrder

/-- `TidyInOrder` holds of the empty group if none of its entries is undelivered. -/
theorem empty (hkept : Accurate c t tr) (hno : ∀ h e, ¬ Undelivered c t tr h e) :
    TidyInOrder c Group.empty t tr where
  ordered := ⟨hkept, .of_forall_not fun _ _ => hno _ _, fun _ _ _ => hno _ _⟩
  matched := rfl
  tidy := Tidy.empty

/-- `register` keeps `TidyInOrder`. -/
theorem register (h : TidyInOrder c g t tr) (name : String) :
    TidyInOrder c (g.register name).2 t tr where
  ordered := h.ordered.congr rfl rfl
  matched := h.matched
  tidy := h.tidy.register name

/-- `enact` keeps `TidyInOrder`, if the new state agrees with the placement. -/
theorem enact (h : TidyInOrder c g t tr) (hlt : id < g.members.size)
    {change : Lifecycle × Placement}
    (hagree : change.1.state.queued? = change.2.queued? (g.life id).state.queued?)
    (opts : SchedulerOptions) (r : Readings) :
    TidyInOrder c (Group.enact opts (fun n => c.job (.dispatch n)) r id change (g, t)).1
      (Group.enact opts (fun n => c.job (.dispatch n)) r id change (g, t)).2 tr where
  ordered := by
    have hentry :=
      @entry_relocate (g.modify id fun m => { m with life := change.1 }) id r.deadline change.2
    exact DispatchesInOrder.rearm (h.ordered.congr hentry.1 hentry.2) opts r
  matched := matched_rearm ..
  tidy := h.tidy.enact hlt hagree opts _ r t

/-- `request` keeps `TidyInOrder`. -/
theorem request (h : TidyInOrder c g t tr) (hlt : id < g.members.size) (opts : SchedulerOptions)
    (r : Readings) (what : Request) :
    TidyInOrder c (Group.request opts (fun n => c.job (.dispatch n)) r id what (g, t)).1
      (Group.request opts (fun n => c.job (.dispatch n)) r id what (g, t)).2 tr :=
  h.enact hlt (Lifecycle.queued?_request opts.backoff what (g.life id)) opts r

/-- `deliver` keeps `TidyInOrder`. -/
theorem deliver (h : TidyInOrder c g t tr) (hlt : id < g.members.size) (opts : SchedulerOptions)
    (r : Readings) (o : Outcome) :
    TidyInOrder c (Group.deliver opts (fun n => c.job (.dispatch n)) r id o (g, t)).1.1
      (Group.deliver opts (fun n => c.job (.dispatch n)) r id o (g, t)).1.2 tr :=
  h.enact hlt (Lifecycle.queued?_deliver opts.backoff o (g.life id)) opts r

/-- `dispatch` for an entry in transit keeps `TidyInOrder` without it: the armed one is used up, any
other changes nothing. -/
theorem dispatch (h : TidyInOrder c g t tr) {k n : Nat} (there : (k, .dispatch n) ∈ tr)
    (opts : SchedulerOptions) (r : Readings) :
    TidyInOrder c (Group.dispatch opts (fun n => c.job (.dispatch n)) r n (g, t)).2.1
      (Group.dispatch opts (fun n => c.job (.dispatch n)) r n (g, t)).2.2
      (tr.erase (k, .dispatch n)) := by
  have hkept := h.ordered.accurate.arrive there
  have hno_run : ∀ h' i m, ¬ Undelivered c t (tr.erase (k, .dispatch n)) h' (.run i m) :=
    fun h' i m hu => h.ordered.no_run h' i m ((undelivered_arrive h.ordered.accurate there).1 hu).1
  have htidy := h.tidy.dispatch opts (fun n => c.job (.dispatch n)) r n t
  rw [Group.dispatch] at htidy ⊢
  split
  · rename_i hepoch
    rw [if_pos hepoch] at htidy
    obtain ⟨a, ha, rfl⟩ := Option.map_eq_some_iff.1 hepoch
    have hcurrent := current_of_armed ha
    have hused : DispatchesInOrder c { g with armed := none } t (tr.erase (k, .dispatch a.epoch)) :=
      ⟨hkept, Anchored.arrive h.ordered.accurate (hcurrent ▸ h.ordered.anchored) there, hno_run⟩
    have hclaims := Claims.nextReady r.deadline { g with armed := none }
    exact {
      ordered := DispatchesInOrder.rearm (hused.congr hclaims.armed hclaims.epoch) opts r
      matched := matched_rearm ..
      tidy := htidy }
  · rename_i hepoch
    refine ⟨⟨hkept, Anchored.arrive_other h.ordered.accurate h.ordered.anchored there ?_, hno_run⟩,
      h.matched, h.tidy⟩
    intro h' m hcurrent heq
    obtain ⟨a, ha, hpair⟩ := Option.map_eq_some_iff.1 hcurrent
    obtain rfl : m = n := Errand.dispatch.inj heq
    exact hepoch (by rw [ha, ← (Prod.mk.inj hpair).2]; rfl)

/-- `Passes` keeps `TidyInOrder`. -/
theorem passes (h : TidyInOrder c g t tr) (hkept : Accurate c t' tr') (hp : Passes c t tr t' tr') :
    TidyInOrder c g t' tr' :=
  ⟨h.ordered.passes hkept hp, h.matched, h.tidy⟩

end TidyInOrder

end Group

end TurnPool
