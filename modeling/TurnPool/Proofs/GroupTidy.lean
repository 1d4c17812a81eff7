import TurnPool.Proofs.GroupPlaces

/-!
# A group is tidy at all times

Every task of a group stands where its state says: in a batch while a run is queued without delay,
among those that wait while it is queued with one, and nowhere otherwise. The operations of a group
keep it so, each in the same two steps: the lifecycle of one task changes, and the placement that
comes with the change moves that task, so that the two agree again. An arriving entry claims a run
and may end the delays of other tasks; the entry of the group has no part in it.

## Main results

* `Group.Claims`: what claiming a run does to the lifecycles.
* `Group.Tidy`: every task stands where its state says.
* `Group.Tidy.enact`, `Group.Tidy.nextReady`: requests, outcomes and claims keep a group tidy.
-/

namespace TurnPool

namespace Group

variable {Q ω : Type} [Timetable Q ω] {g : Group} {id i : Nat}

/-! ### What an operation leaves alone -/

/-- `register` gives no other task another lifecycle. -/
theorem life_register (name : String) : (g.register name).2.life = g.life := by
  funext i
  rw [life, life, register, Array.getElem?_push]
  split
  · rename_i h
    rw [h, Array.getElem?_eq_none (Nat.le_refl _)]
    rfl
  · rfl

/-- `register` gives no other task another key. -/
theorem key?_register (name : String) : (g.register name).2.key? i = g.key? i := by
  rw [key?, key?, register, Array.getElem?_push]
  split
  · rename_i h
    rw [h, Array.getElem?_eq_none (Nat.le_refl _)]
    rfl
  · rfl

/-- `disarm` forgets the group's queue entry. -/
theorem disarm_eq (g : Group) (q : Q) : (disarm (g, q)).1 = { g with armed := none } := by
  cases ha : g.armed with
  | some a => simp only [disarm, ha]
  | none =>
    simp only [disarm, ha]
    rw [← ha]

/-- `arm` makes an entry with the next epoch, and the group is armed with it. -/
theorem arm_eq (opts : SchedulerOptions) (entry : Nat → ω) (r : Readings) (due : Option Nat)
    (p : Group × Q) :
    ∃ delay, arm opts entry r due p =
      ({ p.1 with
          armed := some
            ⟨(Timetable.schedule r.entry opts.priority delay (entry (p.1.epoch + 1)) p.2).1, due,
              p.1.epoch + 1⟩
          epoch := p.1.epoch + 1 },
        (Timetable.schedule r.entry opts.priority delay (entry (p.1.epoch + 1)) p.2).2) :=
  ⟨_, rfl⟩

/-- `rearm` changes only the group's queue entry and its epoch. -/
theorem rearm_eq (opts : SchedulerOptions) (entry : Nat → ω) (r : Readings) (g : Group) (q : Q) :
    ∃ armed epoch, (rearm opts entry r (g, q)).1 = { g with armed, epoch } := by
  have hdisarm := disarm_eq g q
  rw [rearm]
  split
  · exact ⟨_, _, rfl⟩
  · split
    · exact ⟨_, _, hdisarm⟩
    · rename_i due _
      obtain ⟨delay, heq⟩ := arm_eq opts entry r due (disarm (g, q))
      exact ⟨_, _, by rw [heq, hdisarm]⟩

/-- `rearm` keeps every lifecycle. -/
theorem life_rearm (opts : SchedulerOptions) (entry : Nat → ω) (r : Readings) (g : Group) (q : Q) :
    (rearm opts entry r (g, q)).1.life = g.life := by
  obtain ⟨_, _, heq⟩ := rearm_eq opts entry r g q
  rw [heq]
  rfl

/-- `rearm` adds no member. -/
theorem size_rearm (opts : SchedulerOptions) (entry : Nat → ω) (r : Readings) (g : Group) (q : Q) :
    (rearm opts entry r (g, q)).1.members.size = g.members.size := by
  obtain ⟨_, _, heq⟩ := rearm_eq opts entry r g q
  rw [heq]

/-- `enact` gives `id` the new lifecycle, and no other task. -/
theorem life_enact (opts : SchedulerOptions) (entry : Nat → ω) (r : Readings)
    (hlt : id < g.members.size) (change : Lifecycle × Placement) (q : Q) :
    (enact opts entry r id change (g, q)).1.life = Function.update g.life id change.1 := by
  rw [enact, place, life_rearm]
  funext i
  rw [life_relocate]
  exact congrFun (life_modify_life hlt change.1) i

/-- `enact` adds no member. -/
theorem size_enact (opts : SchedulerOptions) (entry : Nat → ω) (r : Readings)
    (change : Lifecycle × Placement) (q : Q) :
    (enact opts entry r id change (g, q)).1.members.size = g.members.size := by
  rw [enact, place, size_rearm, size_relocate, size_modify]

/-! ### Claiming, whatever the group -/

/-- What **claiming** a run does to a group: `ClaimsRun` to the lifecycles, and nothing to the
number of members or the queue entry. -/
structure Claims (g : Group) (claimed : Option Nat) (g' : Group) : Prop extends
    ClaimsRun g.life claimed g'.life where
  size : g'.members.size = g.members.size
  armed : g'.armed = g.armed
  epoch : g'.epoch = g.epoch

namespace Claims

variable {claimed : Option Nat} {g₁ g₂ : Group}

/-- If none is claimed nothing may have changed. -/
theorem refl (g : Group) : g.Claims none g :=
  ⟨.refl _, rfl, rfl, rfl⟩

/-- Delays may end before a run is claimed. -/
theorem trans (h₁ : g.Claims none g₁) (h₂ : g₁.Claims claimed g₂) : g.Claims claimed g₂ where
  toClaimsRun := h₁.toClaimsRun.trans h₂.toClaimsRun
  size := h₂.size.trans h₁.size
  armed := h₂.armed.trans h₁.armed
  epoch := h₂.epoch.trans h₁.epoch

/-- Ending the delay of one task claims none. -/
theorem ripened (g : Group) (id : Nat) :
    g.Claims none ((g.modify id fun m =>
      { m with deadline := none, life := m.life.ripen }).pushReady id) where
  size := size_modify _
  armed := rfl
  epoch := rfl
  begun _ h := nomatch h
  other i _ := by
    show (Group.modify _ _ g).life i = _ ∨ (Group.modify _ _ g).life i = _
    rw [life_modify, life]
    split
    · cases g.members[i]? with
      | none => exact Or.inl rfl
      | some m => exact Or.inr rfl
    · exact Or.inl rfl

/-- `ripen` claims none. -/
theorem ripen (now : Nat) (ks : List Delayed) (g : Group) :
    g.Claims none (Group.ripen now ks g) := by
  induction ks generalizing g with
  | nil => exact { refl g with }
  | cons k ks ih =>
    rw [Group.ripen]
    split
    · exact { refl g with }
    · exact (ripened g k.task).trans (ih _)

/-- `claimFirst` claims the task it answers. -/
theorem claimFirst (ids : List Nat) (g : Group) :
    g.Claims (Group.claimFirst ids g).1 (Group.claimFirst ids g).2 := by
  induction ids generalizing g with
  | nil => exact { refl g with }
  | cons id ids ih =>
    rw [Group.claimFirst]
    split
    · rename_i l hl
      obtain ⟨m, hm, hl⟩ := Option.bind_eq_some_iff.1 hl
      obtain ⟨hs, rfl⟩ := Lifecycle.claim_eq_some.1 hl
      have hlife : g.life id = m.life := by
        rw [life, hm]
        rfl
      exact {
        size := size_modify _
        armed := rfl
        epoch := rfl
        begun := by
          rintro _ ⟨⟩
          have hm' : ({ g with cursor := g.cursor + 1 } : Group).members[id]? = some m := hm
          refine ⟨hlife ▸ hs, ?_⟩
          rw [life_modify, if_pos rfl, hm']
          rfl
        other := fun i hi => by
          rw [life_modify, if_neg fun heq => hi (congrArg some heq)]
          exact Or.inl rfl }
    · exact { ih { g with cursor := g.cursor + 1 } with }

/-- `nextReady` claims the task it answers. -/
theorem nextReady (now : Nat) (g : Group) :
    g.Claims (Group.nextReady now g).1 (Group.nextReady now g).2 := by
  have h := claimFirst g.left g
  rw [Group.nextReady]
  generalize Group.claimFirst g.left g = r at h
  obtain ⟨_ | id, g'⟩ := r
  · have hswap : g.Claims none (Group.ripen now g'.delayed g').swap :=
      { h.trans (ripen now g'.delayed g') with }
    exact hswap.trans (claimFirst _ _)
  · exact h

end Claims

/-- `dispatch` claims the task it answers. -/
theorem claimsRun_dispatch (opts : SchedulerOptions) (entry : Nat → ω) (r : Readings) (epoch : Nat)
    (g : Group) (q : Q) :
    ClaimsRun g.life (dispatch opts entry r epoch (g, q)).1
      (dispatch opts entry r epoch (g, q)).2.1.life := by
  simp only [dispatch]
  split
  · rw [life_rearm]
    exact (Claims.nextReady r.deadline { g with armed := none }).toClaimsRun
  · exact .refl _

/-- `dispatch` adds no member. -/
theorem size_dispatch (opts : SchedulerOptions) (entry : Nat → ω) (r : Readings) (epoch : Nat)
    (g : Group) (q : Q) :
    (dispatch opts entry r epoch (g, q)).2.1.members.size = g.members.size := by
  simp only [dispatch]
  split
  · rw [size_rearm]
    exact (Claims.nextReady r.deadline { g with armed := none }).size
  · rfl

/-! ### Tidy groups -/

/-- Every task stands **where its state says**: in the batches, among the delayed ones, or
nowhere. -/
def Tidy (g : Group) : Prop := g.Placed fun i => (g.life i).state.queued?

namespace Tidy

/-- The empty group is tidy. -/
theorem empty : Group.empty.Tidy := Placed.empty

/-- `register` keeps a group tidy: a new task is idle and stands nowhere. -/
theorem register (h : g.Tidy) (name : String) : (g.register name).2.Tidy := by
  rw [Tidy]
  rw [life_register]
  exact Placed.congr h rfl rfl rfl rfl fun _ => key?_register name

/-- The group's queue entry and its epoch do not matter to `Tidy`. -/
theorem setEntry (h : g.Tidy) (armed : Option Armed) (epoch : Nat) :
    ({ g with armed, epoch } : Group).Tidy :=
  Placed.congr h rfl rfl rfl rfl fun _ => rfl

/-- `rearm` keeps a group tidy. -/
theorem rearm (h : g.Tidy) (opts : SchedulerOptions) (entry : Nat → ω) (r : Readings) (q : Q) :
    (Group.rearm opts entry r (g, q)).1.Tidy := by
  obtain ⟨armed, epoch, heq⟩ := rearm_eq opts entry r g q
  rw [heq]
  exact h.setEntry armed epoch

/-- `enact` keeps a group tidy if the new state **agrees** with the placement. -/
theorem enact (h : g.Tidy) (hlt : id < g.members.size) {change : Lifecycle × Placement}
    (hagree : change.1.state.queued? = change.2.queued? (g.life id).state.queued?)
    (opts : SchedulerOptions) (entry : Nat → ω) (r : Readings) (q : Q) :
    (Group.enact opts entry r id change (g, q)).1.Tidy := by
  have hset : (g.modify id fun m => { m with life := change.1 }).Placed fun i =>
      (g.life i).state.queued? :=
    Placed.congr h rfl rfl rfl rfl fun _ => key?_modify_of_keeps (fun _ => rfl) fun _ => rfl
  refine Tidy.rearm ?_ opts entry r q
  refine (hset.relocate ?_ r.deadline change.2).congr_spot fun i => ?_
  · rwa [size_modify]
  · rw [life_relocate, life_modify_life hlt, Function.update_apply, Function.update_apply]
    split
    · exact hagree
    · rfl

/-- `request` keeps a group tidy. -/
theorem request (h : g.Tidy) (hlt : id < g.members.size) (opts : SchedulerOptions)
    (entry : Nat → ω) (r : Readings) (what : Request) (q : Q) :
    (Group.request opts entry r id what (g, q)).1.Tidy :=
  h.enact hlt (Lifecycle.queued?_request opts.backoff what (g.life id)) opts entry r q

/-- `deliver` keeps a group tidy. -/
theorem deliver (h : g.Tidy) (hlt : id < g.members.size) (opts : SchedulerOptions)
    (entry : Nat → ω) (r : Readings) (o : Outcome) (q : Q) :
    (Group.deliver opts entry r id o (g, q)).1.1.Tidy :=
  h.enact hlt (Lifecycle.queued?_deliver opts.backoff o (g.life id)) opts entry r q

/-- A task in the batches is `scheduled false`. -/
theorem state_of_mem_ready (h : g.Tidy) (hi : i ∈ g.ready) : (g.life i).state = .scheduled false :=
  TaskState.queued?_eq_some.1 ((h.mem_ready i).1 hi)

/-- A task among the delayed ones is `scheduled true`. -/
theorem state_of_mem_delayed (h : g.Tidy) {k : Delayed} (hk : k ∈ g.delayed) :
    (g.life k.task).state = .scheduled true :=
  TaskState.queued?_eq_some.1 (h.spot_of_mem_delayed hk)

/-- A task in the batches is a member. -/
theorem lt_size_of_mem_ready (h : g.Tidy) (hi : i ∈ g.ready) : i < g.members.size :=
  lt_size_of_state_ne (by rw [h.state_of_mem_ready hi]; exact nofun)

/-- A task among the delayed ones is a member. -/
theorem lt_size_of_mem_delayed (h : g.Tidy) {k : Delayed} (hk : k ∈ g.delayed) :
    k.task < g.members.size :=
  lt_size_of_state_ne (by rw [h.state_of_mem_delayed hk]; exact nofun)

/-- `claimFirst` of a tidy group claims the first task that is left of the batch. -/
theorem claimFirst_of_cons (h : g.Tidy) {ids : List Nat} (hleft : g.left = id :: ids) :
    id < g.members.size ∧ ∃ l : Lifecycle, l.state = .inFlight false ∧
      Group.claimFirst g.left g = (some id,
        ({ g with cursor := g.cursor + 1 } : Group).modify id fun m => { m with life := l }) := by
  have hmem : id ∈ g.ready := List.mem_append_left _ (hleft ▸ List.mem_cons_self)
  have hstate := h.state_of_mem_ready hmem
  have hlt := h.lt_size_of_mem_ready hmem
  obtain ⟨m, hm, hl⟩ := exists_member hlt
  have hclaim : g.members[id]?.bind (fun m => m.life.claim) =
      some { g.life id with state := .inFlight false } := by
    rw [hm, Option.bind_some, hl, Lifecycle.claim_eq_some, hstate]
    exact ⟨rfl, rfl⟩
  refine ⟨hlt, { g.life id with state := .inFlight false }, rfl, ?_⟩
  rw [hleft, Group.claimFirst, hclaim]

/-- `claimFirst` keeps a group tidy, and if it claims none then nothing is left of the batch. -/
theorem claimFirst (h : g.Tidy) :
    (Group.claimFirst g.left g).2.Tidy ∧
      ((Group.claimFirst g.left g).1 = none → (Group.claimFirst g.left g).2.left = []) := by
  cases hleft : g.left with
  | nil => exact ⟨Placed.clear h hleft, fun _ => rfl⟩
  | cons id ids =>
    obtain ⟨hlt, l, hl, heq⟩ := h.claimFirst_of_cons hleft
    rw [← hleft, heq]
    refine ⟨?_, nofun⟩
    have hnext : (({ g with cursor := g.cursor + 1 } : Group).modify id fun m =>
        { m with life := l }).Placed
          (Function.update (fun i => (g.life i).state.queued?) id none) :=
      (Placed.advance h hleft).congr rfl rfl rfl rfl fun _ =>
        key?_modify_of_keeps (fun _ => rfl) fun _ => rfl
    refine hnext.congr_spot fun i => ?_
    have hlife := life_modify_life (g := { g with cursor := g.cursor + 1 }) hlt l
    rw [congrFun hlife i, Function.update_apply, Function.update_apply]
    split
    · rw [hl]
      rfl
    · rfl

/-- `ripen` keeps a group tidy. -/
theorem ripen (now : Nat) {ks : List Delayed} (h : ({ g with delayed := ks } : Group).Tidy) :
    (Group.ripen now ks g).Tidy := by
  induction ks generalizing g with
  | nil => exact h
  | cons k ks ih =>
    rw [Group.ripen]
    split
    · exact h
    · refine ih ((Placed.ripenHead h fun _ => rfl).congr_spot fun i => ?_)
      have hk : (g.life k.task).state = .scheduled true :=
        state_of_mem_delayed h List.mem_cons_self
      have hlt : k.task < g.members.size := lt_size_of_mem_delayed h List.mem_cons_self
      show ((Group.modify _ _ g).life i).state.queued? = _
      rw [life_modify, Function.update_apply]
      by_cases heq : k.task = i
      · subst heq
        obtain ⟨m, hm, hl⟩ := exists_member hlt
        rw [if_pos rfl, if_pos rfl, hm]
        show m.life.state.ripen.queued? = _
        rw [hl, hk]
        rfl
      · rw [if_neg heq, if_neg (Ne.symm heq)]
        rfl

/-- `ripen` leaves what is left of the batch as it is. -/
theorem left_ripen (now : Nat) (ks : List Delayed) (g : Group) :
    (Group.ripen now ks g).left = g.left := by
  induction ks generalizing g with
  | nil => rfl
  | cons k ks ih =>
    rw [Group.ripen]
    split
    · rfl
    · exact ih _

/-- If nothing is left of the batch, `ripen` and `swap` keep a group tidy. -/
theorem renew (h : g.Tidy) (now : Nat) (hleft : g.left = []) :
    (Group.ripen now g.delayed g).swap.Tidy :=
  Placed.swap (ripen now h) ((left_ripen now g.delayed g).trans hleft)

/-- `nextReady` keeps a group tidy. -/
theorem nextReady (h : g.Tidy) (now : Nat) : (Group.nextReady now g).2.Tidy := by
  have hfirst := h.claimFirst
  rw [Group.nextReady]
  generalize Group.claimFirst g.left g = r at hfirst
  obtain ⟨_ | id, g'⟩ := r
  · exact (hfirst.1.renew now (hfirst.2 rfl)).claimFirst.1
  · exact hfirst.1

/-- `dispatch` keeps a group tidy. -/
theorem dispatch (h : g.Tidy) (opts : SchedulerOptions) (entry : Nat → ω) (r : Readings)
    (epoch : Nat) (q : Q) : (Group.dispatch opts entry r epoch (g, q)).2.1.Tidy := by
  rw [Group.dispatch]
  dsimp only
  split
  · exact ((h.setEntry none g.epoch).nextReady r.deadline).rearm opts entry r q
  · exact h

end Tidy

end Group

end TurnPool
