import Mathlib.Data.List.Nodup
import Mathlib.Logic.Function.Basic
import TurnPool.Proofs.Lifecycle
import TurnPool.Task.Group

/-!
# Where the tasks of a group stand

A group keeps the queued run of a task in one of three collections, and says three times where: by
the collection, by the deadline of the task, and by its state. `Placed` says what the collections
hold; it is stated against a *spot* for each task (`some false` in a batch, `some true` waiting out
a delay, `none` nowhere), so that it can be followed while an operation has moved a task and has not
changed its state yet.

## Main results

* `Group.Placed`: the collections agree with the spots.
* `Group.Placed.unlink`, `pushReady`, `pushDelayed`, `relocate`: what a move does to one spot.
* `Group.Placed.advance`, `ripenHead`, `swap`: what claiming a run does.
-/

namespace TurnPool

/-! ### Insertion by deadline -/

namespace Delayed

variable {k m : Delayed} {ks : List Delayed}

/-- A key that is `before` another has no later deadline. -/
theorem deadline_le_of_before (h : k.before m = true) : k.deadline ≤ m.deadline := by
  simp only [before, Bool.or_eq_true, decide_eq_true_eq, Bool.and_eq_true, beq_iff_eq] at h
  omega

/-- A key that is not `before` another has no earlier deadline. -/
theorem deadline_le_of_not_before (h : ¬ k.before m = true) : m.deadline ≤ k.deadline := by
  simp only [before, Bool.or_eq_true, decide_eq_true_eq, not_or, Nat.not_lt] at h
  exact h.1

/-- Insertion keeps a list in the order of the deadlines. -/
theorem pairwise_insert (h : ks.Pairwise (·.deadline ≤ ·.deadline)) :
    (insertBy before (· == ·) k ks).Pairwise (·.deadline ≤ ·.deadline) := by
  refine pairwise_insertBy (fun m hm => deadline_le_of_before hm)
    (fun m m' hm hle => Nat.le_trans (deadline_le_of_before hm) hle) (fun m m' hm hle => ?_)
    (fun m hm _ => deadline_le_of_not_before (Bool.eq_false_iff.1 hm)) h
  obtain rfl := eq_of_beq hm
  exact hle

end Delayed

namespace Group

variable {g : Group} {id i : Nat}

/-- The tasks whose run is queued without delay: the rest of the batch, and then the next batch. -/
def ready (g : Group) : List Nat := g.left ++ g.scheduled

/-- `hasReady` says that `ready` is not empty. -/
theorem hasReady_iff : g.hasReady = true ↔ g.ready ≠ [] := by
  have hleft : g.left = [] ↔ ¬ g.cursor < g.active.length := by
    rw [left, List.drop_eq_nil_iff, Nat.not_lt]
  rw [ready, ne_eq, List.append_eq_nil_iff, hleft, not_and_or, not_not, hasReady, Bool.or_eq_true,
    decide_eq_true_eq, Bool.not_eq_true', List.isEmpty_eq_false_iff]

/-! ### The record of a task -/

/-- The members after `modify id f`: `f` of the one at `id`, and the others as before. -/
theorem getElem?_modify (f : Member → Member) :
    (g.modify id f).members[i]? = if id = i then g.members[i]?.map f else g.members[i]? :=
  Array.getElem?_modify

/-- `modify` adds no member. -/
@[simp] theorem size_modify (f : Member → Member) :
    (g.modify id f).members.size = g.members.size :=
  Array.size_modify

/-- The lifecycle of a task after `modify id f`. -/
theorem life_modify (f : Member → Member) :
    (g.modify id f).life i =
      if id = i then (g.members[i]?.map fun m => (f m).life).getD default else g.life i := by
  rw [life, getElem?_modify]
  split
  · rw [Option.map_map]
    rfl
  · rfl

/-- `modify` keeps every lifecycle if `f` does. -/
theorem life_modify_of_keeps {f : Member → Member} (hf : ∀ m, (f m).life = m.life) :
    (g.modify id f).life i = g.life i := by
  rw [life_modify]
  split
  · simp only [hf]
    rfl
  · rfl

/-- Giving `id` the lifecycle `l` is `Function.update` of the lifecycles. -/
theorem life_modify_life (hlt : id < g.members.size) (l : Lifecycle) :
    (g.modify id fun m => { m with life := l }).life = Function.update g.life id l := by
  funext i
  rw [life_modify, Function.update_apply]
  by_cases h : id = i
  · subst h
    rw [if_pos rfl, if_pos rfl, Array.getElem?_eq_getElem hlt]
    rfl
  · rw [if_neg h, if_neg (Ne.symm h)]

/-- A task that has joined is a member with its lifecycle. -/
theorem exists_member (hlt : i < g.members.size) :
    ∃ m, g.members[i]? = some m ∧ m.life = g.life i := by
  refine ⟨_, Array.getElem?_eq_getElem hlt, ?_⟩
  rw [life, Array.getElem?_eq_getElem hlt]
  rfl

/-- A task whose lifecycle is not the one of a new task has joined. -/
theorem lt_size_of_life_ne (h : g.life i ≠ default) : i < g.members.size := by
  refine Nat.lt_of_not_le fun hle => h ?_
  rw [life, Array.getElem?_eq_none hle]
  rfl

/-- A task that is not idle has joined. -/
theorem lt_size_of_state_ne (h : (g.life i).state ≠ .idle) : i < g.members.size :=
  lt_size_of_life_ne fun hl => h (congrArg Lifecycle.state hl)

/-- The key of a task after `modify id f`. -/
theorem key?_modify (f : Member → Member) :
    (g.modify id f).key? i =
      if id = i then
        g.members[i]?.bind fun m => (f m).deadline.map fun d => ⟨d, i, (f m).name⟩
      else g.key? i := by
  rw [key?, getElem?_modify]
  split
  · exact Option.bind_map
  · rfl

/-- `modify` keeps every key if `f` keeps the name and the deadline. -/
theorem key?_modify_of_keeps {f : Member → Member} (hn : ∀ m, (f m).name = m.name)
    (hd : ∀ m, (f m).deadline = m.deadline) : (g.modify id f).key? i = g.key? i := by
  rw [key?_modify]
  split
  · simp only [hn, hd]
    rfl
  · rfl

/-- `modify` takes the key of `id` away if `f` clears the deadline. -/
theorem key?_modify_of_none {f : Member → Member} (hd : ∀ m, (f m).deadline = none) :
    (g.modify id f).key? i = if id = i then none else g.key? i := by
  rw [key?_modify]
  simp only [hd, Option.map_none, Option.bind_fun_none]

/-- `modify` gives `id` the key with deadline `d` if `f` sets it and keeps the name. -/
theorem key?_modify_of_some {f : Member → Member} {m : Member} {d : Nat}
    (hm : g.members[id]? = some m) (hn : (f m).name = m.name) (hd : (f m).deadline = some d) :
    (g.modify id f).key? i = if id = i then some ⟨d, id, m.name⟩ else g.key? i := by
  rw [key?_modify]
  split
  · rename_i h
    subst h
    rw [hm, Option.bind_some, hd, hn]
    rfl
  · rfl

/-- A key carries the task that it is the key of. -/
theorem task_of_key? {k : Delayed} (h : g.key? i = some k) : k.task = i := by
  obtain ⟨m, -, hm⟩ := Option.bind_eq_some_iff.1 h
  obtain ⟨d, -, rfl⟩ := Option.map_eq_some_iff.1 hm
  rfl

/-- A key is that of its task if the member has its deadline and its name. -/
theorem key?_eq_some {k : Delayed} :
    g.key? k.task = some k ↔
      ∃ m, g.members[k.task]? = some m ∧ m.deadline = some k.deadline ∧ m.name = k.name := by
  simp only [key?, Option.bind_eq_some_iff, Option.map_eq_some_iff]
  constructor
  · rintro ⟨m, hm, d, hd, hk⟩
    obtain ⟨d', t', n'⟩ := k
    obtain ⟨rfl, -, rfl⟩ := Delayed.mk.inj hk
    exact ⟨m, hm, hd, rfl⟩
  · rintro ⟨m, hm, hd, hn⟩
    exact ⟨m, hm, _, hd, hn ▸ rfl⟩

/-! ### What a move leaves alone -/

/-- `unlink` adds no member. -/
@[simp] theorem size_unlink : (g.unlink id).members.size = g.members.size := by
  rw [unlink, unlinkDelayed]
  split
  · exact size_modify _
  · rfl

/-- `unlink` keeps every lifecycle. -/
@[simp] theorem life_unlink : (g.unlink id).life i = g.life i := by
  rw [unlink, unlinkDelayed]
  split
  · exact life_modify_of_keeps fun _ => rfl
  · rfl

/-- `pushDelayed` adds no member. -/
@[simp] theorem size_pushDelayed (d : Nat) :
    (g.pushDelayed id d).members.size = g.members.size := by
  rw [pushDelayed]
  split
  · exact size_modify _
  · rfl

/-- `pushDelayed` keeps every lifecycle. -/
@[simp] theorem life_pushDelayed (d : Nat) : (g.pushDelayed id d).life i = g.life i := by
  rw [pushDelayed]
  split
  · exact life_modify_of_keeps fun _ => rfl
  · rfl

/-- `relocate` adds no member. -/
@[simp] theorem size_relocate (now : Nat) (placement : Placement) :
    (g.relocate now id placement).members.size = g.members.size := by
  cases placement with
  | unchanged => rfl
  | now => exact size_unlink
  | after ms => exact (size_pushDelayed _).trans size_unlink
  | dropped => exact size_unlink

/-- `relocate` keeps every lifecycle. -/
@[simp] theorem life_relocate (now : Nat) (placement : Placement) :
    (g.relocate now id placement).life i = g.life i := by
  cases placement with
  | unchanged => rfl
  | now => exact life_unlink
  | after ms => exact (life_pushDelayed _).trans life_unlink
  | dropped => exact life_unlink

/-- `relocate` leaves the group's queue entry and its epoch alone. -/
theorem entry_relocate (now : Nat) (placement : Placement) :
    (g.relocate now id placement).armed = g.armed ∧
      (g.relocate now id placement).epoch = g.epoch := by
  have hunlink : (g.unlink id).armed = g.armed ∧ (g.unlink id).epoch = g.epoch := by
    rw [unlink, unlinkDelayed]
    split <;> exact ⟨rfl, rfl⟩
  cases placement with
  | unchanged => exact ⟨rfl, rfl⟩
  | now => exact hunlink
  | after ms =>
    rw [relocate, pushDelayed]
    split <;> exact hunlink
  | dropped => exact hunlink

/-! ### Places -/

/-- The **collections** hold each task where `spot` says: `some false` in the batches, `some true`
among the delayed ones under its own key, `none` nowhere; no task stands twice, and `delayed` is in
the order of the deadlines. -/
structure Placed (g : Group) (spot : Nat → Option Bool) : Prop where
  /-- No more was taken from the batch than there is. -/
  cursor_le : g.cursor ≤ g.active.length
  /-- A task has one turn. -/
  nodup_ready : g.ready.Nodup
  /-- A task waits once. -/
  nodup_delayed : (g.delayed.map Delayed.task).Nodup
  /-- The batches hold the tasks with a run queued without delay. -/
  mem_ready : ∀ i, i ∈ g.ready ↔ spot i = some false
  /-- A task that waits does so under its deadline, its number and its name. -/
  mem_delayed : ∀ k, k ∈ g.delayed ↔ g.key? k.task = some k
  /-- The tasks that have a deadline are those that wait out a delay. -/
  isSome_key : ∀ i, (g.key? i).isSome = true ↔ spot i = some true
  /-- The earliest deadline comes first. -/
  ascending : g.delayed.Pairwise (·.deadline ≤ ·.deadline)

namespace Placed

variable {spot : Nat → Option Bool}

/-- In the empty group no task has a spot. -/
theorem empty : Group.empty.Placed fun _ => none where
  cursor_le := Nat.le_refl 0
  nodup_ready := List.nodup_nil
  nodup_delayed := List.nodup_nil
  mem_ready _ := iff_of_false List.not_mem_nil (nomatch ·)
  mem_delayed _ := iff_of_false List.not_mem_nil (nomatch ·)
  isSome_key _ := iff_of_false Bool.false_ne_true (nomatch ·)
  ascending := .nil

/-- `Placed` depends on the collections and the keys only. -/
theorem congr {g' : Group} (h : g.Placed spot) (ha : g'.active = g.active)
    (hc : g'.cursor = g.cursor) (hs : g'.scheduled = g.scheduled) (hd : g'.delayed = g.delayed)
    (hk : ∀ i, g'.key? i = g.key? i) : g'.Placed spot := by
  have hr : g'.ready = g.ready := by rw [ready, ready, left, left, ha, hc, hs]
  exact {
    cursor_le := by rw [ha, hc]; exact h.cursor_le
    nodup_ready := hr ▸ h.nodup_ready
    nodup_delayed := hd ▸ h.nodup_delayed
    mem_ready := hr ▸ h.mem_ready
    mem_delayed := fun k => by rw [hd, hk]; exact h.mem_delayed k
    isSome_key := fun i => by rw [hk]; exact h.isSome_key i
    ascending := hd ▸ h.ascending }

/-- `Placed` depends on the values of `spot` only. -/
theorem congr_spot {spot' : Nat → Option Bool} (h : g.Placed spot) (hs : ∀ i, spot' i = spot i) :
    g.Placed spot' :=
  funext hs ▸ h

/-- A key in `delayed` has a task whose spot is `some true`. -/
theorem spot_of_mem_delayed (h : g.Placed spot) {k : Delayed} (hk : k ∈ g.delayed) :
    spot k.task = some true :=
  (h.isSome_key _).1 (Option.isSome_of_eq_some ((h.mem_delayed k).1 hk))

/-- The tasks in `delayed` are those whose spot is `some true`. -/
theorem mem_waiting (h : g.Placed spot) :
    i ∈ g.delayed.map Delayed.task ↔ spot i = some true := by
  constructor
  · intro hi
    obtain ⟨k, hk, rfl⟩ := List.mem_map.1 hi
    exact h.spot_of_mem_delayed hk
  · intro hi
    obtain ⟨k, hk⟩ := Option.isSome_iff_exists.1 ((h.isSome_key i).2 hi)
    have hid : k.task = i := task_of_key? hk
    exact List.mem_map.2 ⟨k, (h.mem_delayed k).2 (hid.symm ▸ hk), hid⟩

/-- An update of `spot` between two values other than `y` does not matter to who has spot `y`. -/
theorem update_eq_iff {x y : Option Bool} (hid : spot id ≠ y) (hx : x ≠ y) :
    Function.update spot id x i = y ↔ spot i = y := by
  rw [Function.update_apply]
  split
  · rename_i heq
    rw [heq]
    exact iff_of_false hx hid
  · exact Iff.rfl

/-! ### Leaving a place -/

/-- `unlinkReady` takes the task out of what is left of the batch. -/
theorem left_unlinkReady (hc : g.cursor ≤ g.active.length) :
    (g.unlinkReady id).left = g.left.erase id :=
  List.drop_left' (List.length_take_of_le hc)

/-- `unlinkDelayed` of a task with a key clears its spot. -/
theorem unlinkDelayed (h : g.Placed spot) {k : Delayed} (hk : g.key? id = some k) :
    (g.unlinkDelayed id).Placed (Function.update spot id none) := by
  have hid : k.task = id := task_of_key? hk
  have hkey : ∀ i, (g.unlinkDelayed id).key? i = if id = i then none else g.key? i := fun i => by
    rw [Group.unlinkDelayed, hk]
    exact key?_modify_of_none fun _ => rfl
  have hdelayed : (g.unlinkDelayed id).delayed = g.delayed.erase k := by
    rw [Group.unlinkDelayed, hk]
  have hmem : ∀ m, m ∈ g.delayed.erase k ↔ m ∈ g.delayed ∧ id ≠ m.task := fun m => by
    rw [(List.Nodup.of_map _ h.nodup_delayed).mem_erase_iff, and_comm, and_congr_right_iff]
    intro hm
    rw [h.mem_delayed] at hm
    refine not_congr ⟨fun heq => heq ▸ hid.symm, fun heq => ?_⟩
    rw [← heq, hk] at hm
    exact (Option.some.inj hm).symm
  have hready : (g.unlinkDelayed id).ready = g.ready := by
    rw [Group.unlinkDelayed, hk]
    rfl
  have hwaits : spot id = some true := (h.isSome_key id).1 (Option.isSome_of_eq_some hk)
  exact {
    cursor_le := by
      rw [Group.unlinkDelayed, hk]
      exact h.cursor_le
    nodup_ready := hready ▸ h.nodup_ready
    nodup_delayed := by
      rw [hdelayed]
      exact (List.erase_sublist.map _).nodup h.nodup_delayed
    mem_ready := fun i => by
      rw [hready, update_eq_iff (by simp [hwaits]) (by simp)]
      exact h.mem_ready i
    mem_delayed := fun m => by
      rw [hdelayed, hmem, hkey]
      split
      · rename_i heq
        exact iff_of_false (fun hm => hm.2 heq) (nomatch ·)
      · rename_i hne
        rw [and_iff_left hne]
        exact h.mem_delayed m
    isSome_key := fun i => by
      rw [hkey, Function.update_apply]
      by_cases heq : id = i
      · rw [if_pos heq, if_pos heq.symm]
        exact iff_of_false Bool.false_ne_true (nomatch ·)
      · rw [if_neg heq, if_neg (Ne.symm heq)]
        exact h.isSome_key i
    ascending := by
      rw [hdelayed]
      exact h.ascending.sublist List.erase_sublist }

/-- `unlinkReady` of a task that is not delayed clears its spot, if it had one. -/
theorem unlinkReady (h : g.Placed spot) (hid : spot id ≠ some true) :
    (g.unlinkReady id).Placed (Function.update spot id none) := by
  have hleft : (g.unlinkReady id).left = g.left.erase id := left_unlinkReady h.cursor_le
  have hnodup := List.nodup_append.1 h.nodup_ready
  have hmem : ∀ i, i ∈ (g.unlinkReady id).ready ↔ i ≠ id ∧ i ∈ g.ready := fun i => by
    rw [ready, hleft, ready, List.mem_append, List.mem_append, hnodup.1.mem_erase_iff, and_or_left]
    refine or_congr_right ?_
    rw [Group.unlinkReady, List.mem_filter, decide_eq_true_eq, and_comm]
  exact {
    cursor_le := by
      show g.cursor ≤ (g.active.take g.cursor ++ _).length
      rw [List.length_append, List.length_take_of_le h.cursor_le]
      omega
    nodup_ready := by
      rw [ready, hleft]
      exact (List.erase_sublist.append List.filter_sublist).nodup h.nodup_ready
    nodup_delayed := h.nodup_delayed
    mem_ready := fun i => by
      rw [hmem, Function.update_apply]
      split
      · rename_i heq
        exact iff_of_false (fun hn => hn.1 heq) (nomatch ·)
      · rename_i hne
        rw [and_iff_right hne]
        exact h.mem_ready i
    mem_delayed := h.mem_delayed
    isSome_key := fun i => by
      rw [update_eq_iff hid (by simp)]
      exact h.isSome_key i
    ascending := h.ascending }

/-- `unlink` clears the spot, whatever it was. -/
theorem unlink (h : g.Placed spot) (id : Nat) :
    (g.unlink id).Placed (Function.update spot id none) := by
  rw [Group.unlink]
  cases hk : g.key? id with
  | none =>
    have hid : spot id ≠ some true := fun hs => by
      have := (h.isSome_key id).2 hs
      rw [hk] at this
      cases this
    rw [Group.unlinkDelayed, hk]
    exact h.unlinkReady hid
  | some k =>
    have hid : Function.update spot id none id ≠ some true := by
      rw [Function.update_self]
      exact nofun
    have h' := (h.unlinkDelayed hk).unlinkReady hid
    rwa [Function.update_idem] at h'

/-! ### Taking a place -/

/-- `pushReady` of a task without a spot makes it `some false`. -/
theorem pushReady (h : g.Placed spot) (hid : spot id = none) :
    (g.pushReady id).Placed (Function.update spot id (some false)) := by
  have hready : (g.pushReady id).ready = g.ready ++ [id] := (List.append_assoc ..).symm
  have hnot : id ∉ g.ready := fun hmem => by
    rw [h.mem_ready, hid] at hmem
    cases hmem
  exact {
    cursor_le := h.cursor_le
    nodup_ready := by
      rw [hready, List.nodup_append_comm]
      exact List.nodup_cons.2 ⟨hnot, h.nodup_ready⟩
    nodup_delayed := h.nodup_delayed
    mem_ready := fun i => by
      rw [hready, List.mem_append, List.mem_singleton, Function.update_apply, h.mem_ready]
      split
      · rename_i heq
        exact iff_of_true (Or.inr heq) rfl
      · rename_i hne
        exact or_iff_left hne
    mem_delayed := h.mem_delayed
    isSome_key := fun i => by
      rw [update_eq_iff (by simp [hid]) (by simp)]
      exact h.isSome_key i
    ascending := h.ascending }

/-- `pushDelayed` of a task without a spot makes it `some true`. -/
theorem pushDelayed (h : g.Placed spot) (hid : spot id = none) (hlt : id < g.members.size)
    (deadline : Nat) :
    (g.pushDelayed id deadline).Placed (Function.update spot id (some true)) := by
  have hm : g.members[id]? = some g.members[id] := Array.getElem?_eq_getElem hlt
  generalize g.members[id] = m at hm
  have heq : g.pushDelayed id deadline =
      { g.modify id fun m => { m with deadline := some deadline } with
        delayed := insertBy Delayed.before (· == ·) ⟨deadline, id, m.name⟩ g.delayed } := by
    rw [Group.pushDelayed, hm]
  have hkey : ∀ i, (g.pushDelayed id deadline).key? i =
      if id = i then some ⟨deadline, id, m.name⟩ else g.key? i := fun i => by
    rw [heq]
    exact key?_modify_of_some hm rfl rfl
  have hnot : ∀ k ∈ g.delayed, k.task ≠ id := fun k hk heq => by
    have := h.spot_of_mem_delayed hk
    rw [heq, hid] at this
    cases this
  have hperm : (g.pushDelayed id deadline).delayed.Perm (⟨deadline, id, m.name⟩ :: g.delayed) := by
    rw [heq]
    exact insertBy_perm_of_not_mem fun hk => hnot _ hk rfl
  have hready : (g.pushDelayed id deadline).ready = g.ready := by
    rw [heq]
    rfl
  exact {
    cursor_le := by
      rw [heq]
      exact h.cursor_le
    nodup_ready := hready ▸ h.nodup_ready
    nodup_delayed := by
      rw [(hperm.map _).nodup_iff, List.map_cons, List.nodup_cons]
      refine ⟨fun hmem => ?_, h.nodup_delayed⟩
      obtain ⟨k, hk, hkid⟩ := List.mem_map.1 hmem
      exact hnot k hk hkid
    mem_ready := fun i => by
      rw [hready, update_eq_iff (by simp [hid]) (by simp)]
      exact h.mem_ready i
    mem_delayed := fun k => by
      rw [hperm.mem_iff, List.mem_cons, hkey]
      split
      · rename_i heq
        rw [Option.some.injEq, eq_comm]
        exact or_iff_left fun hk => hnot k hk heq.symm
      · rename_i hne
        rw [← h.mem_delayed]
        exact or_iff_right fun heq => hne (heq ▸ rfl)
    isSome_key := fun i => by
      rw [hkey, Function.update_apply]
      by_cases heq : id = i
      · rw [if_pos heq, if_pos heq.symm]
        exact iff_of_true rfl rfl
      · rw [if_neg heq, if_neg (Ne.symm heq)]
        exact h.isSome_key i
    ascending := by
      rw [heq]
      exact Delayed.pairwise_insert h.ascending }

/-! ### Moving -/

/-- `relocate` makes the spot what the placement says, and **changes no other spot**. -/
theorem relocate (h : g.Placed spot) (hlt : id < g.members.size) (now : Nat)
    (placement : Placement) :
    (g.relocate now id placement).Placed
      (Function.update spot id (placement.queued? (spot id))) := by
  have hout := h.unlink id
  have hid : Function.update spot id none id = none := Function.update_self id none spot
  cases placement with
  | unchanged => exact h.congr_spot fun i => by rw [Placement.queued?, Function.update_eq_self]
  | now => exact (hout.pushReady hid).congr_spot fun i => by rw [Function.update_idem]; rfl
  | after ms =>
    refine (hout.pushDelayed hid ?_ (now + millis ms)).congr_spot fun i => ?_
    · rwa [size_unlink]
    · rw [Function.update_idem]
      rfl
  | dropped => exact hout

/-- Moving the cursor over the first task that is left clears its spot. -/
theorem advance (h : g.Placed spot) {ids : List Nat} (hleft : g.left = id :: ids) :
    ({ g with cursor := g.cursor + 1 } : Group).Placed (Function.update spot id none) := by
  have hcursor : g.cursor < g.active.length := by
    rw [← Nat.not_le, ← List.drop_eq_nil_iff]
    exact fun hnil => nomatch hnil.symm.trans hleft
  have hready : ({ g with cursor := g.cursor + 1 } : Group).ready = ids ++ g.scheduled := by
    rw [ready, left, ← List.drop_drop]
    exact congrArg (·.drop 1 ++ g.scheduled) hleft
  have hcons : g.ready = id :: (ids ++ g.scheduled) := congrArg (· ++ g.scheduled) hleft
  have hnodup := List.nodup_cons.1 (hcons ▸ h.nodup_ready)
  have hid : spot id = some false := (h.mem_ready id).1 (hcons ▸ List.mem_cons_self)
  exact {
    cursor_le := hcursor
    nodup_ready := hready ▸ hnodup.2
    nodup_delayed := h.nodup_delayed
    mem_ready := fun i => by
      rw [hready, Function.update_apply]
      split
      · rename_i heq
        exact iff_of_false (heq ▸ hnodup.1) (nomatch ·)
      · rename_i hne
        rw [← h.mem_ready, hcons, List.mem_cons]
        exact (or_iff_right hne).symm
    mem_delayed := h.mem_delayed
    isSome_key := fun i => by
      rw [update_eq_iff (by simp [hid]) (by simp)]
      exact h.isSome_key i
    ascending := h.ascending }

/-- A batch of which nothing is left may be cleared. -/
theorem clear (h : g.Placed spot) (hleft : g.left = []) :
    ({ g with active := [], cursor := 0 } : Group).Placed spot := by
  have hready : ({ g with active := [], cursor := 0 } : Group).ready = g.ready := by
    rw [ready, ready, hleft]
    rfl
  exact { h with
    cursor_le := Nat.le_refl 0
    nodup_ready := hready ▸ h.nodup_ready
    mem_ready := hready ▸ h.mem_ready }

/-- When nothing is left of the batch, `swap` keeps every spot: the next batch **takes its
place**. -/
theorem swap (h : g.Placed spot) (hleft : g.left = []) : g.swap.Placed spot := by
  have hready : g.swap.ready = g.ready := by
    rw [ready, ready, hleft]
    exact List.append_nil _
  exact { h with
    cursor_le := Nat.zero_le _
    nodup_ready := hready ▸ h.nodup_ready
    mem_ready := hready ▸ h.mem_ready }

/-- Taking the first key off `delayed` and pushing its task to the next batch makes its spot `some
false`, whatever becomes of its lifecycle. -/
theorem ripenHead {k : Delayed} {ks : List Delayed} {f : Member → Member}
    (h : ({ g with delayed := k :: ks } : Group).Placed spot) (hf : ∀ m, (f m).deadline = none) :
    ({ (g.modify k.task f).pushReady k.task with delayed := ks } : Group).Placed
      (Function.update spot k.task (some false)) := by
  have hk : ({ g with delayed := k :: ks } : Group).key? k.task = some k :=
    (h.mem_delayed k).1 List.mem_cons_self
  have h' := (h.unlinkDelayed hk).pushReady (Function.update_self ..)
  rw [Function.update_idem, Group.unlinkDelayed, hk] at h'
  refine h'.congr rfl rfl rfl (List.erase_cons_head ..).symm fun i => ?_
  exact (key?_modify_of_none hf).trans (key?_modify_of_none fun _ => rfl).symm

end Placed

end Group

end TurnPool
