import TurnPool.Proofs.GroupTurns

/-!
# How the next run is found

A group looks for its next run in the batch that is worked off; when nobody is left there, those
whose delay is over join the next batch, which takes its place, and the search goes on. What is said
of a claim elsewhere rests on collections that agree with the tasks. Here nothing of the kind is
assumed: a task may stand in several collections or several times in one, and may be in any state.
The search ends all the same, it finds who is first in line, and it loses nobody who could run.

## The line

Whoever may run at an instant stands in one line (`Group.line`): what is left of the batch, then the
next batch, then those whose delay is over. The collections tell no more of the order than they do
at any time: that those who wait out a delay are kept in the order of their deadlines, then of their
numbers, then of their names.

## Main results

* `Group.claimFirst_of_split`, `claimFirst_of_none`: what becomes of a batch.
* `Group.search_eq`: the search, turn by turn, comes to `Group.nextReady` and ends.
* `Group.line_nextReady`: who stood in line still does, but for the one who runs and those ahead of
  it, who could not.
* `Group.next_run_found`: **what the search for the next run does**, whatever the collections hold.
-/

namespace TurnPool

namespace Member

/-- The record of a task whose delay is over. -/
def ripened (m : Member) : Member := { m with deadline := none, life := m.life.ripen }

/-- The record of a task whose run is claimed. -/
def started (m : Member) : Member :=
  { m with life := { m.life with state := .inFlight false } }

end Member

namespace Group

variable {g : Group} {now id i : Nat} {ids skipped rest : List Nat}

/-! ### Who can run -/

/-- Whether a run of task `id` is scheduled by its state. -/
def canRun (g : Group) (id : Nat) : Bool := (g.life id).state.isScheduled

/-- The tasks whose deadline is up to `now`, in the order in which they join the next batch. -/
def ripe (now : Nat) (g : Group) : List Nat :=
  (g.delayed.filter fun k => k.deadline ≤ now).map Delayed.task

/-- The tasks in the order in which a run is looked for: what is left of the batch, the next batch,
and those whose delay is over. -/
def line (now : Nat) (g : Group) : List Nat := g.ready ++ g.ripe now

/-- A task that `canRun` is claimed, and no other one is. -/
theorem claim_eq (g : Group) (id : Nat) :
    (g.members[id]?.bind fun m => m.life.claim) =
      if g.canRun id then some { g.life id with state := .inFlight false } else none := by
  rw [canRun, life]
  cases g.members[id]? with
  | none => rfl
  | some m =>
    rw [Option.bind_some, Option.map_some, Option.getD_some, Lifecycle.claim]
    cases m.life.state <;> rfl

/-- The group in which `id` was claimed from the batch after `passed` others were passed over. -/
def claimed (id passed : Nat) (g : Group) : Group :=
  { g.modify id Member.started with cursor := g.cursor + passed + 1 }

/-- Claiming changes the state of the record only. -/
theorem modify_claimed (g : Group) (id : Nat) :
    (g.modify id fun m => { m with life := { g.life id with state := .inFlight false } }) =
      g.modify id Member.started := by
  rw [modify, modify]
  congr 1
  refine Array.ext_getElem? fun i => ?_
  rw [Array.getElem?_modify, Array.getElem?_modify]
  split
  · rename_i heq
    subst heq
    rw [life]
    cases g.members[id]? <;> rfl
  · rfl

/-- `claimFirst` **passes over** those that cannot run and claims the first that can. -/
theorem claimFirst_of_split (hskip : ∀ i ∈ skipped, g.canRun i = false)
    (hrun : g.canRun id = true) :
    claimFirst (skipped ++ id :: rest) g = (some id, g.claimed id skipped.length) := by
  induction skipped generalizing g with
  | nil =>
    rw [List.nil_append, claimFirst, claim_eq, if_pos hrun]
    exact congrArg (fun h => (some id, { h with cursor := g.cursor + 1 })) (modify_claimed g id)
  | cons i is ih =>
    rw [List.cons_append, claimFirst, claim_eq, hskip i List.mem_cons_self,
      if_neg Bool.false_ne_true]
    have hnext := ih (g := { g with cursor := g.cursor + 1 })
      (fun j hj => hskip j (List.mem_cons_of_mem _ hj)) hrun
    refine hnext.trans ?_
    rw [claimed, claimed, List.length_cons, Nat.add_right_comm g.cursor, Nat.add_assoc g.cursor]
    rfl

/-- `claimFirst` **clears** a batch in which none can run. -/
theorem claimFirst_of_none (hnone : ∀ i ∈ ids, g.canRun i = false) :
    claimFirst ids g = (none, { g with active := [], cursor := 0 }) := by
  induction ids generalizing g with
  | nil => rfl
  | cons i is ih =>
    rw [claimFirst, claim_eq, hnone i List.mem_cons_self, if_neg Bool.false_ne_true]
    exact ih (g := { g with cursor := g.cursor + 1 }) fun j hj =>
      hnone j (List.mem_cons_of_mem _ hj)

/-- A list holds a first task that can run, or none that can. -/
theorem split_or_none (g : Group) (ids : List Nat) :
    (∃ skipped id rest, ids = skipped ++ id :: rest ∧ (∀ i ∈ skipped, g.canRun i = false) ∧
      g.canRun id = true) ∨ ∀ i ∈ ids, g.canRun i = false := by
  cases hfind : ids.find? g.canRun with
  | none =>
    exact Or.inr fun i hi => Bool.eq_false_iff.2 (List.find?_eq_none.1 hfind i hi)
  | some id =>
    obtain ⟨hrun, skipped, rest, heq, hskip⟩ := List.find?_eq_some_iff_append.1 hfind
    refine Or.inl ⟨skipped, id, rest, heq, fun i hi => ?_, hrun⟩
    simpa using hskip i hi

/-! ### The next batch -/

/-- If `delayed` is in the order of the keys, those whose deadline is up to `now` stand **before all
others**. -/
theorem delayed_split {ks : List Delayed} (h : ks.Pairwise fun k m => k.before m = true)
    (now : Nat) :
    (ks.takeWhile fun k => k.deadline ≤ now) = (ks.filter fun k => k.deadline ≤ now) ∧
      (ks.dropWhile fun k => k.deadline ≤ now) = ks.filter fun k => now < k.deadline := by
  induction ks with
  | nil => exact ⟨rfl, rfl⟩
  | cons k ks ih =>
    obtain ⟨hk, hks⟩ := List.pairwise_cons.1 h
    obtain ⟨htake, hdrop⟩ := ih hks
    by_cases hle : k.deadline ≤ now
    · rw [List.takeWhile_cons_of_pos (by simpa using hle),
        List.filter_cons_of_pos (by simpa using hle), htake,
        List.dropWhile_cons_of_pos (by simpa using hle),
        List.filter_cons_of_neg (by simpa using hle), hdrop]
      exact ⟨rfl, rfl⟩
    · have hlate : ∀ m ∈ k :: ks, now < m.deadline := fun m hm => by
        rcases List.mem_cons.1 hm with rfl | hm
        · omega
        · have hkm := Delayed.deadline_le_of_before (hk m hm)
          omega
      rw [List.takeWhile_cons_of_neg (by simpa using hle),
        List.dropWhile_cons_of_neg (by simpa using hle)]
      refine ⟨(List.filter_eq_nil_iff.2 fun m hm => ?_).symm,
        (List.filter_eq_self.2 fun m hm => ?_).symm⟩
      · have hm := hlate m hm
        simp only [decide_eq_true_eq]
        omega
      · simpa using hlate m hm

/-- `ripen` ends the delay of those whose deadline is up to `now`, and changes **no other
record**. -/
theorem members_ripen (now : Nat) (ks : List Delayed) (g : Group) (i : Nat) :
    (ripen now ks g).members[i]? =
      if i ∈ (ks.takeWhile fun k => k.deadline ≤ now).map Delayed.task
      then g.members[i]?.map Member.ripened else g.members[i]? := by
  induction ks generalizing g with
  | nil => rfl
  | cons k ks ih =>
    rw [ripen]
    by_cases hlt : now < k.deadline
    · rw [if_pos hlt, List.takeWhile_cons_of_neg (by simpa using hlt)]
      rfl
    · have hone : ((g.modify k.task Member.ripened).pushReady k.task).members[i]? =
          if k.task = i then g.members[i]?.map Member.ripened else g.members[i]? :=
        getElem?_modify Member.ripened
      rw [if_neg hlt, List.takeWhile_cons_of_pos (by simpa using hlt), List.map_cons]
      refine (ih ((g.modify k.task Member.ripened).pushReady k.task)).trans ?_
      simp only [hone, List.mem_cons]
      by_cases hk : k.task = i
      · rw [if_pos hk, if_pos (Or.inl hk.symm)]
        split
        · rw [Option.map_map]
          congr 1
          funext m
          exact congrArg (fun l => ({ m with deadline := none, life := l } : Member))
            Lifecycle.ripen_ripen
        · rfl
      · rw [if_neg hk]
        exact if_congr (or_iff_right (Ne.symm hk)).symm rfl rfl

/-- `ripen` does not change which tasks can run. -/
theorem canRun_ripen (now : Nat) (ks : List Delayed) (g : Group) (i : Nat) :
    (ripen now ks g).canRun i = g.canRun i := by
  rw [canRun, canRun, life, life, members_ripen]
  split
  · cases g.members[i]? with
    | none => rfl
    | some m => exact TaskState.isScheduled_ripen m.life.state
  · rfl

/-- `ripen` changes the members and the two collections it moves between, and nothing else. -/
theorem ripen_eq (now : Nat) (ks : List Delayed) (g : Group) :
    ∃ members scheduled delayed,
      ripen now ks g = { g with members, scheduled, delayed } := by
  induction ks generalizing g with
  | nil => exact ⟨_, _, _, rfl⟩
  | cons k ks ih =>
    rw [ripen]
    split
    · exact ⟨_, _, _, rfl⟩
    · obtain ⟨members, scheduled, delayed, heq⟩ := ih
        ((g.modify k.task fun m => { m with deadline := none, life := m.life.ripen }).pushReady
          k.task)
      exact ⟨members, scheduled, delayed, heq⟩

/-- The group whose next batch, with those whose delay is over, takes the place of a batch that was
worked off. -/
def renewed (now : Nat) (g : Group) : Group :=
  (ripen now g.delayed { g with active := [], cursor := 0 }).swap

section Renewed

variable (hordered : g.delayed.Pairwise fun k m => k.before m = true)

include hordered

/-- The batch of `g.renewed now` is the next batch of `g` and those whose delay is over. -/
theorem left_renewed : (g.renewed now).left = g.scheduled ++ g.ripe now := by
  have hscheduled := scheduled_ripen now g.delayed { g with active := [], cursor := 0 }
  rw [(delayed_split hordered now).1] at hscheduled
  exact hscheduled

/-- Delayed in `g.renewed now` are those whose deadline is after `now`. -/
theorem delayed_renewed :
    (g.renewed now).delayed = g.delayed.filter fun k => now < k.deadline :=
  (delayed_ripen now g.delayed { g with active := [], cursor := 0 }).trans
    (delayed_split hordered now).2

/-- The records of `g.renewed now`: ripened for those whose delay is over. -/
theorem members_renewed : (g.renewed now).members[i]? =
    if i ∈ g.ripe now then g.members[i]?.map Member.ripened else g.members[i]? := by
  have hmembers := members_ripen now g.delayed { g with active := [], cursor := 0 } i
  rw [(delayed_split hordered now).1] at hmembers
  exact hmembers

end Renewed

/-- `renewed` does not change which tasks can run. -/
theorem canRun_renewed : (g.renewed now).canRun i = g.canRun i :=
  canRun_ripen now g.delayed { g with active := [], cursor := 0 } i

/-! ### The search -/

/-- How a search came out: the claimed task, if one was found, and the group. -/
abbrev Found := Option Nat × Group

/-- One turn of the search. The task at the cursor is looked at; once none is left, those whose
delay is over join the next batch, which takes its place, and if that is empty too the search is
over. -/
def turn (now : Nat) (g : Group) : Found ⊕ Group :=
  match g.active[g.cursor]? with
  | some id =>
    match g.members[id]?.bind fun m => m.life.claim with
    | some l =>
      .inl (some id, { g.modify id fun m => { m with life := l } with cursor := g.cursor + 1 })
    | none => .inr { g with cursor := g.cursor + 1 }
  | none =>
    let g' : Group := { ripen now g.delayed g with active := [], cursor := 0 }
    if g'.scheduled = [] then .inl (none, g') else .inr g'.swap

/-- The search, if it is over within `n` turns. -/
def search (now : Nat) : Nat → Group → Option Found
  | 0, _ => none
  | n + 1, g =>
    match turn now g with
    | .inl found => some found
    | .inr g' => search now n g'

/-- Tasks of the batch that cannot run are passed over, **one in each turn**. -/
theorem search_skip (hleft : g.left = skipped ++ rest)
    (hskip : ∀ i ∈ skipped, g.canRun i = false) (n : Nat) :
    search now (skipped.length + n) g =
      search now n { g with cursor := g.cursor + skipped.length } := by
  induction skipped generalizing g with
  | nil => rw [List.length_nil, Nat.zero_add, Nat.add_zero]
  | cons i is ih =>
    have hat : g.active[g.cursor]? = some i := by
      rw [← List.head?_drop, ← left, hleft]
      rfl
    have hrest : ({ g with cursor := g.cursor + 1 } : Group).left = is ++ rest := by
      rw [left, ← List.drop_drop]
      exact congrArg (List.drop 1) hleft
    rw [List.length_cons, Nat.add_right_comm, search, turn]
    simp only [hat, claim_eq, hskip i List.mem_cons_self]
    refine (ih hrest fun j hj => hskip j (List.mem_cons_of_mem _ hj)).trans ?_
    rw [Nat.add_right_comm g.cursor, Nat.add_assoc g.cursor]

/-- A turn at a task that **can run** ends the search with it. -/
theorem turn_of_canRun (hleft : g.left = id :: rest) (hrun : g.canRun id = true) :
    turn now g = .inl (some id, g.claimed id 0) := by
  have hat : g.active[g.cursor]? = some id := by
    rw [← List.head?_drop, ← left, hleft]
    rfl
  rw [turn]
  simp only [hat, claim_eq, if_pos hrun, modify_claimed]
  rfl

/-- Clearing the batch and `ripen` commute. -/
theorem ripen_clear (now : Nat) (ks : List Delayed) (g : Group) :
    ({ ripen now ks g with active := [], cursor := 0 } : Group) =
      ripen now ks { g with active := [], cursor := 0 } := by
  induction ks generalizing g with
  | nil => rfl
  | cons k ks ih =>
    rw [ripen, ripen]
    split
    · rfl
    · exact ih ((g.modify k.task Member.ripened).pushReady k.task)

/-- A turn when **none is left** renews the batch, or ends the search if that is empty too. -/
theorem turn_of_left (hleft : g.left = []) :
    turn now g = if (g.renewed now).left = [] then
      .inl (none, { g.renewed now with active := [], cursor := 0 }) else .inr (g.renewed now) := by
  have hat : g.active[g.cursor]? = none := by
    rw [← List.head?_drop, ← left, hleft]
    rfl
  rw [turn, renewed, ← ripen_clear]
  simp only [hat, swap, left, List.drop_zero]
  split
  · rename_i hnone
    rw [hnone]
  · rfl

/-- A batch with a task that can run **ends the search** with the first such task. -/
theorem search_of_split (hleft : g.left = skipped ++ id :: rest)
    (hskip : ∀ i ∈ skipped, g.canRun i = false) (hrun : g.canRun id = true) {n : Nat}
    (hn : skipped.length < n) : search now n g = some (some id, g.claimed id skipped.length) := by
  obtain ⟨m, rfl⟩ := Nat.exists_eq_add_of_lt hn
  have hnext : ({ g with cursor := g.cursor + skipped.length } : Group).left = id :: rest := by
    rw [left, ← List.drop_drop, ← left, hleft, List.drop_left]
  rw [Nat.add_assoc, search_skip hleft hskip, search, turn_of_canRun hnext hrun]
  rfl

/-- A batch in which none can run **gives way to the next one**, or ends the search if that is
empty. -/
theorem search_of_none (hnone : ∀ i ∈ g.left, g.canRun i = false) (n : Nat) :
    search now (g.left.length + (n + 1)) g =
      if (g.renewed now).left = [] then
        some (none, { g.renewed now with active := [], cursor := 0 })
      else search now n (g.renewed now) := by
  have hempty : ({ g with cursor := g.cursor + g.left.length } : Group).left = [] := by
    rw [left, ← List.drop_drop, ← left, List.drop_length]
  rw [search_skip (List.append_nil _).symm hnone, search, turn_of_left hempty,
    show renewed now { g with cursor := g.cursor + g.left.length } = g.renewed now from rfl]
  by_cases hnext : (g.renewed now).left = []
  · rw [if_pos hnext, if_pos hnext]
  · rw [if_neg hnext, if_neg hnext]

/-- `renewed` twice at one instant leaves an **empty batch**. -/
theorem renewed_renewed (hordered : g.delayed.Pairwise fun k m => k.before m = true) :
    (g.renewed now).renewed now = { g.renewed now with active := [], cursor := 0 } := by
  have hlate : ∀ k ∈ (g.renewed now).delayed, now < k.deadline := fun k hk => by
    rw [delayed_renewed hordered] at hk
    simpa using (List.mem_filter.1 hk).2
  have hscheduled : (g.renewed now).scheduled = [] := rfl
  generalize g.renewed now = h at hlate hscheduled
  have hripen : ∀ h' : Group, ripen now h.delayed h' = { h' with delayed := h.delayed } := by
    intro h'
    cases hd : h.delayed with
    | nil => rfl
    | cons k ks => rw [ripen, if_pos (hlate k (hd ▸ List.mem_cons_self))]
  simp only [renewed, hripen, swap, hscheduled]

/-- What `nextReady` **comes to**: it claims the first of the batch that can run, or of the renewed
batch, or there is none in either. -/
theorem nextReady_cases (g : Group) (now : Nat) :
    (∃ skipped id rest, g.left = skipped ++ id :: rest ∧ (∀ i ∈ skipped, g.canRun i = false) ∧
      g.canRun id = true ∧ nextReady now g = (some id, g.claimed id skipped.length)) ∨
    (∃ skipped id rest, (∀ i ∈ g.left, g.canRun i = false) ∧
      (g.renewed now).left = skipped ++ id :: rest ∧ (∀ i ∈ skipped, g.canRun i = false) ∧
      g.canRun id = true ∧ nextReady now g = (some id, (g.renewed now).claimed id skipped.length)) ∨
    ((∀ i ∈ g.left, g.canRun i = false) ∧ (∀ i ∈ (g.renewed now).left, g.canRun i = false) ∧
      nextReady now g = (none, { g.renewed now with active := [], cursor := 0 })) := by
  rcases g.split_or_none g.left with ⟨skipped, id, rest, hleft, hskip, hrun⟩ | hnone
  · refine Or.inl ⟨skipped, id, rest, hleft, hskip, hrun, ?_⟩
    rw [nextReady, hleft, claimFirst_of_split hskip hrun]
  · right
    have hnext : nextReady now g = claimFirst (g.renewed now).left (g.renewed now) := by
      rw [nextReady, claimFirst_of_none hnone]
      rfl
    rcases g.split_or_none (g.renewed now).left with
      ⟨skipped, id, rest, hleft, hskip, hrun⟩ | hnone'
    · refine Or.inl ⟨skipped, id, rest, hnone, hleft, hskip, hrun, ?_⟩
      rw [hnext, hleft]
      exact claimFirst_of_split (fun i hi => canRun_renewed.trans (hskip i hi))
        (canRun_renewed.trans hrun)
    · refine Or.inr ⟨hnone, hnone', ?_⟩
      rw [hnext]
      exact claimFirst_of_none fun i hi => canRun_renewed.trans (hnone' i hi)

/-- Within two turns more than there are tasks in line **the search is over, and comes to
`nextReady`**. -/
theorem search_eq (hordered : g.delayed.Pairwise fun k m => k.before m = true) {n : Nat}
    (hn : (g.line now).length + 2 ≤ n) : search now n g = some (nextReady now g) := by
  rw [line, ready, List.append_assoc, List.length_append, ← left_renewed hordered] at hn
  rcases g.nextReady_cases now with ⟨skipped, id, rest, hleft, hskip, hrun, heq⟩ |
      ⟨skipped, id, rest, hnone, hleft, hskip, hrun, heq⟩ | ⟨hnone, hnone', heq⟩
  · rw [hleft, List.length_append, List.length_cons] at hn
    rw [heq, search_of_split hleft hskip hrun (by omega)]
  · obtain ⟨m, rfl⟩ := Nat.exists_eq_add_of_le (show g.left.length + 1 ≤ n by omega)
    rw [hleft, List.length_append, List.length_cons] at hn
    rw [heq, Nat.add_assoc, Nat.add_comm 1, search_of_none hnone, if_neg (by simp [hleft]),
      search_of_split hleft (fun i hi => canRun_renewed.trans (hskip i hi))
        (canRun_renewed.trans hrun) (by omega)]
  · obtain ⟨m, rfl⟩ := Nat.exists_eq_add_of_le (show g.left.length + 1 ≤ n by omega)
    rw [heq, Nat.add_assoc, Nat.add_comm 1, search_of_none hnone]
    split
    · rfl
    · obtain ⟨l, rfl⟩ := Nat.exists_eq_add_of_le
        (show (g.renewed now).left.length + 1 ≤ m by omega)
      rw [Nat.add_assoc, Nat.add_comm 1,
        search_of_none fun i hi => canRun_renewed.trans (hnone' i hi), renewed_renewed hordered,
        if_pos (show ({ g.renewed now with active := [], cursor := 0 } : Group).left = [] from rfl)]

/-! ### What is left in line -/

/-- After a claim the tasks behind the claimed one are left of the batch. -/
theorem left_claimed (hleft : g.left = skipped ++ id :: rest) :
    (g.claimed id skipped.length).left = rest := by
  have hdrop : g.active.drop (g.cursor + skipped.length + 1) =
      (g.left.drop skipped.length).drop 1 := by
    rw [left, List.drop_drop, List.drop_drop, Nat.add_assoc]
  rw [claimed, left]
  refine hdrop.trans ?_
  rw [hleft, List.drop_left]
  rfl

/-- After a claim the cursor is within the batch. -/
theorem cursor_claimed_le (hleft : g.left = skipped ++ id :: rest) :
    (g.claimed id skipped.length).cursor ≤ (g.claimed id skipped.length).active.length := by
  have hlength := congrArg List.length hleft
  rw [left, List.length_drop, List.length_append, List.length_cons] at hlength
  show g.cursor + skipped.length + 1 ≤ g.active.length
  omega

/-- The line before a claim is those passed over, the claimed task and **the line after it**. -/
theorem line_claimed (hleft : g.left = skipped ++ id :: rest) :
    g.line now = skipped ++ id :: (g.claimed id skipped.length).line now := by
  have hline : (g.claimed id skipped.length).line now = rest ++ (g.scheduled ++ g.ripe now) := by
    rw [line, ready, left_claimed hleft, List.append_assoc]
    rfl
  rw [hline, line, ready, hleft, List.append_assoc, List.append_assoc, List.cons_append]

/-- After `renewed` no task in `delayed` has a deadline up to `now`. -/
theorem ripe_renewed (hordered : g.delayed.Pairwise fun k m => k.before m = true) :
    (g.renewed now).ripe now = [] := by
  rw [ripe, delayed_renewed hordered, List.map_eq_nil_iff, List.filter_eq_nil_iff]
  intro k hk
  have hlate := (List.mem_filter.1 hk).2
  simp only [decide_eq_true_eq] at hlate ⊢
  omega

/-- The line is what is left of the batch and then the renewed batch. -/
theorem line_renewed (hordered : g.delayed.Pairwise fun k m => k.before m = true) (now : Nat) :
    g.line now = g.left ++ (g.renewed now).line now ∧
      (g.renewed now).line now = (g.renewed now).left := by
  have hself : (g.renewed now).line now = (g.renewed now).left := by
    rw [line, ready, ripe_renewed hordered, List.append_nil]
    exact List.append_nil _
  refine ⟨?_, hself⟩
  rw [hself, left_renewed hordered, line, ready, List.append_assoc]

/-- The line before `nextReady` is some tasks that cannot run, the claimed one, and **the line after
it**. -/
theorem line_nextReady (hordered : g.delayed.Pairwise fun k m => k.before m = true) (now : Nat) :
    ∃ passed, g.line now =
        passed ++ (nextReady now g).1.toList ++ (nextReady now g).2.line now ∧
      ∀ i ∈ passed, g.canRun i = false := by
  obtain ⟨hline, hself⟩ := line_renewed hordered now
  rcases g.nextReady_cases now with ⟨skipped, id, rest, hleft, hskip, -, heq⟩ |
      ⟨skipped, id, rest, hnone, hleft, hskip, -, heq⟩ | ⟨hnone, hnone', heq⟩
  · refine ⟨skipped, ?_, hskip⟩
    rw [heq, List.append_assoc]
    exact line_claimed hleft
  · refine ⟨g.left ++ skipped, ?_, fun i hi => (List.mem_append.1 hi).elim (hnone i) (hskip i)⟩
    rw [heq, hline, line_claimed hleft, List.append_assoc, List.append_assoc]
    rfl
  · refine ⟨g.left ++ (g.renewed now).left, ?_,
      fun i hi => (List.mem_append.1 hi).elim (hnone i) (hnone' i)⟩
    have hover : (nextReady now g).2.line now = [] := by
      rw [heq]
      exact ripe_renewed hordered
    rw [hover, heq, hline, hself, Option.toList_none, List.append_nil, List.append_nil]

/-- `nextReady` claims a task that **can run**, or none and then no task in line can. -/
theorem canRun_nextReady (hordered : g.delayed.Pairwise fun k m => k.before m = true) (now : Nat) :
    (∃ id, (nextReady now g).1 = some id ∧ g.canRun id = true) ∨
      ((nextReady now g).1 = none ∧ ∀ i ∈ g.line now, g.canRun i = false) := by
  rcases g.nextReady_cases now with ⟨_, id, _, -, -, hrun, heq⟩ | ⟨_, id, _, -, -, -, hrun, heq⟩ |
      ⟨hnone, hnone', heq⟩
  · exact Or.inl ⟨id, congrArg Prod.fst heq, hrun⟩
  · exact Or.inl ⟨id, congrArg Prod.fst heq, hrun⟩
  · refine Or.inr ⟨congrArg Prod.fst heq, fun i hi => ?_⟩
    obtain ⟨hline, hself⟩ := line_renewed hordered now
    rw [hline, hself] at hi
    exact (List.mem_append.1 hi).elim (hnone i) (hnone' i)

/-- `nextReady` claims the **first in line** that can run. -/
theorem nextReady_eq_find (hordered : g.delayed.Pairwise fun k m => k.before m = true) (now : Nat) :
    (nextReady now g).1 = (g.line now).find? g.canRun := by
  rcases canRun_nextReady hordered now with ⟨id, heq, hrun⟩ | ⟨heq, hnone⟩
  · obtain ⟨passed, hline, hpassed⟩ := line_nextReady hordered now
    rw [heq, Option.toList_some, List.append_assoc] at hline
    rw [heq]
    refine (List.find?_eq_some_iff_append.2 ⟨hrun, passed, _, hline, fun i hi => ?_⟩).symm
    rw [hpassed i hi]
    rfl
  · rw [heq]
    refine (List.find?_eq_none.2 fun i hi => ?_).symm
    rw [hnone i hi]
    exact Bool.false_ne_true

/-! ### The next run -/

/-- The records after a claim: started for the claimed task. -/
theorem members_claimed (id passed : Nat) (g : Group) (i : Nat) :
    (g.claimed id passed).members[i]? =
      g.members[i]?.map fun m => if some id = some i then m.started else m := by
  refine (getElem?_modify Member.started).trans ?_
  by_cases h : id = i
  · simp only [h, if_true]
  · simp only [h, Option.some.injEq, if_false, Option.map_id']

/-- The records of `g.renewed now`, member by member. -/
theorem members_renewed_map (hordered : g.delayed.Pairwise fun k m => k.before m = true) :
    (g.renewed now).members[i]? =
      g.members[i]?.map fun m => if i ∈ g.ripe now then m.ripened else m := by
  rw [members_renewed hordered]
  split
  · rfl
  · rw [Option.map_id']

/-- What `nextReady` leaves **apart from the line**: if a task of the batch can run, the next batch
and the delayed ones as they were; otherwise an empty next batch, and delayed those whose deadline
is after `now`. -/
theorem nextReady_rest (hordered : g.delayed.Pairwise fun k m => k.before m = true) (now : Nat) :
    let r := nextReady now g
    let inBatch := g.left.any g.canRun
    r.2.cursor ≤ r.2.active.length ∧
    (inBatch = true → r.2.scheduled = g.scheduled ∧ r.2.delayed = g.delayed) ∧
    (inBatch = false → r.2.scheduled = [] ∧
      r.2.delayed = g.delayed.filter fun k => now < k.deadline) ∧
    (∀ i, r.2.members[i]? = g.members[i]?.map fun m =>
      let m' := if inBatch = false ∧ i ∈ g.ripe now then m.ripened else m
      if r.1 = some i then m'.started else m') ∧
    r.2.armed = g.armed ∧ r.2.epoch = g.epoch := by
  intro r inBatch
  have hentry : (g.renewed now).armed = g.armed ∧ (g.renewed now).epoch = g.epoch := by
    obtain ⟨members, scheduled, delayed, heq⟩ :=
      ripen_eq now g.delayed { g with active := [], cursor := 0 }
    rw [renewed, heq]
    exact ⟨rfl, rfl⟩
  have hout : (∀ i ∈ g.left, g.canRun i = false) → inBatch = false := fun hnone =>
    List.any_eq_false.2 fun i hi => by rw [hnone i hi]; exact Bool.false_ne_true
  rcases g.nextReady_cases now with ⟨skipped, id, rest, hleft, -, hrun, heq⟩ |
      ⟨skipped, id, rest, hnone, hleft, -, -, heq⟩ | ⟨hnone, -, heq⟩
  · have hin : inBatch = true :=
      List.any_eq_true.2 ⟨id, hleft ▸ List.mem_append_right _ List.mem_cons_self, hrun⟩
    rw [show r = _ from heq, hin]
    refine ⟨cursor_claimed_le hleft, fun _ => ⟨rfl, rfl⟩, by simp, fun i => ?_, rfl, rfl⟩
    simp only [Bool.true_eq_false, false_and, if_false]
    exact members_claimed id skipped.length g i
  · rw [show r = _ from heq, hout hnone]
    refine ⟨cursor_claimed_le hleft, by simp, fun _ => ⟨rfl, delayed_renewed hordered⟩,
      fun i => ?_, hentry⟩
    rw [members_claimed, members_renewed_map hordered, Option.map_map]
    simp only [true_and]
    rfl
  · rw [show r = _ from heq, hout hnone]
    refine ⟨Nat.le_refl _, by simp, fun _ => ⟨rfl, delayed_renewed hordered⟩, fun i => ?_,
      hentry⟩
    simp only [true_and, reduceCtorEq, if_false]
    exact members_renewed_map hordered

/-- **What the search for the next run does**, whatever the collections hold and in whatever states
the tasks are, as long as `delayed` is in the order of the keys:

* `search` is over within two turns more than there are tasks in line, and comes to `nextReady`;
* it claims the first in `g.line now` that `canRun`, and none just if there is none;
* the line afterwards is the rest behind the claimed one; those passed over cannot run, neither
  before nor after delays have ended;
* the next batch and `delayed` are unchanged if a task of the batch can run; otherwise the next
  batch is empty, and delayed are those whose deadline is after `now`;
* the record of a task is unchanged, but that it is `ripened` if its delay is over and it has joined
  the next batch, and `started` if it is claimed. -/
theorem next_run_found (hordered : g.delayed.Pairwise fun k m => k.before m = true) (now : Nat) :
    let r := nextReady now g
    let inBatch := g.left.any g.canRun
    (∀ n, (g.line now).length + 2 ≤ n → g.search now n = some r) ∧
    r.1 = (g.line now).find? g.canRun ∧
    (r.1 = none ↔ ∀ i ∈ g.line now, g.canRun i = false) ∧
    (∃ passed, g.line now = passed ++ r.1.toList ++ r.2.line now ∧
      ∀ i ∈ passed, g.canRun i = false ∧ (g.renewed now).canRun i = false) ∧
    r.2.cursor ≤ r.2.active.length ∧
    (inBatch = true → r.2.scheduled = g.scheduled ∧ r.2.delayed = g.delayed) ∧
    (inBatch = false → r.2.scheduled = [] ∧
      r.2.delayed = g.delayed.filter fun k => now < k.deadline) ∧
    (∀ i, r.2.members[i]? = g.members[i]?.map fun m =>
      let m' := if inBatch = false ∧ i ∈ g.ripe now then m.ripened else m
      if r.1 = some i then m'.started else m') ∧
    r.2.armed = g.armed ∧ r.2.epoch = g.epoch := by
  intro r inBatch
  have hfind : r.1 = (g.line now).find? g.canRun := nextReady_eq_find hordered now
  obtain ⟨passed, hline, hpassed⟩ := line_nextReady hordered now
  refine ⟨fun n hn => search_eq hordered hn, hfind, ?_,
    ⟨passed, hline, fun i hi => ⟨hpassed i hi, canRun_renewed.trans (hpassed i hi)⟩⟩,
    nextReady_rest hordered now⟩
  rw [hfind, List.find?_eq_none]
  exact forall₂_congr fun i _ => Bool.eq_false_iff.symm

/-- A group in disorder: task 0 is idle and stands in the batch, task 1 stands twice in the next
batch and is delayed twice, and task 2 is in flight, stands in both batches and is delayed as
well. -/
def disordered : Group :=
  let member (name : String) (state : TaskState) : Member := ⟨name, ⟨state, ⟨0⟩⟩, none⟩
  { members := #[member "a" .idle, member "b" (.scheduled true), member "c" (.inFlight true)]
    active := [1, 0, 2]
    cursor := 1
    scheduled := [2, 1, 1]
    delayed := [⟨5, 1, "b"⟩, ⟨5, 2, "c"⟩, ⟨9, 1, "b"⟩]
    armed := none
    epoch := 3 }

/-- At 5, task 1 is the first in line that can run, and is claimed from the next batch; tasks 0 and
2 ahead of it are passed over, and the other places in line are kept. -/
theorem next_run_found_disordered :
    (disordered.delayed.Pairwise fun k m => k.before m = true) ∧
      disordered.line 5 = [0, 2, 2, 1, 1, 1, 2] ∧
      (nextReady 5 disordered).1 = some 1 ∧
      (nextReady 5 disordered).2.line 5 = [1, 1, 2] ∧
      (nextReady 5 disordered).2.delayed = [⟨9, 1, "b"⟩] ∧
      disordered.search 5 9 = some (nextReady 5 disordered) := by
  have hordered : disordered.delayed.Pairwise fun k m => k.before m = true := by decide
  obtain ⟨hsearch, -⟩ := next_run_found hordered 5
  exact ⟨hordered, rfl, rfl, rfl, rfl, hsearch 9 (by decide)⟩

end Group

end TurnPool
