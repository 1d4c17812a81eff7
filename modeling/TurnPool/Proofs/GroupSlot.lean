import TurnPool.Proofs.CrewEntries

/-!
# The slot of a group

A group takes one slot of the timetable, however many tasks it has, and whatever it went through.
The entry there is for all of them: it is due when the first of them can run, and when it arrives
that one runs. So no scheduled task is ever left without an entry that will come to it.

## Main results

* `Group.Tidy.isScheduled_iff`: a task is scheduled just while one is ready or waits.
* `Group.Tidy.isSome_nextReady`: where a task can run, one is claimed.
* `World.group_slot`: the slot of a group, in every state.
-/

namespace TurnPool

open Recorded

namespace Group

variable {g : Group}

/-! ### When the entry is due -/

/-- A task is ready just if something is left of the batch or in the next one. -/
theorem hasReady_eq_true :
    g.hasReady = true ↔ g.cursor < g.active.length ∨ g.scheduled ≠ [] := by
  rw [hasReady, Bool.or_eq_true, decide_eq_true_eq, Bool.not_eq_true', List.isEmpty_eq_false_iff]

/-- A matched group with a **ready** task is armed with an entry that is due at once. -/
theorem Matched.due_of_ready (h : g.Matched) (hready : g.hasReady = true) :
    ∃ a, g.armed = some a ∧ a.due = none := by
  rw [Matched, want, if_pos hready] at h
  exact Option.map_eq_some_iff.1 h

/-- A matched group whose tasks **only wait** is armed with an entry that is due at the earliest
deadline. -/
theorem Matched.due_of_waiting (h : g.Matched) (htidy : g.Tidy) (hready : g.hasReady = false)
    (hwaits : g.delayed ≠ []) :
    ∃ a, g.armed = some a ∧ ∃ k ∈ g.delayed, a.due = some k.deadline ∧
      ∀ k' ∈ g.delayed, k.deadline ≤ k'.deadline := by
  obtain ⟨k, ks, hd⟩ := List.exists_cons_of_ne_nil hwaits
  rw [Matched, want, if_neg (ne_true_of_eq_false hready), hd] at h
  obtain ⟨a, ha, hdue⟩ := Option.map_eq_some_iff.1 h
  have hfirst := (List.pairwise_cons.1 (hd ▸ htidy.ascending)).1
  refine ⟨a, ha, k, hd ▸ List.mem_cons_self, hdue, fun k' hk' => ?_⟩
  rcases List.mem_cons.1 (hd ▸ hk') with rfl | hk'
  · exact Nat.le_refl _
  · exact hfirst k' hk'

/-- A matched group in which **no task is queued** is not armed. -/
theorem Matched.armed_eq_none (h : g.Matched) (hready : g.hasReady = false)
    (hwaits : g.delayed = []) : g.armed = none := by
  rw [Matched, want, if_neg (ne_true_of_eq_false hready), hwaits] at h
  exact Option.map_eq_none_iff.1 h

/-- A matched group is armed just while a task is ready or delayed. -/
theorem Matched.isSome_armed (h : g.Matched) :
    g.armed.isSome = true ↔ g.hasReady = true ∨ g.delayed ≠ [] := by
  have hwant : g.armed.isSome = g.want.isSome := by
    rw [← h, Option.isSome_map]
  rw [hwant, want]
  split
  · rename_i hready
    exact iff_of_true rfl (Or.inl hready)
  · rename_i hready
    rw [Option.isSome_map, List.isSome_head?]
    exact (or_iff_right hready).symm

/-- `ripen` adds the tasks whose delay is over to the next batch. -/
theorem scheduled_ripen (now : Nat) (ks : List Delayed) (g : Group) :
    (ripen now ks g).scheduled =
      g.scheduled ++ (ks.takeWhile fun k => k.deadline ≤ now).map Delayed.task := by
  induction ks generalizing g with
  | nil => exact (List.append_nil _).symm
  | cons k ks ih =>
    rw [ripen, List.takeWhile_cons]
    by_cases hlt : now < k.deadline
    · rw [if_pos hlt, if_neg (by simpa using hlt)]
      exact (List.append_nil _).symm
    · rw [if_neg hlt, ih, if_pos (by simpa using hlt), List.map_cons]
      exact List.append_assoc ..

namespace Tidy

/-- In a tidy group some task is **scheduled** just while one is ready or delayed. -/
theorem isScheduled_iff (h : g.Tidy) :
    (∃ i, (g.life i).state.isScheduled = true) ↔ g.hasReady = true ∨ g.delayed ≠ [] := by
  simp only [TaskState.isScheduled_iff, Option.isSome_iff_exists]
  rw [hasReady_iff]
  constructor
  · rintro ⟨i, delayed, hi⟩
    cases delayed with
    | false => exact Or.inl (List.ne_nil_of_mem ((h.mem_ready i).2 hi))
    | true =>
      obtain ⟨k, hk, -⟩ := List.mem_map.1 (h.mem_waiting.2 hi)
      exact Or.inr (List.ne_nil_of_mem hk)
  · rintro (hready | hwaits)
    · obtain ⟨i, hi⟩ := List.exists_mem_of_ne_nil _ hready
      exact ⟨i, false, (h.mem_ready i).1 hi⟩
    · obtain ⟨k, hk⟩ := List.exists_mem_of_ne_nil _ hwaits
      exact ⟨k.task, true, h.spot_of_mem_delayed hk⟩

/-! ### Who runs when the entry arrives -/

/-- `claimFirst` claims a task of a tidy batch that is not empty. -/
theorem isSome_claimFirst (h : g.Tidy) (hleft : g.left ≠ []) :
    (Group.claimFirst g.left g).1.isSome = true := by
  obtain ⟨id, ids, hcons⟩ := List.exists_cons_of_ne_nil hleft
  obtain ⟨-, l, -, heq⟩ := h.claimFirst_of_cons hcons
  rw [heq]
  rfl

/-- `nextReady` claims a task of a tidy group if one is ready or its deadline has come. -/
theorem isSome_nextReady (h : g.Tidy) {now : Nat}
    (hrun : g.hasReady = true ∨ ∃ k ∈ g.delayed, k.deadline ≤ now) :
    (Group.nextReady now g).1.isSome = true := by
  rw [Group.nextReady]
  by_cases hleft : g.left = []
  · have hclear : ({ g with active := [], cursor := 0 } : Group).Tidy := Placed.clear h hleft
    have hnext := hclear.renew now rfl
    rw [hleft, Group.claimFirst]
    refine hnext.isSome_claimFirst ?_
    show (Group.ripen now g.delayed { g with active := [], cursor := 0 }).scheduled ≠ []
    rw [scheduled_ripen]
    intro hempty
    obtain ⟨hscheduled, hripe⟩ := List.append_eq_nil_iff.1 hempty
    rcases hrun with hready | ⟨k, hk, hle⟩
    · exact hasReady_iff.1 hready (List.append_eq_nil_iff.2 ⟨hleft, hscheduled⟩)
    · obtain ⟨m, ms, hd⟩ := List.exists_cons_of_ne_nil (List.ne_nil_of_mem hk)
      have hfirst : m.deadline ≤ now := by
        rcases List.mem_cons.1 (hd ▸ hk) with rfl | hk
        · exact hle
        · have hmk := (List.pairwise_cons.1 (hd ▸ h.ascending)).1 k hk
          omega
      rw [hd, List.takeWhile_cons, if_pos (decide_eq_true hfirst)] at hripe
      cases hripe
  · have hfirst := h.isSome_claimFirst hleft
    generalize Group.claimFirst g.left g = r at hfirst
    obtain ⟨_ | id, g'⟩ := r
    · cases hfirst
    · rfl

end Tidy

end Group

namespace World

variable {Q ω : Type} [Timetable Q ω] [LawfulTimetable Q ω] {c : Coding ω} {w : World Q ω}
  {g : Group}

/-! ### The entries that were not called off -/

/-- The entries of a crew that **stand** in the timetable: those that were not called off. -/
def standing (c : Coding ω) (w : World Q ω) : List (Slip ω) :=
  (LawfulTimetable.slips w.desk.table).filter fun s => s.live && (c.errand? s.work).isSome

/-- An entry stands if it is live in the timetable and the crew's. -/
theorem mem_standing {s : Slip ω} :
    s ∈ w.standing c ↔ ∃ h e, s = ⟨h, c.job e, true⟩ ∧ s ∈ LawfulTimetable.slips w.desk.table := by
  rw [standing, List.mem_filter, Bool.and_eq_true, Option.isSome_iff_exists]
  constructor
  · rintro ⟨hs, hlive, e, he⟩
    obtain ⟨h, x, live⟩ := s
    obtain rfl : live = true := hlive
    obtain rfl := c.errand?_eq_some.1 he
    exact ⟨h, e, rfl, hs⟩
  · rintro ⟨h, e, rfl, hs⟩
    exact ⟨hs, rfl, e, c.errand?_job e⟩

/-- No entry stands twice. -/
theorem nodup_standing (hkept : Accurate c w.desk w.transit) : (w.standing c).Nodup :=
  (List.Nodup.of_map _ (LawfulTimetable.nodup hkept.sound)).filter _

/-- An entry that stands is the one that the group is armed with. -/
theorem eq_armed_of_mem_standing (ho : Group.DispatchesInOrder c g w.desk w.transit) {s : Slip ω}
    (hs : s ∈ w.standing c) :
    ∃ a, g.armed = some a ∧ s = ⟨a.handle, c.job (.dispatch a.epoch), true⟩ := by
  obtain ⟨h, e, rfl, hs⟩ := mem_standing.1 hs
  have hu : Undelivered c w.desk w.transit h e := Or.inl ⟨true, hs⟩
  cases e with
  | run i n => exact absurd hu (ho.no_run h i n)
  | dispatch n =>
    have hcurrent := ho.anchored.only h n hu ((ho.accurate.live_iff h _ true hs).1 rfl)
    obtain ⟨a, ha, hpair⟩ := Option.map_eq_some_iff.1 hcurrent
    obtain ⟨rfl, rfl⟩ := Prod.mk.inj hpair
    exact ⟨a, ha, rfl⟩

/-- The entry that a group is armed with **stands alone** in the timetable, or is in transit and
none stands. -/
theorem standing_of_armed (ho : Group.DispatchesInOrder c g w.desk w.transit) {a : Armed}
    (ha : g.armed = some a) :
    w.standing c = [⟨a.handle, c.job (.dispatch a.epoch), true⟩] ∨
      w.standing c = [] ∧ (a.handle, .dispatch a.epoch) ∈ w.transit := by
  have hcurrent := Group.current_of_armed ha
  have honly : ∀ s ∈ w.standing c, s = ⟨a.handle, c.job (.dispatch a.epoch), true⟩ := fun s hs => by
    obtain ⟨a', ha', rfl⟩ := eq_armed_of_mem_standing ho hs
    rw [Option.some.inj (ha.symm.trans ha')]
  rcases ho.anchored.there a.handle a.epoch hcurrent with ⟨live, hs⟩ | htransit
  · obtain rfl : live = true :=
      (ho.accurate.live_iff _ _ live hs).2 (ho.anchored.uncalled a.handle a.epoch hcurrent)
    have hmem := mem_standing.2 ⟨a.handle, .dispatch a.epoch, rfl, hs⟩
    refine Or.inl (List.perm_singleton.1 ?_)
    refine (List.perm_ext_iff_of_nodup (nodup_standing ho.accurate) (List.nodup_singleton _)).2 ?_
    intro s
    rw [List.mem_singleton]
    exact ⟨honly s, fun heq => heq ▸ hmem⟩
  · refine Or.inr ⟨List.eq_nil_iff_forall_not_mem.2 fun s hs => ?_, htransit⟩
    have heq := honly s hs
    obtain ⟨-, -, -, hs⟩ := mem_standing.1 hs
    exact ho.accurate.gone a.handle _ htransit (.dispatch a.epoch) true (heq ▸ hs)

/-- **No more than one** entry of a group stands in the timetable. -/
theorem length_standing_le (ho : Group.DispatchesInOrder c g w.desk w.transit) :
    (w.standing c).length ≤ 1 := by
  cases ha : g.armed with
  | none =>
    have hnone : w.standing c = [] := List.eq_nil_iff_forall_not_mem.2 fun s hs => by
      obtain ⟨a, ha', -⟩ := eq_armed_of_mem_standing ho hs
      rw [ha] at ha'
      cases ha'
    rw [hnone]
    exact Nat.zero_le 1
  | some a =>
    rcases standing_of_armed ho ha with hone | ⟨hnone, -⟩
    · rw [hone]
      exact Nat.le_refl 1
    · rw [hnone]
      exact Nat.zero_le 1

omit [LawfulTimetable Q ω] in
/-- An entry whose epoch is not the armed one's **changes nothing but what is in transit**. -/
theorem arrive_stale (hg : w.crew = .together g) {n : Nat}
    (hstale : g.armed.map Armed.epoch ≠ some n) (opts : SchedulerOptions) (r : Readings) (h : Nat) :
    w.arrive c opts r h (.dispatch n) = { w with transit := w.transit.erase (h, .dispatch n) } := by
  have harrive : Crew.arrive opts c.job r (.dispatch n) (w.crew, w.desk) =
      (none, w.crew, w.desk) := by
    rw [hg, Crew.arrive_dispatch, Group.dispatch]
    simp only [if_neg hstale]
  simp only [arrive, harrive]

/-! ### The slot -/

/-- The **slot of a group** `g`, in every reachable world.

* While a task is ready, in what is left of the batch or in the next one, `g.armed` is due at once;
  while tasks are only delayed, it is due at the earliest deadline; otherwise there is none. So
  there is one just while some task `isScheduled`.
* At most one entry of the group is `standing`. It is the armed one, by its handle and its epoch,
  unless that one is in `transit`, and then none is.
* An entry that arrives with another epoch changes nothing but `transit`.
* The armed one claims a run when it arrives, if a task is ready or a deadline has come. -/
theorem group_slot (h : Reachable c w) (hg : w.crew = .together g) :
    let ready := g.cursor < g.active.length ∨ g.scheduled ≠ []
    (ready → ∃ a, g.armed = some a ∧ a.due = none) ∧
    (¬ ready → g.delayed ≠ [] →
      ∃ a, g.armed = some a ∧ ∃ k ∈ g.delayed, a.due = some k.deadline ∧
        ∀ k' ∈ g.delayed, k.deadline ≤ k'.deadline) ∧
    (¬ ready → g.delayed = [] → g.armed = none) ∧
    (g.armed.isSome = true ↔ ∃ i, (w.lives i).state.isScheduled = true) ∧
    (w.standing c).length ≤ 1 ∧
    (∀ s ∈ w.standing c, ∃ a, g.armed = some a ∧
      s = ⟨a.handle, c.job (.dispatch a.epoch), true⟩) ∧
    (∀ a, g.armed = some a →
      w.standing c = [⟨a.handle, c.job (.dispatch a.epoch), true⟩] ∨
        w.standing c = [] ∧ (a.handle, .dispatch a.epoch) ∈ w.transit) ∧
    (∀ opts r h n, g.armed.map Armed.epoch ≠ some n →
      w.arrive c opts r h (.dispatch n) =
        { w with transit := w.transit.erase (h, .dispatch n) }) ∧
    (∀ a opts r, g.armed = some a → (ready ∨ ∃ k ∈ g.delayed, k.deadline ≤ r.deadline) →
      (Crew.arrive opts c.job r (.dispatch a.epoch) (w.crew, w.desk)).1.isSome = true) := by
  intro ready
  have hsettled : g.TidyInOrder c w.desk w.transit := by
    have := h.entriesSettled
    rwa [hg] at this
  obtain ⟨hordered, hmatched, htidy⟩ := hsettled
  have hready : g.hasReady = true ↔ ready := Group.hasReady_eq_true
  have hidle : ¬ ready → g.hasReady = false := fun hn => by
    rwa [← Bool.not_eq_true, hready]
  have hlives : w.lives = g.life := by
    rw [lives, hg]
    rfl
  refine ⟨fun hr => hmatched.due_of_ready (hready.2 hr),
    fun hn => hmatched.due_of_waiting htidy (hidle hn),
    fun hn => hmatched.armed_eq_none (hidle hn), ?_, length_standing_le hordered,
    fun s => eq_armed_of_mem_standing hordered, fun a => standing_of_armed hordered,
    fun opts r h n hstale => arrive_stale hg hstale opts r h, ?_⟩
  · rw [hlives, htidy.isScheduled_iff, hmatched.isSome_armed]
  · intro a opts r ha hrun
    rw [hg, Crew.arrive_dispatch, Group.dispatch]
    simp only [ha, Option.map_some, if_true]
    exact (htidy.setEntry none g.epoch).isSome_nextReady (hrun.imp_left hready.2)

/-- When a group of one task was started, its entry stands in the queue, alone and due at once; when
the entry was taken out, none stands there any more, and the entry claims the run of the task when
it arrives. -/
theorem group_slot_started :
    (∃ g a, (started true).crew = .together g ∧ g.armed = some a ∧ a.due = none ∧
      (started true).standing .self = [⟨a.handle, .dispatch a.epoch, true⟩]) ∧
    ∃ g a, (underway true).crew = .together g ∧ g.armed = some a ∧
      (underway true).standing .self = [] ∧
      (Crew.arrive default id ⟨0, 0, 0⟩ (.dispatch a.epoch)
        ((underway true).crew, (underway true).desk)).1.isSome = true := by
  have hstarted : ∃ g, (started true).crew = .together g ∧ g.scheduled ≠ [] :=
    ⟨_, rfl, List.cons_ne_nil _ _⟩
  have hunderway : ∃ g, (underway true).crew = .together g ∧ g.scheduled ≠ [] :=
    ⟨_, rfl, List.cons_ne_nil _ _⟩
  constructor
  · obtain ⟨g, hg, hready⟩ := hstarted
    obtain ⟨hdue, -, -, -, -, -, hstands, -⟩ := group_slot (reachable_started true) hg
    obtain ⟨a, ha, hnow⟩ := hdue (Or.inr hready)
    refine ⟨g, a, hg, ha, hnow, (hstands a ha).resolve_right fun hnone => ?_⟩
    cases hnone.2
  · obtain ⟨g, hg, hready⟩ := hunderway
    obtain ⟨hdue, -, -, -, -, -, -, -, hclaims⟩ := group_slot (reachable_underway true) hg
    obtain ⟨a, ha, -⟩ := hdue (Or.inr hready)
    exact ⟨g, a, hg, ha, rfl, hclaims a default ⟨0, 0, 0⟩ ha (Or.inl (Or.inr hready))⟩

end World

end TurnPool
