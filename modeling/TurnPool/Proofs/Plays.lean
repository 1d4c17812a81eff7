import TurnPool.Proofs.Stories

/-!
# What is played is a story

When a scenario is played its threads take turns in a certain order, and time passes when none of
them may go on. A story leaves both open. So what is played is one of the stories, and what is told
of every story holds of it.

## Main results

* `Narrated.turn`, `Narrated.passTime`, `Narrated.receiveWakes`: whatever happens while an operation
  is performed can happen in a story.
* `Narrated.perform`: an operation that was performed is told by a story, with what was reported.
-/

namespace TurnPool.Scenario

variable {V : Type}

/-- A story leads to the scene `w` with the reports `read` taken out. -/
def Narrated (read : List (String × String)) (w : Scene V) : Prop :=
  ∃ d, Story.Reachable ⟨w, d, read⟩

/-- Threads with distinct numbers are one of them and the others. -/
theorem perm_of_mem {ts : List (Thread V)} (hids : (ts.map Thread.id).Nodup) {t : Thread V}
    (ht : t ∈ ts) : ts.Perm (t :: ts.filter (·.id ≠ t.id)) := by
  obtain ⟨us, vs, rfl⟩ := List.append_of_mem ht
  have hne : ∀ u ∈ us ++ vs, decide (u.id ≠ t.id) = true := fun u hu => by
    rw [(List.perm_middle.map Thread.id).nodup_iff, List.map_cons, List.nodup_cons] at hids
    exact decide_eq_true fun heq => hids.1 (List.mem_map.2 ⟨u, hu, heq⟩)
  have hus : us.filter (·.id ≠ t.id) = us :=
    List.filter_eq_self.2 fun u hu => hne u (List.mem_append_left _ hu)
  have hvs : vs.filter (·.id ≠ t.id) = vs :=
    List.filter_eq_self.2 fun u hu => hne u (List.mem_append_right _ hu)
  rw [List.filter_append, List.filter_cons_of_neg (by simp), hus, hvs]
  exact List.perm_middle

namespace Narrated

variable {read : List (String × String)} {w w' : Scene V}

/-- The threads of a narrated scene have distinct numbers. -/
theorem ids (h : Narrated read w) : (w.threads.map Thread.id).Nodup := by
  obtain ⟨d, h⟩ := h
  exact h.sound.consistent.sound.crowd.ids

/-- A narrated scene is narrated with its threads **in another order**. -/
theorem reorder (h : Narrated read w) {ts : List (Thread V)} (hts : ts.Perm w.threads) :
    Narrated read { w with threads := ts } := by
  obtain ⟨d, h⟩ := h
  refine ⟨d, h.step (.leaves (p := fun _ => true) (by simp) ?_)⟩
  rwa [List.filter_eq_self.2 fun _ _ => rfl]

/-- A narrated scene is narrated **without threads that are over**. -/
theorem leaves (h : Narrated read w) {p : Thread V → Bool}
    (hover : ∀ t ∈ w.threads, p t = false → t.isOver = true) :
    Narrated read { w with threads := w.threads.filter p } := by
  obtain ⟨d, h⟩ := h
  exact ⟨d, h.step (.leaves hover (.refl _))⟩

/-- A narrated scene is narrated after a running thread's **step**. -/
theorem runs (h : Narrated read w) {t : Thread V} {us : List (Thread V)} {f : Focus V}
    (hts : w.threads.Perm (t :: us)) (hmode : t.mode = .running f) :
    Narrated read { (step f t { w with threads := us }).2 with
      threads := (step f t { w with threads := us }).1 ::
        (step f t { w with threads := us }).2.threads } := by
  obtain ⟨d, h⟩ := h
  exact ⟨_, h.step (.runs hts hmode rfl (.refl _))⟩

/-- A narrated scene is narrated after a waiting thread that is ready **goes on**. -/
theorem resumes (h : Narrated read w) {t : Thread V} {us : List (Thread V)} {wait : Wait V}
    (hts : w.threads.Perm (t :: us)) (hmode : t.mode = .waiting wait)
    (hready : ready t w wait = true) :
    Narrated read { (resume wait t { w with threads := us }).2 with
      threads := (resume wait t { w with threads := us }).1 ::
        (resume wait t { w with threads := us }).2.threads } := by
  obtain ⟨d, h⟩ := h
  exact ⟨d, h.step (.resumes hts hmode hready rfl (.refl _))⟩

/-- Receiving a wake does not look at the other threads, and leaves them. -/
theorem resume_wake_threads (ctx signal : Nat) (limit : Option Nat) (t : Thread V) (w : Scene V)
    (us : List (Thread V)) :
    resume (.wake ctx signal limit) t { w with threads := us } =
      ((resume (.wake ctx signal limit) t w).1,
        { (resume (.wake ctx signal limit) t w).2 with threads := us }) ∧
      (resume (.wake ctx signal limit) t w).2.threads = w.threads := by
  simp only [resume]
  split
  · exact ⟨rfl, rfl⟩
  · split <;> exact ⟨rfl, rfl⟩

/-- Receiving a wake keeps the number of the thread. -/
theorem id_resume_wake (ctx signal : Nat) (limit : Option Nat) (t : Thread V) (w : Scene V) :
    (resume (.wake ctx signal limit) t w).1.id = t.id := by
  simp only [resume]
  split
  · rfl
  · split <;> rfl

/-- A narrated scene is narrated after each of the threads has done something that keeps it so and
leaves the others. -/
theorem foldl {f : Scene V → Thread V → Scene V}
    (hf : ∀ t v, Narrated read v → t ∈ v.threads →
      Narrated read (f v t) ∧ ∀ u ∈ v.threads, u.id ≠ t.id → u ∈ (f v t).threads)
    {ts : List (Thread V)} (h : Narrated read w) (hids : (ts.map Thread.id).Nodup)
    (hts : ∀ t ∈ ts, t ∈ w.threads) : Narrated read (ts.foldl f w) := by
  induction ts generalizing w with
  | nil => exact h
  | cons t ts ih =>
    obtain ⟨hid, hids⟩ := List.nodup_cons.1 hids
    obtain ⟨hdone, hstay⟩ := hf t w h (hts t List.mem_cons_self)
    refine ih hdone hids fun u hu => hstay u (hts u (List.mem_cons_of_mem t hu)) fun heq => ?_
    exact hid (List.mem_map.2 ⟨u, hu, heq⟩)

/-- `receiveWakes` keeps a scene narrated. -/
theorem receiveWakes (h : Narrated read w) : Narrated read (receiveWakes w) := by
  refine h.foldl (fun t v hv ht => ?_) h.ids fun _ ht => ht
  split
  · rename_i ctx signal limit hmode
    split
    · rename_i hready
      obtain ⟨hothers, hthreads⟩ := resume_wake_threads ctx signal limit t v
        (v.threads.filter (·.id ≠ t.id))
      have hgone := hv.resumes (perm_of_mem hv.ids ht) hmode hready
      rw [hothers] at hgone
      dsimp only
      rw [hthreads]
      refine ⟨hgone.reorder (List.perm_append_singleton _ _), fun u hu hne => ?_⟩
      exact List.mem_append_left _ (List.mem_filter.2 ⟨hu, decide_eq_true hne⟩)
    · exact ⟨hv, fun u hu _ => hu⟩
  · exact ⟨hv, fun u hu _ => hu⟩

/-- `passTime` keeps a scene narrated. -/
theorem passTime (h : Narrated read w) (instant : Nat) : Narrated read (passTime instant w) := by
  obtain ⟨d, h⟩ := h
  exact receiveWakes ⟨d, h.step (.passes _ _ (Nat.le_max_left w.now instant))⟩

/-- A thread that has gone on may stay in front, go to the end, or leave if it is over: the scene
stays narrated. -/
theorem placed {t : Thread V} (h : Narrated read { w with threads := t :: w.threads }) :
    Narrated read (if t.isOver && t.role != .main then w
      else if mayGo w t then { w with threads := t :: w.threads }
      else { w with threads := w.threads ++ [t] }) := by
  split
  · rename_i hover
    obtain ⟨hid, -⟩ := List.nodup_cons.1 h.ids
    have hothers : ∀ u ∈ w.threads, decide (u.id ≠ t.id) = true := fun u hu =>
      decide_eq_true fun heq => hid (List.mem_map.2 ⟨u, hu, heq⟩)
    have hgone := h.leaves (p := fun u => decide (u.id ≠ t.id)) fun u hu hp => by
      rcases List.mem_cons.1 hu with rfl | hu
      · exact (Bool.and_eq_true_iff.1 hover).1
      · exact absurd ((hothers u hu).symm.trans hp) Bool.false_ne_true.symm
    rw [List.filter_cons_of_neg (by simp), List.filter_eq_self.2 hothers] at hgone
    exact hgone
  · split
    · exact h
    · exact h.reorder (List.perm_append_singleton t _)

/-- `turn` keeps a scene narrated. -/
theorem turn (h : Narrated read w) (hturn : turn w = some w') : Narrated read w' := by
  rw [Scenario.turn, Option.map_eq_some_iff] at hturn
  obtain ⟨t, hfind, rfl⟩ := hturn
  have hgo : mayGo w t = true := List.find?_some hfind
  have hperm := perm_of_mem h.ids (List.mem_of_find?_eq_some hfind)
  refine receiveWakes ?_
  split
  · rename_i f hmode
    exact placed (h.runs hperm hmode)
  · rename_i wait hmode
    rw [mayGo, hmode] at hgo
    exact placed (h.resumes hperm hmode hgo)
  · rename_i hmode
    rw [mayGo, hmode] at hgo
    cases hgo

/-- `settleWithin` keeps a scene narrated, for any number of turns. -/
theorem settleWithin (h : Narrated read w) (n : Nat) : Narrated read (settleWithin n w) := by
  induction n generalizing w with
  | zero => exact h
  | succ n ih =>
    rw [Scenario.settleWithin]
    split
    · rename_i hturn
      exact ih (h.turn hturn)
    · split
      · split
        · exact ih (h.passTime _)
        · exact h
      · exact h

/-- `report` keeps a scene narrated, with the fatal reports that it answers read. -/
theorem report (h : Narrated read w) (place : Place) (a : Answer V) :
    Narrated (read ++ (w.report place a).1.fatal) (w.report place a).2 := by
  obtain ⟨d, h⟩ := h
  exact ⟨d, h.step .reads⟩

/-- `perform` keeps a scene narrated if the main thread was over, and reads what it answers. -/
theorem perform (h : Narrated read w) (hover : ∀ t ∈ w.threads, t.role = .main → t.isOver = true)
    {place : Place} (hplace : place = .ground ∨ place = .bench) {op : Op V} {view : StepView V}
    (hperform : perform place op w = .ok (view, w')) : Narrated (read ++ view.fatal) w' := by
  have hidle := h.leaves (p := fun t => t.role != .main) fun t ht hmain =>
    hover t ht (by simpa using hmain)
  obtain ⟨d, hidle⟩ := hidle
  have hbegun := hidle.step (.begins op (fun t ht => by simpa using (List.mem_filter.1 ht).2) hplace
    rfl (.refl _))
  have hquiet := (receiveWakes ⟨_, hbegun⟩).settleWithin turnLimit
  have hread : ∀ {v : Scene V}, Narrated read v →
      (mainAnswer v).map (fun a => v.report place a) = .ok (view, w') →
        Narrated (read ++ view.fatal) w' := fun {v} hv hview => by
    cases ha : mainAnswer v with
    | error p =>
      rw [ha] at hview
      cases hview
    | ok a =>
      rw [ha] at hview
      cases hview
      exact hv.report place a
  exact hread hquiet hperform

end Narrated

end TurnPool.Scenario
