import TurnPool.Proofs.Steps
import TurnPool.Scenario.Setup

/-!
# Stories

What happens in a scene is a story: operations begin while nobody goes through the scenario, threads
act one at a time in any order, time passes, and what was reported is read. A story comes with a
docket, in which the steps of the threads are noted.

## What is followed

The order in which the threads act is left open, and so is how much time passes. Whatever the
threads of a scenario do is a story then, and so is whatever they could do if they were faster or
slower.

## Main results

* `Story.Step`: one step.
* `Story.Sound`: the scene is in order, and what was reported is what was noted.
* `Story.Reachable.sound`: it is so in every story.
-/

namespace TurnPool.Scenario

variable {V : Type}

namespace Scene

variable {d d' : Docket} {t t' : Thread V} {w w' : Scene V} {ts us : List (Thread V)}

/-! ### A scene while nobody acts -/

/-- The scene and the docket are **consistent**: `Sound` holds of all threads of `w`, and each of
them stands as `d` says. -/
structure Consistent (d : Docket) (w : Scene V) : Prop where
  /-- The scene is in order. -/
  sound : Sound d w.threads w
  /-- The threads stand as they should. -/
  stands : ∀ t ∈ w.threads, t.Stands d

/-- `Sound` of the threads `ts` does not look at `w.threads`. -/
theorem Sound.regard (h : Sound d ts w) (us : List (Thread V)) :
    Sound d ts { w with threads := us } where
  crowd := { h.crowd with }
  once := h.once
  books := h.books
  tokens := h.tokens
  deposits := h.deposits
  roster := h.roster.congr rfl rfl rfl rfl rfl
  logAccounted := h.logAccounted
  busy := h.busy

/-- Any thread of a consistent scene is **active** once it is taken out. -/
theorem Consistent.active (h : Consistent d w) (hts : w.threads.Perm (t :: us)) :
    Active d t { w with threads := us } ∧ t.Stands d := by
  refine ⟨⟨(h.sound.perm hts.symm).regard us, fun u hu => ?_⟩, ?_⟩
  · exact h.stands u (hts.mem_iff.2 (List.mem_cons_of_mem t hu))
  · exact h.stands t (hts.mem_iff.2 List.mem_cons_self)

/-- An active thread that stands again makes the scene **consistent**, in any order of the
threads. -/
theorem Active.consistent (h : Active d t w) (hst : t.Stands d) (hts : ts.Perm (t :: w.threads)) :
    Consistent d { w with threads := ts } := by
  refine ⟨(h.sound.perm hts).regard ts, fun u hu => ?_⟩
  rcases List.mem_cons.1 (hts.mem_iff.1 hu) with rfl | hu
  · exact hst
  · exact h.others u hu

/-- Filtering threads does not change a list of what they have, if those that go have none of it. -/
theorem flatMap_filter {β : Type} {p : Thread V → Bool} {g : Thread V → List β}
    (hg : ∀ t ∈ ts, p t = false → g t = []) : (ts.filter p).flatMap g = ts.flatMap g := by
  induction ts with
  | nil => rfl
  | cons t ts ih =>
    have hrest := ih fun u hu => hg u (List.mem_cons_of_mem t hu)
    cases hp : p t with
    | true => rw [List.filter_cons_of_pos hp, List.flatMap_cons, List.flatMap_cons, hrest]
    | false =>
      rw [List.filter_cons_of_neg (by simp [hp]), List.flatMap_cons,
        hg t List.mem_cons_self hp, hrest, List.nil_append]

/-- Threads that are over may **leave** a consistent scene. -/
theorem Consistent.leave (h : Consistent d w) {p : Thread V → Bool}
    (hp : ∀ t ∈ w.threads, p t = false → t.isOver = true) :
    Consistent d { w with threads := w.threads.filter p } := by
  have hframes : ∀ t ∈ w.threads, p t = false → t.frames = [] := fun t ht hpt =>
    h.sound.crowd.emptied t ht (hp t ht hpt)
  have haway : (w.threads.filter p).flatMap Thread.away = w.threads.flatMap Thread.away :=
    flatMap_filter fun t ht hpt => by
      rw [Thread.away, hframes t ht hpt]
      rfl
  have herrands : (w.threads.filter p).flatMap Thread.errands = w.threads.flatMap Thread.errands :=
    flatMap_filter fun t ht hpt => by
      rw [Thread.errands, hframes t ht hpt]
      rfl
  have hsub : (w.threads.filter p).Sublist w.threads := List.filter_sublist
  refine ⟨Sound.regard ?_ _, fun t ht => h.stands t (hsub.subset ht)⟩
  exact {
    crowd := {
      ids := (hsub.map _).nodup h.sound.crowd.ids
      id_lt := fun t ht => h.sound.crowd.id_lt t (hsub.subset ht)
      main := fun t ht => h.sound.crowd.main t (hsub.subset ht)
      next_pos := h.sound.crowd.next_pos
      contexts := fun t ht => h.sound.crowd.contexts t (hsub.subset ht)
      apart := h.sound.crowd.apart.sublist hsub
      emptied := fun t ht => h.sound.crowd.emptied t (hsub.subset ht)
      granted := fun t ht => h.sound.crowd.granted t (hsub.subset ht) }
    once := haway ▸ h.sound.once
    books := haway ▸ h.sound.books
    tokens := h.sound.tokens
    deposits := h.sound.deposits
    roster := herrands ▸ h.sound.roster
    logAccounted := h.sound.logAccounted
    busy := fun id n hn => by
      obtain ⟨t, ht, rfl⟩ := List.mem_map.1 (h.sound.busy id n hn)
      cases hpt : p t with
      | true => exact List.mem_map.2 ⟨t, List.mem_filter.2 ⟨ht, hpt⟩, rfl⟩
      | false =>
        -- A thread that is over is in the middle of nothing.
        have hnone : d.body t.id = none := by
          rcases h.stands t ht with hf | ⟨hbody, -⟩
          · rw [hframes t ht hpt] at hf
            cases hf with
            | ground body => exact body
          · exact hbody
        rw [hnone] at hn
        cases hn }

/-- The main thread may **come** to a consistent scene that has none. -/
theorem Consistent.join (h : Consistent d w) (hnone : ∀ t ∈ w.threads, t.role ≠ .main) :
    Active d mainThread w ∧ d.body (mainThread : Thread V).id = none := by
  have hids : ∀ t ∈ w.threads, t.id ≠ 0 := fun t ht hid =>
    hnone t ht ((h.sound.crowd.main t ht).2 hid)
  have hbody : d.body 0 = none := by
    rw [Option.eq_none_iff_forall_ne_some]
    intro n hn
    obtain ⟨t, ht, hid⟩ := List.mem_map.1 (h.sound.busy 0 n hn)
    exact hids t ht hid
  have hall : ∀ {p : Thread V → Prop}, p mainThread → (∀ t ∈ w.threads, p t) →
      ∀ t ∈ mainThread :: w.threads, p t := fun hself hrest => by
    rintro t ht
    rcases List.mem_cons.1 ht with rfl | ht
    · exact hself
    · exact hrest t ht
  refine ⟨⟨?_, h.stands⟩, hbody⟩
  exact {
    crowd := {
      ids := List.nodup_cons.2 ⟨fun hin => by
        obtain ⟨t, ht, hid⟩ := List.mem_map.1 hin
        exact hids t ht hid, h.sound.crowd.ids⟩
      id_lt := hall h.sound.crowd.next_pos h.sound.crowd.id_lt
      main := hall (iff_of_true rfl rfl) h.sound.crowd.main
      next_pos := h.sound.crowd.next_pos
      contexts := hall (by rintro i ⟨⟩) h.sound.crowd.contexts
      apart := List.pairwise_cons.2 ⟨by rintro u - i ⟨⟩, h.sound.crowd.apart⟩
      emptied := hall (fun _ => rfl) h.sound.crowd.emptied
      granted := hall (by rintro id ⟨⟩) h.sound.crowd.granted }
    once := h.sound.once
    books := h.sound.books
    tokens := h.sound.tokens
    deposits := h.sound.deposits
    roster := h.sound.roster
    logAccounted := h.sound.logAccounted
    busy := fun id n hn => List.mem_cons_of_mem _ (h.sound.busy id n hn) }

/-- Time may pass in a consistent scene. -/
theorem Consistent.pass (h : Consistent d w) (now : Nat) (line : List Nat) :
    Consistent d { w with now, line } :=
  ⟨{ h.sound with
    crowd := { h.sound.crowd with }
    roster := h.sound.roster.congr rfl rfl rfl rfl rfl }, h.stands⟩

/-- The reports of a consistent scene may be taken out. -/
theorem Consistent.read (h : Consistent d w) :
    Consistent d { w with
      journal := .empty
      pool := { w.pool with reports := [], shrinks := [] } } :=
  ⟨{ h.sound with
    crowd := { h.sound.crowd with }
    books := h.sound.books.samePauses (.of_eq rfl rfl rfl (.of_tokens rfl))
    roster := h.sound.roster.congr rfl rfl rfl rfl rfl }, h.stands⟩

/-! ### The beginning -/

/-- A scene that **begins** with a pool that was built, and with new tasks, is consistent. -/
theorem consistent_start {pool : Pool (Job V)} {config : ThreadConfig}
    {limits : PerCategory (Option Nat)} (hpool : Pool.ofParts config limits = .ok pool)
    (tracked : Bool) (state : Int) (options : SchedulerOptions) (grouped : Bool)
    {agenda : Option (Agenda (Job V))} (hagenda : agenda = none ∨ agenda = some .empty)
    (tasks : List (TaskSetup V)) :
    Consistent .empty (Scene.start pool tracked state options grouped agenda tasks) ∧
      (Scene.start pool tracked state options grouped agenda tasks).pool.reports = [] := by
  obtain ⟨hqueue, hreports⟩ : pool.queue = .new config.maxQueueDepth ∧ pool.reports = [] := by
    rw [Pool.ofParts, (Pool.unused_ofParts hpool).valid] at hpool
    cases hpool
    exact ⟨rfl, rfl⟩
  have hbooks := Pool.books_ofParts hpool
  have hslips : pool.queue.slips = [] := by
    rw [hqueue]
    rfl
  have hsound : pool.queue.Sound := by
    rw [hqueue]
    exact ⟨by rintro e ⟨⟩, List.nodup_nil, by rintro n ⟨⟩⟩
  refine List.foldlRecOn (motive := fun w => Consistent .empty w ∧ w.pool.reports = []) tasks _ ?_
    fun w h t _ => ⟨⟨{ h.1.sound with
      crowd := { h.1.sound.crowd with }
      roster := h.1.sound.roster.register h.1.sound.logAccounted t.key t.name t.script },
      h.1.stands⟩, h.2⟩
  refine ⟨⟨?_, fun t ht => ?_⟩, hreports⟩
  · exact {
      crowd := {
        ids := List.nodup_singleton _
        id_lt := fun t ht => by
          obtain rfl := List.mem_singleton.1 ht
          exact Nat.one_pos
        main := fun t ht => by
          obtain rfl := List.mem_singleton.1 ht
          exact iff_of_true rfl rfl
        next_pos := Nat.one_pos
        contexts := fun t ht i hi => by
          obtain rfl := List.mem_singleton.1 ht
          cases hi
        apart := List.pairwise_singleton _ _
        emptied := fun t ht _ => by
          obtain rfl := List.mem_singleton.1 ht
          rfl
        granted := fun t ht id hid => by
          obtain rfl := List.mem_singleton.1 ht
          cases hid }
      once := List.nodup_nil
      books := hbooks
      tokens := by rintro x ⟨⟩
      deposits := by rintro x ⟨⟩
      roster := {
        size := by cases grouped <;> rfl
        jobs := fun n task hn => by cases hn
        parked := fun i => rfl
        theirs := by rintro x ⟨⟩
        sound := hsound
        tasksInOrder := by
          have hno : ∀ s ∈ pool.queue.slips, ¬ Job.coding.IsMine s.work := by
            rw [hslips]
            rintro s ⟨⟩
          rcases hagenda with rfl | rfl
          · exact (tasksInOrder_of_none rfl).2 (.empty grouped hsound hno)
          · exact (tasksInOrder_of_some rfl).2
              ⟨.empty grouped (show Agenda.Sound .empty from ⟨by rintro e ⟨⟩, List.nodup_nil⟩)
                (by rintro s ⟨⟩), hno⟩ }
      logAccounted := Docket.logAccounted_empty
      busy := by rintro id n ⟨⟩ }
  · obtain rfl := List.mem_singleton.1 ht
    exact Or.inl (.ground rfl)

/-- How a scenario begins: on a pool, or beside an agenda. -/
def Begins (w : Scene V) : Prop :=
  (∃ s : Setup V, s.scene = .ok w) ∨ ∃ s : BenchSetup V, s.scene = .ok w

/-- Both parts of a bind that goes well go well. -/
theorem of_bind_eq_ok {ε α β : Type} {x : Except ε α} {f : α → Except ε β} {b : β}
    (h : (do f (← x)) = .ok b) : ∃ a, x = .ok a ∧ f a = .ok b := by
  cases x with
  | error e => cases h
  | ok a => exact ⟨a, rfl, h⟩

/-- A pool that `poolOfParts` makes is one of `Pool.ofParts`. -/
theorem poolOfParts_eq_ok {c : Config} {pool : Pool (Job V)} (h : poolOfParts c = .ok pool) :
    Pool.ofParts c.threads c.tokens.table = .ok pool := by
  rw [poolOfParts] at h
  cases hp : (Pool.ofParts c.threads c.tokens.table : Except SectionFault (Pool (Job V))) with
  | ok p =>
    rw [hp] at h
    cases h
    rfl
  | error e =>
    rw [hp] at h
    cases h

/-- The pool of a kit that was built is one of `Pool.ofParts`. -/
theorem ofParts_of_build {c : Config} {priority : Priority} {r : Kit (Job V)}
    (h : Kit.build c priority = .ok r) : Pool.ofParts c.threads c.tokens.table = .ok r.pool := by
  rw [Kit.build] at h
  split at h
  · cases h
  · split at h
    · cases h
    · rename_i pool hpool
      cases h
      exact hpool

/-- A scene that begins is consistent with the empty docket, and has no reports. -/
theorem Begins.consistent (h : Begins w) : Consistent .empty w ∧ w.pool.reports = [] := by
  rcases h with ⟨s, h⟩ | ⟨s, h⟩
  · rw [Setup.scene] at h
    cases ho : s.origin with
    | parts | plain =>
      rw [ho] at h
      obtain ⟨pool, hpool, heq⟩ := of_bind_eq_ok h
      cases heq
      exact consistent_start (poolOfParts_eq_ok hpool) _ _ _ _ (Or.inl rfl) _
    | tracked | kit =>
      rw [ho] at h
      obtain ⟨r, hr, heq⟩ := of_bind_eq_ok h
      cases heq
      exact consistent_start (ofParts_of_build hr) _ _ _ _ (Or.inl rfl) _
  · obtain ⟨pool, hpool, heq⟩ := of_bind_eq_ok h
    cases heq
    exact consistent_start (poolOfParts_eq_ok hpool) _ _ _ _ (Or.inr rfl) _

/-! ### Reports -/

/-- What a step logs is about jobs that were begun before. -/
theorem Entails.number_lt {es : List LogEntry} (h : Entails d t w t' w' es) :
    ∀ e ∈ es, ∀ n, e.number? = some n → n < d.jobs.length := by
  have hlt : ∀ {n : Nat} {what : Option Nat}, d.jobs[n]? = some what → n < d.jobs.length :=
    fun hn => (List.getElem?_eq_some_iff.1 hn).1
  have hfound : ∀ (rs : List (String × String)), ∀ e ∈ rs.map fun r => LogEntry.found r.1 r.2,
      ∀ n, e.number? = some n → n < d.jobs.length := fun rs e he n hn => by
    obtain ⟨r, -, rfl⟩ := List.mem_map.1 he
    cases hn
  cases h with
  | found rs => exact hfound rs
  | delivered job delivered silent same closing =>
    intro e he n hn
    rcases List.mem_cons.1 he with rfl | he
    · cases hn
      exact hlt job
    · rcases closing with rfl | ⟨p, -, -, -, rfl⟩
      · cases he
      · obtain rfl := List.mem_singleton.1 he
        cases hn
        exact hlt job
  | ended job ends bereft same =>
    intro e he n hn
    obtain rfl := List.mem_singleton.1 he
    cases hn
    exact hlt job
  | served rs job ends same frames goes waits id =>
    intro e he n hn
    rcases List.mem_cons.1 he with rfl | he
    · cases hn
      exact hlt job
    · exact hfound rs e he n hn

/-- After an advance **the reports are still those of the log**, if they were before. -/
theorem Advance.reports (h : Advance d t w d' t' w') {read : List (String × String)}
    (hjobs : ∀ n task : Nat, d.jobs[n]? = some (some task) → task < w.crew.size)
    (hd : d.LogAccounted) (hread : read ++ w.pool.reports = d.reports w.crew.name) :
    read ++ w'.pool.reports = d'.reports w'.crew.name := by
  obtain ⟨es, hlog, hreports, hentails⟩ := h.told
  have horigin : ∀ n < d.jobs.length, d'.origin w'.crew.name n = d.origin w.crew.name n :=
    fun n hlt => by
      obtain ⟨what, hwhat⟩ : ∃ what, d.jobs[n]? = some what := ⟨_, List.getElem?_eq_getElem hlt⟩
      rw [Docket.origin, Docket.origin, hwhat, h.jobs n what hwhat]
      cases what with
      | none => rfl
      | some task => exact h.name task (hjobs n task hwhat)
  have hreport : ∀ e ∈ d.log ++ es, d'.report w'.crew.name e = d.report w.crew.name e :=
    fun e he => by
      have hlt : ∀ n, e.number? = some n → n < d.jobs.length := fun n hn => by
        rcases List.mem_append.1 he with he | he
        · exact hd.number_lt e he n hn
        · exact hentails.number_lt e he n hn
      cases e with
      | delivered n o => rw [Docket.report, Docket.report, horigin n (hlt n rfl)]
      | ended n p => rw [Docket.report, Docket.report, horigin n (hlt n rfl)]
      | found origin message => rfl
  rw [Docket.reports, hlog, List.filterMap_congr hreport, List.filterMap_append, hreports,
    ← List.append_assoc, hread, Docket.reports]

end Scene

/-! ### Stories -/

/-- A **story**: a scene with its docket, and the reports that were taken out. -/
structure Story (V : Type) where
  /-- The scene. -/
  scene : Scene V
  /-- The docket. -/
  docket : Docket
  /-- The reports that were read. -/
  read : List (String × String)

namespace Story

variable {s s' : Story V}

/-- A story **goes on**: a thread takes a step or goes on after waiting, an operation begins, a
thread leaves, time passes, or the reports are taken out. -/
inductive Step (s : Story V) : Story V → Prop
  /-- A thread takes a step. -/
  | runs {t : Thread V} {us ts : List (Thread V)} {f : Focus V} {t' : Thread V} {w' : Scene V}
      (threads : s.scene.threads.Perm (t :: us)) (mode : t.mode = .running f)
      (acts : step f t { s.scene with threads := us } = (t', w'))
      (after : ts.Perm (t' :: w'.threads)) :
      Step s ⟨{ w' with threads := ts },
        s.docket.noteStep f t { s.scene with threads := us }, s.read⟩
  /-- A thread that has waited goes on, since what it waits for is there. -/
  | resumes {t : Thread V} {us ts : List (Thread V)} {wait : Wait V} {t' : Thread V} {w' : Scene V}
      (threads : s.scene.threads.Perm (t :: us)) (mode : t.mode = .waiting wait)
      (there : ready t s.scene wait = true)
      (acts : resume wait t { s.scene with threads := us } = (t', w'))
      (after : ts.Perm (t' :: w'.threads)) :
      Step s ⟨{ w' with threads := ts }, s.docket, s.read⟩
  /-- An operation begins while nobody goes through the scenario. -/
  | begins {place : Place} (op : Op V) {ts : List (Thread V)} {t' : Thread V} {w' : Scene V}
      (nobody : ∀ t ∈ s.scene.threads, t.role ≠ .main) (outside : place = .ground ∨ place = .bench)
      (acts : beginOp place "" op mainThread s.scene = (t', w'))
      (after : ts.Perm (t' :: w'.threads)) :
      Step s ⟨{ w' with threads := ts }, s.docket.noteOp place op s.scene, s.read⟩
  /-- Threads that are over leave, and the others may stand in another order. -/
  | leaves {p : Thread V → Bool} {ts : List (Thread V)}
      (ended : ∀ t ∈ s.scene.threads, p t = false → t.isOver = true)
      (after : ts.Perm (s.scene.threads.filter p)) :
      Step s ⟨{ s.scene with threads := ts }, s.docket, s.read⟩
  /-- Time passes, and the line for the core lock is another one. -/
  | passes (now : Nat) (line : List Nat) (later : s.scene.now ≤ now) :
      Step s ⟨{ s.scene with now, line }, s.docket, s.read⟩
  /-- What was reported is read. -/
  | reads : Step s ⟨{ s.scene with
      journal := .empty
      pool := { s.scene.pool with reports := [], shrinks := [] } }, s.docket,
      s.read ++ s.scene.pool.reports⟩

/-- **Every story**: a scenario begins, and goes on. -/
inductive Reachable : Story V → Prop
  /-- It begins. -/
  | start {w : Scene V} (begins : w.Begins) : Reachable ⟨w, .empty, []⟩
  /-- It goes on. -/
  | step {s s' : Story V} (before : Reachable s) (step : s.Step s') : Reachable s'

/-- The scene is consistent with the docket, and the reports, those taken out and those still there,
are **those of the log**. -/
structure Sound (s : Story V) : Prop where
  /-- The scene is in order. -/
  consistent : s.scene.Consistent s.docket
  /-- What was reported is what was noted. -/
  reports : s.read ++ s.scene.pool.reports = s.docket.reports s.scene.crew.name

/-- What a thread does by an `Advance` **keeps a story sound**. -/
theorem Sound.advance {w w' : Scene V} {t t' : Thread V} {ts : List (Thread V)} {d' : Docket}
    (h : s.Sound) (ha : Scene.Advance s.docket t w d' t' w') (hcrew : w.crew = s.scene.crew)
    (hreports : w.pool.reports = s.scene.pool.reports) (hts : ts.Perm (t' :: w'.threads)) :
    (⟨{ w' with threads := ts }, d', s.read⟩ : Story V).Sound where
  consistent := ha.active.consistent ha.stands hts
  reports := by
    refine ha.reports ?_ h.consistent.sound.logAccounted ?_
    · rw [hcrew]
      exact h.consistent.sound.roster.jobs
    · rw [hreports, hcrew]
      exact h.reports

/-- Every step keeps a story sound. -/
theorem Sound.step (h : s.Sound) (hs : s.Step s') : s'.Sound := by
  cases hs with
  | runs threads mode acts after =>
    obtain ⟨ha, hst⟩ := h.consistent.active threads
    have hadv := Scene.advance_step ha hst mode
    rw [acts] at hadv
    exact h.advance hadv rfl rfl after
  | resumes threads mode there acts after =>
    obtain ⟨ha, hst⟩ := h.consistent.active threads
    have hadv := Scene.advance_resume ha hst mode
    rw [acts] at hadv
    exact h.advance hadv rfl rfl after
  | begins op nobody outside acts after =>
    obtain ⟨ha, hbody⟩ := h.consistent.join nobody
    have hadv := Scene.advance_beginOp ha rfl hbody outside op
    rw [acts] at hadv
    exact h.advance hadv rfl rfl after
  | leaves ended after =>
    have hw := h.consistent.leave ended
    exact ⟨⟨(hw.sound.perm after).regard _, fun t ht => hw.stands t (after.mem_iff.1 ht)⟩,
      h.reports⟩
  | passes now line later => exact ⟨h.consistent.pass now line, h.reports⟩
  | reads => exact ⟨h.consistent.read, (List.append_nil _).trans h.reports⟩

/-- **Every reachable story is sound.** -/
theorem Reachable.sound (h : Reachable s) : s.Sound := by
  induction h with
  | start begins =>
    obtain ⟨hw, hreports⟩ := begins.consistent
    refine ⟨hw, ?_⟩
    show [] ++ _ = _
    rw [hreports]
    rfl
  | step before hs ih => exact ih.step hs

end Story

end TurnPool.Scenario
