import TurnPool.Proofs.Operations
import TurnPool.Proofs.SceneCrews

/-!
# The threads of a scene

A thread acts while the others stand aside. What it is about is its own: no other thread is about
the same contexts, and those that come meanwhile are about new ones. So the pauses that are under
way are told by the frames of all threads, one by one, and so are the errands that are about to
arrive. `Sound` says what holds of a scene with all its threads; `Active` says it of a scene in
which one thread acts.

## Main results

* `Crowd`: the threads, and what they are about.
* `Sound`: the threads, the pauses, the tasks and the docket.
* `Active.after`: what a thread does keeps all of it, if the pauses are left alone.
* `Active.pauses`, `Active.resumes`: a pause begins, and ends.
* `Active.running`: a context without a pause runs, and has left every token.
-/

namespace TurnPool.Scenario

variable {V : Type}

/-! ### What a docket says of other threads -/

namespace Docket

variable {d d' d'' : Docket} {id other task : Nat}

/-- Nothing changes for `id` in the same docket. -/
theorem SameFor.refl (id : Nat) (d : Docket) : SameFor id d d := ⟨rfl, rfl, fun _ _ h => h⟩

/-- `find` changes nothing for any thread. -/
theorem sameFor_find (id : Nat) (rs : List (String × String)) (d : Docket) :
    SameFor id d (d.find rs) := ⟨rfl, rfl, fun _ _ h => h⟩

/-- `use` of another keeper changes nothing for `id`. -/
theorem sameFor_use {k : Keeper} (hk : k ≠ .hand id) (o : Outcome) (d : Docket) :
    SameFor id d (d.use k o) :=
  ⟨congrFun body_use id, keeps_use_of_ne hk.symm, fun _ _ h => jobs_use.symm ▸ h⟩

/-- `begin` of another thread changes nothing for `id`. -/
theorem sameFor_begin (hid : id ≠ other) (what : Option Nat) (d : Docket) :
    SameFor id d (d.begin other what) where
  body := Function.update_of_ne hid _ _
  hand := Function.update_of_ne (by simpa using hid) _ _
  jobs _ _ h := jobs_begin h

/-- `finish` of another thread changes nothing for `id`. -/
theorem sameFor_finish (hid : id ≠ other) (p : Option Panic) (d : Docket) :
    SameFor id d (d.finish other p) := by
  rw [finish]
  split
  · exact ⟨Function.update_of_ne hid _ _, rfl, fun _ _ h => h⟩
  · exact .refl id d

/-- `shelve` of another thread changes nothing for `id`. -/
theorem sameFor_shelve (hid : id ≠ other) (task : Nat) (d : Docket) :
    SameFor id d (d.shelve other task) := by
  rw [shelve]
  split
  · have h : SameFor id d (d.use (.shelf task) .dropped) := sameFor_use (by simp) .dropped d
    have hhand : Keeper.hand id ≠ .hand other := by simpa using hid
    have hshelf : Keeper.hand id ≠ .shelf task := by simp
    refine ⟨h.body, ?_, h.jobs⟩
    rw [← h.hand]
    dsimp only
    rw [Function.update_of_ne hshelf, Function.update_of_ne hhand]
  · exact .refl id d

end Docket

/-! ### Frames and what they are about -/

/-- A context that is away is one of the thread's. -/
theorem Thread.away_subset {t : Thread V} {i : Nat} (h : i ∈ t.away) : i ∈ t.contexts := by
  obtain ⟨fr, hfr, hi⟩ := List.mem_filterMap.1 h
  refine List.mem_flatMap.2 ⟨fr, hfr, ?_⟩
  cases fr with
  | pausing ctx token signal value =>
    obtain rfl := Option.some.inj hi
    exact List.mem_singleton.2 rfl
  | _ => cases hi

namespace Scene

variable {d d' : Docket} {t t' : Thread V} {w w' : Scene V} {ts ts' : List (Thread V)}

/-! ### The threads -/

/-- The threads `ts` of a scene are **in order**: their numbers differ, thread 0 is the main one, no
two are about the same context, their contexts and granted tokens exist, and a thread that is over
has no frames. -/
structure Crowd (ts : List (Thread V)) (w : Scene V) : Prop where
  /-- They have numbers of their own. -/
  ids : (ts.map Thread.id).Nodup
  /-- The numbers were given out. -/
  id_lt : ∀ t ∈ ts, t.id < w.nextThread
  /-- The thread that goes through the scenario has the first number. -/
  main : ∀ t ∈ ts, t.role = .main ↔ t.id = 0
  /-- That one was given out. -/
  next_pos : 0 < w.nextThread
  /-- What they are about is there. -/
  contexts : ∀ t ∈ ts, ∀ i ∈ t.contexts, i < w.pool.contexts.size
  /-- No two are about the same. -/
  apart : ts.Pairwise Thread.DisjointContexts
  /-- A thread that is over has nothing left to do. -/
  emptied : ∀ t ∈ ts, t.isOver = true → t.frames = []
  /-- A token that one was granted was issued. -/
  granted : ∀ t ∈ ts, ∀ id, t.mode.granted? = some id → id < w.pool.ledger.tokens.size

/-- `Crowd` does not depend on the order of the threads. -/
theorem Crowd.perm (h : Crowd ts w) (hts : ts'.Perm ts) : Crowd ts' w where
  ids := (hts.map _).nodup_iff.2 h.ids
  id_lt t ht := h.id_lt t (hts.subset ht)
  main t ht := h.main t (hts.subset ht)
  next_pos := h.next_pos
  contexts t ht := h.contexts t (hts.subset ht)
  apart := (hts.pairwise_iff fun {_ _} => Thread.DisjointContexts.symm).2 h.apart
  emptied t ht := h.emptied t (hts.subset ht)
  granted t ht := h.granted t (hts.subset ht)

/-- `Crowd` is kept by a thread that is about no more contexts, if the number of contexts and tokens
is the same. -/
theorem Crowd.moved {us : List (Thread V)} (h : Crowd (t :: us) w) {p : Pool (Job V)}
    (hcontexts : p.contexts.size = w.pool.contexts.size)
    (htokens : p.ledger.tokens.size = w.pool.ledger.tokens.size) {frames : List (Frame V)}
    (hframes : ∀ i ∈ frames.flatMap Frame.contexts, i ∈ t.contexts) (hover : t.isOver = false) :
    Crowd ({ t with frames } :: us) { w with pool := p } := by
  have hself : t ∈ t :: us := List.mem_cons_self
  obtain ⟨hfirst, hothers⟩ := List.pairwise_cons.1 h.apart
  exact {
    ids := h.ids
    id_lt := fun u hu => by
      rcases List.mem_cons.1 hu with rfl | hu
      · exact h.id_lt t hself
      · exact h.id_lt u (List.mem_cons_of_mem t hu)
    main := fun u hu => by
      rcases List.mem_cons.1 hu with rfl | hu
      · exact h.main t hself
      · exact h.main u (List.mem_cons_of_mem t hu)
    next_pos := h.next_pos
    contexts := fun u hu i hi => by
      show i < p.contexts.size
      rw [hcontexts]
      rcases List.mem_cons.1 hu with rfl | hu
      · exact h.contexts t hself i (hframes i hi)
      · exact h.contexts u (List.mem_cons_of_mem t hu) i hi
    apart := List.pairwise_cons.2
      ⟨fun u hu i hi => hfirst u hu i (hframes i hi), hothers⟩
    emptied := fun u hu hu' => by
      rcases List.mem_cons.1 hu with rfl | hu
      · exact absurd (hover.symm.trans hu') Bool.false_ne_true
      · exact h.emptied u (List.mem_cons_of_mem t hu) hu'
    granted := fun u hu id hid => by
      show id < p.ledger.tokens.size
      rw [htokens]
      rcases List.mem_cons.1 hu with rfl | hu
      · exact h.granted t hself id hid
      · exact h.granted u (List.mem_cons_of_mem t hu) id hid }

/-- Thread `t` **acts** as `t'`: it keeps its number and its role, and its contexts are those it had
or new ones. -/
structure Acts (t : Thread V) (w : Scene V) (t' : Thread V) (w' : Scene V) : Prop where
  /-- It is the same thread. -/
  id : t'.id = t.id
  /-- It is for the same. -/
  role : t'.role = t.role
  /-- What it is about is what it was about, or new. -/
  contexts : ∀ i ∈ t'.contexts, i ∈ t.contexts ∨
    (w.pool.contexts.size ≤ i ∧ i < w'.pool.contexts.size ∧
      ∀ u ∈ w'.threads, u ∈ w.threads ∨ i ∉ u.contexts)
  /-- If it is over it has nothing left to do. -/
  emptied : t'.isOver = true → t'.frames = []
  /-- A token that it was granted was issued. -/
  granted : ∀ id, t'.mode.granted? = some id → id < w'.pool.ledger.tokens.size

/-- `PushesPlain` acts. -/
theorem PushesPlain.acts (h : PushesPlain t w t' w') : Acts t w t' w' where
  id := h.id
  role := h.role
  contexts i hi := by
    obtain ⟨new, heq, hnew⟩ := h.frames
    rw [Thread.contexts, heq, List.flatMap_append] at hi
    rcases List.mem_append.1 hi with hi | hi
    · obtain ⟨fr, hfr, hi⟩ := List.mem_flatMap.1 hi
      obtain ⟨hge, hlt⟩ := (hnew fr hfr).fresh i hi
      exact Or.inr ⟨hge, hlt, (hnew fr hfr).alone i hi⟩
    · exact Or.inl hi
  emptied hover := absurd (h.going.symm.trans hover) Bool.false_ne_true
  granted := h.granted

/-- `Crowd` is kept when one of the threads **acts**. -/
theorem Crowd.after (h : Crowd (t :: w.threads) w) (hs : KeepsPauses w w') (ha : Acts t w t' w') :
    Crowd (t' :: w'.threads) w' := by
  obtain ⟨new, hnew, hcome, hids, hapart⟩ := hs.came
  have hsize := hs.samePauses.size_le
  have htokens := hs.samePauses.parked.size_le
  have hmem : ∀ {u : Thread V}, u ∈ w'.threads → u ∈ w.threads ∨ u ∈ new := fun hu =>
    List.mem_append.1 (hnew ▸ hu)
  have hold : ∀ {u : Thread V}, u ∈ w.threads → u ∈ t :: w.threads := List.mem_cons_of_mem t
  have hself : t ∈ t :: w.threads := List.mem_cons_self
  obtain ⟨hout, hnodup⟩ := List.nodup_cons.1 h.ids
  obtain ⟨hfirst, hothers⟩ := List.pairwise_cons.1 h.apart
  exact {
    ids := by
      refine List.nodup_cons.2 ⟨fun hin => ?_, ?_⟩
      · obtain ⟨u, hu, heq⟩ := List.mem_map.1 hin
        rw [ha.id] at heq
        rcases hmem hu with hu | hu
        · exact hout (List.mem_map.2 ⟨u, hu, heq⟩)
        · have hge := (hcome u hu).id_ge
          have hlt := h.id_lt t hself
          omega
      · rw [hnew, List.map_append]
        refine List.Nodup.append hnodup hids fun i hi hi' => ?_
        obtain ⟨u, hu, rfl⟩ := List.mem_map.1 hi
        obtain ⟨v, hv, heq⟩ := List.mem_map.1 hi'
        have hlt := h.id_lt u (hold hu)
        have hge := (hcome v hv).id_ge
        omega
    id_lt := fun u hu => by
      rcases List.mem_cons.1 hu with rfl | hu
      · rw [ha.id]
        exact Nat.lt_of_lt_of_le (h.id_lt t hself) hs.next_le
      · rcases hmem hu with hu | hu
        · exact Nat.lt_of_lt_of_le (h.id_lt u (hold hu)) hs.next_le
        · exact (hcome u hu).id_lt
    main := fun u hu => by
      rcases List.mem_cons.1 hu with rfl | hu
      · rw [ha.role, ha.id]
        exact h.main t hself
      · rcases hmem hu with hu | hu
        · exact h.main u (hold hu)
        · have hge := (hcome u hu).id_ge
          have hpos := h.next_pos
          exact iff_of_false (hcome u hu).role (by omega)
    next_pos := Nat.lt_of_lt_of_le h.next_pos hs.next_le
    contexts := fun u hu i hi => by
      rcases List.mem_cons.1 hu with rfl | hu
      · rcases ha.contexts i hi with hi | ⟨-, hlt, -⟩
        · exact Nat.lt_of_lt_of_le (h.contexts t hself i hi) hsize
        · exact hlt
      · rcases hmem hu with hu | hu
        · exact Nat.lt_of_lt_of_le (h.contexts u (hold hu) i hi) hsize
        · exact ((hcome u hu).fresh i hi).2
    apart := by
      refine List.pairwise_cons.2 ⟨fun u hu i hi hiu => ?_, ?_⟩
      · rcases ha.contexts i hi with hi | ⟨hge, -, halone⟩
        · rcases hmem hu with hu | hu
          · exact hfirst u hu i hi hiu
          · have hlt := h.contexts t hself i hi
            have hge := ((hcome u hu).fresh i hiu).1
            omega
        · rcases halone u hu with hu | hnot
          · have hlt := h.contexts u (hold hu) i hiu
            omega
          · exact hnot hiu
      · rw [hnew]
        refine List.pairwise_append.2 ⟨hothers, hapart, fun u hu v hv i hi hi' => ?_⟩
        have hlt := h.contexts u (hold hu) i hi
        have hge := ((hcome v hv).fresh i hi').1
        omega
    emptied := fun u hu hover => by
      rcases List.mem_cons.1 hu with rfl | hu
      · exact ha.emptied hover
      · rcases hmem hu with hu | hu
        · exact h.emptied u (hold hu) hover
        · exact absurd ((hcome u hu).going.symm.trans hover) Bool.false_ne_true
    granted := fun u hu id hid => by
      rcases List.mem_cons.1 hu with rfl | hu
      · exact ha.granted id hid
      · rcases hmem hu with hu | hu
        · exact Nat.lt_of_lt_of_le (h.granted u (hold hu) id hid) htokens
        · exact (hcome u hu).granted id hid }

/-! ### A scene with its threads -/

/-- The **invariant** of a scene with all its threads and a docket: `Crowd`, the `Books` of the
pauses with the contexts that are away, names that stand for tokens, `CrewMatches`, and the docket's
log in order. -/
structure Sound (d : Docket) (ts : List (Thread V)) (w : Scene V) : Prop where
  /-- The threads are in order. -/
  crowd : Crowd ts w
  /-- A context has one pause under way. -/
  once : (ts.flatMap Thread.away).Nodup
  /-- The books of the pauses are right. -/
  books : w.pool.Books (ts.flatMap Thread.away)
  /-- Tokens that have names were issued. -/
  tokens : ∀ x ∈ w.tokens, x.2 < w.pool.ledger.tokens.size
  /-- So were tokens that were left for somebody. -/
  deposits : ∀ x ∈ w.deposits, ∀ id, x.2 = some (.ok id) → id < w.pool.ledger.tokens.size
  /-- The tasks are in order. -/
  roster : CrewMatches d (ts.flatMap Thread.errands) w
  /-- The docket agrees with its log. -/
  logAccounted : d.LogAccounted
  /-- Who is in the middle of something is there. -/
  busy : ∀ id n, d.body id = some n → id ∈ ts.map Thread.id

/-- `Sound` does not depend on the order of the threads. -/
theorem Sound.perm (h : Sound d ts w) (hts : ts'.Perm ts) : Sound d ts' w where
  crowd := h.crowd.perm hts
  once := (hts.flatMap_right _).nodup_iff.2 h.once
  books := { h.books with
    running := fun i => ((hts.flatMap_right _).mem_iff).trans (h.books.running i) }
  tokens := h.tokens
  deposits := h.deposits
  roster := h.roster.perm (hts.flatMap_right _)
  logAccounted := h.logAccounted
  busy id n hid := (hts.map _).mem_iff.2 (h.busy id n hid)

/-- Thread `t` **acts** in a scene: `Sound` holds with it, and the others stand as the docket
says. -/
structure Active (d : Docket) (t : Thread V) (w : Scene V) : Prop where
  /-- All is in order. -/
  sound : Sound d (t :: w.threads) w
  /-- The others stand as they should. -/
  others : ∀ u ∈ w.threads, u.Stands d

namespace Active

/-- The number of the acting thread has been given. -/
theorem lt_next (h : Active d t w) : t.id < w.nextThread :=
  h.sound.crowd.id_lt t List.mem_cons_self

/-- The acting thread is none of the others. -/
theorem ne_of_mem (h : Active d t w) {u : Thread V} (hu : u ∈ w.threads) : u.id ≠ t.id := by
  intro heq
  exact (List.nodup_cons.1 h.sound.crowd.ids).1 (List.mem_map.2 ⟨u, hu, heq⟩)

/-- The docket has no body for a thread that is new. -/
theorem body_newcomer (h : Active d t w) {u : Thread V} (hu : Newcomer w w' u) :
    d.body u.id = none := by
  rw [Option.eq_none_iff_forall_ne_some]
  intro n hn
  obtain ⟨v, hv, heq⟩ := List.mem_map.1 (h.sound.busy u.id n hn)
  have hlt := h.sound.crowd.id_lt v hv
  have hge := hu.id_ge
  omega

/-- `Active` is kept by what the thread does, if it **keeps the pauses** and the others' part of the
docket. -/
theorem after (h : Active d t w) (hs : KeepsPauses w w') (ha : Acts t w t' w')
    (haway : t'.away = t.away)
    (hroster : CrewMatches d' (t'.errands ++ w.threads.flatMap Thread.errands) w')
    (hd : d'.LogAccounted) (hagrees : ∀ id, id ≠ t.id → Docket.SameFor id d d') :
    Active d' t' w' := by
  obtain ⟨new, hnew, hcome, -, -⟩ := hs.came
  have htokens := hs.samePauses.parked.size_le
  have hflat : ∀ {β : Type} {f : Thread V → List β}, (∀ u ∈ new, f u = []) →
      w'.threads.flatMap f = w.threads.flatMap f := fun {β f} hf => by
    rw [hnew, List.flatMap_append, List.flatMap_eq_nil_iff.2 hf, List.append_nil]
  have hpauses : (t' :: w'.threads).flatMap Thread.away = (t :: w.threads).flatMap Thread.away := by
    rw [List.flatMap_cons, List.flatMap_cons, haway, hflat fun u hu => (hcome u hu).away]
  have herrands : w'.threads.flatMap Thread.errands = w.threads.flatMap Thread.errands :=
    hflat fun u hu => by
      rcases (hcome u hu).frames with hplain | ⟨slot, ctx, heq⟩
      · exact List.filterMap_eq_nil_iff.2 fun fr hfr => Frame.errand?_of_isPlain (hplain fr hfr)
      · rw [Thread.errands, heq]
        rfl
  have hne : ∀ u ∈ new, u.id ≠ t.id := fun u hu => by
    have hge := (hcome u hu).id_ge
    have hlt := h.lt_next
    omega
  constructor
  · exact {
      crowd := h.sound.crowd.after hs ha
      once := hpauses ▸ h.sound.once
      books := hpauses ▸ h.sound.books.samePauses hs.samePauses
      tokens := fun x hx => (hs.tokens x hx).elim
        (fun hold => Nat.lt_of_lt_of_le (h.sound.tokens x hold) htokens) fun hlt => hlt
      deposits := fun x hx => (hs.deposits x hx).elim
        (fun hold id hid => Nat.lt_of_lt_of_le (h.sound.deposits x hold id hid) htokens)
        fun hlt => hlt
      roster := by
        rw [List.flatMap_cons, herrands]
        exact hroster
      logAccounted := hd
      busy := fun id n hn => by
        by_cases hid : id = t.id
        · rw [hid, ← ha.id]
          exact List.mem_cons_self
        · have hold := h.sound.busy id n ((hagrees id hid).body ▸ hn)
          rcases List.mem_cons.1 hold with rfl | hold
          · exact absurd rfl hid
          · refine List.mem_cons_of_mem _ ?_
            rw [hnew, List.map_append]
            exact List.mem_append_left _ hold }
  · intro u hu
    rcases List.mem_append.1 (hnew ▸ hu) with hu | hu
    · exact (h.others u hu).congr (hagrees u.id (h.ne_of_mem hu))
    · have hbody : d'.body u.id = none :=
        (hagrees u.id (hne u hu)).body.trans (h.body_newcomer (hcome u hu))
      rcases (hcome u hu).frames with hplain | ⟨slot, ctx, heq⟩
      · left
        rw [← List.append_nil u.frames]
        exact (Footing.ground hbody).append hplain
      · left
        rw [heq]
        exact .loop hbody slot ctx (by simp)

/-- `Active` and what the thread stands on are kept by **`PushesPlain`**. -/
theorem pushesPlain (h : Active d t w) (hf : Footing d t.id t.frames) (ho : PushesPlain t w t' w') :
    Active d t' w' ∧ t'.Stands d := by
  obtain ⟨new, heq, hnew⟩ := ho.frames
  have haway : t'.away = t.away := by
    rw [Thread.away, heq, List.filterMap_append,
      List.filterMap_eq_nil_iff.2 fun fr hfr => (hnew fr hfr).away]
    rfl
  have herrands : t'.errands = t.errands := by
    rw [Thread.errands, heq, List.filterMap_append,
      List.filterMap_eq_nil_iff.2 fun fr hfr => Frame.errand?_of_isPlain (hnew fr hfr).plain]
    rfl
  constructor
  · refine h.after ho.keepsTasks.toKeepsPauses ho.acts haway ?_ h.sound.logAccounted fun id _ =>
      .refl id d
    rw [herrands]
    exact h.sound.roster.keepsTasks ho.keepsTasks
  · left
    rw [heq, ho.id]
    exact hf.append fun fr hfr => (hnew fr hfr).plain

/-- `Active` is kept when the frames of the thread **become others**, about the same contexts,
pauses and errands. -/
theorem reframe (h : Active d t w) {frames : List (Frame V)} {m : Mode V}
    (hcontexts : ∀ i ∈ frames.flatMap Frame.contexts, i ∈ t.contexts)
    (haway : frames.filterMap Frame.paused? = t.away)
    (herrands : frames.filterMap Frame.errand? = t.errands)
    (hm : m.Goes w.pool.ledger.tokens.size) : Active d { t with frames, mode := m } w := by
  refine h.after (.refl w) ⟨rfl, rfl, fun i hi => Or.inl (hcontexts i hi), fun hover => ?_,
    hm.granted⟩ haway ?_ h.sound.logAccounted fun id _ => .refl id d
  · exact absurd ((Mode.Goes.going (t := { t with frames, mode := m }) hm).symm.trans hover)
      Bool.false_ne_true
  · rw [show ({ t with frames, mode := m } : Thread V).errands = t.errands from herrands]
    exact h.sound.roster

/-- `Active` is kept when the top frame **becomes another**, about the same context, pause and
errand. -/
theorem retop (h : Active d t w) {fr fr' : Frame V} {below : List (Frame V)} {m : Mode V}
    (hframes : t.frames = fr :: below) (hcontexts : fr'.contexts = fr.contexts)
    (hpaused : fr'.paused? = fr.paused?) (herrand : fr'.errand? = fr.errand?)
    (hm : m.Goes w.pool.ledger.tokens.size) :
    Active d { t with frames := fr' :: below, mode := m } w := by
  refine h.reframe (fun i hi => ?_) ?_ ?_ hm
  · rw [Thread.contexts, hframes, List.flatMap_cons, ← hcontexts]
    exact hi
  · rw [Thread.away, hframes, List.filterMap_cons, List.filterMap_cons, hpaused]
  · rw [Thread.errands, hframes, List.filterMap_cons, List.filterMap_cons, herrand]

/-- `Active` is kept when a frame that is neither a pause nor an errand is taken off. -/
theorem pop (h : Active d t w) {fr : Frame V} {below : List (Frame V)} {m : Mode V}
    (hframes : t.frames = fr :: below) (hpaused : fr.paused? = none) (herrand : fr.errand? = none)
    (hm : m.Goes w.pool.ledger.tokens.size) :
    Active d { t with frames := below, mode := m } w := by
  refine h.reframe (fun i hi => ?_) ?_ ?_ hm
  · rw [Thread.contexts, hframes, List.flatMap_cons]
    exact List.mem_append_right _ hi
  · rw [Thread.away, hframes, List.filterMap_cons_none hpaused]
  · rw [Thread.errands, hframes, List.filterMap_cons_none herrand]

/-! ### Pauses -/

/-- A context of the thread that is not away **runs**, is not noted as paused, has no token, and is
parked on none. -/
theorem running (h : Active d t w) {ctx : Nat} (hctx : ctx ∈ t.contexts) (hnot : ctx ∉ t.away) :
    (w.pool.context ctx).running = true ∧ ctx ∉ w.pool.away ∧
      (w.pool.context ctx).heldToken = none ∧ ∀ token, ctx ∉ w.pool.ledger.parked token := by
  have hnone : ctx ∉ (t :: w.threads).flatMap Thread.away := fun hin => by
    obtain ⟨u, hu, hi⟩ := List.mem_flatMap.1 hin
    rcases List.mem_cons.1 hu with rfl | hu
    · exact hnot hi
    · exact (List.pairwise_cons.1 h.sound.crowd.apart).1 u hu ctx hctx (Thread.away_subset hi)
  have hrun : (w.pool.context ctx).running = true :=
    Bool.of_not_eq_false fun hfalse => hnone ((h.sound.books.running ctx).2 hfalse)
  have hheld := h.sound.books.idle ctx hrun
  refine ⟨hrun, fun hin => ?_, hheld, fun token hin => ?_⟩
  · exact Bool.false_ne_true (((h.sound.books.noted ctx).1 hin).symm.trans hrun)
  · exact Option.some_ne_none token ((h.sound.books.parked token ctx hin).symm.trans hheld)

/-- `Active` is kept when a pause **begins** on one of the thread's contexts. -/
theorem pauses (h : Active d t w) {ctx token : Nat} (hctx : ctx ∈ t.contexts)
    (hrun : (w.pool.context ctx).running = true) (htoken : token < w.pool.ledger.tokens.size)
    (hover : t.isOver = false) (reason : String) (signal : Nat) (value : Option V) :
    Active d (t.push [.relock, .pausing ctx token signal value])
      { w with pool := ((w.pool.hold ctx token).noteAway ctx token reason).2 } := by
  have hlt : ctx < w.pool.contexts.size := h.sound.crowd.contexts t List.mem_cons_self ctx hctx
  have hm := Pool.sameOtherContexts_noteAway (p := w.pool) hlt token reason
  have hsize : ((w.pool.hold ctx token).noteAway ctx token reason).2.contexts.size =
      w.pool.contexts.size := Array.size_modify
  have hnot : ctx ∉ (t :: w.threads).flatMap Thread.away := fun hin =>
    Bool.false_ne_true (((h.sound.books.running ctx).1 hin).symm.trans hrun)
  refine ⟨{ h.sound with
    crowd := h.sound.crowd.moved hsize hm.size (fun i hi => ?_) hover
    once := List.nodup_cons.2 ⟨hnot, h.sound.once⟩
    books := h.sound.books.noteAway hlt htoken hrun reason
    tokens := fun x hx => Nat.lt_of_lt_of_eq (h.sound.tokens x hx) hm.size.symm
    deposits := fun x hx id hid =>
      Nat.lt_of_lt_of_eq (h.sound.deposits x hx id hid) hm.size.symm
    roster := h.sound.roster.congr rfl rfl rfl rfl rfl }, h.others⟩
  rcases List.mem_cons.1 hi with rfl | hi
  · exact hctx
  · exact hi

/-- `Active` is kept when the pause of the top frame **ends**. -/
theorem resumes (h : Active d t w) {ctx token signal : Nat} {value : Option V}
    {below : List (Frame V)} (hframes : t.frames = .pausing ctx token signal value :: below)
    (hover : t.isOver = false) (cause : Option String) :
    Active d { t with frames := below }
      { w with pool := (w.pool.noteBack ctx cause).unpark ctx (w.pool.context ctx).heldToken } := by
  have hctx : ctx ∈ t.contexts := by
    rw [Thread.contexts, hframes]
    exact List.mem_cons_self
  have hlt : ctx < w.pool.contexts.size := h.sound.crowd.contexts t List.mem_cons_self ctx hctx
  have hm := Pool.sameOtherContexts_unpark (p := w.pool) hlt cause (w.pool.context ctx).heldToken
  have hsize : ((w.pool.noteBack ctx cause).unpark ctx
      (w.pool.context ctx).heldToken).contexts.size = w.pool.contexts.size := Array.size_modify
  have haway : (t :: w.threads).flatMap Thread.away =
      ctx :: ({ t with frames := below } :: w.threads).flatMap Thread.away := by
    rw [List.flatMap_cons, List.flatMap_cons, Thread.away, hframes]
    rfl
  have honce := h.sound.once
  have hbooks := h.sound.books.unpark (haway ▸ List.mem_cons_self) cause
  rw [haway] at honce hbooks
  have hrest : (ctx :: ({ t with frames := below } :: w.threads).flatMap Thread.away).filter
      (· ≠ ctx) = ({ t with frames := below } :: w.threads).flatMap Thread.away := by
    rw [List.filter_cons_of_neg (by simp), List.filter_eq_self]
    intro i hi
    refine decide_eq_true fun heq => ?_
    exact (List.nodup_cons.1 honce).1 (heq ▸ hi)
  refine ⟨{ h.sound with
    crowd := h.sound.crowd.moved hsize hm.size (fun i hi => ?_) hover
    once := (List.nodup_cons.1 honce).2
    books := hrest ▸ hbooks
    tokens := fun x hx => Nat.lt_of_lt_of_eq (h.sound.tokens x hx) hm.size.symm
    deposits := fun x hx id hid =>
      Nat.lt_of_lt_of_eq (h.sound.deposits x hx id hid) hm.size.symm
    roster := ?_ }, h.others⟩
  · rw [Thread.contexts, hframes]
    exact List.mem_cons_of_mem _ hi
  · have herrands : (t :: w.threads).flatMap Thread.errands =
        ({ t with frames := below } :: w.threads).flatMap Thread.errands := by
      rw [List.flatMap_cons, List.flatMap_cons, Thread.errands, hframes]
      rfl
    rw [← herrands]
    exact h.sound.roster.congr rfl rfl rfl rfl rfl

end Active

end Scene

end TurnPool.Scenario
