import TurnPool.Proofs.KeptTasks
import TurnPool.Proofs.World
import TurnPool.Scenario.Step

/-!
# What operations come to

Most operations change little: they answer at once or put plain frames on the others. What is left
are those that ask something of a task or use a completion that is parked, and the pauses.

## Main results

* `Comes`, `comes_beginOp`: what an operation comes to, outside of an agenda.
* `pushesPlain_resume`: what a thread that has waited does changes little.
-/

namespace TurnPool

/-! ### What is found open -/

namespace Pool

variable {ω : Type}

/-- What `check origin` reports: what is open, if anything is. -/
def leftOpen (origin : String) (p : Pool ω) : List (String × String) :=
  match p.opened with
  | some what => [(origin, origin ++ " with open resources: " ++ what)]
  | none => []

/-- What is reported when context `ctx` is refused a pause for an invariant violation: something is
open, or the context does not run. -/
def refusal (ctx : Nat) (p : Pool ω) : List (String × String) :=
  match p.opened with
  | some _ => p.leftOpen "pause"
  | none =>
    if (p.context ctx).running then []
    else [("pause", "ctx-" ++ toString ctx ++ " paused while not running")]

/-- With nothing open `check` reports nothing. -/
theorem leftOpen_of_none (origin : String) {p : Pool ω} (h : p.opened = none) :
    p.leftOpen origin = [] := by
  rw [leftOpen, h]

/-- With `what` open `check` reports it under `origin`. -/
theorem leftOpen_of_some (origin : String) {p : Pool ω} {what : String} (h : p.opened = some what) :
    p.leftOpen origin = [(origin, origin ++ " with open resources: " ++ what)] := by
  rw [leftOpen, h]

/-- `check` adds what is open to the reports, and changes nothing else. -/
theorem check_eq (origin : String) (p : Pool ω) :
    (p.check origin).2 = { p with reports := p.reports ++ p.leftOpen origin } := by
  obtain hopen | ⟨what, hopen⟩ := Option.eq_none_or_eq_some p.opened
  · rw [check_of_none origin hopen, leftOpen_of_none origin hopen, List.append_nil]
  · rw [check_of_opened origin hopen, leftOpen_of_some origin hopen]
    rfl

/-- `beginPause` is **refused** and reports `p.refusal ctx`, which is empty if only the token was
reclaimed; or the context was running and **is paused** on the token. -/
theorem beginPause_eq_or (ctx token : Nat) (reason : String) (p : Pool ω) :
    (∃ e, p.beginPause ctx token reason =
        (.error e, { p with reports := p.reports ++ p.refusal ctx })) ∨
      ((p.context ctx).running = true ∧ p.refusal ctx = [] ∧
        p.beginPause ctx token reason =
          (.ok ⟨p.signals.size, ((p.hold ctx token).noteAway ctx token reason).1⟩,
            ((p.hold ctx token).noteAway ctx token reason).2)) := by
  obtain hopen | ⟨what, hopen⟩ := Option.eq_none_or_eq_some p.opened
  · by_cases hrun : (p.context ctx).running = true
    · have hnothing : p.refusal ctx = [] := by
        rw [refusal, hopen]
        exact if_pos hrun
      rcases beginPause_cases ctx token reason p with ⟨e, reports, heq⟩ | ⟨-, -, -, heq⟩
      · refine Or.inl ⟨e, ?_⟩
        rw [hnothing, List.append_nil, heq]
        have hsame : (p.beginPause ctx token reason).2.reports = p.reports := by
          rw [beginPause, check_of_none _ hopen]
          simp only [hrun, Bool.not_true, Bool.false_eq_true, if_false]
          split <;> rfl
        rw [heq] at hsame
        obtain rfl : reports = p.reports := hsame
        rfl
      · exact Or.inr ⟨hrun, hnothing, heq⟩
    · have hrefusal : p.refusal ctx =
          [("pause", "ctx-" ++ toString ctx ++ " paused while not running")] := by
        rw [refusal, hopen]
        exact if_neg hrun
      refine Or.inl
        ⟨.invariantViolation ("ctx-" ++ toString ctx ++ " paused while not running"), ?_⟩
      rw [hrefusal, beginPause, check_of_none _ hopen]
      simp only [Bool.eq_false_iff.2 hrun]
      rfl
  · have hrefusal : p.refusal ctx = p.leftOpen "pause" := by
      rw [refusal, hopen]
    refine Or.inl ⟨.invariantViolation ("pause" ++ " with open resources: " ++ what), ?_⟩
    rw [hrefusal, leftOpen_of_some _ hopen, beginPause, check_of_opened _ hopen]
    rfl

end Pool

namespace Scenario

variable {V : Type}

/-! ### Waiting for room and for slots -/

section Waiting

open Scene

variable {w : Scene V}

/-- A token that `issue` answers is one of the ledger afterwards. -/
theorem lt_of_issue {l : Ledger} {c : Category} {priority : Priority} {reason : String} {id : Nat}
    (h : (l.issue c priority reason).1 = .ok id) :
    id < (l.issue c priority reason).2.tokens.size := by
  rcases Ledger.issue_cases c priority reason l with ⟨e, heq⟩ | ⟨-, heq⟩
  · rw [heq] at h
    cases h
  · rw [heq] at h ⊢
    cases h
    rw [Ledger.size_issued]
    exact Nat.lt_succ_self _

/-- A token that `acquire` answers is one of the ledger afterwards. -/
theorem lt_of_acquire {l : Ledger} {caller : Nat} {c : Category} {priority : Priority}
    {reason : String} {id : Nat} (h : (l.acquire caller c priority reason).1 = some (.ok id)) :
    id < (l.acquire caller c priority reason).2.tokens.size := by
  obtain ⟨waiters, hsnd⟩ := Ledger.acquire_snd c priority reason l caller
  rw [hsnd]
  refine lt_of_issue ?_
  rw [Ledger.acquire] at h
  split at h
  · cases h
  · rename_i r l' _ heq
    rw [heq]
    exact Option.some.inj h

/-- A token that `giveUp` answers is one of the ledger afterwards. -/
theorem lt_of_giveUp {l : Ledger} {caller : Nat} {c : Category} {priority : Priority}
    {reason : String} {id : Nat} (h : (l.giveUp caller c priority reason).1 = .ok id) :
    id < (l.giveUp caller c priority reason).2.tokens.size := by
  obtain ⟨waiters, hsnd⟩ := Ledger.giveUp_snd c priority reason l caller
  rw [hsnd]
  refine lt_of_issue ?_
  rw [Ledger.giveUp] at h
  split at h
  · cases h
  · rename_i r l' _ heq
    rw [heq]
    exact h

/-- A thread that was granted `r` was granted a token below `n` if `r` answers one. -/
theorem granted_of_ok {r : Except Fault Nat} {n : Nat} (hr : ∀ id, r = .ok id → id < n) :
    ∀ id, (Mode.running (.granted r) : Mode V).granted? = some id → id < n := by
  cases r with
  | error e => rintro id ⟨⟩
  | ok token =>
    rintro id ⟨⟩
    exact hr _ rfl

/-- `tryRoom` answers the thread or makes it wait, and keeps the tasks. -/
theorem pushesPlain_tryRoom (e : Event V) (t : Thread V) (w : Scene V) :
    PushesPlain t w (tryRoom e t w).1 (tryRoom e t w).2 := by
  rw [tryRoom, onQueue, onPool, Queue.offer, Queue.tryEnqueue]
  dsimp only
  split
  · rename_i number w' heq
    split at heq
    · rename_i number' q' heq'
      split at heq'
      · cases heq'
      · cases heq'
        cases heq
        rw [Queue.push_fst]
        exact .answer (.entered e.id (Queue.shed_purge _) (Queue.shed_waiters _ _ _)) _
    · cases heq
  · rename_i w' heq
    split at heq
    · cases heq
    · rename_i f q' heq'
      split at heq'
      · cases heq'
        cases heq
        exact .mode (.keepsMine fun _ =>
          ((Queue.shed_purge _).trans (Queue.shed_waiters _ _ _)).keepsMine) _ (by rintro id ⟨⟩)
      · cases heq'

/-- `trySlot` answers the thread or makes it wait, and keeps the tasks. -/
theorem pushesPlain_trySlot (name : String) (c : Category) (priority : Priority) (reason : String)
    (deadline : Option Nat) (t : Thread V) (w : Scene V) :
    PushesPlain t w (trySlot name c priority reason deadline t w).1
      (trySlot name c priority reason deadline t w).2 := by
  rw [trySlot]
  split
  · have hkept : KeepsTasks w (w.onLedger (·.giveUp t.id c priority reason)).2 :=
      .act (.giveUp t.id c priority reason) rfl rfl
    have hlabel : KeepsTasks (w.onLedger (·.giveUp t.id c priority reason)).2
        ((w.onLedger (·.giveUp t.id c priority reason)).2.label name
          (w.onLedger (·.giveUp t.id c priority reason)).1) := .label name _ _
    refine .mode (hkept.trans hlabel) _ (granted_of_ok fun id hid => ?_)
    exact Nat.lt_of_lt_of_le (lt_of_giveUp hid) hlabel.samePauses.parked.size_le
  · have hkept : KeepsTasks w (w.onLedger (·.acquire t.id c priority reason)).2 :=
      .act (.acquire t.id c priority reason) rfl rfl
    split
    · rename_i r w' heq
      have hfst : (w.pool.ledger.acquire t.id c priority reason).1 = some r :=
        congrArg Prod.fst heq
      rw [heq] at hkept
      refine .mode (hkept.trans (.label name _ _)) _ (granted_of_ok fun id hid => ?_)
      have hlt : id < w'.pool.ledger.tokens.size := by
        rw [show w' = (w.onLedger (·.acquire t.id c priority reason)).2 by rw [heq]]
        exact lt_of_acquire (hfst.trans (congrArg some hid))
      exact Nat.lt_of_lt_of_le hlt (KeepsTasks.label name _ _).samePauses.parked.size_le
    · rename_i w' heq
      rw [heq] at hkept
      exact .mode hkept _ (by rintro id ⟨⟩)


/-- `tryRoom` keeps the frames of the thread. -/
theorem frames_tryRoom (e : Event V) (t : Thread V) (w : Scene V) :
    (tryRoom e t w).1.frames = t.frames := by
  rw [tryRoom]
  split <;> rfl

/-- `trySlot` keeps the frames of the thread. -/
theorem frames_trySlot (name : String) (c : Category) (priority : Priority) (reason : String)
    (deadline : Option Nat) (t : Thread V) (w : Scene V) :
    (trySlot name c priority reason deadline t w).1.frames = t.frames := by
  rw [trySlot]
  split
  · rfl
  · split <;> rfl

/-- A new thread that tries to get something and may wait for it keeps the tasks. -/
theorem keepsTasks_addWaiter
    {frames : List (Frame V)} {attempt : Thread V → Scene V → Thread V × Scene V}
    (hframes : ∀ fr ∈ frames, fr.isPlain = true ∧ fr.paused? = none ∧ fr.contexts = [])
    (hattempt : ∀ t w, PushesPlain t w (attempt t w).1 (attempt t w).2 ∧
      (attempt t w).1.frames = t.frames) (w : Scene V) :
    KeepsTasks w (addWaiter frames attempt w).2 := by
  obtain ⟨h, heq⟩ := hattempt
    { id := w.nextThread, role := .waiter, frames, mode := .running .next }
    { w with nextThread := w.nextThread + 1 }
  have hnumbered : KeepsTasks w { w with nextThread := w.nextThread + 1 } :=
    { KeepsTasks.refl w with
      next_le := Nat.le_succ _
      came := KeepsPauses.came_none rfl }
  have hkept := hnumbered.trans h.keepsTasks
  obtain ⟨came, hcame, hcome, hids, hapart⟩ := h.keepsTasks.came
  rw [addWaiter]
  dsimp only
  generalize attempt { id := w.nextThread, role := .waiter, frames, mode := .running .next }
    { w with nextThread := w.nextThread + 1 } = result at h hkept hcame hcome heq
  obtain ⟨t, w'⟩ := result
  have hcontexts : t.contexts = [] := by
    rw [Thread.contexts, heq, List.flatMap_eq_nil_iff]
    exact fun fr hfr => (hframes fr hfr).2.2
  refine { hkept with
    came := ⟨came ++ [t], ?_, fun u hu => ?_, ?_, ?_⟩ }
  · show w'.threads ++ [t] = _
    rw [hcame, List.append_assoc]
  · rcases List.mem_append.1 hu with hu | hu
    · have hn := hcome u hu
      exact { hn with id_ge := Nat.le_of_succ_le hn.id_ge }
    · obtain rfl := List.mem_singleton.1 hu
      exact {
        id_ge := Nat.le_of_eq h.id.symm
        id_lt := by
          rw [h.id]
          exact h.keepsTasks.next_le
        role := by
          rw [h.role]
          simp
        fresh := fun i hi => absurd (hcontexts ▸ hi) List.not_mem_nil
        away := by
          rw [Thread.away, heq, List.filterMap_eq_nil_iff]
          exact fun fr hfr => (hframes fr hfr).2.1
        frames := by
          rw [heq]
          exact Or.inl fun fr hfr => (hframes fr hfr).1
        granted := h.granted
        going := h.going }
  · rw [List.map_append]
    refine List.Nodup.append hids (List.nodup_singleton _) fun i hi hi' => ?_
    obtain ⟨u, hu, rfl⟩ := List.mem_map.1 hi
    obtain heq' : u.id = t.id := List.mem_singleton.1 hi'
    have hge : w.nextThread + 1 ≤ u.id := (hcome u hu).id_ge
    have hid : t.id = w.nextThread := h.id
    omega
  · refine List.pairwise_append.2 ⟨hapart, List.pairwise_singleton _ _, fun u _ v hv i _ hi => ?_⟩
    obtain rfl := List.mem_singleton.1 hv
    exact absurd (hcontexts ▸ hi) List.not_mem_nil

end Waiting

/-! ### Operations that answer at once -/

/-- The task whose parked completion an operation uses, and what it does with it. -/
def Op.uses? : Op V → Option (String × Fate)
  | .resolve key how => some (key, how)
  | _ => none

/-- The name of the token that an operation is to pause on. -/
def Op.pauseToken? : Op V → Option String
  | .pause name _ _ | .pauseTimeout name _ _ _ | .hold name _ _ _ | .pseudoPause name _ _ _ _
  | .blockOn name _ _ _ _ => some name
  | _ => none

namespace Scene

variable {w w' : Scene V} {op : Op V} {a : Answer V}

/-- `whenThere` answers `absent` or does what is to be done. -/
theorem whenThere_cases {α : Type} (o : Option α) (w : Scene V) (f : α → Answer V × Scene V) :
    w.whenThere o f = (.absent, w) ∨ ∃ x, o = some x ∧ w.whenThere o f = f x := by
  cases o with
  | none => exact Or.inl rfl
  | some x => exact Or.inr ⟨x, rfl, rfl⟩

/-- Asking for a token, and keeping it under a name if it is granted, keeps the tasks. -/
theorem KeepsTasks.acquired (name : String) (c : Category) (priority : Priority) (reason : String)
    (w : Scene V) : KeepsTasks w ((w.issue name c priority reason).2.keepToken name
      (w.issue name c priority reason).1).2 := by
  have hlabel : KeepsTasks (w.onLedger (·.issue c priority reason)).2
      (w.issue name c priority reason).2 := .label name _ _
  refine KeepsTasks.trans (.issue name c priority reason w) (.keepToken name fun id hid => ?_)
  exact Nat.lt_of_lt_of_le (lt_of_issue hid) hlabel.samePauses.parked.size_le

/-- `whenThere` keeps the tasks if what is done does. -/
theorem keepsTasks_whenThere {α : Type} {o : Option α} {f : α → Answer V × Scene V}
    (h : ∀ x, o = some x → KeepsTasks w (f x).2) : KeepsTasks w (w.whenThere o f).2 := by
  rcases whenThere_cases o w f with heq | ⟨x, hx, heq⟩
  · rw [heq]
    exact .refl w
  · rw [heq]
    exact h x hx

/-- What an operation on the tasks comes to: it keeps the tasks, or it names a task that is not
there, or it is a request, or it resolves a parked completion. -/
inductive Asks (op : Op V) (w : Scene V) (a : Answer V) (w' : Scene V) : Prop
  /-- It only looks. -/
  | looked (kept : KeepsTasks w w') (uses : op.uses? = none) (pauses : op.pauseToken? = none)
  /-- There is no such task. -/
  | absent {key : String} {how : Fate} (uses : op.uses? = some (key, how))
      (missing : w.task? key = none) (same : w' = w)
  /-- Something is asked of a task. -/
  | request {what : Request} {key : String} {i : Nat} (uses : op.uses? = none)
      (pauses : op.pauseToken? = none) (found : w.task? key = some i) (answer : a = .null)
      (requested : w' = w.request what i)
  /-- The completion that a task has parked is used. -/
  | resolve {key : String} {how : Fate} {i : Nat} (uses : op.uses? = some (key, how))
      (found : w.task? key = some i) (resolved : w' = (w.resolve i how).2)

/-- `onTasks` comes to one of `Asks`. -/
theorem asks_onTasks (h : w.onTasks op = some (a, w')) : Asks op w a w' := by
  cases op with
  | request what key =>
    obtain heq := Option.some.inj h
    rcases whenThere_cases (w.task? key) w fun i => (.null, w.request what i) with
      hno | ⟨i, hi, hyes⟩
    · cases hno.symm.trans heq
      exact .looked (.refl w) rfl rfl
    · cases hyes.symm.trans heq
      exact .request rfl rfl hi rfl rfl
  | resolve key how =>
    obtain heq := Option.some.inj h
    cases hi : w.task? key with
    | none =>
      rw [hi] at heq
      cases heq
      exact .absent rfl hi rfl
    | some i =>
      rw [hi] at heq
      cases heq
      exact .resolve rfl hi rfl
  | taskStates | groupStats | groupDebug | taskDebug key =>
    refine .looked ?_ rfl rfl
    obtain heq := congrArg Prod.snd (Option.some.inj h)
    obtain rfl : _ = w' := heq
    first
      | exact .refl w
      | exact keepsTasks_whenThere fun _ _ => .refl w
  | _ => cases h

/-- `instant` comes to one of `Asks`. -/
theorem asks_instant (h : w.instant op = some (a, w')) : Asks op w a w' := by
  have hkept : ∀ {x : Answer V × Scene V}, some x = some (a, w') → KeepsTasks w x.2 →
      op.uses? = none → op.pauseToken? = none → Asks op w a w' := by
    rintro x ⟨⟩ hx huses hpauses
    exact .looked hx huses hpauses
  cases op with
  | enqueue e | tryEnqueue e => exact hkept h (.enqueue e w) rfl rfl
  | schedule ms e => exact hkept h (.schedule ms e w) rfl rfl
  | cancel id => exact hkept h (keepsTasks_whenThere fun n hn => .cancelEntry hn) rfl rfl
  | acquire name c priority reason wait =>
    cases wait with
    | none =>
      exact hkept h (.acquired name c priority reason w) rfl rfl
    | some limit => cases h
  | reclaim name =>
    exact hkept h (keepsTasks_whenThere fun id _ => .pool (.reclaim id w.pool)) rfl rfl
  | drop name => exact hkept h (.dropToken name w) rfl rfl
  | shutdown c => exact hkept h (.act (.shutdown c) rfl rfl) rfl rfl
  | wake waker =>
    exact hkept h (keepsTasks_whenThere fun ctx _ => .act (.wake ctx) rfl rfl) rfl rfl
  | openResource what =>
    refine hkept h ?_ rfl rfl
    dsimp only
    split
    · exact .act (.open (some what)) rfl rfl
    · exact .refl w
  | closeResource => exact hkept h (.act (.open none) rfl rfl) rfl rfl
  | listener =>
    refine hkept h (.act .listen ?_ ?_) rfl rfl <;>
    · rw [Pool.perform, Pool.listen]
      split <;> rfl
  | token name => exact hkept h (keepsTasks_whenThere fun _ _ => .refl w) rfl rfl
  | pending | slots c | tokenStats | tokenDump | tokenDebug | isStarted =>
    exact hkept h (.refl w) rfl rfl
  | _ => exact asks_onTasks h

end Scene

/-! ### Operations by place -/

/-- What the docket notes of an operation: a completion that is used, or what a refused pause
reports. -/
def Docket.noteOp (place : Place) (op : Op V) (w : Scene V) (d : Docket) : Docket :=
  match op.uses? with
  | some (key, how) =>
    match w.task? key with
    | some i => d.use (.shelf i) (how.ending false)
    | none => d
  | none =>
    match place with
    | .event ctx =>
      if (op.pauseToken?.bind fun name => w.tokens.lookup name).isSome then
        d.find (w.pool.refusal ctx)
      else d
    | _ => d

open Scene

/-- What an operation **comes to**, outside of an agenda: it keeps the tasks, or is a request, or
resolves a completion, or is a pause that is refused or begins; each with what the docket notes. -/
inductive Comes (place : Place) (op : Op V) (t : Thread V) (w : Scene V) (t' : Thread V)
    (w' : Scene V) : Prop
  /-- Little changes. -/
  | pushesPlain (pushes : PushesPlain t w t' w') (noted : ∀ d : Docket, d.noteOp place op w = d)
  /-- Something is asked of a task. -/
  | request {what : Request} {key : String} {i : Nat} (found : w.task? key = some i)
      (goes : t' = t.answer .null) (requested : w' = w.request what i)
      (noted : ∀ d : Docket, d.noteOp place op w = d)
  /-- The completion that a task has parked is used. -/
  | resolve {how : Fate} {key : String} {i : Nat} {a : Answer V} (found : w.task? key = some i)
      (goes : t' = t.answer a) (resolved : w' = (w.resolve i how).2)
      (noted : ∀ d : Docket, d.noteOp place op w = d.use (.shelf i) (how.ending false))
  /-- A pause is refused. -/
  | refused {ctx : Nat} (pushes : PushesPlain t (w.found (w.pool.refusal ctx)) t' w')
      (noted : ∀ d : Docket, d.noteOp place op w = d.find (w.pool.refusal ctx))
  /-- A pause begins. -/
  | paused {ctx token signal : Nat} {name : String} (reason : String) {value : Option V}
      (here : place = .event ctx) (named : w.tokens.lookup name = some token)
      (running : (w.pool.context ctx).running = true)
      (pushes : PushesPlain (t.push [.relock, .pausing ctx token signal value])
        { w with pool := ((w.pool.hold ctx token).noteAway ctx token reason).2 } t' w')
      (noted : ∀ d : Docket, d.noteOp place op w = d)

section Places

variable {place : Place} {op : Op V} {t t' : Thread V} {w w' : Scene V}

/-- Finding nothing leaves the docket as it is. -/
theorem Docket.find_nil (d : Docket) : d.find [] = d := by
  rw [find, note, List.map_nil, List.append_nil]

/-- An operation that neither uses a completion nor pauses leaves the docket as it is. -/
theorem Docket.noteOp_of_none (huses : op.uses? = none) (hpause : op.pauseToken? = none)
    (d : Docket) : d.noteOp place op w = d := by
  simp only [noteOp, huses, hpause]
  cases place <;> rfl

/-- Outside of events an operation that uses no completion leaves the docket as it is. -/
theorem Docket.noteOp_of_place (huses : op.uses? = none) (hplace : ∀ ctx, place ≠ .event ctx)
    (d : Docket) : d.noteOp place op w = d := by
  simp only [noteOp, huses]

/-- A pause notes what its refusal reports, if there is a token of that name. -/
theorem Docket.noteOp_of_pause {ctx : Nat} {name : String} (hop : op.pauseToken? = some name)
    (d : Docket) : d.noteOp (.event ctx) op w =
      if (w.tokens.lookup name).isSome then d.find (w.pool.refusal ctx) else d := by
  have huses : op.uses? = none := by
    cases op <;> first | rfl | cases hop
  simp only [noteOp, huses, hop, Option.bind_some]

/-- A thread that begins to run an event inline puts fresh frames on its stack. -/
theorem pushesPlain_runInline (priority : Priority) (e : Event V) (a : Answer V) (t : Thread V)
    (w : Scene V) : PushesPlain t w (runInline priority (.event e) a t w).1
      (runInline priority (.event e) a t w).2 where
  keepsTasks := .addContext t.role.threadName priority w
  id := rfl
  role := rfl
  frames := by
    refine ⟨[.job w.pool.contexts.size (.event e), .inline a], rfl, fun fr hfr => ?_⟩
    rcases List.mem_cons.1 hfr with rfl | hfr
    · refine ⟨rfl, rfl, fun i hi => ?_, fun _ _ u hu => Or.inl hu⟩
      obtain rfl := List.mem_singleton.1 hi
      refine ⟨Nat.le_refl _, ?_⟩
      show w.pool.contexts.size < ((w.pool.contexts.push _).modify _ _).size
      rw [Array.size_modify, Array.size_push]
      exact Nat.lt_succ_self _
    · obtain rfl := List.mem_singleton.1 hfr
      exact .of_nil rfl rfl rfl
  granted := by rintro id ⟨⟩
  going := rfl

/-- What is done **outside of events** keeps the tasks. -/
theorem pushesPlain_beginGround (signal : Option Nat) (op : Op V) (t : Thread V) (w : Scene V) :
    PushesPlain t w (beginGround signal op t w).1 (beginGround signal op t w).2 := by
  cases op with
  | run e => exact pushesPlain_runInline e.priority e .done t w
  | stats | statsKeys | dump | state | start => exact .mode (.refl w) _ (by rintro id ⟨⟩)
  | debug => exact .answer (.refl w) _
  | batch ops => exact .put (.refl w) (.of_nil rfl rfl rfl) _ (by rintro id ⟨⟩)
  | waiter name c priority reason limit =>
    have hasked : ∀ v : Scene V, KeepsTasks v { v with deposits := rename name none v.deposits } :=
      fun v => { KeepsTasks.refl v with
        deposits := fun x hx => by
          rcases List.mem_cons.1 hx with rfl | hx
          · exact Or.inr (by rintro id ⟨⟩)
          · exact Or.inl (List.mem_of_mem_filter hx)
        came := KeepsPauses.came_none rfl }
    refine .answer (KeepsTasks.trans (.deadline? limit w) (KeepsTasks.trans (hasked _)
      (keepsTasks_addWaiter (fun fr hfr => ?_) (fun t w => ⟨pushesPlain_trySlot _ _ _ _ _ t w,
        frames_trySlot _ _ _ _ _ t w⟩) _))) _
    obtain rfl := List.mem_singleton.1 hfr
    exact ⟨rfl, rfl, rfl⟩
  | waiterEnd name =>
    rw [beginGround]
    split
    · exact .put (.refl w) (.of_nil rfl rfl rfl) _ (by rintro id ⟨⟩)
    · exact .answer (.refl w) _
  | producer e =>
    exact .answer (KeepsTasks.trans (keepsTasks_addWaiter (List.forall_mem_nil _)
      (fun t w => ⟨pushesPlain_tryRoom e t w, frames_tryRoom e t w⟩) w) .others) _
  | producerBlocked id =>
    exact .answer (keepsTasks_whenThere fun _ _ => .refl w) _
  | aborted =>
    cases signal with
    | none => exact .answer (.refl w) _
    | some n => exact .answer (.modifySignal n _ w) _
  | wait limit =>
    cases signal with
    | none => exact .answer (.refl w) _
    | some n => exact .mode (.deadline? limit w) _ (by rintro id ⟨⟩)
  | _ => exact .answer (.refl w) _

/-- A pause of an event **begins** with the frames of `enter`, or is refused and reported. -/
theorem comes_enterPause {ctx : Nat} {name reason : String} {meanwhile : List (Op V)}
    {value : Option V} {enter : Nat → Thread V → Scene V → Thread V × Scene V}
    (hop : op.pauseToken? = some name)
    (henter : ∀ signal t w, PushesPlain t w (enter signal t w).1 (enter signal t w).2) :
    Comes (.event ctx) op t w (enterPause ctx name reason meanwhile value enter t w).1
      (enterPause ctx name reason meanwhile value enter t w).2 := by
  rw [enterPause]
  cases hlookup : w.tokens.lookup name with
  | none =>
    refine .pushesPlain (.answer (.refl w) _) fun d => ?_
    rw [Docket.noteOp_of_pause hop, hlookup]
    rfl
  | some id =>
    have hnoted : ∀ d : Docket, d.noteOp (.event ctx) op w = d.find (w.pool.refusal ctx) :=
      fun d => by
        rw [Docket.noteOp_of_pause hop, hlookup]
        rfl
    dsimp only [onPool]
    rcases Pool.beginPause_eq_or ctx id reason w.pool with ⟨e, heq⟩ | ⟨hrun, hnothing, heq⟩
    · rw [heq]
      exact .refused (.answer (.spawnHelper meanwhile _) _) hnoted
    · rw [heq]
      refine .paused reason rfl hlookup hrun (.after ?_ (henter _ _ _)) fun d => ?_
      · have hgrown : ∀ (slot : Option Nat) (v : Scene V),
            KeepsTasks v (match slot with | some slot => v.spawnWorker slot | none => v) := by
          rintro (_ | slot) v
          · exact .refl v
          · exact .spawnWorker slot v
        exact (hgrown _ _).trans
          (KeepsTasks.trans .others (KeepsTasks.trans (.spawnHelper meanwhile _) .others))
      · rw [hnoted, hnothing, Docket.find_nil]

/-- A thread that awaits a wake goes on or waits, and keeps the tasks. -/
theorem pushesPlain_awaitWake (ctx : Nat) (limit : Option Nat) (signal : Nat) (t : Thread V)
    (w : Scene V) : PushesPlain t w (awaitWake ctx limit signal t w).1
      (awaitWake ctx limit signal t w).2 :=
  .mode (.deadline? limit w) _ (by rintro id ⟨⟩)

/-- An event that asks for a token goes on or waits, and keeps the tasks. -/
theorem pushesPlain_take (ctx : Nat) (label name : String) (c : Category) (reason : String)
    (limit : Option Nat) (meanwhile : List (Op V)) (t : Thread V) (w : Scene V) :
    PushesPlain t w (beginEvent ctx label (.take name c reason limit meanwhile) t w).1
      (beginEvent ctx label (.take name c reason limit meanwhile) t w).2 := by
  have hkept := KeepsTasks.trans (.spawnHelper meanwhile w)
    (.acquired name c (w.pool.context ctx).priority reason (w.spawnHelper meanwhile))
  have hissued := KeepsTasks.trans (.spawnHelper meanwhile w)
    (.issue name c (w.pool.context ctx).priority reason (w.spawnHelper meanwhile))
  rw [beginEvent]
  dsimp only
  generalize hr : (w.spawnHelper meanwhile).issue name c (w.pool.context ctx).priority reason = r
  rw [hr] at hkept hissued
  obtain ⟨r, v⟩ := r
  split
  · rename_i heq
    cases heq
    refine .after (hissued.trans (KeepsTasks.trans (.deadline? limit _) .others))
      (.push (pushesPlain_trySlot _ _ _ _ _ _ _) fun fr hfr => ?_)
    rcases List.mem_cons.1 hfr with rfl | hfr
    · exact .of_nil rfl rfl rfl
    · obtain rfl := List.mem_singleton.1 hfr
      exact .of_nil rfl rfl rfl
  · rename_i heq
    cases heq
    exact .answer hkept _

/-- An operation of an event comes to one of `Comes`. -/
theorem comes_beginEvent (ctx : Nat) (label : String) (huses : op.uses? = none) :
    Comes (.event ctx) op t w (beginEvent ctx label op t w).1
      (beginEvent ctx label op t w).2 := by
  have hpushes : ∀ {t' : Thread V} {w' : Scene V}, op.pauseToken? = none → PushesPlain t w t' w' →
      Comes (.event ctx) op t w t' w' := fun hpause h =>
    .pushesPlain h (Docket.noteOp_of_none huses hpause)
  cases op with
  | log v => exact hpushes rfl (.next .others)
  | add n => exact hpushes rfl (.answer .others _)
  | info | paused | contextDebug => exact hpushes rfl (.answer (.refl w) _)
  | take name c reason limit meanwhile =>
    exact hpushes rfl (pushesPlain_take ctx label _ _ _ _ _ t w)
  | dispatchAcquire name c reason => exact hpushes rfl (.answer (.acquired name c _ reason w) _)
  | saveWaker name => exact hpushes rfl (.next .others)
  | dispatchEnqueue e => exact hpushes rfl (.answer (.enqueue e w) _)
  | dispatchSchedule ms e => exact hpushes rfl (.next (.schedule ms e w))
  | pause name reason meanwhile => exact comes_enterPause rfl (pushesPlain_awaitWake ctx none)
  | pauseTimeout name ms reason meanwhile =>
    exact comes_enterPause rfl (pushesPlain_awaitWake ctx (some ms))
  | hold name ms reason meanwhile =>
    exact comes_enterPause rfl fun signal t w => .mode .others _ (by rintro id ⟨⟩)
  | pseudoPause name reason body value meanwhile =>
    exact comes_enterPause rfl fun signal t w =>
      .put (.refl w) (.of_nil rfl rfl rfl) _ (by rintro id ⟨⟩)
  | blockOn name reason ms value meanwhile =>
    refine comes_enterPause rfl fun signal t w => ?_
    cases ms with
    | none => exact .next (.refl w)
    | some ms => exact .mode .others _ (by rintro id ⟨⟩)
  | resolve key how => cases huses
  | _ => exact hpushes rfl (.answer (.refl w) _)

/-- An operation that may make the thread wait, or that only makes sense at `place`, comes to one of
`Comes`. -/
theorem comes_beginHere (label : String) (huses : op.uses? = none) :
    Comes place op t w (beginHere place label op t w).1 (beginHere place label op t w).2 := by
  have hplain : ∀ {t' : Thread V} {w' : Scene V}, op.pauseToken? = none → PushesPlain t w t' w' →
      Comes place op t w t' w' := fun hpause h =>
        .pushesPlain h (Docket.noteOp_of_none huses hpause)
  rw [beginHere.eq_def]
  split
  · exact hplain rfl (pushesPlain_tryRoom _ t w)
  · refine hplain rfl (.after (.deadline? _ w)
      (.push (pushesPlain_trySlot _ _ _ _ _ (t.push [.keep _]) _) fun fr hfr => ?_))
    obtain rfl := List.mem_singleton.1 hfr
    exact .of_nil rfl rfl rfl
  · exact hplain rfl (.mode .others _ (by rintro id ⟨⟩))
  · exact hplain rfl (.mode (.refl w) _ (by rintro id ⟨⟩))
  · split
    · exact .pushesPlain (pushesPlain_beginGround none op t w)
        (Docket.noteOp_of_place huses (by simp))
    · exact .pushesPlain (pushesPlain_beginGround (some _) op t w)
        (Docket.noteOp_of_place huses (by simp))
    · exact comes_beginEvent _ label huses
    · exact .pushesPlain (.answer (.refl w) _) (Docket.noteOp_of_place huses (by simp))
    · exact .pushesPlain (.answer (.refl w) _) (Docket.noteOp_of_place huses (by simp))

/-- An operation that answers at once comes to one of `Comes`. -/
theorem comes_of_asks {a : Answer V} (h : Asks op w a w') :
    Comes place op t w (t.answer a) w' := by
  cases h with
  | looked kept uses pauses =>
    exact .pushesPlain (.answer kept a) (Docket.noteOp_of_none uses pauses)
  | absent uses missing same =>
    refine .pushesPlain (.answer (same ▸ .refl w) a) fun d => ?_
    simp only [Docket.noteOp, uses, missing]
  | request uses pauses found answer requested =>
    exact .request found (answer ▸ rfl) requested (Docket.noteOp_of_none uses pauses)
  | resolve uses found resolved =>
    refine .resolve found rfl resolved fun d => ?_
    simp only [Docket.noteOp, uses, found]

/-- Every operation outside of an agenda **comes to one of `Comes`**. -/
theorem comes_beginOp (label : String) (hplace : place ≠ .bench) :
    Comes place op t w (beginOp place label op t w).1 (beginOp place label op t w).2 := by
  rw [beginOp]
  case x_1 => exact hplace
  split
  · rename_i hsome
    exact comes_of_asks (asks_instant hsome)
  · rename_i hnone
    refine comes_beginHere label ?_
    cases op with
    | resolve key how => cases hnone
    | _ => rfl

/-- Every operation where an agenda is worked off comes to one of `Comes`, unless it runs the agenda
or registers a task. -/
theorem comes_beginBench (hagenda : op ≠ .runNext ∧ (∀ i, op ≠ .runRaw i) ∧ ∀ n, op ≠ .drain n)
    (hregister : ∀ key name script, op ≠ .register key name script) :
    Comes .bench op t w (beginBench op t w).1 (beginBench op t w).2 := by
  rw [beginBench.eq_def]
  split
  · exact absurd rfl hagenda.1
  · exact absurd rfl (hagenda.2.1 _)
  · exact absurd rfl (hagenda.2.2 _)
  · exact absurd rfl (hregister _ _ _)
  · exact .pushesPlain (.mode .others _ (by rintro id ⟨⟩)) (Docket.noteOp_of_none rfl rfl)
  · split
    · rename_i hsome
      exact comes_of_asks (asks_onTasks hsome)
    · rename_i hnone
      refine .pushesPlain (.answer (.refl w) _) (Docket.noteOp_of_place ?_ (by simp))
      cases op with
      | resolve key how => cases hnone
      | _ => rfl

/-! ### Workers, and threads that have waited -/

/-- Pushing quits keeps the tasks. -/
theorem keepsTasks_pushQuits (n : Nat) (w : Scene V) : KeepsTasks w (pushQuits n w) := by
  induction n generalizing w with
  | zero => exact .refl w
  | succ n ih =>
    have hpush : ∀ v : Scene V, KeepsTasks v (v.modifyPool (·.pushQuit v.now)) := fun v => by
      rw [modifyPool, Pool.pushQuit, Queue.pushQuit]
      generalize millis v.pool.config.shrinkDelayMs = delay
      exact .keepsMine fun _ => Queue.keepsMine_push v.now .low delay (by rintro y ⟨⟩)
    have htick : KeepsTasks w w.tick.2 := .others
    have hnow : w.tick.1 = w.tick.2.now := rfl
    rw [pushQuits]
    simp only [hnow]
    generalize w.tick.2 = v at htick ⊢
    exact htick.trans ((hpush v).trans (ih _))

/-- A worker that looks for an entry takes one or waits, and keeps the tasks. -/
theorem pushesPlain_lookForData (t : Thread V) (w : Scene V) :
    PushesPlain t w (lookForData t w).1 (lookForData t w).2 := by
  have hlook : KeepsTasks w.tick.2 (w.tick.2.onQueue (·.look t.id (w.now + 1))).2 :=
    .keepsMine fun _ => (Queue.shed_look t.id (w.now + 1) w.pool.queue).keepsMine
  refine .mode (KeepsTasks.trans .others hlook) _ fun id hid => ?_
  dsimp only at hid
  split at hid <;> cases hid

/-- An operation that only looks keeps the tasks. -/
theorem pushesPlain_look (op : Op V) (t : Thread V) (w : Scene V) :
    PushesPlain t w (t.answer (w.look op).1) (w.look op).2 := by
  cases op with
  | start =>
    have hstart : KeepsTasks w (w.onPool (Pool.start w.canSpawn)).2 := by
      refine .act (.start w.canSpawn) ?_ ?_ <;>
      · rw [Pool.perform, Pool.start]
        split
        · rfl
        · dsimp only
          split <;> rfl
    refine .answer ?_ _
    rw [Scene.look]
    split
    · rename_i slot w' heq
      rw [heq] at hstart
      exact hstart.trans (.spawnWorker slot w')
    · rename_i f w' heq
      rw [heq] at hstart
      exact hstart
  | _ => exact .answer (.refl w) _

/-- A thread that **has waited** goes on or waits again, and keeps the tasks. -/
theorem pushesPlain_resume {wait : Wait V} (hmode : t.mode = .waiting wait)
    (hgranted : ∀ id, t.mode.granted? = some id → id < w.pool.ledger.tokens.size)
    (hdeposits : ∀ x ∈ w.deposits, ∀ id, x.2 = some (.ok id) → id < w.pool.ledger.tokens.size) :
    PushesPlain t w (resume wait t w).1 (resume wait t w).2 := by
  rw [hmode] at hgranted
  cases wait with
  | core f => exact .mode .others _ hgranted
  | look op => exact .after .others (pushesPlain_look op t (leaveLine t w))
  | unlocked f => exact .mode .others _ hgranted
  | room e => exact pushesPlain_tryRoom e t w
  | slot name c priority reason deadline =>
    exact pushesPlain_trySlot name c priority reason deadline t w
  | clock deadline f => exact .mode (.refl w) _ hgranted
  | wake ctx signal deadline =>
    rw [resume]
    split
    · exact .next (.act (.takeWake ctx) rfl rfl)
    · split
      · exact .next (.modifySignal signal _ w)
      · exact .mode (.refl w) _ (by rintro id ⟨⟩)
  | abort signal deadline => exact .answer (.modifySignal signal _ w) _
  | data deadline => exact pushesPlain_lookForData t w
  | join name =>
    rw [resume]
    split
    · rename_i r hr
      have hleft : KeepsTasks w { w with deposits := w.deposits.filter (·.1 ≠ name) } :=
        { KeepsTasks.refl w with
          deposits := fun x hx => Or.inl (List.mem_of_mem_filter hx)
          came := KeepsPauses.came_none rfl }
      refine .mode hleft _ (granted_of_ok fun id hid => ?_)
      cases hlookup : w.deposits.lookup name with
      | none =>
        rw [hlookup] at hr
        cases hr
      | some r' =>
        rw [hlookup] at hr
        exact hdeposits (name, r') (mem_of_lookup hlookup) id (hid ▸ hr)
    · exact .mode (.refl w) _ (by rintro id ⟨⟩)

end Places

end Scenario

end TurnPool
