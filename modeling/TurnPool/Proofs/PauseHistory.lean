import TurnPool.Pool.Kit
import TurnPool.Proofs.PauseBooks

/-!
# Pauses among everything else

Whatever else is done to a pool, by those who wait for the core lock as well as by those who need no
lock for it, leaves the books of the pauses alone; but when a token is reclaimed, those who are
parked on it have left it. It does not matter either whether that happens between the two halves of
a pause that begins or ends: the books are right once the other half is done, and they are right
whenever nobody has the core lock.

## What is followed

`Floor` is a pool, with a note of the contexts that have a pause under way and of the half that is
still to be done by who has the core lock. The second half follows the first one, or anything of
`PoolAct` comes in between. How the work of a pause ends does not show here: whether with a value, a
wake, a timeout, an abort or a panic, the pause ends with *some* cause or none.

## Main results

* `SamePauses`: what the books of the pauses do not see.
* `SamePauses.perform`: anything that is done is of that kind.
* `Floor.willBalance_after`: the books are right once everything is done that was begun.
* `pause_books`: **whenever nobody has the core lock, the books are right**; and a pause that is
  refused leaves no trace in them.
-/

namespace TurnPool

namespace Sizer

/-- `requestShrink` keeps `paused`. -/
theorem paused_requestShrink (s : Sizer) : s.requestShrink.2.paused = s.paused := by
  rw [requestShrink]
  split <;> rfl

/-- `tryRetire` keeps `paused`. -/
theorem paused_tryRetire (slot : Nat) (s : Sizer) : (s.tryRetire slot).2.paused = s.paused := by
  rw [tryRetire]
  split <;> rfl

end Sizer

namespace Pool

variable {ω : Type} {p p' : Pool ω} {ctx token i : Nat} {reason : String}

/-- The pauses are the same: which contexts run, hold a token and are noted as paused, how many are
counted, and who is parked on which token, but that a token may have been marked. -/
structure SamePauses (p p' : Pool ω) : Prop where
  /-- Contexts stay there. -/
  size_le : p.contexts.size ≤ p'.contexts.size
  /-- None pauses, and none resumes. -/
  running : ∀ i, (p'.context i).running = (p.context i).running
  /-- None has another token. -/
  heldToken : ∀ i, (p'.context i).heldToken = (p.context i).heldToken
  /-- Workers stay workers. -/
  pooled : ∀ i < p.contexts.size, (p'.context i).pooled = (p.context i).pooled
  /-- The same ones are noted as paused. -/
  away : p'.away = p.away
  /-- As many workers are counted. -/
  counted : p'.sizer.paused = p.sizer.paused
  /-- All who are parked stay so, or the token is marked. -/
  parked : Ledger.SameParked p.ledger p'.ledger

/-- `SamePauses` is kept when a context is noted as paused on both sides. -/
theorem SamePauses.noteAway (h : SamePauses p p') (hctx : ctx < p.contexts.size) :
    SamePauses (p.noteAway ctx token reason).2 (p'.noteAway ctx token reason).2 := by
  have hctx' : ctx < p'.contexts.size := Nat.lt_of_lt_of_le hctx h.size_le
  have hcontext : ∀ (q : Pool ω) (i : Nat), (q.noteAway ctx token reason).2.context i =
      if i = ctx ∧ ctx < q.contexts.size then (q.context i).markPaused token reason
      else q.context i := fun q i => context_modifyContext _
  have hsize : ∀ q : Pool ω,
      (q.noteAway ctx token reason).2.contexts.size = q.contexts.size := fun q =>
    Array.size_modify
  exact {
    size_le := by
      rw [hsize, hsize]
      exact h.size_le
    running := fun i => by
      rw [hcontext p', hcontext p]
      by_cases hi : i = ctx
      · rw [if_pos ⟨hi, hctx'⟩, if_pos ⟨hi, hctx⟩]
        rfl
      · rw [if_neg fun hand => hi hand.1, if_neg fun hand => hi hand.1]
        exact h.running i
    heldToken := fun i => by
      rw [hcontext p', hcontext p]
      by_cases hi : i = ctx
      · rw [if_pos ⟨hi, hctx'⟩, if_pos ⟨hi, hctx⟩]
        rfl
      · rw [if_neg fun hand => hi hand.1, if_neg fun hand => hi hand.1]
        exact h.heldToken i
    pooled := fun i hi => by
      rw [hsize] at hi
      have hkeep : ∀ q : Pool ω,
          ((q.noteAway ctx token reason).2.context i).pooled = (q.context i).pooled := fun q => by
        rw [hcontext]
        split <;> rfl
      rw [hkeep, hkeep]
      exact h.pooled i hi
    away := by rw [away_noteAway, away_noteAway, h.away]
    counted := by rw [paused_noteAway, paused_noteAway, h.counted, h.pooled ctx hctx]
    parked := h.parked }

/-- `SamePauses` is kept when a context leaves its token on both sides. -/
theorem SamePauses.unpark (h : SamePauses p p') (held : Option Nat) :
    SamePauses (p.unpark ctx held) (p'.unpark ctx held) where
  size_le := h.size_le
  running := h.running
  heldToken := h.heldToken
  pooled := h.pooled
  away := h.away
  counted := h.counted
  parked := {
    size_le := by
      rw [size_unpark, size_unpark]
      exact h.parked.size_le
    token := fun t => by
      rw [parked_unpark, parked_unpark, reclaimed_unpark, reclaimed_unpark]
      refine (h.parked.token t).imp (fun ⟨hparked, hrec⟩ => ?_) fun ⟨hrec, hnone⟩ => ?_
      · rw [hparked]
        exact ⟨rfl, hrec⟩
      · rw [hnone, List.filter_nil, ite_self]
        exact ⟨hrec, rfl⟩ }

/-- `SamePauses` keeps the books. -/
theorem Books.samePauses {under : List Nat} (h : Books p under) (hu : SamePauses p p') :
    Books p' under where
  running i := by
    rw [hu.running]
    exact h.running i
  noted i := by
    rw [hu.away, hu.running]
    exact h.noted i
  nodup := hu.away ▸ h.nodup
  held i hi := by
    rw [hu.running] at hi
    obtain ⟨t, hlt, hheld, hor⟩ := h.held i hi
    refine ⟨t, Nat.lt_of_lt_of_le hlt hu.parked.size_le, (hu.heldToken i).trans hheld, ?_⟩
    rcases hu.parked.token t with ⟨hparked, hrec⟩ | ⟨hrec, -⟩
    · rw [hparked, hrec]
      exact hor
    · exact Or.inr hrec
  idle i hi := by
    rw [hu.running] at hi
    rw [hu.heldToken]
    exact h.idle i hi
  parked t i hmem := by
    rw [hu.heldToken]
    rcases hu.parked.token t with ⟨hparked, -⟩ | ⟨-, hnone⟩
    · exact h.parked t i (hparked ▸ hmem)
    · exact absurd (hnone ▸ hmem) List.not_mem_nil
  counted := by
    rw [hu.counted, hu.away, h.counted]
    refine List.countP_congr fun i hi => ?_
    rw [hu.pooled i (lt_of_not_running ((h.noted i).1 hi))]

/-! ### Everything else -/

/-- Something that is done to a pool besides beginning and ending pauses. -/
inductive PoolAct (ω : Type) where
  /-- A worker or a caller has come. -/
  | add (name : ThreadName) (pooled : Bool)
  /-- An event begins on a context. -/
  | serve (ctx : Nat) (priority : Priority)
  /-- A context is sent a wake. -/
  | wake (ctx : Nat)
  /-- A context takes its wake. -/
  | takeWake (ctx : Nat)
  /-- A token is asked for. -/
  | issue (c : Category) (priority : Priority) (reason : String)
  /-- A caller that is ready to wait asks for a token. -/
  | acquire (caller : Nat) (c : Category) (priority : Priority) (reason : String)
  /-- A caller that has waited long enough asks for the last time. -/
  | giveUp (caller : Nat) (c : Category) (priority : Priority) (reason : String)
  /-- A token is marked as reclaimed. -/
  | mark (token : Nat)
  /-- One of its holders is sent the cause. -/
  | send (token : Nat) (h : Holder)
  /-- Its slot is released. -/
  | release (token : Nat)
  /-- A category is shut down. -/
  | shutdown (c : Category)
  /-- The work of a pause looks whether the pause was aborted. -/
  | look (signal : Nat)
  /-- Something is open from now on, or nothing is. -/
  | open (what : Option String)
  /-- Somebody looks whether something is open. -/
  | check (origin : String)
  /-- Something is reported as fatal. -/
  | report (origin message : String)
  /-- The pool is started, with a thread for its first worker or without. -/
  | start (spawned : Bool)
  /-- The thread of a worker could not be created. -/
  | spawnFailed (slot : Nat)
  /-- An event is over. -/
  | countQuits
  /-- A quit is pushed. -/
  | pushQuit (now : Nat)
  /-- The listener is told of the quits. -/
  | tellShrink (quits : Nat)
  /-- Somebody listens to how the pool shrinks. -/
  | listen
  /-- A worker takes a quit. -/
  | retire (slot : Nat)
  /-- The queue becomes what others make of it. -/
  | queue (q : Queue (Work ω))

/-- The pool after the act. -/
def perform (p : Pool ω) : PoolAct ω → Pool ω
  | .add name pooled => (p.addContext name pooled).2
  | .serve ctx priority => p.modifyContext ctx (Context.beginEvent priority)
  | .wake ctx => p.modifyContext ctx Context.wake
  | .takeWake ctx => p.modifyContext ctx Context.takeWake
  | .issue c priority reason => { p with ledger := (p.ledger.issue c priority reason).2 }
  | .acquire caller c priority reason =>
    { p with ledger := (p.ledger.acquire caller c priority reason).2 }
  | .giveUp caller c priority reason =>
    { p with ledger := (p.ledger.giveUp caller c priority reason).2 }
  | .mark token => (p.markToken token).2
  | .send token h => p.sendAbort token h
  | .release token => p.releaseToken token
  | .shutdown c => p.shutdown c
  | .look signal => p.modifySignal signal fun s => s.poll.2
  | .open what => { p with opened := what }
  | .check origin => (p.check origin).2
  | .report origin message => p.report origin message
  | .start spawned => (p.start spawned).2
  | .spawnFailed slot => { p with sizer := p.sizer.spawnFailed slot }
  | .countQuits => p.countQuits.2
  | .pushQuit now => p.pushQuit now
  | .tellShrink quits => p.tellShrink quits
  | .listen => p.listen.2
  | .retire slot => (p.retire slot).2
  | .queue q => { p with queue := q }

namespace SamePauses

/-- `SamePauses` if the contexts, `paused` and the count are the same and the ledger keeps who is
parked. -/
theorem of_eq (hcontexts : p'.contexts = p.contexts) (hpaused : p'.paused = p.paused)
    (hcounted : p'.sizer.paused = p.sizer.paused) (hparked : Ledger.SameParked p.ledger p'.ledger) :
    SamePauses p p' := by
  have hcontext : ∀ i, p'.context i = p.context i := fun i => by
    rw [context, hcontexts]
    rfl
  exact {
    size_le := Nat.le_of_eq (congrArg Array.size hcontexts.symm)
    running := fun i => by rw [hcontext]
    heldToken := fun i => by rw [hcontext]
    pooled := fun i _ => by rw [hcontext]
    away := congrArg (·.map (·.context)) hpaused
    counted := hcounted
    parked := hparked }

/-- `SamePauses` is reflexive. -/
theorem refl (p : Pool ω) : SamePauses p p := of_eq rfl rfl rfl (.of_tokens rfl)

/-- A ledger that keeps who is parked keeps the pauses. -/
theorem ledger {l : Ledger} (h : Ledger.SameParked p.ledger l) :
    SamePauses p { p with ledger := l } :=
  of_eq rfl rfl rfl h

/-- Counters with the same `paused` keep the pauses. -/
theorem sizer {s : Sizer} (h : s.paused = p.sizer.paused) : SamePauses p { p with sizer := s } :=
  of_eq rfl rfl h (.of_tokens rfl)

/-- The queue does not matter to the pauses. -/
theorem queue (q : Queue (Work ω)) (p : Pool ω) : SamePauses p { p with queue := q } :=
  of_eq rfl rfl rfl (.of_tokens rfl)

/-- A context that is modified in other fields keeps the pauses. -/
theorem modifyContext (f : Context → Context) (hrunning : ∀ c, (f c).running = c.running)
    (hheld : ∀ c, (f c).heldToken = c.heldToken) (hpooled : ∀ c, (f c).pooled = c.pooled)
    (p : Pool ω) : SamePauses p (p.modifyContext ctx f) where
  size_le := Nat.le_of_eq Array.size_modify.symm
  running i := by
    rw [context_modifyContext]
    split
    · exact hrunning _
    · rfl
  heldToken i := by
    rw [context_modifyContext]
    split
    · exact hheld _
    · rfl
  pooled i _ := by
    rw [context_modifyContext]
    split
    · exact hpooled _
    · rfl
  away := rfl
  counted := rfl
  parked := .of_tokens rfl

/-- A new context keeps the pauses: it runs and has no token. -/
theorem addContext (name : ThreadName) (pooled : Bool) (p : Pool ω) :
    SamePauses p (p.addContext name pooled).2 := by
  have hcontext : ∀ i, (p.addContext name pooled).2.context i =
      if i = p.contexts.size then .new name pooled else p.context i := fun i => by
    rw [context, Pool.addContext, Array.getElem?_push]
    split <;> rfl
  have hblank : p.context p.contexts.size = .new (.caller "") false := by
    rw [context, Array.getElem?_eq_none (Nat.le_refl _)]
    rfl
  exact {
    size_le := by
      rw [Pool.addContext, Array.size_push]
      exact Nat.le_succ _
    running := fun i => by
      rw [hcontext]
      split
      · rename_i hi
        rw [hi, hblank]
        rfl
      · rfl
    heldToken := fun i => by
      rw [hcontext]
      split
      · rename_i hi
        rw [hi, hblank]
        rfl
      · rfl
    pooled := fun i hi => by rw [hcontext, if_neg (Nat.ne_of_lt hi)]
    away := rfl
    counted := rfl
    parked := .of_tokens rfl }

/-- `check` keeps the pauses. -/
theorem check (origin : String) (p : Pool ω) : SamePauses p (p.check origin).2 := by
  rw [Pool.check]
  split
  · exact refl p
  · exact of_eq rfl rfl rfl (.of_tokens rfl)

/-- `start` keeps the pauses. -/
theorem start (spawned : Bool) (p : Pool ω) : SamePauses p (p.start spawned).2 := by
  have hpaused : p.sizer.addWorker.2.paused = p.sizer.paused := Sizer.paused_addWorker _
  by_cases hstarted : p.started = true
  · simp only [Pool.start, hstarted, if_true]
    exact refl p
  · cases spawned with
    | true =>
      simp only [Pool.start, hstarted, if_true]
      exact of_eq rfl rfl hpaused (.of_tokens rfl)
    | false =>
      simp only [Pool.start, hstarted]
      exact of_eq rfl rfl hpaused (.of_tokens rfl)

/-- **Every `PoolAct`** keeps the pauses. -/
theorem perform (p : Pool ω) (a : PoolAct ω) : SamePauses p (p.perform a) := by
  cases a with
  | add name pooled => exact addContext name pooled p
  | serve ctx priority =>
    exact modifyContext (.beginEvent priority) (fun _ => rfl) (fun _ => rfl) (fun _ => rfl) p
  | wake ctx => exact modifyContext .wake (fun _ => rfl) (fun _ => rfl) (fun _ => rfl) p
  | takeWake ctx => exact modifyContext .takeWake (fun _ => rfl) (fun _ => rfl) (fun _ => rfl) p
  | issue c priority reason => exact ledger (.issue c priority reason _ _)
  | acquire caller c priority reason =>
    obtain ⟨waiters, heq⟩ := Ledger.acquire_snd c priority reason p.ledger caller
    rw [Pool.perform, heq]
    exact ledger (.issue c priority reason waiters _)
  | giveUp caller c priority reason =>
    obtain ⟨waiters, heq⟩ := Ledger.giveUp_snd c priority reason p.ledger caller
    rw [Pool.perform, heq]
    exact ledger (.issue c priority reason waiters _)
  | mark token => exact ledger (.mark _ token)
  | send token h => exact of_eq rfl rfl rfl (.of_tokens rfl)
  | release token => exact ledger (.of_tokens rfl)
  | shutdown c => exact ledger (.of_tokens rfl)
  | look signal => exact of_eq rfl rfl rfl (.of_tokens rfl)
  | «open» what => exact of_eq rfl rfl rfl (.of_tokens rfl)
  | check origin => exact check origin p
  | report origin message => exact of_eq rfl rfl rfl (.of_tokens rfl)
  | start spawned => exact start spawned p
  | spawnFailed slot => exact sizer rfl
  | countQuits => exact sizer (Sizer.paused_requestShrink _)
  | pushQuit now => exact queue _ p
  | tellShrink quits =>
    rw [Pool.perform, tellShrink]
    split
    · exact of_eq rfl rfl rfl (.of_tokens rfl)
    · exact refl p
  | listen =>
    rw [Pool.perform, listen]
    split
    · exact refl p
    · exact of_eq rfl rfl rfl (.of_tokens rfl)
  | retire slot => exact sizer (Sizer.paused_tryRetire slot _)
  | queue q => exact queue q p

end SamePauses

/-! ### A pool with pauses -/

/-- The half of a pause that the holder of the core lock has still to do. -/
inductive PauseStage where
  /-- Nothing. -/
  | free
  /-- A context has parked on a token and is not noted as paused. -/
  | pausing (ctx token : Nat) (reason : String)
  /-- A context is not noted as paused any more and has not left its token, if it has one. -/
  | resuming (ctx : Nat) (held : Option Nat)

/-- A pool with the contexts that are paused, and the half of a pause that is to be done. -/
structure Floor (ω : Type) where
  /-- The pool. -/
  pool : Pool ω
  /-- The contexts that have a pause under way. -/
  under : List Nat
  /-- What is still to be done. -/
  stage : PauseStage

/-- What is done on a pool with pauses. -/
inductive FloorEvent (ω : Type) where
  /-- A context takes the first half of a pause. -/
  | park (ctx token : Nat) (reason : String)
  /-- And the second one. -/
  | noteAway
  /-- A context takes the first half of the end of its pause. -/
  | noteBack (ctx : Nat) (cause : Option String)
  /-- And the second one. -/
  | unpark
  /-- Anything else. -/
  | act (a : PoolAct ω)

namespace Floor

/-- The floor after an event. Half a pause is followed by its other half before the next one begins.
A number under which there is no context or token names none, and only a pause that is under way
ends. -/
def after (s : Floor ω) : FloorEvent ω → Floor ω
  | .park ctx token reason =>
    match s.stage with
    | .free =>
      if ctx < s.pool.contexts.size ∧ token < s.pool.ledger.tokens.size then
        match s.pool.park ctx token with
        | (.ok _, pool) => ⟨pool, ctx :: s.under, .pausing ctx token reason⟩
        | (.error _, pool) => { s with pool }
      else s
    | _ => s
  | .noteAway =>
    match s.stage with
    | .pausing ctx token reason =>
      { s with pool := (s.pool.noteAway ctx token reason).2, stage := .free }
    | _ => s
  | .noteBack ctx cause =>
    match s.stage with
    | .free =>
      if ctx ∈ s.under then
        ⟨s.pool.noteBack ctx cause, s.under.filter (· ≠ ctx),
          .resuming ctx (s.pool.context ctx).heldToken⟩
      else s
    | _ => s
  | .unpark =>
    match s.stage with
    | .resuming ctx held =>
      { s with pool := ((s.pool.unpark ctx held).check "resume").2, stage := .free }
    | _ => s
  | .act a => { s with pool := s.pool.perform a }

/-- The floor after a list of events, from the pool `p` without pauses. -/
def history (p : Pool ω) (events : List (FloorEvent ω)) : Floor ω :=
  events.foldl after ⟨p, [], .free⟩

/-- The pool when the half that is to be done is done. -/
def settled (s : Floor ω) : Pool ω :=
  match s.stage with
  | .free => s.pool
  | .pausing ctx token reason => (s.pool.noteAway ctx token reason).2
  | .resuming ctx held => s.pool.unpark ctx held

/-- The books are right once the half that is to be done is done, and a context that is about to
pause is one of the pool. -/
structure WillBalance (s : Floor ω) : Prop where
  /-- The books are right when everything is done. -/
  books : Books s.settled s.under
  /-- Who is about to pause is there. -/
  there : ∀ ctx token reason, s.stage = .pausing ctx token reason → ctx < s.pool.contexts.size

/-- Every event keeps `WillBalance`. -/
theorem willBalance_after {s : Floor ω} (h : s.WillBalance) (e : FloorEvent ω) :
    (s.after e).WillBalance := by
  obtain ⟨p, under, stage⟩ := s
  cases e with
  | park ctx token reason =>
    cases stage with
    | free =>
      by_cases hthere : ctx < p.contexts.size ∧ token < p.ledger.tokens.size
      · rcases park_cases ctx token p with ⟨e, reports, heq⟩ | ⟨-, hrun, -, heq⟩
        · simp only [after, if_pos hthere, heq]
          exact ⟨h.books.samePauses (.of_eq rfl rfl rfl (.of_tokens rfl)), nofun⟩
        · simp only [after, if_pos hthere, heq]
          refine ⟨h.books.noteAway hthere.1 hthere.2 hrun reason, fun _ _ _ hstage => ?_⟩
          cases hstage
          exact hthere.1
      · simp only [after, if_neg hthere]
        exact h
    | pausing _ _ _ => exact h
    | resuming _ _ => exact h
  | noteAway =>
    cases stage with
    | free => exact h
    | pausing ctx token reason => exact ⟨h.books, nofun⟩
    | resuming _ _ => exact h
  | noteBack ctx cause =>
    cases stage with
    | free =>
      by_cases hmem : ctx ∈ under
      · simp only [after, if_pos hmem]
        exact ⟨h.books.unpark hmem cause, nofun⟩
      · simp only [after, if_neg hmem]
        exact h
    | pausing _ _ _ => exact h
    | resuming _ _ => exact h
  | unpark =>
    cases stage with
    | free => exact h
    | pausing _ _ _ => exact h
    | resuming ctx held => exact ⟨h.books.samePauses (.check "resume" _), nofun⟩
  | act a =>
    have hu : SamePauses p (p.perform a) := .perform p a
    refine ⟨h.books.samePauses ?_, fun ctx token reason hstage =>
      Nat.lt_of_lt_of_le (h.there ctx token reason hstage) hu.size_le⟩
    cases stage with
    | free => exact hu
    | pausing ctx token reason => exact hu.noteAway (h.there ctx token reason rfl)
    | resuming ctx held => exact hu.unpark held

/-- `WillBalance` holds after any list of events on a pool whose books are right. -/
theorem willBalance_history (events : List (FloorEvent ω)) {p : Pool ω} (h : Books p []) :
    (history p events).WillBalance :=
  List.foldlRecOn events _ ⟨h, nofun⟩ fun _ h e _ => willBalance_after h e

end Floor

/-- A pool that **nobody has used**: its configuration is valid, and it has no context, token or
signal and new counters. -/
structure Unused (config : ThreadConfig) (limits : PerCategory (Option Nat)) (p : Pool ω) :
    Prop where
  /-- Its configuration is valid. -/
  valid : config.validate = .ok ()
  /-- Nobody has come. -/
  contexts : p.contexts = #[]
  /-- Nobody is paused. -/
  paused : p.paused = []
  /-- No pause has begun. -/
  signals : p.signals = #[]
  /-- No token was issued. -/
  ledger : p.ledger = .new limits
  /-- No worker is there. -/
  sizer : p.sizer = .new config.lowWatermark config.highWatermark config.maxThreads

/-- A pool that was built is unused. -/
theorem unused_ofParts {config : ThreadConfig} {limits : PerCategory (Option Nat)}
    (h : ofParts config limits = .ok p) : Unused config limits p := by
  rw [ofParts] at h
  cases hvalid : config.validate with
  | error e =>
    rw [hvalid] at h
    exact nomatch h
  | ok u =>
    rw [hvalid] at h
    cases h
    exact ⟨hvalid, rfl, rfl, rfl, rfl, rfl⟩

/-- The books of a pool that was built are right. -/
theorem books_ofParts {config : ThreadConfig} {limits : PerCategory (Option Nat)}
    (h : ofParts config limits = .ok p) : Books p [] :=
  have hp := unused_ofParts h
  .of_idle hp.contexts (hp.ledger ▸ rfl) hp.paused (hp.sizer ▸ rfl)

/-- **The books of the pauses**, after any events. Whenever the core lock is `free`:

* the contexts `away` are those that do not run, and those with a pause `under` way, each once;
* each of them has a `heldToken`, and is `parked` on it unless that is `reclaimed`;
* a context that runs has no `heldToken` and is `parked` on no token;
* `sizer.paused` counts the pooled ones.

And a `beginPause` with a resource open or on a `reclaimed` token is refused, and changes nothing
but the reports. -/
theorem pause_books {config : ThreadConfig} {limits : PerCategory (Option Nat)}
    (h : ofParts config limits = .ok p) (events : List (FloorEvent ω)) :
    let s := Floor.history p events
    (s.stage = .free →
      (∀ i, i ∈ s.pool.away ↔ i < s.pool.contexts.size ∧ (s.pool.context i).running = false) ∧
      (∀ i, i ∈ s.pool.away ↔ i ∈ s.under) ∧
      s.pool.away.Nodup ∧
      (∀ i ∈ s.pool.away, ∃ t, t < s.pool.ledger.tokens.size ∧
        (s.pool.context i).heldToken = some t ∧
          (i ∈ s.pool.ledger.parked t ∨ (s.pool.ledger.token t).reclaimed = true)) ∧
      (∀ i, (s.pool.context i).running = true →
        (s.pool.context i).heldToken = none ∧ ∀ t, i ∉ s.pool.ledger.parked t) ∧
      s.pool.sizer.paused = s.pool.away.countP fun i => (s.pool.context i).pooled) ∧
    ∀ ctx token reason,
      s.pool.opened ≠ none ∨ (s.pool.ledger.token token).reclaimed = true →
      ∃ e reports, s.pool.beginPause ctx token reason = (.error e, { s.pool with reports }) := by
  intro s
  refine ⟨fun hfree => ?_, fun ctx token reason hor => ?_⟩
  · have hs : s.settled = s.pool := by rw [Floor.settled, hfree]
    have hb : Books s.pool s.under :=
      hs ▸ (Floor.willBalance_history events (books_ofParts h)).books
    refine ⟨fun i => ?_, fun i => (hb.noted i).trans (hb.running i).symm, hb.nodup,
      fun i hi => hb.held i ((hb.noted i).1 hi), fun i hi => ⟨hb.idle i hi, fun t hmem => ?_⟩,
      hb.counted⟩
    · exact (hb.noted i).trans ⟨fun hrun => ⟨lt_of_not_running hrun, hrun⟩, And.right⟩
    · have hheld := hb.parked t i hmem
      rw [hb.idle i hi] at hheld
      exact nomatch hheld
  · rcases beginPause_cases ctx token reason s.pool with hrefused | ⟨hopen, -, hrec, -⟩
    · exact hrefused
    · rcases hor with hopened | hreclaimed
      · exact absurd hopen hopened
      · exact absurd (hrec.symm.trans hreclaimed) Bool.false_ne_true

/-- A pool without limits that nobody has used. -/
def untouched : Pool Unit :=
  { config := default, sizer := .new 2 4 64, queue := .new 10000, contexts := #[], paused := []
    ledger := .new (.const none), signals := #[], opened := none, reports := [], started := false
    listening := false, shrinks := [] }

/-- A worker pauses, and then a caller; the token of the caller is reclaimed before it is noted as
paused. The worker resumes first. -/
def nested : List (FloorEvent Unit) :=
  [.act (.add (.worker 0) true), .act (.add (.caller "main") false),
    .act (.issue .unlimited .normal "read"), .act (.issue .unlimited .normal "write"),
    .park 0 0 "reading", .noteAway, .park 1 1 "writing", .act (.mark 1), .noteAway,
    .noteBack 0 none, .unpark]

/-- The books while both are paused, and when only the caller is. -/
theorem pause_books_nested :
    (Floor.history untouched (nested.take 9)).pool.away = [0, 1] ∧
      (Floor.history untouched (nested.take 9)).pool.sizer.paused = 1 ∧
      (Floor.history untouched nested).pool.away = [1] ∧
      (Floor.history untouched nested).pool.sizer.paused = 0 ∧
      (Floor.history untouched nested).pool.ledger.parked 1 = [] ∧
      ∃ t, t < (Floor.history untouched nested).pool.ledger.tokens.size ∧
        ((Floor.history untouched nested).pool.context 1).heldToken = some t ∧
          (1 ∈ (Floor.history untouched nested).pool.ledger.parked t ∨
            ((Floor.history untouched nested).pool.ledger.token t).reclaimed = true) :=
  have hfresh : ofParts default (.const none) = .ok untouched := rfl
  ⟨by decide, by decide, by decide, by decide, by decide,
    ((pause_books hfresh nested).1 rfl).2.2.2.1 1 (by decide)⟩

end Pool

end TurnPool
