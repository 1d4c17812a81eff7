import TurnPool.Proofs.Entries
import TurnPool.Proofs.PauseHistory
import TurnPool.Proofs.QueueEntries
import TurnPool.Proofs.Stacks
import TurnPool.Scenario.Scene

/-!
# What changes little in a scene

Most of what is done in a scene is no matter of the tasks, of the pauses or of what is reported.
`KeepsTasks` says what may change then: the queue, but for the entries of the schedulers; tokens,
contexts and signals, but for who is paused; and threads may come, which stand on plain frames or
are new workers. Whatever is made up of such things is of that kind as well.

## Main results

* `KeepsTasks`: what changes little, and `KeepsTasks.trans`.
* `PushesPlain`: what a thread does that changes little; it puts plain frames on those it stands on.
-/

namespace TurnPool

/-! ### The books of the pauses, several things after another -/

/-- `SameParked` is transitive. -/
theorem Ledger.SameParked.trans {l l' l'' : Ledger} (h : SameParked l l')
    (h' : SameParked l' l'') : SameParked l l'' where
  size_le := Nat.le_trans h.size_le h'.size_le
  token t := by
    rcases h'.token t with ⟨hparked', hrec'⟩ | hmarked
    · rcases h.token t with ⟨hparked, hrec⟩ | ⟨hrec, hparked⟩
      · exact Or.inl ⟨hparked'.trans hparked, hrec'.trans hrec⟩
      · exact Or.inr ⟨hrec'.trans hrec, hparked'.trans hparked⟩
    · exact Or.inr hmarked

namespace Pool

variable {ω : Type} {p p' p'' : Pool ω}

/-- `SamePauses` is transitive. -/
theorem SamePauses.trans (h : SamePauses p p') (h' : SamePauses p' p'') :
    SamePauses p p'' where
  size_le := Nat.le_trans h.size_le h'.size_le
  running i := (h'.running i).trans (h.running i)
  heldToken i := (h'.heldToken i).trans (h.heldToken i)
  pooled i hi := (h'.pooled i (Nat.lt_of_lt_of_le hi h.size_le)).trans (h.pooled i hi)
  away := h'.away.trans h.away
  counted := h'.counted.trans h.counted
  parked := h.parked.trans h'.parked

/-- The pause bookkeeping, the reports and the queue of `p'` are those of `p`. -/
structure SameBooks (p p' : Pool ω) : Prop where
  /-- The books do not see it. -/
  samePauses : SamePauses p p'
  /-- Nothing is reported. -/
  reports : p'.reports = p.reports
  /-- The queue is as it was. -/
  queue : p'.queue = p.queue

namespace SameBooks

/-- `SameBooks` is reflexive. -/
theorem refl (p : Pool ω) : SameBooks p p := ⟨.refl p, rfl, rfl⟩

/-- `SameBooks` is transitive. -/
theorem trans (h : SameBooks p p') (h' : SameBooks p' p'') : SameBooks p p'' :=
  ⟨h.samePauses.trans h'.samePauses, h'.reports.trans h.reports, h'.queue.trans h.queue⟩

/-- A `PoolAct` keeps the books if it changes neither the reports nor the queue. -/
theorem perform (p : Pool ω) (a : PoolAct ω) (hreports : (p.perform a).reports = p.reports)
    (hqueue : (p.perform a).queue = p.queue) : SameBooks p (p.perform a) :=
  ⟨.perform p a, hreports, hqueue⟩

/-- `sendAbort` to the taken holders keeps the books. -/
theorem sendAborts (token : Nat) (hs : List Holder) (p : Pool ω) :
    SameBooks p (hs.foldl (fun p h => p.sendAbort token h) p) := by
  induction hs generalizing p with
  | nil => exact .refl p
  | cons h hs ih => exact (perform p (.send token h) rfl rfl).trans (ih _)

/-- `reclaim` keeps the books: a pause ends only when its context takes the cause. -/
theorem reclaim (id : Nat) (p : Pool ω) : SameBooks p (p.reclaim id) := by
  have hmark : SameBooks p (p.markToken id).2 := perform p (.mark id) rfl rfl
  rw [Pool.reclaim]
  split
  · rename_i p' heq
    rw [heq] at hmark
    exact hmark
  · rename_i holders p' heq
    rw [heq] at hmark
    exact hmark.trans ((sendAborts id holders p').trans (perform _ (.release id) rfl rfl))

end SameBooks

end Pool

namespace Scenario

variable {V : Type}

/-- How the schedulers' entries are written in the queue of a scenario: as `Job.errand`. -/
def Job.coding : Coding (Job V) where
  job := .errand
  errand?
    | .errand e => some e
    | .event _ => none
  errand?_eq_some {x e} := by
    cases x <;> simp [eq_comm]

/-- An entry `.event e` is none of the schedulers'. -/
theorem Job.not_isMine_event (e : Event V) : ¬ Job.coding.IsMine (.event e) :=
  Bool.false_ne_true

namespace Scene

open LawfulTimetable

/-- The entries that `handles` names have been numbered, and are none of the schedulers'. -/
def HandlesTheirs (w : Scene V) : Prop :=
  ∀ x ∈ w.handles, x.2 < w.pool.queue.nextNumber ∧
    ∀ s ∈ w.pool.queue.slips, s.handle = x.2 → ¬ Job.coding.IsMine s.work

/-- The scene with `rs` added to the reports. -/
def found (rs : List (String × String)) (w : Scene V) : Scene V :=
  { w with pool := { w.pool with reports := w.pool.reports ++ rs } }

/-- A thread `t` of `w'` that is **new** since `w`: its number and its contexts are new, it is not
the main thread, it is not paused, and it is to begin its operations or to look at the queue. -/
structure Newcomer (w w' : Scene V) (t : Thread V) : Prop where
  /-- Its number is new. -/
  id_ge : w.nextThread ≤ t.id
  /-- Its number was given out. -/
  id_lt : t.id < w'.nextThread
  /-- It does not go through the scenario. -/
  role : t.role ≠ .main
  /-- The contexts that it is about are new. -/
  fresh : ∀ i ∈ t.contexts, w.pool.contexts.size ≤ i ∧ i < w'.pool.contexts.size
  /-- It has no pause under way. -/
  away : t.away = []
  /-- It stands on plain frames, or it is a new worker. -/
  frames : (∀ fr ∈ t.frames, fr.isPlain = true) ∨ ∃ slot ctx, t.frames = [.worker slot ctx .pick]
  /-- A token that it was granted was issued. -/
  granted : ∀ id, t.mode.granted? = some id → id < w'.pool.ledger.tokens.size
  /-- It is not over. -/
  going : t.isOver = false

/-- The pause bookkeeping is kept, and every thread of `w` stays as it is; tokens may have been
issued, and `Newcomer` threads may have come. -/
structure KeepsPauses (w w' : Scene V) : Prop where
  /-- The books of the pauses do not see it. -/
  samePauses : Pool.SamePauses w.pool w'.pool
  /-- Tokens that have names were issued. -/
  tokens : ∀ x ∈ w'.tokens, x ∈ w.tokens ∨ x.2 < w'.pool.ledger.tokens.size
  /-- So were tokens that were left for somebody. -/
  deposits : ∀ x ∈ w'.deposits, x ∈ w.deposits ∨
    ∀ id, x.2 = some (.ok id) → id < w'.pool.ledger.tokens.size
  /-- Numbers of threads are not given out again. -/
  next_le : w.nextThread ≤ w'.nextThread
  /-- Threads may have come. -/
  came : ∃ new, w'.threads = w.threads ++ new ∧ (∀ t ∈ new, Newcomer w w' t) ∧
    (new.map Thread.id).Nodup ∧ new.Pairwise Thread.DisjointContexts

/-- `KeepsPauses`, and the tasks, their scripts, the parked completions, the agenda and the reports
are **unchanged**; in the queue only entries that are not the schedulers' come and go. -/
structure KeepsTasks (w w' : Scene V) : Prop extends KeepsPauses w w' where
  /-- The tasks are as they were. -/
  crew : w'.crew = w.crew
  /-- There are as many. -/
  size : w'.scripts.size = w.scripts.size
  /-- The same completions are parked. -/
  parked : ∀ i, w'.parked? i = w.parked? i
  /-- The agenda is as it was, if there is one. -/
  agenda : w'.agenda = w.agenda
  /-- Nothing was reported. -/
  reports : w'.pool.reports = w.pool.reports
  /-- The entries of the schedulers are as they were, as far as nobody else has a name for them. -/
  queue : w.HandlesTheirs → w.pool.queue.Sound →
    KeepsMine Job.coding.IsMine w.pool.queue w'.pool.queue ∧ w'.HandlesTheirs

variable {w w' w'' : Scene V}

/-- `HandlesTheirs` is kept where the queue keeps the schedulers' entries. -/
theorem HandlesTheirs.keepsMine (h : w.HandlesTheirs) (hsound : w.pool.queue.Sound)
    (hst : KeepsMine Job.coding.IsMine w.pool.queue w'.pool.queue)
    (hhandles : w'.handles = w.handles) : w'.HandlesTheirs := by
  intro x hx
  obtain ⟨hlt, htheirs⟩ := h x (hhandles ▸ hx)
  refine ⟨Nat.lt_of_lt_of_le hlt hst.next_le, fun s hs heq hmine => ?_⟩
  exact htheirs s (hst.mem_of_mem hsound s hmine hs) heq hmine

/-- A name that `lookup` finds stands in the list with that value. -/
theorem mem_of_lookup {α : Type} {names : List (String × α)} {name : String} {a : α}
    (h : names.lookup name = some a) : (name, a) ∈ names := by
  obtain ⟨before, after, rfl, -⟩ := List.lookup_eq_some_iff.1 h
  exact List.mem_append_right _ List.mem_cons_self

namespace KeepsPauses

/-- If the threads are the same, none has come. -/
theorem came_none (h : w'.threads = w.threads) :
    ∃ new, w'.threads = w.threads ++ new ∧ (∀ t ∈ new, Newcomer w w' t) ∧
      (new.map Thread.id).Nodup ∧ new.Pairwise Thread.DisjointContexts :=
  ⟨[], by rw [h, List.append_nil], List.forall_mem_nil _, List.nodup_nil, .nil⟩

/-- If the threads are those of `w` with the new thread `t` behind them, `t` alone has come. -/
theorem came_one {t : Thread V} (h : w'.threads = w.threads ++ [t]) (ht : Newcomer w w' t) :
    ∃ new, w'.threads = w.threads ++ new ∧ (∀ t ∈ new, Newcomer w w' t) ∧
      (new.map Thread.id).Nodup ∧ new.Pairwise Thread.DisjointContexts :=
  ⟨[t], h, List.forall_mem_singleton.2 ht, List.nodup_singleton _, List.pairwise_singleton _ _⟩

/-- `KeepsPauses` for a scene that differs in the pool at most, when the pool keeps its pauses. -/
theorem of_pool (hpool : Pool.SamePauses w.pool w'.pool) (htokens : w'.tokens = w.tokens)
    (hdeposits : w'.deposits = w.deposits) (hnext : w'.nextThread = w.nextThread)
    (hthreads : w'.threads = w.threads) : KeepsPauses w w' where
  samePauses := hpool
  tokens _ hx := Or.inl (htokens ▸ hx)
  deposits _ hx := Or.inl (hdeposits ▸ hx)
  next_le := Nat.le_of_eq hnext.symm
  came := came_none hthreads

/-- `KeepsPauses` is reflexive. -/
theorem refl (w : Scene V) : KeepsPauses w w := .of_pool (.refl _) rfl rfl rfl rfl

/-- `KeepsPauses` is **transitive**. -/
theorem trans (h : KeepsPauses w w') (h' : KeepsPauses w' w'') : KeepsPauses w w'' := by
  obtain ⟨new, hnew, hcome, hids, hapart⟩ := h.came
  obtain ⟨new', hnew', hcome', hids', hapart'⟩ := h'.came
  have hsize := h.samePauses.size_le
  have hsize' := h'.samePauses.size_le
  have htokens' := h'.samePauses.parked.size_le
  exact {
    samePauses := h.samePauses.trans h'.samePauses
    tokens := fun x hx => by
      rcases h'.tokens x hx with hx | hx
      · exact (h.tokens x hx).imp_right fun hlt => Nat.lt_of_lt_of_le hlt htokens'
      · exact Or.inr hx
    deposits := fun x hx => by
      rcases h'.deposits x hx with hx | hx
      · exact (h.deposits x hx).imp_right fun hlt id hid => Nat.lt_of_lt_of_le (hlt id hid) htokens'
      · exact Or.inr hx
    next_le := Nat.le_trans h.next_le h'.next_le
    came := by
      refine ⟨new ++ new', by rw [hnew', hnew, List.append_assoc], fun t ht => ?_, ?_, ?_⟩
      · rcases List.mem_append.1 ht with ht | ht
        · have hn := hcome t ht
          exact { hn with
            id_lt := Nat.lt_of_lt_of_le hn.id_lt h'.next_le
            fresh := fun i hi => ⟨(hn.fresh i hi).1, Nat.lt_of_lt_of_le (hn.fresh i hi).2 hsize'⟩
            granted := fun id hid => Nat.lt_of_lt_of_le (hn.granted id hid) htokens' }
        · have hn := hcome' t ht
          exact { hn with
            id_ge := Nat.le_trans h.next_le hn.id_ge
            fresh := fun i hi => ⟨Nat.le_trans hsize (hn.fresh i hi).1, (hn.fresh i hi).2⟩ }
      · rw [List.map_append]
        refine List.Nodup.append hids hids' fun i hi hi' => ?_
        obtain ⟨t, ht, rfl⟩ := List.mem_map.1 hi
        obtain ⟨t', ht', heq⟩ := List.mem_map.1 hi'
        have hlt := (hcome t ht).id_lt
        have hge := (hcome' t' ht').id_ge
        omega
      · refine List.pairwise_append.2 ⟨hapart, hapart', fun t ht t' ht' i hi hi' => ?_⟩
        have hlt := ((hcome t ht).fresh i hi).2
        have hge := ((hcome' t' ht').fresh i hi').1
        omega }

end KeepsPauses

namespace KeepsTasks

/-- `KeepsTasks` for a scene that keeps the crew, the scripts, the agenda and the handles, when the
pool keeps its books and `KeepsPauses` holds of tokens, deposits and threads. -/
theorem of_pool (hcrew : w'.crew = w.crew) (hscripts : w'.scripts = w.scripts)
    (hagenda : w'.agenda = w.agenda) (hpool : Pool.SameBooks w.pool w'.pool)
    (hhandles : w'.handles = w.handles)
    (htokens : ∀ x ∈ w'.tokens, x ∈ w.tokens ∨ x.2 < w'.pool.ledger.tokens.size)
    (hdeposits : w'.deposits = w.deposits) (hnext : w'.nextThread = w.nextThread)
    (hthreads : w'.threads = w.threads) : KeepsTasks w w' where
  crew := hcrew
  size := congrArg Array.size hscripts
  parked i := by rw [parked?, parked?, hscripts]
  agenda := hagenda
  reports := hpool.reports
  samePauses := hpool.samePauses
  queue htheirs hsound := by
    have hst : KeepsMine Job.coding.IsMine w.pool.queue w'.pool.queue := by
      rw [hpool.queue]
      exact (Queue.Shed.refl _).keepsMine
    exact ⟨hst, htheirs.keepsMine hsound hst hhandles⟩
  tokens := htokens
  deposits x hx := Or.inl (hdeposits ▸ hx)
  next_le := Nat.le_of_eq hnext.symm
  came := KeepsPauses.came_none hthreads

/-- `KeepsTasks` is reflexive. -/
theorem refl (w : Scene V) : KeepsTasks w w :=
  .of_pool rfl rfl rfl (.refl _) rfl (fun _ hx => Or.inl hx) rfl rfl rfl

/-- `KeepsTasks` is **transitive**. -/
theorem trans (h : KeepsTasks w w') (h' : KeepsTasks w' w'') : KeepsTasks w w'' :=
  { h.toKeepsPauses.trans h'.toKeepsPauses with
    crew := h'.crew.trans h.crew
    size := h'.size.trans h.size
    parked := fun i => (h'.parked i).trans (h.parked i)
    agenda := h'.agenda.trans h.agenda
    reports := h'.reports.trans h.reports
    queue := fun htheirs hsound => by
      obtain ⟨hst, htheirs'⟩ := h.queue htheirs hsound
      obtain ⟨hst', htheirs''⟩ := h'.queue htheirs' (hst.sound hsound)
      exact ⟨hst.trans hst', htheirs''⟩ }

/-! #### What is no matter of the queue -/

/-- `KeepsTasks` says nothing of the clock, the state, the labels, the journal and the core lock. -/
theorem others {now : Nat} {state : Int} {labels : List (Nat × String)} {pins : List Nat}
    {wakers producers : List (String × Nat)} {journal : Journal V} {owner : Option Nat}
    {line : List Nat} :
    KeepsTasks w { w with now, state, labels, pins, wakers, producers, journal, owner, line } :=
  .of_pool rfl rfl rfl (.refl _) rfl (fun _ hx => Or.inl hx) rfl rfl rfl

/-- `KeepsTasks` holds if the pool is `SameBooks`. -/
theorem pool {p : Pool (Job V)} (h : Pool.SameBooks w.pool p) : KeepsTasks w { w with pool := p } :=
  .of_pool rfl rfl rfl h rfl (fun _ hx => Or.inl hx) rfl rfl rfl

/-- A `PoolAct` that changes neither the reports nor the queue keeps the tasks. -/
theorem act (a : Pool.PoolAct (Job V)) (hreports : (w.pool.perform a).reports = w.pool.reports)
    (hqueue : (w.pool.perform a).queue = w.pool.queue) :
    KeepsTasks w { w with pool := w.pool.perform a } :=
  .pool (.perform _ a hreports hqueue)

/-- `modifySignal` keeps the tasks. -/
theorem modifySignal (n : Nat) (f : Signal → Signal) (w : Scene V) :
    KeepsTasks w (w.modifyPool (·.modifySignal n f)) :=
  .pool ⟨.of_eq rfl rfl rfl (.of_tokens rfl), rfl, rfl⟩

/-- `deadline?` keeps the tasks. -/
theorem deadline? (ms : Option Nat) (w : Scene V) : KeepsTasks w (w.deadline? ms).2 := by
  cases ms with
  | none => exact .others
  | some ms => exact .others

/-- `label` keeps the tasks, also where the token was refused. -/
theorem label (name : String) (r : Except Fault Nat) (w : Scene V) :
    KeepsTasks w (w.label name r) := by
  cases r with
  | ok token => exact .others
  | error e => exact .others

/-- `nextRun` keeps the tasks: it shortens a script, and the number of scripts is the same. -/
theorem nextRun (task : Nat) (w : Scene V) : KeepsTasks w (w.nextRun task).2 := by
  rw [Scene.nextRun]
  split
  · have hparked : ∀ f : TaskScript V → TaskScript V, (∀ s, (f s).parked = s.parked) →
        ∀ i, (w.modifyScript task f).parked? i = w.parked? i := fun f hf i => by
      rw [parked?, parked?, modifyScript, Array.getElem?_modify]
      split
      · cases w.scripts[i]? with
        | none => rfl
        | some s => exact hf s
      · rfl
    exact { KeepsTasks.refl w with
      size := Array.size_modify
      parked := hparked _ fun _ => rfl
      came := KeepsPauses.came_none rfl }
  · exact .refl w

/-! #### Tokens -/

/-- `letGo` keeps the tasks. -/
theorem letGo (token : Nat) (w : Scene V) : KeepsTasks w (w.letGo token) := by
  rw [Scene.letGo]
  split
  · exact .refl w
  · exact .pool (.reclaim token w.pool)

/-- `unpin` keeps the tasks. -/
theorem unpin (token : Nat) (w : Scene V) : KeepsTasks w (w.unpin token) :=
  KeepsTasks.trans .others (.letGo token _)

/-- `keepToken` of a token that was issued keeps the tasks. -/
theorem keepToken (name : String) {r : Except Fault Nat}
    (hr : ∀ id, r = .ok id → id < w.pool.ledger.tokens.size) :
    KeepsTasks w (w.keepToken name r).2 := by
  cases r with
  | error e => exact .refl w
  | ok token =>
    have hnamed : KeepsTasks w { w with tokens := rename name token w.tokens } :=
      .of_pool rfl rfl rfl (.refl _) rfl (fun x hx => by
        rcases List.mem_cons.1 hx with rfl | hx
        · exact Or.inr (hr token rfl)
        · exact Or.inl (List.mem_of_mem_filter hx)) rfl rfl rfl
    rw [Scene.keepToken]
    dsimp only
    split
    · exact hnamed.trans (.letGo _ _)
    · exact hnamed

/-- `dropToken` keeps the tasks. -/
theorem dropToken (name : String) (w : Scene V) : KeepsTasks w (w.dropToken name).2 := by
  rw [Scene.dropToken]
  split
  · rename_i token _
    have hnamed : KeepsTasks w { w with tokens := w.tokens.filter (·.1 ≠ name) } :=
      .of_pool rfl rfl rfl (.refl _) rfl (fun _ hx => Or.inl (List.mem_of_mem_filter hx))
        rfl rfl rfl
    exact hnamed.trans (.letGo token _)
  · exact .refl w

/-- `issue` under a name keeps the tasks. -/
theorem issue (name : String) (c : Category) (priority : Priority) (reason : String)
    (w : Scene V) : KeepsTasks w (w.issue name c priority reason).2 :=
  KeepsTasks.trans (.act (.issue c priority reason) rfl rfl) (.label name _ _)

/-! #### The queue -/

/-- `KeepsTasks` holds if the queue is `KeepsMine` for the schedulers' entries. -/
theorem keepsMine {q : Queue (Work (Job V))}
    (h : w.HandlesTheirs → KeepsMine Job.coding.IsMine w.pool.queue q) :
    KeepsTasks w { w with pool := { w.pool with queue := q } } :=
  { KeepsTasks.refl w with
    samePauses := .queue q w.pool
    queue := fun htheirs hsound => ⟨h htheirs, htheirs.keepsMine hsound (h htheirs) rfl⟩
    came := KeepsPauses.came_none rfl }

/-- `push` of an event under a name keeps the tasks, also with dead entries shed before and
after. -/
theorem entered {q q' : Queue (Work (Job V))} (name : String) {now : Nat} {priority : Priority}
    {delay : Nat} {e : Event V} (hshed : Queue.Shed w.pool.queue q)
    (hpush : Queue.Shed (q.push now priority delay (.event (.event e))).2 q') :
    KeepsTasks w ({ w with pool := { w.pool with queue := q' } }.keepHandle name q.nextNumber) := by
  have htheirs : ∀ y : Job V, Work.event (.event e) = .event y → ¬ Job.coding.IsMine y := by
    rintro y ⟨⟩
    exact Job.not_isMine_event e
  have hst : KeepsMine Job.coding.IsMine w.pool.queue q' :=
    hshed.keepsMine.trans ((Queue.keepsMine_push now priority delay htheirs).trans hpush.keepsMine)
  refine { KeepsTasks.refl w with
    samePauses := .queue q' w.pool
    queue := fun hold hsound => ⟨hst, fun x hx => ?_⟩
    came := KeepsPauses.came_none rfl }
  rcases List.mem_cons.1 hx with rfl | hx
  · refine ⟨?_, fun s hs heq hmine => ?_⟩
    · have hnext := hpush.nextNumber
      rw [Queue.nextNumber_push] at hnext
      show q.nextNumber < q'.nextNumber
      omega
    · have hq := hsound.shed hshed
      rcases (Queue.mem_slips_push hq now priority delay _).1 (hpush.mem_of_mem_slips hs) with
        ⟨-, hwork, -⟩ | hs
      · exact htheirs _ hwork hmine
      · have hlt : s.handle < q.nextNumber :=
          LawfulTimetable.handle_lt (Q := Queue (Work (Job V))) hq hs
        rw [heq] at hlt
        exact absurd hlt (Nat.lt_irrefl _)
  · obtain ⟨hlt, hno⟩ := hold x (List.mem_of_mem_filter hx)
    exact ⟨Nat.lt_of_lt_of_le hlt hst.next_le, fun s hs heq hmine =>
      hno s (hst.mem_of_mem hsound s hmine hs) heq hmine⟩

/-- `enqueue` keeps the tasks. -/
theorem enqueue (e : Event V) (w : Scene V) : KeepsTasks w (w.enqueue e).2 := by
  rw [Scene.enqueue, onQueue, onPool, Queue.tryEnqueue]
  split
  · rename_i number w' heq
    dsimp only at heq
    split at heq
    · cases heq
    · cases heq
      rw [Queue.push_fst]
      exact .entered e.id (Queue.shed_purge _) (.refl _)
  · rename_i f w' heq
    dsimp only at heq
    split at heq
    · cases heq
      exact .keepsMine fun _ => (Queue.shed_purge _).keepsMine
    · cases heq

/-- `schedule` keeps the tasks. -/
theorem schedule (ms : Nat) (e : Event V) (w : Scene V) : KeepsTasks w (w.schedule ms e) := by
  have hpush : ∀ (v : Scene V) (now delay : Nat), KeepsTasks v ({ v with pool := { v.pool with
      queue := (v.pool.queue.push now e.priority delay (Work.event (Job.event e))).2 } }
        |>.keepHandle e.id v.pool.queue.nextNumber) := fun v now delay =>
    .entered e.id (.refl _) (.refl _)
  have htick : KeepsTasks w w.tick.2 := .others
  -- The queue compares the delay with zero. Checking an equation of `schedule` would evaluate
  -- that, so it is opened as a function, and the delay becomes a variable.
  have hlater : ∀ f, f = @Scene.schedule V → KeepsTasks w (f ms e w) := by
    delta Scene.schedule
    rintro _ rfl
    beta_reduce
    obtain ⟨delay, hdelay⟩ : ∃ delay, delay = millis ms := ⟨_, rfl⟩
    rw [← hdelay]
    simp only [onQueue, onPool, Queue.push_fst]
    exact htick.trans (hpush w.tick.2 w.tick.1 delay)
  exact hlater _ rfl

/-- `cancelEntry` of a name in `handles` keeps the tasks. -/
theorem cancelEntry {name : String} {n : Nat} (h : w.handles.lookup name = some n) :
    KeepsTasks w (w.cancelEntry n).2 := by
  refine .keepsMine fun htheirs => ?_
  obtain ⟨hlt, hno⟩ := htheirs (name, n) (mem_of_lookup h)
  exact Queue.keepsMine_cancel hlt hno

/-! #### Threads that come -/

/-- `spawnHelper` keeps the tasks. -/
theorem spawnHelper (ops : List (Op V)) (w : Scene V) : KeepsTasks w (w.spawnHelper ops) := by
  cases ops with
  | nil => exact .refl w
  | cons op ops =>
    refine { KeepsTasks.refl w with
      next_le := Nat.le_succ _
      came := KeepsPauses.came_one rfl ?_ }
    exact {
      id_ge := Nat.le_refl _
      id_lt := Nat.lt_succ_self _
      role := by simp
      fresh := by rintro i ⟨⟩
      away := rfl
      frames := Or.inl fun fr hfr => by
        obtain rfl := List.mem_singleton.1 hfr
        rfl
      granted := by rintro id ⟨⟩
      going := rfl }

/-- `spawnWorker` keeps the tasks. -/
theorem spawnWorker (slot : Nat) (w : Scene V) : KeepsTasks w (w.spawnWorker slot) := by
  have hadded : Pool.SamePauses w.pool (w.pool.addContext (.worker slot) true).2 :=
    .addContext (.worker slot) true w.pool
  have hsize : (w.pool.addContext (.worker slot) true).2.contexts.size =
      w.pool.contexts.size + 1 := Array.size_push _
  refine { KeepsTasks.refl w with
    reports := rfl
    samePauses := hadded
    queue := fun htheirs _ => ⟨(Queue.Shed.refl _).keepsMine, htheirs⟩
    next_le := Nat.le_succ _
    came := KeepsPauses.came_one rfl ?_ }
  exact {
    id_ge := Nat.le_refl _
    id_lt := Nat.lt_succ_self _
    role := by simp
    fresh := fun i hi => by
      obtain rfl : i = w.pool.contexts.size := List.mem_singleton.1 hi
      exact ⟨Nat.le_refl _, hsize ▸ Nat.lt_succ_self _⟩
    away := rfl
    frames := Or.inr ⟨slot, _, rfl⟩
    granted := by rintro id ⟨⟩
    going := rfl }

/-- `addContext`, and `beginEvent` on the new context, keep the tasks. -/
theorem addContext (name : ThreadName) (priority : Priority) (w : Scene V) :
    KeepsTasks w ((w.onPool (·.addContext name false)).2.modifyPool
      (·.modifyContext (w.onPool (·.addContext name false)).1 (Context.beginEvent priority))) :=
  (KeepsTasks.act (.add name false) rfl rfl).trans (.act (.serve _ priority) rfl rfl)

end KeepsTasks

/-! ### What a thread does that changes little -/

/-- A frame `fr` that is put on a stack of `w` on the way to `w'`: it is plain, no pause, and its
contexts are new and no other thread's. -/
structure Fresh (w w' : Scene V) (fr : Frame V) : Prop where
  /-- It is plain. -/
  plain : fr.isPlain = true
  /-- No pause ends there. -/
  away : fr.paused? = none
  /-- The contexts that it is about are new. -/
  fresh : ∀ i ∈ fr.contexts, w.pool.contexts.size ≤ i ∧ i < w'.pool.contexts.size
  /-- Threads that have come are not about them. -/
  alone : ∀ i ∈ fr.contexts, ∀ u ∈ w'.threads, u ∈ w.threads ∨ i ∉ u.contexts

/-- A plain frame that is no pause and has no context is `Fresh`. -/
theorem Fresh.of_nil {fr : Frame V} (plain : fr.isPlain = true) (away : fr.paused? = none)
    (h : fr.contexts = []) : Fresh w w' fr where
  plain := plain
  away := away
  fresh _ hi := absurd (h ▸ hi) List.not_mem_nil
  alone _ hi := absurd (h ▸ hi) List.not_mem_nil

/-- A thread `t` of `w` goes on as `t'` in `w'`: `KeepsTasks` holds, `t'` stands on `t`'s frames
with `Fresh` ones on top, and it has not ended. -/
structure PushesPlain (t : Thread V) (w : Scene V) (t' : Thread V) (w' : Scene V) : Prop where
  /-- Little changes. -/
  keepsTasks : KeepsTasks w w'
  /-- It is the same thread. -/
  id : t'.id = t.id
  /-- It is for the same. -/
  role : t'.role = t.role
  /-- It puts plain frames on those it stands on. -/
  frames : ∃ new, t'.frames = new ++ t.frames ∧ ∀ fr ∈ new, Fresh w w' fr
  /-- A token that it was granted was issued. -/
  granted : ∀ id, t'.mode.granted? = some id → id < w'.pool.ledger.tokens.size
  /-- It is not over. -/
  going : t'.isOver = false

namespace PushesPlain

variable {t t' : Thread V}

/-- `PushesPlain` for a new mode on the same frames. -/
theorem mode (h : KeepsTasks w w') (m : Mode V) (hm : m.Goes w'.pool.ledger.tokens.size) :
    PushesPlain t w { t with mode := m } w' where
  keepsTasks := h
  id := rfl
  role := rfl
  frames := ⟨[], rfl, List.forall_mem_nil _⟩
  granted := hm.granted
  going := hm.going

/-- `PushesPlain` for an answer on the same frames. -/
theorem answer (h : KeepsTasks w w') (a : Answer V) : PushesPlain t w (t.answer a) w' :=
  .mode h _ (by rintro id ⟨⟩)

/-- `PushesPlain` for the next operation on the same frames. -/
theorem next (h : KeepsTasks w w') : PushesPlain t w (t.go .next) w' :=
  .mode h _ (by rintro id ⟨⟩)

/-- The thread puts a `Fresh` frame on those that it stands on. -/
theorem put (h : KeepsTasks w w') {fr : Frame V} (hfr : Fresh w w' fr) (m : Mode V)
    (hm : m.Goes w'.pool.ledger.tokens.size) :
    PushesPlain t w { t.push [fr] with mode := m } w' where
  keepsTasks := h
  id := rfl
  role := rfl
  frames := by
    refine ⟨[fr], rfl, fun fr' hfr' => ?_⟩
    obtain rfl := List.mem_singleton.1 hfr'
    exact hfr
  granted := hm.granted
  going := hm.going

/-- `PushesPlain` after a step that is `KeepsTasks`. -/
theorem after (h : KeepsTasks w w') (h' : PushesPlain t w' t' w'') : PushesPlain t w t' w'' := by
  obtain ⟨new, heq, hnew⟩ := h'.frames
  obtain ⟨came, hcame, hcome, -, -⟩ := h.came
  refine { h' with
    keepsTasks := h.trans h'.keepsTasks
    frames := ⟨new, heq, fun fr hfr => { hnew fr hfr with
      fresh := fun i hi => ⟨Nat.le_trans h.samePauses.size_le ((hnew fr hfr).fresh i hi).1,
        ((hnew fr hfr).fresh i hi).2⟩
      alone := fun i hi u hu => ?_ }⟩ }
  rcases (hnew fr hfr).alone i hi u hu with hu | hnot
  · rcases List.mem_append.1 (hcame ▸ hu) with hu | hu
    · exact Or.inl hu
    · refine Or.inr fun hiu => ?_
      have hlt := ((hcome u hu).fresh i hiu).2
      have hge := ((hnew fr hfr).fresh i hi).1
      omega
  · exact Or.inr hnot

/-- `Fresh` frames may have been put on before. -/
theorem push {fs : List (Frame V)} (h : PushesPlain (t.push fs) w t' w')
    (hfs : ∀ fr ∈ fs, Fresh w w' fr) : PushesPlain t w t' w' := by
  obtain ⟨new, heq, hnew⟩ := h.frames
  refine { h with frames := ⟨new ++ fs, ?_, fun fr hfr => ?_⟩ }
  · rw [heq, List.append_assoc]
    rfl
  · rcases List.mem_append.1 hfr with hfr | hfr
    · exact hnew fr hfr
    · exact hfs fr hfr

end PushesPlain

end Scene

end Scenario

end TurnPool
