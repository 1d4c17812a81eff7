import TurnPool.Proofs.Agreement

/-!
# Who is told that a token was reclaimed

Reclaiming a token races with those who park on it and leave it: the mark takes the holders that are
there at that moment, and they are sent the cause after the lock of the token was given up. A holder
that was missed would wait for ever, and one that was sent a cause by mistake would lose its result.
Neither happens, however many contexts and tokens there are and whoever comes in between.

## What is followed

`Chronicle` is a `Floor` with notes. All that can happen on a floor can happen here, but those who
reclaim keep to their part (`Chronicle.may`): causes are sent by whoever has marked the token, to
those whom the mark took and once to each, and then the slot is released. They may take their time,
in any order, and several may be about it at once, on several tokens or on one. A pause that ends
does so with the cause that its signal has. Whether a token is reclaimed since somebody says so or
since nobody has it any more makes no difference.

A pause collects its cause when its context is noted as running again, and the context leaves its
token after that. In between the mark may take it all the same; then it is sent a cause that nobody
collects.

## Main results

* `Chronicle.Faithful`: the notes are faithful, whatever happens.
* `Chronicle.reclaim_in_steps`: `Pool.reclaim` is these steps, one after the other.
* `reclaim_reaches`: **the holders that a mark takes are sent one cause each, and nobody else is**.
-/

namespace TurnPool

namespace Pool

variable {ω : Type} {p : Pool ω} {t : Nat} {h : Holder}

/-! ### A pool with notes -/

/-- A pool with pauses, and the notes of what happened, latest first. -/
structure Chronicle (ω : Type) where
  /-- The pool with its pauses. -/
  floor : Floor ω
  /-- The notes, latest first. -/
  notes : List Note

namespace Chronicle

variable {s : Chronicle ω}

/-- Whether an event **may happen**. A pause ends with the cause that its signal has. A cause is
sent to each holder that was taken, once, and then the slot is released. -/
def may (s : Chronicle ω) : FloorEvent ω → Bool
  | .noteBack ctx cause =>
    (Notes.pauses s.notes).all fun h =>
      h.context ≠ ctx ∨ cause = (s.floor.pool.signal h.signal).collect
  | .act (.mark t) => t < s.floor.pool.ledger.tokens.size
  | .act (.send t h) => (t, h) ∈ Notes.due s.notes
  | .act (.release t) => t ∈ Notes.midway s.notes ∧ ∀ x ∈ Notes.due s.notes, x.1 ≠ t
  | _ => true

/-- The notes that an event takes. -/
def noted (s : Chronicle ω) : FloorEvent ω → List Note
  | .park ctx t _ =>
    match s.floor.stage with
    | .free =>
      if ctx < s.floor.pool.contexts.size ∧ t < s.floor.pool.ledger.tokens.size then
        match (s.floor.pool.park ctx t).1 with
        | .ok signal => [.parked t ⟨ctx, signal⟩]
        | .error _ => []
      else []
    | _ => []
  | .noteBack ctx cause =>
    match s.floor.stage with
    | .free =>
      match (Notes.pauses s.notes).find? (·.context = ctx) with
      | some h => [.concluded h cause]
      | none => []
    | _ => []
  | .unpark =>
    match s.floor.stage with
    | .resuming ctx (some t) => [.left t ctx]
    | _ => []
  | .act (.mark t) =>
    match (s.floor.pool.markToken t).1 with
    | some taken => [.marked t taken]
    | none => []
  | .act (.send t h) => [.sent t h (s.floor.pool.ledger.token t).abortCause]
  | .act (.release t) => [.released t]
  | _ => []

/-- The chronicle after an event; one that `may` forbids changes nothing. -/
def after (s : Chronicle ω) (e : FloorEvent ω) : Chronicle ω :=
  if s.may e then ⟨s.floor.after e, s.noted e ++ s.notes⟩ else s

/-- The chronicle after a list of events, from the pool `p` without pauses and notes. -/
def history (p : Pool ω) (events : List (FloorEvent ω)) : Chronicle ω :=
  events.foldl after ⟨⟨p, [], .free⟩, []⟩

/-- The notes are **faithful**: the pool agrees with them, its books balance, and the contexts under
way are those of the pauses that are not over, each once. -/
structure Faithful (s : Chronicle ω) : Prop where
  /-- The books of the pauses are right. -/
  settled : s.floor.WillBalance
  /-- The tokens and the signals are as was noted. -/
  agrees : s.floor.pool.Agrees s.notes
  /-- The contexts that have a pause under way are those of the pauses that are not over. -/
  under : s.floor.under = (Notes.pauses s.notes).map (·.context)
  /-- A context has one pause at a time. -/
  apart : s.floor.under.Nodup

namespace Faithful

/-- What keeps the pool's agreement and the contexts under way keeps a chronicle faithful without a
note. -/
theorem of_sameHolders {floor : Floor ω} (hs : s.Faithful) (hsettled : floor.WillBalance)
    (hagrees : floor.pool.Agrees s.notes) (hunder : floor.under = s.floor.under) :
    Faithful ⟨floor, s.notes⟩ where
  settled := hsettled
  agrees := hagrees
  under := hunder.trans hs.under
  apart := hunder ▸ hs.apart

/-- No context has two pauses that are not over. -/
theorem pause_unique (hs : s.Faithful) {h h' : Holder} (hmem : h ∈ Notes.pauses s.notes)
    (hmem' : h' ∈ Notes.pauses s.notes) (heq : h.context = h'.context) : h = h' :=
  List.inj_on_of_nodup_map (hs.under ▸ hs.apart) hmem hmem' heq

/-- `find?` finds a pause by its context. -/
theorem find_pause (hs : s.Faithful) (hmem : h ∈ Notes.pauses s.notes) :
    (Notes.pauses s.notes).find? (·.context = h.context) = some h := by
  cases hfind : (Notes.pauses s.notes).find? (·.context = h.context) with
  | none => exact absurd (decide_eq_true rfl) (List.find?_eq_none.1 hfind h hmem)
  | some h' =>
    have heq := List.find?_some hfind
    rw [hs.pause_unique (List.mem_of_find?_eq_some hfind) hmem (of_decide_eq_true heq)]

/-- `park` keeps a chronicle faithful. -/
theorem park (hs : s.Faithful) (ctx t : Nat) (reason : String)
    (hsettled : (s.floor.after (.park ctx t reason)).WillBalance) :
    Faithful ⟨s.floor.after (.park ctx t reason), s.noted (.park ctx t reason) ++ s.notes⟩ := by
  obtain ⟨⟨p, under, stage⟩, d⟩ := s
  cases stage with
  | free =>
    by_cases hthere : ctx < p.contexts.size ∧ t < p.ledger.tokens.size
    · rcases park_cases ctx t p with ⟨e, reports, heq⟩ | ⟨-, hrun, hrec, heq⟩
      · simp only [Floor.after, noted, if_pos hthere, heq] at hsettled ⊢
        exact hs.of_sameHolders hsettled (hs.agrees.sameHolders (.of_tokens rfl) rfl) rfl
      · simp only [Floor.after, noted, if_pos hthere, heq] at hsettled ⊢
        have hnot : ctx ∉ under := fun hmem =>
          Bool.false_ne_true (((hs.settled.books.running ctx).1 hmem).symm.trans hrun)
        exact {
          settled := hsettled
          agrees := hs.agrees.park hthere.2 hrec
          under := congrArg (List.cons ctx) hs.under
          apart := List.nodup_cons.2 ⟨hnot, hs.apart⟩ }
    · simp only [Floor.after, noted, if_neg hthere]
      exact hs
  | pausing _ _ _ => exact hs
  | resuming _ _ => exact hs

/-- `noteBack` with the cause that the signal has keeps a chronicle faithful. -/
theorem noteBack (hs : s.Faithful) {ctx : Nat} {cause : Option String}
    (hmay : s.may (.noteBack ctx cause) = true)
    (hsettled : (s.floor.after (.noteBack ctx cause)).WillBalance) :
    Faithful ⟨s.floor.after (.noteBack ctx cause), s.noted (.noteBack ctx cause) ++ s.notes⟩ := by
  obtain ⟨⟨p, under, stage⟩, d⟩ := s
  cases stage with
  | free =>
    have hunder : under = (Notes.pauses d).map (·.context) := hs.under
    by_cases hmem : ctx ∈ under
    · obtain ⟨h, hin, rfl⟩ := List.mem_map.1 (hunder ▸ hmem)
      have hcause : cause = (p.signal h.signal).collect :=
        (of_decide_eq_true (List.all_eq_true.1 hmay h hin)).resolve_left (absurd rfl)
      simp only [Floor.after, noted, if_pos hmem, hs.find_pause hin] at hsettled ⊢
      rw [hcause] at hsettled ⊢
      exact {
        settled := hsettled
        agrees := hs.agrees.conclude hin h.context
        under := by
          rw [hunder, List.filter_map]
          refine congrArg _ (List.filter_congr fun h' hin' => decide_eq_decide.2 (not_congr ?_))
          exact ⟨hs.pause_unique hin' hin, congrArg Holder.context⟩
        apart := hs.apart.filter _ }
    · have hnone : (Notes.pauses d).find? (·.context = ctx) = none :=
        List.find?_eq_none.2 fun h hin heq =>
          hmem (hunder ▸ of_decide_eq_true heq ▸ List.mem_map_of_mem hin)
      simp only [Floor.after, noted, if_neg hmem, hnone]
      exact hs
  | pausing _ _ _ => exact hs
  | resuming _ _ => exact hs

/-- `unpark` keeps a chronicle faithful. -/
theorem unpark (hs : s.Faithful) (hsettled : (s.floor.after .unpark).WillBalance) :
    Faithful ⟨s.floor.after .unpark, s.noted .unpark ++ s.notes⟩ := by
  obtain ⟨⟨p, under, stage⟩, d⟩ := s
  have hcheck : ∀ {q : Pool ω} {d : List Note}, q.Agrees d → (q.check "resume").2.Agrees d :=
    fun {q} {_} ha => ha.sameHolders (sameHolders_perform q (a := .check "resume") fun _ => nofun)
      (signals_perform q (a := .check "resume") (fun _ _ => nofun) fun _ => nofun)
  cases stage with
  | free => exact hs
  | pausing _ _ _ => exact hs
  | resuming ctx held =>
    cases held with
    | none => exact hs.of_sameHolders hsettled (hcheck hs.agrees) rfl
    | some t =>
      exact {
        settled := hsettled
        agrees := hcheck (hs.agrees.unpark ctx t)
        under := hs.under
        apart := hs.apart }

/-- A `PoolAct` that may happen keeps a chronicle faithful. -/
theorem act (hs : s.Faithful) {a : PoolAct ω} (hmay : s.may (.act a) = true)
    (hsettled : (s.floor.after (.act a)).WillBalance) :
    Faithful ⟨s.floor.after (.act a), s.noted (.act a) ++ s.notes⟩ := by
  have hstill : (∀ t, a ≠ .mark t) → (∀ t h, a ≠ .send t h) → (∀ k, a ≠ .look k) →
      Faithful ⟨s.floor.after (.act a), s.notes⟩ := fun hmark hsend hlook =>
    have hledger := sameHolders_perform s.floor.pool hmark
    hs.of_sameHolders hsettled (hs.agrees.sameHolders hledger (signals_perform _ hsend hlook)) rfl
  cases a with
  | mark t =>
    have hlt : t < s.floor.pool.ledger.tokens.size := of_decide_eq_true hmay
    by_cases hrec : (s.floor.pool.ledger.token t).reclaimed = true
    · simp only [Floor.after, perform, noted, markToken_of_reclaimed hrec]
      exact hs
    · have hrec' := Bool.eq_false_iff.2 hrec
      have hfst := congrArg Prod.fst (markToken_of_not_reclaimed hrec')
      simp only [noted, hfst]
      exact ⟨hsettled, hs.agrees.mark hlt hrec', hs.under, hs.apart⟩
  | send t h =>
    have hmem : (t, h) ∈ Notes.due s.notes := of_decide_eq_true hmay
    exact ⟨hsettled, hs.agrees.send hmem, hs.under, hs.apart⟩
  | release t =>
    obtain ⟨hmem, hnone⟩ := of_decide_eq_true hmay
    exact ⟨hsettled, hs.agrees.release hmem fun h hin => hnone _ hin rfl, hs.under, hs.apart⟩
  | look k => exact hs.of_sameHolders hsettled (hs.agrees.look k) rfl
  | _ => exact hstill (by simp) (by simp) (by simp)

/-- **Every event** keeps a chronicle faithful. -/
theorem after (hs : s.Faithful) (e : FloorEvent ω) : (s.after e).Faithful := by
  rw [Chronicle.after]
  split
  · rename_i hmay
    have hsettled : (s.floor.after e).WillBalance := Floor.willBalance_after hs.settled e
    cases e with
    | park ctx t reason => exact hs.park ctx t reason hsettled
    | noteAway =>
      obtain ⟨⟨p, under, stage⟩, d⟩ := s
      cases stage with
      | free => exact hs
      | pausing ctx t reason =>
        exact hs.of_sameHolders hsettled (hs.agrees.sameHolders (.of_tokens rfl) rfl) rfl
      | resuming _ _ => exact hs
    | noteBack ctx cause => exact hs.noteBack hmay hsettled
    | unpark => exact hs.unpark hsettled
    | act a => exact hs.act hmay hsettled
  · exact hs

/-- Every chronicle that a list of events leads to is faithful, from any pool that was built. -/
theorem history {config : ThreadConfig} {limits : PerCategory (Option Nat)}
    (hp : ofParts config limits = .ok p) (events : List (FloorEvent ω)) :
    (Chronicle.history p events).Faithful := by
  have hunused := unused_ofParts hp
  have hagrees : p.Agrees [] := .nil (hunused.ledger ▸ rfl) hunused.signals
  exact List.foldlRecOn events _ ⟨⟨books_ofParts hp, nofun⟩, hagrees, rfl, List.nodup_nil⟩
    fun _ hs e _ => hs.after e

end Faithful

/-! ### The steps of reclaiming -/

/-- No event takes a note back. -/
theorem notes_suffix (s : Chronicle ω) (e : FloorEvent ω) : s.notes <:+ (s.after e).notes := by
  rw [after]
  split
  · exact List.suffix_append _ _
  · exact List.suffix_rfl

/-- A cause that is due **can be sent**. -/
theorem after_send (hmem : (t, h) ∈ Notes.due s.notes) : s.after (.act (.send t h)) =
    ⟨{ s.floor with pool := s.floor.pool.sendAbort t h },
      .sent t h (s.floor.pool.ledger.token t).abortCause :: s.notes⟩ :=
  if_pos (decide_eq_true hmem)

/-- A second mark of a token changes nothing. -/
theorem after_mark_of_reclaimed (hrec : (s.floor.pool.ledger.token t).reclaimed = true) :
    s.after (.act (.mark t)) = s := by
  rw [after]
  split
  · simp only [noted, Floor.after, perform, markToken_of_reclaimed hrec]
    rfl
  · rfl

/-- The first mark of a token **takes its holders**. -/
theorem after_mark (hlt : t < s.floor.pool.ledger.tokens.size)
    (hrec : (s.floor.pool.ledger.token t).reclaimed = false) :
    s.after (.act (.mark t)) = ⟨{ s.floor with pool := (s.floor.pool.markToken t).2 },
      .marked t (s.floor.pool.ledger.token t).holders :: s.notes⟩ := by
  have hmay : s.may (.act (.mark t)) = true := decide_eq_true hlt
  have hnoted : s.noted (.act (.mark t)) = [.marked t (s.floor.pool.ledger.token t).holders] := by
    simp only [noted, markToken_of_not_reclaimed hrec]
  rw [after, if_pos hmay, hnoted]
  rfl

/-- The events of reclaiming token `t` from the holders `taken`: the mark, a cause for each, and the
release. -/
def steps (t : Nat) (taken : List Holder) : List (FloorEvent ω) :=
  .act (.mark t) :: (taken.map fun h => .act (.send t h)) ++ [.act (.release t)]

/-- The causes that are due are sent one after the other. -/
theorem foldl_send {rest : List (Nat × Holder)} (hs : List Holder)
    (hdue : Notes.due s.notes = hs.map (Prod.mk t) ++ rest) :
    let s' := (hs.map fun h => FloorEvent.act (.send t h)).foldl after s
    s'.floor = { s.floor with pool := hs.foldl (fun p h => p.sendAbort t h) s.floor.pool } ∧
      Notes.due s'.notes = rest ∧ Notes.midway s'.notes = Notes.midway s.notes := by
  induction hs generalizing s with
  | nil => exact ⟨rfl, hdue, rfl⟩
  | cons h hs ih =>
    have hmem : (t, h) ∈ Notes.due s.notes := hdue ▸ List.mem_cons_self
    have hdue' : Notes.due (s.after (.act (.send t h))).notes = hs.map (Prod.mk t) ++ rest := by
      rw [after_send hmem, Notes.due, hdue]
      exact List.erase_cons_head (t, h) _
    have hih := ih hdue'
    rw [after_send hmem] at hih
    rw [List.map_cons, List.foldl_cons, after_send hmem]
    exact hih

/-- `reclaim` of a token that is not marked **is these steps**, if no other event comes in
between. -/
theorem reclaim_in_steps (hs : s.Faithful) (hlt : t < s.floor.pool.ledger.tokens.size)
    (hrec : (s.floor.pool.ledger.token t).reclaimed = false) :
    ((steps t (s.floor.pool.ledger.token t).holders).foldl after s).floor =
      { s.floor with pool := s.floor.pool.reclaim t } := by
  let taken := (s.floor.pool.ledger.token t).holders
  let sends : List (FloorEvent ω) := taken.map fun h => .act (.send t h)
  let s₁ : Chronicle ω :=
    ⟨{ s.floor with pool := (s.floor.pool.markToken t).2 }, .marked t taken :: s.notes⟩
  have hmark : s.after (.act (.mark t)) = s₁ := after_mark hlt hrec
  have hfirst : ¬ Notes.IsMarked t s.notes := fun hm =>
    Bool.false_ne_true (hrec.symm.trans ((hs.agrees.marked t).2 hm))
  have hdue₁ : Notes.due s₁.notes = taken.map (Prod.mk t) ++ Notes.due s.notes := rfl
  obtain ⟨hfloor, hdue, hmidway⟩ := foldl_send taken hdue₁
  -- All is sent that was to be sent because of this token, and nothing was to be sent before.
  have hmay : (sends.foldl after s₁).may (.act (.release t)) = true := by
    refine decide_eq_true ⟨hmidway ▸ List.mem_cons_self, fun x hx heq => ?_⟩
    rw [hdue] at hx
    exact hfirst (Notes.taken_of_mem_due (t := t) (h := x.2) (heq ▸ hx)).isMarked
  rw [steps, List.cons_append, List.foldl_cons, hmark, List.foldl_append, List.foldl_cons,
    List.foldl_nil, after, if_pos hmay]
  have hreclaim : s.floor.pool.reclaim t =
      (taken.foldl (fun p h => p.sendAbort t h) (s.floor.pool.markToken t).2).releaseToken t := by
    rw [reclaim, markToken_of_not_reclaimed hrec]
  rw [hreclaim]
  exact congrArg (Floor.after · (.act (.release t))) hfloor

/-! ### What follows for a pause -/

namespace Faithful

/-- A holder that was taken has **the reason of the token** as its only cause, or none while that is
due. -/
theorem causes_of_taken (hs : s.Faithful) (ht : Notes.Taken t h s.notes) :
    Notes.causes h.signal s.notes = if (t, h) ∈ Notes.due s.notes then []
      else ["token reclaimed: " ++ (s.floor.pool.ledger.token t).reason] := by
  have hsound := hs.agrees.sound
  split
  · rename_i hmem
    exact (hsound.mem_due.1 hmem).2
  · rename_i hnot
    obtain ⟨cause, heq, hsent⟩ := hsound.causes_of_taken ht hnot
    rw [heq, hs.agrees.worded t h cause hsent]
    rfl

/-- A pause that is concluded **has the cause that it was sent**, if it was sent one. -/
theorem conclude (hs : s.Faithful) (hfree : s.floor.stage = .free)
    (hmem : h ∈ Notes.pauses s.notes) :
    let cause := (Notes.causes h.signal s.notes).head?
    let s' := s.after (.noteBack h.context cause)
    s'.notes = .concluded h cause :: s.notes ∧
      (s'.floor.pool.context h.context).abortCause = cause := by
  intro cause s'
  have hcause : cause = (s.floor.pool.signal h.signal).collect :=
    (hs.agrees.told h.signal).collect.symm
  have hmay : s.may (.noteBack h.context cause) = true := by
    refine List.all_eq_true.2 fun h' hmem' => decide_eq_true ?_
    by_cases heq : h'.context = h.context
    · exact Or.inr (hs.pause_unique hmem' hmem heq ▸ hcause)
    · exact Or.inl heq
  have hunder : h.context ∈ s.floor.under := hs.under ▸ List.mem_map_of_mem hmem
  have hafter : s' = ⟨s.floor.after (.noteBack h.context cause),
      s.noted (.noteBack h.context cause) ++ s.notes⟩ := if_pos hmay
  have hpool : (s.floor.after (.noteBack h.context cause)).pool =
      s.floor.pool.noteBack h.context cause := by
    simp only [Floor.after, hfree, if_pos hunder]
  have hthere : h.context < s.floor.pool.contexts.size := by
    have hbooks := hs.settled.books
    rw [Floor.settled, hfree] at hbooks
    exact lt_of_not_running ((hbooks.running h.context).1 hunder)
  constructor
  · rw [hafter, noted, hfree]
    simp only [hs.find_pause hmem]
    rfl
  · rw [hafter, hpool]
    have hcontext : (s.floor.pool.noteBack h.context cause).context h.context = _ :=
      context_modifyContext (p := s.floor.pool) (Context.markResumed cause)
    rw [hcontext, if_pos ⟨rfl, hthere⟩]
    rfl

end Faithful

end Chronicle

/-- **Who is told**, after any events:

* the `holders` of a token are those that are `parkedOn` it by the notes;
* the first mark of a token takes just these, and `reclaim` is the mark, a cause sent to each, and
  the release;
* each holder that was taken has **one cause**, which names the reason of the token, or is still
  `due` one. A cause that is due can be sent, and the slot was not released yet;
* a pause that was concluded has the cause that it was sent by then, if any. One that is not
  concluded collects what it was sent, finds it when it polls, and ends with it;
* whoever was sent a cause was `Taken` from that token. A pause that was not taken has **none**, and
  neither has one that had left the token before;
* a marked token has no holders and refuses every context with its reason. Marking or reclaiming it
  again changes nothing, and its slot is released once. -/
theorem reclaim_reaches {config : ThreadConfig} {limits : PerCategory (Option Nat)}
    (hp : ofParts config limits = .ok p) (events : List (FloorEvent ω)) :
    let s := Chronicle.history p events
    let l := s.floor.pool.ledger
    ((∀ t, (l.token t).holders = Notes.parkedOn t s.notes) ∧
      ∀ e, s.notes <:+ (s.after e).notes) ∧
    (∀ t < l.tokens.size, (l.token t).reclaimed = false →
      (s.after (.act (.mark t))).notes = .marked t (l.token t).holders :: s.notes ∧
      ((Chronicle.steps t (l.token t).holders).foldl Chronicle.after s).floor =
        { s.floor with pool := s.floor.pool.reclaim t }) ∧
    (∀ t taken older, .marked t taken :: older <:+ s.notes →
      taken = Notes.parkedOn t older ∧
      ∀ h ∈ taken, Notes.causes h.signal s.notes =
        if (t, h) ∈ Notes.due s.notes then [] else ["token reclaimed: " ++ (l.token t).reason]) ∧
    (∀ t h, (t, h) ∈ Notes.due s.notes → .released t ∉ s.notes ∧
      (s.after (.act (.send t h))).notes =
        .sent t h ("token reclaimed: " ++ (l.token t).reason) :: s.notes) ∧
    (∀ h cause older, .concluded h cause :: older <:+ s.notes →
      cause = (Notes.causes h.signal older).head?) ∧
    (∀ h ∈ Notes.pauses s.notes,
      (s.floor.pool.signal h.signal).collect = (Notes.causes h.signal s.notes).head? ∧
      ((s.floor.pool.signal h.signal).poll.1 = true ↔ Notes.causes h.signal s.notes ≠ []) ∧
      (s.floor.stage = .free →
        let cause := (Notes.causes h.signal s.notes).head?
        let s' := s.after (.noteBack h.context cause)
        s'.notes = .concluded h cause :: s.notes ∧
          (s'.floor.pool.context h.context).abortCause = cause)) ∧
    (∀ t h cause, .sent t h cause ∈ s.notes → Notes.Taken t h s.notes) ∧
    (∀ t h, .parked t h ∈ s.notes →
      (h ∈ Notes.pauses s.notes ↔ ∀ cause, .concluded h cause ∉ s.notes) ∧
      (¬ Notes.Taken t h s.notes → Notes.causes h.signal s.notes = []) ∧
      ∀ older, .left t h.context :: older <:+ s.notes → h ∈ Notes.parkedOn t older →
        Notes.causes h.signal s.notes = []) ∧
    (∀ t, Notes.IsMarked t s.notes →
      (l.token t).holders = [] ∧
      (∀ holder, l.attach t holder =
        .error (.aborted ("token " ++ (l.token t).reason ++ " already reclaimed"))) ∧
      (∀ ctx reason,
        (∃ e reports,
          s.floor.pool.beginPause ctx t reason = (.error e, { s.floor.pool with reports })) ∧
        (s.floor.pool.opened = none → (s.floor.pool.context ctx).running = true →
          s.floor.pool.beginPause ctx t reason =
            (.error (.aborted ("token " ++ (l.token t).reason ++ " already reclaimed")),
              s.floor.pool))) ∧
      s.after (.act (.mark t)) = s ∧ s.floor.pool.reclaim t = s.floor.pool ∧
      ∀ older, .released t :: older <:+ s.notes → .released t ∉ older) := by
  intro s l
  have hs : s.Faithful := .history hp events
  have hsound : Notes.Sound s.notes := hs.agrees.sound
  refine ⟨⟨hs.agrees.holders, s.notes_suffix⟩,
    fun t hlt hrec => ⟨?_, Chronicle.reclaim_in_steps hs hlt hrec⟩,
    fun t taken older hsuffix => ?_,
    fun t h hmem => ⟨fun hreleased => hsound.not_due_of_released hreleased h hmem, ?_⟩,
    fun h cause older hsuffix => (hsound.mayFollow hsuffix).2,
    fun h hmem => ⟨(hs.agrees.told _).collect, (hs.agrees.told _).poll_fst,
      fun hfree => hs.conclude hfree hmem⟩,
    fun t h cause hsent => hsound.taken_of_sent hsent,
    fun t h hparked => ⟨hsound.mem_pauses hparked, hsound.causes_of_not_taken hparked,
      fun older hleft hthere => ?_⟩,
    fun t hm => ?_⟩
  · rw [Chronicle.after_mark hlt hrec]
  · have hmem : .marked t taken ∈ s.notes := hsuffix.subset List.mem_cons_self
    exact ⟨(hsound.mayFollow hsuffix).2, fun h hin => hs.causes_of_taken ⟨taken, hmem, hin⟩⟩
  · rw [Chronicle.after_send hmem]
    rfl
  · exact hsound.causes_of_not_taken hparked (hsound.not_taken_of_left hleft hthere)
  · have hrec : (l.token t).reclaimed = true := (hs.agrees.marked t).2 hm
    refine ⟨(hs.agrees.holders t).trans (hsound.parkedOn_of_isMarked hm),
      fun holder => Ledger.attach_of_reclaimed holder hrec, fun ctx reason => ⟨?_, ?_⟩,
      Chronicle.after_mark_of_reclaimed hrec, reclaim_of_reclaimed hrec,
      fun older hsuffix => hsound.released_once hsuffix⟩
    · rcases beginPause_cases ctx t reason s.floor.pool with hrefused | ⟨-, -, hlive, -⟩
      · exact hrefused
      · exact absurd (hlive.symm.trans hrec) Bool.false_ne_true
    · exact fun hopen hrun => beginPause_of_reclaimed reason hopen hrun hrec

/-- Two workers pause on one token and a caller on another. The first token is reclaimed: one of the
workers ends its pause after it was sent the cause, and the other one before. Then somebody else
reclaims the token once more. -/
def overlapping : List (FloorEvent Unit) :=
  [.act (.add (.worker 0) true), .act (.add (.worker 1) true), .act (.add (.caller "main") false),
    .act (.issue .unlimited .normal "read"), .act (.issue .unlimited .normal "write"),
    .park 0 0 "reading", .noteAway, .park 1 0 "reading", .noteAway, .park 2 1 "writing", .noteAway,
    .act (.mark 0), .act (.send 0 ⟨0, 0⟩), .noteBack 0 (some ("token reclaimed: " ++ "read")),
    .unpark, .noteBack 1 none, .act (.send 0 ⟨1, 1⟩), .unpark, .act (.mark 0), .act (.release 0),
    .act (.release 0)]

/-- Both workers are sent the cause, and the one that had concluded its pause before has none; the
caller on the other token is sent nothing. -/
theorem reclaim_reaches_overlapping :
    let s := Chronicle.history untouched overlapping
    Notes.causes 0 s.notes = ["token reclaimed: " ++ "read"] ∧
      Notes.causes 1 s.notes = ["token reclaimed: " ++ "read"] ∧
      Notes.causes 2 s.notes = [] ∧
      .concluded ⟨0, 0⟩ (some ("token reclaimed: " ++ "read")) ∈ s.notes ∧
      .concluded ⟨1, 1⟩ none ∈ s.notes ∧
      Notes.pauses s.notes = [⟨2, 2⟩] ∧
      (s.floor.pool.ledger.token 0).holders = [] ∧
      s.after (.act (.mark 0)) = s :=
  have hfresh : ofParts default (.const none) = .ok untouched := rfl
  have ⟨_, _, _, _, _, _, _, _, hmarked⟩ := reclaim_reaches hfresh overlapping
  have ⟨hnone, _, _, hagain, _⟩ := hmarked 0 ⟨[⟨0, 0⟩, ⟨1, 1⟩], by decide⟩
  ⟨by decide, by decide, by decide, by decide, by decide, by decide, hnone, hagain⟩

end Pool

end TurnPool
