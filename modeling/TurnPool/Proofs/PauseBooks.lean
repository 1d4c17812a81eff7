import Mathlib.Data.List.Nodup
import TurnPool.Pool.Pause
import TurnPool.Proofs.TokenSlots

/-!
# The books of the pauses

Who is paused is written down in four places: in the context itself, among the holders of its token,
in the list of the paused contexts, and, for workers, in the counters of the pool. A pause writes to
all of them when it begins and takes everything back when it ends. In between the core lock is given
up, and anybody may do anything.

## In two halves

A token has a lock of its own, so that somebody may reclaim it while a context that has the core
lock is about to park on it, or to leave it. `Pool.park` and `Pool.noteAway` are what is done before
and after the context is one of the holders; `Pool.noteBack` and `Pool.unpark` are what is done
before and after it is one no more. `beginPause_eq` and `endPause_eq` say that the halves make up
the whole.

## Main results

* `park_cases`, `beginPause_cases`: a pause that is **refused** changes nothing but the reports.
* `sameOtherContexts_noteAway`, `sameOtherContexts_unpark`: a pause is the matter of one context.
* `Books`: **the four places agree**.
* `Books.noteAway`, `Books.unpark`: they do so after a pause began, and after it ended.
-/

namespace TurnPool

namespace Ledger

variable {l l' : Ledger} {id t i : Nat}

/-- The contexts that are parked on token `t`. -/
def parked (l : Ledger) (t : Nat) : List Nat := (l.token t).holders.map (·.context)

/-- `detach id ctx` takes `ctx` off those parked on `id`. -/
theorem parked_detach (ctx : Nat) : (l.detach id ctx).parked t =
    if t = id then (l.parked t).filter (· ≠ ctx) else l.parked t := by
  rw [parked, detach, token_modify]
  by_cases h : t = id
  · subst h
    rw [if_pos rfl]
    by_cases hlt : t < l.tokens.size
    · rw [if_pos ⟨rfl, hlt⟩, parked, List.filter_map]
      rfl
    · rw [if_neg fun hand => hlt hand.2, parked, token,
        Array.getElem?_eq_none (Nat.le_of_not_lt hlt)]
      rfl
  · rw [if_neg h, if_neg fun hand => h hand.1]
    rfl

/-- Those parked on a token are the same and so is its mark, or it is marked and nobody is parked on
it. -/
structure SameParked (l l' : Ledger) : Prop where
  /-- Tokens stay issued. -/
  size_le : l.tokens.size ≤ l'.tokens.size
  /-- A token is as it was, or it is marked and nobody is parked on it. -/
  token : ∀ t, (l'.parked t = l.parked t ∧ (l'.token t).reclaimed = (l.token t).reclaimed) ∨
    ((l'.token t).reclaimed = true ∧ l'.parked t = [])

namespace SameParked

/-- Ledgers with the same tokens have the same parked contexts. -/
theorem of_tokens (h : l'.tokens = l.tokens) : SameParked l l' where
  size_le := Nat.le_of_eq (congrArg Array.size h.symm)
  token t := by
    have htoken : l'.token t = l.token t := by rw [Ledger.token, h]; rfl
    exact Or.inl ⟨by rw [parked, htoken]; rfl, by rw [htoken]⟩

/-- `issue` keeps who is parked: the new token has no holder. -/
theorem issue (c : Category) (priority : Priority) (reason : String) (waiters : Waiters)
    (l : Ledger) : SameParked l { (l.issue c priority reason).2 with waiters } := by
  rcases issue_cases c priority reason l with ⟨e, heq⟩ | ⟨_, heq⟩
  · rw [heq]
    exact .of_tokens rfl
  · rw [heq]
    refine ⟨size_issued c priority reason l ▸ Nat.le_succ _, fun t => Or.inl ?_⟩
    have htoken : Ledger.token { l.issued c priority reason with waiters } t = _ :=
      token_issued c priority reason l
    rw [parked, htoken]
    split
    · rename_i ht
      have hnone : l.token t = ⟨default, default, "", false, []⟩ := by
        rw [Ledger.token, Array.getElem?_eq_none (Nat.le_of_eq ht.symm)]
        rfl
      rw [parked, hnone]
      exact ⟨rfl, rfl⟩
    · exact ⟨rfl, rfl⟩

/-- `mark` keeps who is parked on the other tokens, and nobody is parked on the marked one. -/
theorem mark (l : Ledger) (id : Nat) : SameParked l (l.mark id).2 := by
  by_cases hrec : (l.token id).reclaimed = true
  · rw [mark_of_reclaimed hrec]
    exact .of_tokens rfl
  · simp only [Ledger.mark, hrec]
    refine ⟨Nat.le_of_eq (size_modify _).symm, fun t => ?_⟩
    rw [parked, if_neg Bool.false_ne_true, token_modify]
    split
    · exact Or.inr ⟨rfl, rfl⟩
    · exact Or.inl ⟨rfl, rfl⟩

end SameParked

end Ledger

namespace Sizer

/-- `enterPause` counts one more as paused. -/
@[simp] theorem paused_enterPause (s : Sizer) : s.enterPause.2.paused = s.paused + 1 := by
  rw [enterPause]
  split
  · exact paused_addWorker _
  · rfl

end Sizer

namespace Pool

variable {ω : Type} {p p' : Pool ω} {ctx token i : Nat} {reason : String}

/-- The contexts after `modifyContext`. -/
theorem context_modifyContext (f : Context → Context) :
    (p.modifyContext ctx f).context i =
      if i = ctx ∧ ctx < p.contexts.size then f (p.context i) else p.context i := by
  rw [context, modifyContext, Array.getElem?_modify]
  by_cases h : ctx = i
  · subst h
    by_cases hlt : ctx < p.contexts.size
    · rw [if_pos rfl, if_pos ⟨rfl, hlt⟩, context, Array.getElem?_eq_getElem hlt]
      rfl
    · rw [if_pos rfl, if_neg fun hi => hlt hi.2, context,
        Array.getElem?_eq_none (Nat.le_of_not_lt hlt)]
      rfl
  · rw [if_neg h, if_neg fun hi => h hi.1.symm]
    rfl

/-- A context that does not run is one of the pool. -/
theorem lt_of_not_running (h : (p.context i).running = false) : i < p.contexts.size := by
  by_contra hn
  rw [context, Array.getElem?_eq_none (Nat.le_of_not_lt hn)] at h
  exact Bool.false_ne_true h.symm

/-- The contexts that are noted as paused. -/
def away (p : Pool ω) : List Nat := p.paused.map (·.context)

/-- `check` with nothing open does nothing. -/
theorem check_of_none (origin : String) (h : p.opened = none) :
    p.check origin = (.ok (), p) := by
  rw [check, h]

/-- `check` with `what` open fails and reports it. -/
theorem check_of_opened {what : String} (origin : String) (h : p.opened = some what) :
    p.check origin = (.error (.invariantViolation (origin ++ " with open resources: " ++ what)),
      p.report origin (origin ++ " with open resources: " ++ what)) := by
  rw [check, h]

/-! ### The halves -/

/-- A context that has the core lock parks on a token, or is refused. The answer is the number of
its signal. -/
def park (ctx token : Nat) (p : Pool ω) : Except Fault Nat × Pool ω :=
  match p.check "pause" with
  | (.error e, p') => (.error e, p')
  | (.ok _, p) =>
    if !(p.context ctx).running then
      let message := "ctx-" ++ toString ctx ++ " paused while not running"
      (.error (.invariantViolation message), p.report "pause" message)
    else
      match p.ledger.attach token ⟨ctx, p.signals.size⟩ with
      | .error e => (.error e, p)
      | .ok ledger => (.ok p.signals.size, { p with ledger, signals := p.signals.push .fresh })

/-- A context that has parked on a token is noted as paused. The answer is the slot of a worker to
add, if the pool grows. -/
def noteAway (ctx token : Nat) (reason : String) (p : Pool ω) : Option Nat × Pool ω :=
  let c := p.context ctx
  let t := p.ledger.token token
  let info : PausedContext :=
    { context := ctx, thread := c.name, category := t.category, token,
      tokenReason := t.reason, reason, priority := c.priority }
  let (newSlot, sizer) := if c.pooled then p.sizer.enterPause else (none, p.sizer)
  (newSlot,
    { p.modifyContext ctx (Context.markPaused token reason) with
      paused := notePaused info p.paused
      sizer })

/-- A context is noted as running again. -/
def noteBack (ctx : Nat) (cause : Option String) (p : Pool ω) : Pool ω :=
  { p.modifyContext ctx (Context.markResumed cause) with
    paused := p.paused.filter (·.context ≠ ctx)
    sizer := if (p.context ctx).pooled then p.sizer.leavePause else p.sizer }

/-- A context leaves the token that it was paused on. -/
def unpark (ctx : Nat) (held : Option Nat) (p : Pool ω) : Pool ω :=
  { p with
    ledger := match held with
      | some token => p.ledger.detach token ctx
      | none => p.ledger }

/-- `beginPause` is `park` and then `noteAway`. -/
theorem beginPause_eq (ctx token : Nat) (reason : String) (p : Pool ω) :
    p.beginPause ctx token reason =
      match p.park ctx token with
      | (.error e, p') => (.error e, p')
      | (.ok signal, p') =>
        (.ok ⟨signal, (p'.noteAway ctx token reason).1⟩, (p'.noteAway ctx token reason).2) := by
  rw [beginPause, park]
  cases hopen : p.opened with
  | some what => simp only [check_of_opened _ hopen]
  | none =>
    simp only [check_of_none _ hopen]
    by_cases hrun : (p.context ctx).running = true
    · simp only [hrun, Bool.not_true, Bool.false_eq_true, if_false]
      by_cases hrec : (p.ledger.token token).reclaimed = true
      · simp only [Ledger.attach_of_reclaimed _ hrec]
      · have hattach : p.ledger.attach token ⟨ctx, p.signals.size⟩ =
            .ok (p.ledger.modify token fun t =>
              { t with holders := t.holders ++ [⟨ctx, p.signals.size⟩] }) := if_neg hrec
        -- The note speaks of the token, and that is the same one with one holder more.
        have hcategory : ∀ f : Token → List Holder,
            ((p.ledger.modify token fun t => { t with holders := f t }).token token).category =
              (p.ledger.token token).category := fun f =>
                (Ledger.SameSlots.holders _ _ f).category _
        have hreason : ∀ f : Token → List Holder,
            ((p.ledger.modify token fun t => { t with holders := f t }).token token).reason =
              (p.ledger.token token).reason := fun f => by
          rw [Ledger.token_modify]
          split <;> rfl
        simp only [hattach, noteAway, hcategory, hreason]
        rfl
    · simp only [Bool.eq_false_iff.2 hrun]
      rfl

/-- `endPause` is `noteBack`, then `unpark`, then the check. -/
theorem endPause_eq (ctx : Nat) (cause : Option String) (p : Pool ω) :
    p.endPause ctx cause =
      ((p.noteBack ctx cause).unpark ctx (p.context ctx).heldToken).check "resume" := rfl

/-- The pool in which a context is one more holder of a token, with a signal of its own. -/
def hold (ctx token : Nat) (p : Pool ω) : Pool ω :=
  { p with
    ledger := p.ledger.modify token fun t =>
      { t with holders := t.holders ++ [⟨ctx, p.signals.size⟩] }
    signals := p.signals.push .fresh }

/-- `park` is **refused** and changes only the reports, or the context is running with nothing open
on a token that is not marked, and the pool is `hold`. -/
theorem park_cases (ctx token : Nat) (p : Pool ω) :
    (∃ e reports, p.park ctx token = (.error e, { p with reports })) ∨
      (p.opened = none ∧ (p.context ctx).running = true ∧
        (p.ledger.token token).reclaimed = false ∧
        p.park ctx token = (.ok p.signals.size, p.hold ctx token)) := by
  rw [park]
  obtain hopen | ⟨what, hopen⟩ := Option.eq_none_or_eq_some p.opened
  · by_cases hrun : (p.context ctx).running = true
    · by_cases hrec : (p.ledger.token token).reclaimed = true
      · refine Or.inl ⟨.aborted ("token " ++ (p.ledger.token token).reason ++ " already reclaimed"),
          p.reports, ?_⟩
        simp only [check_of_none _ hopen, hrun, Ledger.attach_of_reclaimed _ hrec]
        rfl
      · refine Or.inr ⟨hopen, hrun, Bool.eq_false_iff.2 hrec, ?_⟩
        simp only [check_of_none _ hopen, hrun, Ledger.attach, hrec]
        rfl
    · let message := "ctx-" ++ toString ctx ++ " paused while not running"
      refine Or.inl ⟨.invariantViolation message, p.reports ++ [("pause", message)], ?_⟩
      simp only [check_of_none _ hopen, Bool.eq_false_iff.2 hrun]
      rfl
  · let message := "pause" ++ " with open resources: " ++ what
    refine Or.inl ⟨.invariantViolation message, p.reports ++ [("pause", message)], ?_⟩
    simp only [check_of_opened _ hopen]
    rfl

/-- `beginPause` is **refused** and changes only the reports, or it is `hold` and then
`noteAway`. -/
theorem beginPause_cases (ctx token : Nat) (reason : String) (p : Pool ω) :
    (∃ e reports, p.beginPause ctx token reason = (.error e, { p with reports })) ∨
      (p.opened = none ∧ (p.context ctx).running = true ∧
        (p.ledger.token token).reclaimed = false ∧
        p.beginPause ctx token reason =
          (.ok ⟨p.signals.size, ((p.hold ctx token).noteAway ctx token reason).1⟩,
            ((p.hold ctx token).noteAway ctx token reason).2)) := by
  rw [beginPause_eq]
  rcases park_cases ctx token p with ⟨e, reports, heq⟩ | ⟨hopen, hrun, hrec, heq⟩
  · rw [heq]
    exact Or.inl ⟨e, reports, rfl⟩
  · rw [heq]
    exact Or.inr ⟨hopen, hrun, hrec, rfl⟩

/-! ### What a pause does to each of the books -/

/-- `hold` adds the context to those parked on the token. -/
theorem parked_hold (ctx : Nat) (hlt : token < p.ledger.tokens.size) (t : Nat) :
    (p.hold ctx token).ledger.parked t =
      if t = token then p.ledger.parked t ++ [ctx] else p.ledger.parked t := by
  rw [Ledger.parked, hold, Ledger.token_modify]
  by_cases ht : t = token
  · rw [if_pos ⟨ht, hlt⟩, if_pos ht, List.map_append]
    rfl
  · rw [if_neg fun hand => ht hand.1, if_neg ht]
    rfl

/-- `unpark` takes the context off those parked on the token it held. -/
theorem parked_unpark (held : Option Nat) (t : Nat) : (p.unpark ctx held).ledger.parked t =
    if held = some t then (p.ledger.parked t).filter (· ≠ ctx) else p.ledger.parked t := by
  cases held with
  | none => rfl
  | some token =>
    rw [unpark, Ledger.parked_detach]
    simp only [Option.some.injEq, eq_comm]

/-- `unpark` keeps the marks. -/
theorem reclaimed_unpark (held : Option Nat) (t : Nat) :
    ((p.unpark ctx held).ledger.token t).reclaimed = (p.ledger.token t).reclaimed := by
  cases held with
  | none => rfl
  | some token => exact (Ledger.SameSlots.holders _ _ _).reclaimed t

/-- `unpark` keeps the number of tokens. -/
theorem size_unpark (held : Option Nat) :
    (p.unpark ctx held).ledger.tokens.size = p.ledger.tokens.size := by
  cases held with
  | none => rfl
  | some token => exact Ledger.size_modify _

/-- `noteAway` adds the context to `away`. -/
theorem away_noteAway :
    (p.noteAway ctx token reason).2.away = insertBy (· < ·) (· == ·) ctx p.away :=
  map_insertBy (fun _ => rfl) (fun _ => rfl)

/-- `noteBack` takes the context off `away`. -/
theorem away_noteBack (cause : Option String) :
    (p.noteBack ctx cause).away = p.away.filter (· ≠ ctx) := by
  rw [away, noteBack, away, List.filter_map]
  rfl

/-- `noteAway` counts a pooled context as paused. -/
theorem paused_noteAway : (p.noteAway ctx token reason).2.sizer.paused =
    p.sizer.paused + if (p.context ctx).pooled then 1 else 0 := by
  simp only [noteAway]
  split
  · exact Sizer.paused_enterPause _
  · rfl

/-- `noteBack` counts a pooled context as paused no more. -/
theorem paused_noteBack (cause : Option String) : (p.noteBack ctx cause).sizer.paused =
    p.sizer.paused - if (p.context ctx).pooled then 1 else 0 := by
  rw [noteBack]
  split <;> rfl

/-- Context `ctx` is `c` in `q`; the other contexts, the number of tokens and the marks are those of
`p`. -/
structure SameOtherContexts (ctx : Nat) (c : Context) (p q : Pool ω) : Prop where
  /-- The context. -/
  self : q.context ctx = c
  /-- The others. -/
  other : ∀ i, i ≠ ctx → q.context i = p.context i
  /-- A worker stays one. -/
  pooled : ∀ i, (q.context i).pooled = (p.context i).pooled
  /-- No token was issued. -/
  size : q.ledger.tokens.size = p.ledger.tokens.size
  /-- No token was marked. -/
  reclaimed : ∀ t, (q.ledger.token t).reclaimed = (p.ledger.token t).reclaimed

/-- Modifying `ctx` without `pooled` keeps the other contexts. -/
theorem sameOtherContexts_of_modify {f : Context → Context} {q : Pool ω}
    (hlt : ctx < p.contexts.size)
    (hq : q.contexts = p.contexts.modify ctx f) (hpooled : ∀ c, (f c).pooled = c.pooled)
    (hsize : q.ledger.tokens.size = p.ledger.tokens.size)
    (hreclaimed : ∀ t, (q.ledger.token t).reclaimed = (p.ledger.token t).reclaimed) :
    SameOtherContexts ctx (f (p.context ctx)) p q := by
  have hcontext : ∀ i, q.context i = if i = ctx ∧ ctx < p.contexts.size then f (p.context i)
      else p.context i := fun i => by
    rw [← context_modifyContext, context, hq]
    rfl
  exact {
    self := (hcontext ctx).trans (if_pos ⟨rfl, hlt⟩)
    other := fun i hi => (hcontext i).trans (if_neg fun hand => hi hand.1)
    pooled := fun i => by
      rw [hcontext]
      split
      · exact hpooled _
      · rfl
    size := hsize
    reclaimed := hreclaimed }

/-- `noteAway` changes `ctx` only, and marks it as paused. -/
theorem sameOtherContexts_noteAway (hlt : ctx < p.contexts.size) (token : Nat) (reason : String) :
    SameOtherContexts ctx ((p.context ctx).markPaused token reason) p
      ((p.hold ctx token).noteAway ctx token reason).2 :=
  sameOtherContexts_of_modify hlt rfl (fun _ => rfl) (Ledger.size_modify _)
    (Ledger.SameSlots.holders p.ledger token _).reclaimed

/-- `noteBack` and `unpark` change `ctx` only, and mark it as resumed. -/
theorem sameOtherContexts_unpark (hlt : ctx < p.contexts.size) (cause : Option String)
    (held : Option Nat) :
    SameOtherContexts ctx ((p.context ctx).markResumed cause) p
      ((p.noteBack ctx cause).unpark ctx held) :=
  sameOtherContexts_of_modify hlt rfl (fun _ => rfl) (size_unpark held) (reclaimed_unpark held)

/-! ### The books -/

/-- The **books** of a pool in which the contexts `under` are paused: just these do not run and are
in `away`, each holds a token on which it is parked unless that was marked, a running context holds
none, and `paused` counts the pooled ones. -/
structure Books (p : Pool ω) (under : List Nat) : Prop where
  /-- The contexts that do not run are those with a pause under way. -/
  running : ∀ i, i ∈ under ↔ (p.context i).running = false
  /-- They are the ones that are noted as paused. -/
  noted : ∀ i, i ∈ p.away ↔ (p.context i).running = false
  /-- They are noted once. -/
  nodup : p.away.Nodup
  /-- Each of them has a token, and is parked on it unless it was reclaimed. -/
  held : ∀ i, (p.context i).running = false → ∃ t, t < p.ledger.tokens.size ∧
    (p.context i).heldToken = some t ∧
      (i ∈ p.ledger.parked t ∨ (p.ledger.token t).reclaimed = true)
  /-- A context that runs has no token. -/
  idle : ∀ i, (p.context i).running = true → (p.context i).heldToken = none
  /-- Nobody is parked on a token but those who have it. -/
  parked : ∀ t i, i ∈ p.ledger.parked t → (p.context i).heldToken = some t
  /-- The workers among them are counted. -/
  counted : p.sizer.paused = p.away.countP fun i => (p.context i).pooled

namespace Books

variable {under : List Nat}

/-- The books of a pool without contexts and tokens are right. -/
theorem of_idle (hcontexts : p.contexts = #[]) (htokens : p.ledger.tokens = #[])
    (hpaused : p.paused = []) (hcount : p.sizer.paused = 0) : Books p [] := by
  have hrun : ∀ i, (p.context i).running = true := fun i => by rw [context, hcontexts]; rfl
  have hnot : ∀ i, ¬ (p.context i).running = false := fun i h =>
    Bool.false_ne_true (h.symm.trans (hrun i))
  have haway : p.away = [] := by rw [away, hpaused]; rfl
  exact {
    running := fun i => iff_of_false List.not_mem_nil (hnot i)
    noted := fun i => iff_of_false (haway ▸ List.not_mem_nil) (hnot i)
    nodup := haway ▸ List.nodup_nil
    held := fun i h => absurd h (hnot i)
    idle := fun i _ => by rw [context, hcontexts]; rfl
    parked := fun t i h => by
      rw [Ledger.parked, Ledger.token, htokens] at h
      exact absurd h List.not_mem_nil
    counted := by rw [hcount, haway]; rfl }

/-- The books are right after a pause **began**. -/
theorem noteAway (h : Books p under) (hctx : ctx < p.contexts.size)
    (htoken : token < p.ledger.tokens.size) (hrun : (p.context ctx).running = true)
    (reason : String) :
    Books ((p.hold ctx token).noteAway ctx token reason).2 (ctx :: under) := by
  have hm : SameOtherContexts ctx ((p.context ctx).markPaused token reason) p _ :=
    sameOtherContexts_noteAway hctx token reason
  have hnot : ctx ∉ p.away := fun hmem =>
    Bool.false_ne_true (((h.noted ctx).1 hmem).symm.trans hrun)
  have hperm : (insertBy (· < ·) (· == ·) ctx p.away).Perm (ctx :: p.away) :=
    insertBy_perm_of_not_mem hnot
  have haway : ((p.hold ctx token).noteAway ctx token reason).2.away =
    insertBy (· < ·) (· == ·) ctx p.away := away_noteAway
  have hparked := parked_hold ctx htoken
  exact {
    running := fun i => by
      by_cases hi : i = ctx
      · rw [hi, hm.self]
        exact iff_of_true List.mem_cons_self rfl
      · rw [hm.other i hi, List.mem_cons, ← h.running]
        exact or_iff_right hi
    noted := fun i => by
      rw [haway, mem_insertBy fun _ => eq_of_beq]
      by_cases hi : i = ctx
      · rw [hi, hm.self]
        exact iff_of_true (Or.inl rfl) rfl
      · rw [hm.other i hi, ← h.noted]
        exact or_iff_right hi
    nodup := haway ▸ hperm.nodup_iff.2 (List.nodup_cons.2 ⟨hnot, h.nodup⟩)
    held := fun i hi => by
      rw [hm.size]
      by_cases heq : i = ctx
      · refine ⟨token, htoken, by rw [heq, hm.self]; rfl, Or.inl ?_⟩
        have hmem : ctx ∈ (p.hold ctx token).ledger.parked token := by
          rw [hparked, if_pos rfl]
          exact List.mem_append_right _ List.mem_cons_self
        exact heq ▸ hmem
      · rw [hm.other i heq] at hi ⊢
        obtain ⟨t, hlt, hheld, hor⟩ := h.held i hi
        refine ⟨t, hlt, hheld, hor.imp (fun hmem => ?_) fun hrec => (hm.reclaimed t).trans hrec⟩
        have hmem' : i ∈ (p.hold ctx token).ledger.parked t := by
          rw [hparked]
          split
          · exact List.mem_append_left _ hmem
          · exact hmem
        exact hmem'
    idle := fun i hi => by
      by_cases heq : i = ctx
      · rw [heq, hm.self] at hi
        exact absurd hi Bool.false_ne_true
      · rw [hm.other i heq] at hi ⊢
        exact h.idle i hi
    parked := fun t i hmem => by
      have hold : i ∈ p.ledger.parked t → i ≠ ctx ∧ (p.context i).heldToken = some t :=
        fun hmem' => by
          have hheld := h.parked t i hmem'
          refine ⟨fun heq => ?_, hheld⟩
          rw [heq, h.idle ctx hrun] at hheld
          exact nomatch hheld
      change i ∈ (p.hold ctx token).ledger.parked t at hmem
      rw [hparked] at hmem
      split at hmem
      · rename_i ht
        rcases List.mem_append.1 hmem with hmem' | hmem'
        · rw [hm.other i (hold hmem').1]
          exact (hold hmem').2
        · rw [List.mem_singleton.1 hmem', hm.self, ht]
          rfl
      · rw [hm.other i (hold hmem).1]
        exact (hold hmem).2
    counted := by
      simp only [hm.pooled]
      rw [paused_noteAway, haway, hperm.countP_eq, List.countP_cons]
      exact congrArg (· + _) h.counted }

/-- The books are right after a pause **ended**. -/
theorem unpark (h : Books p under) (hmem : ctx ∈ under) (cause : Option String) :
    Books ((p.noteBack ctx cause).unpark ctx (p.context ctx).heldToken)
      (under.filter (· ≠ ctx)) := by
  have hrun : (p.context ctx).running = false := (h.running ctx).1 hmem
  have hm : SameOtherContexts ctx ((p.context ctx).markResumed cause) p _ :=
    sameOtherContexts_unpark (lt_of_not_running hrun) cause (p.context ctx).heldToken
  have haway : ((p.noteBack ctx cause).unpark ctx (p.context ctx).heldToken).away =
    p.away.filter (· ≠ ctx) := away_noteBack cause
  have hparked : ∀ t,
    ((p.noteBack ctx cause).unpark ctx (p.context ctx).heldToken).ledger.parked t =
      if (p.context ctx).heldToken = some t then (p.ledger.parked t).filter (· ≠ ctx)
      else p.ledger.parked t := parked_unpark _
  have hself : ((p.context ctx).markResumed cause).running ≠ false := fun hfalse =>
    Bool.false_ne_true hfalse.symm
  exact {
    running := fun i => by
      rw [List.mem_filter]
      by_cases hi : i = ctx
      · rw [hi, hm.self]
        exact iff_of_false (fun hand => of_decide_eq_true hand.2 rfl) hself
      · rw [hm.other i hi, ← h.running]
        exact and_iff_left (decide_eq_true hi)
    noted := fun i => by
      rw [haway, List.mem_filter]
      by_cases hi : i = ctx
      · rw [hi, hm.self]
        exact iff_of_false (fun hand => of_decide_eq_true hand.2 rfl) hself
      · rw [hm.other i hi, ← h.noted]
        exact and_iff_left (decide_eq_true hi)
    nodup := haway ▸ h.nodup.filter _
    held := fun i hi => by
      have hne : i ≠ ctx := fun heq => by
        rw [heq, hm.self] at hi
        exact hself hi
      rw [hm.other i hne] at hi ⊢
      rw [hm.size]
      obtain ⟨t, hlt, hheld, hor⟩ := h.held i hi
      refine ⟨t, hlt, hheld, hor.imp (fun hmem => ?_) fun hrec => (hm.reclaimed t).trans hrec⟩
      rw [hparked]
      split
      · exact List.mem_filter.2 ⟨hmem, decide_eq_true hne⟩
      · exact hmem
    idle := fun i hi => by
      by_cases heq : i = ctx
      · rw [heq, hm.self]
        rfl
      · rw [hm.other i heq] at hi ⊢
        exact h.idle i hi
    parked := fun t i hmem => by
      rw [hparked] at hmem
      -- The context was parked on the token that it had, and has left it.
      have hand : i ∈ p.ledger.parked t ∧ i ≠ ctx := by
        split at hmem
        · exact (List.mem_filter.1 hmem).imp_right of_decide_eq_true
        · exact ⟨hmem, fun heq => ‹¬ _› (heq ▸ h.parked t i hmem)⟩
      rw [hm.other i hand.2]
      exact h.parked t i hand.1
    counted := by
      have hperm : p.away.Perm (ctx :: p.away.filter (· ≠ ctx)) := by
        refine (List.perm_cons_erase ((h.noted ctx).2 hrun)).trans (List.Perm.cons ctx (.of_eq ?_))
        rw [h.nodup.erase_eq_filter]
        exact List.filter_congr fun i _ =>
          Bool.eq_iff_iff.2 (bne_iff_ne.trans decide_eq_true_iff.symm)
      simp only [hm.pooled]
      have hcount : ((p.noteBack ctx cause).unpark ctx (p.context ctx).heldToken).sizer.paused =
        _ := paused_noteBack cause
      rw [hcount, haway, h.counted, hperm.countP_eq, List.countP_cons, Nat.add_sub_cancel] }

end Books

end Pool

end TurnPool
