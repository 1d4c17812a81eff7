import TurnPool.Proofs.TokenNotes
import TurnPool.Proofs.PauseHistory

/-!
# A pool and the notes of it

A pool and what was noted of its tokens and pauses are two accounts of the same thing. They agree if
the holders of each token are those who are parked on it according to the notes, if the tokens that
are marked are those whose marks were noted, and if each signal has what its pause was sent.

## Main results

* `Signal.Tells`: a signal has the cause that it was sent, whether or not somebody looks.
* `Agrees`: **the pool is as was noted**.
* `Agrees.park`, `Agrees.unpark`, `Agrees.mark`, `Agrees.send`, `Agrees.release`,
  `Agrees.conclude`: it is so after each thing that is noted, when that is noted.
* `sameHolders_perform`, `signals_perform`: what need not be noted.
-/

namespace TurnPool

namespace Signal

variable {s : Signal} {cause : String} {causes : List String}

/-- What a signal holds of the causes that were sent to it: nothing if none was, and the one that
was sent otherwise, whether or not it was looked at. -/
inductive Tells : Signal → List String → Prop where
  /-- It was sent none, and is as new. -/
  | nothing : Tells .fresh []
  /-- It was sent one, and has it. -/
  | one {s : Signal} {cause : String} (h : s.collect = some cause) : Tells s [cause]

namespace Tells

/-- A signal collects the cause that was sent, if one was. -/
theorem collect (h : s.Tells causes) : s.collect = causes.head? := by
  cases h with
  | nothing => rfl
  | one h => exact h

/-- `send` to a fresh signal makes it tell the cause. -/
theorem send (h : s.Tells []) (cause : String) : (s.send cause).Tells [cause] := by
  cases h
  exact .one rfl

/-- `poll` keeps what a signal tells. -/
theorem poll (h : s.Tells causes) : s.poll.2.Tells causes := by
  cases h with
  | nothing => exact .nothing
  | one h =>
    refine .one ?_
    rw [Signal.poll]
    split
    · exact h
    · rename_i hnone
      have hcause : s.cause = none := Option.not_isSome_iff_eq_none.1 hnone
      split
      · rw [Signal.collect, hcause, Option.none_or] at h
        simp only [Signal.collect, receive, hcause, h, Option.getD_some, Option.none_or,
          Option.or_none]
      · exact h

/-- `poll` answers `true` **just if a cause was sent**. -/
theorem poll_fst (h : s.Tells causes) : s.poll.1 = true ↔ causes ≠ [] := by
  cases h with
  | nothing => exact iff_of_false Bool.false_ne_true fun h => h rfl
  | one h =>
    refine iff_of_true ?_ (List.cons_ne_nil _ _)
    rw [Signal.poll]
    split
    · rfl
    · rename_i hnone
      rw [Signal.collect, Option.not_isSome_iff_eq_none.1 hnone, Option.none_or] at h
      have hnews : s.hasNews = true := by rw [hasNews, h]; rfl
      rw [if_pos hnews]

end Tells

end Signal

namespace Ledger

variable {l l' : Ledger} {id t : Nat}

/-- The holders, marks and reasons of the tokens are the same. -/
structure SameHolders (l l' : Ledger) : Prop where
  /-- The same contexts are parked on them. -/
  holders : ∀ t, (l'.token t).holders = (l.token t).holders
  /-- The same ones are marked. -/
  reclaimed : ∀ t, (l'.token t).reclaimed = (l.token t).reclaimed
  /-- They keep their reasons. -/
  reason : ∀ t < l.tokens.size, (l'.token t).reason = (l.token t).reason

/-- Ledgers with the same tokens have the same holders. -/
theorem SameHolders.of_tokens (h : l'.tokens = l.tokens) : SameHolders l l' := by
  have htoken : ∀ t, l'.token t = l.token t := fun t => by rw [token, h]; rfl
  exact {
    holders := fun t => by rw [htoken]
    reclaimed := fun t => by rw [htoken]
    reason := fun t _ => by rw [htoken] }

/-- `issue` keeps the holders: a new token has none and is not marked. -/
theorem SameHolders.issue (c : Category) (priority : Priority) (reason : String) (waiters : Waiters)
    (l : Ledger) : SameHolders l { (l.issue c priority reason).2 with waiters } := by
  rcases issue_cases c priority reason l with ⟨e, heq⟩ | ⟨-, heq⟩
  · rw [heq]
    exact .of_tokens rfl
  · rw [heq]
    have htoken : ∀ t, token { l.issued c priority reason with waiters } t = _ := fun t =>
      token_issued c priority reason l
    have hblank : l.token l.tokens.size = ⟨default, default, "", false, []⟩ := by
      rw [token, Array.getElem?_eq_none (Nat.le_refl _)]
      rfl
    exact {
      holders := fun t => by
        rw [htoken]
        split
        · rename_i ht
          rw [ht, hblank]
        · rfl
      reclaimed := fun t => by
        rw [htoken]
        split
        · rename_i ht
          rw [ht, hblank]
        · rfl
      reason := fun t ht => by rw [htoken, if_neg (Nat.ne_of_lt ht)] }

/-- A token that is marked was issued. -/
theorem lt_of_reclaimed (h : (l.token t).reclaimed = true) : t < l.tokens.size := by
  by_contra hn
  rw [token, Array.getElem?_eq_none (Nat.le_of_not_lt hn)] at h
  exact Bool.false_ne_true h

/-- `mark` of a token that is not marked answers its holders, and takes them off. -/
theorem mark_of_not_reclaimed (h : (l.token id).reclaimed = false) :
    l.mark id = (some (l.token id).holders,
      l.modify id fun t => { t with reclaimed := true, holders := [] }) := by
  rw [mark, h]
  rfl

end Ledger

namespace Pool

variable {ω : Type} {p p' : Pool ω} {ctx t k : Nat} {h : Holder} {d : List Note}

/-- `markToken` of a marked token changes nothing. -/
theorem markToken_of_reclaimed (hrec : (p.ledger.token t).reclaimed = true) :
    p.markToken t = (none, p) := by
  rw [markToken, Ledger.mark_of_reclaimed hrec]

/-- `markToken` of a token that is not marked takes its holders, and marks it. -/
theorem markToken_of_not_reclaimed (hrec : (p.ledger.token t).reclaimed = false) :
    p.markToken t = (some (p.ledger.token t).holders,
      { p with
        ledger := p.ledger.modify t fun t => { t with reclaimed := true, holders := [] } }) := by
  rw [markToken, Ledger.mark_of_not_reclaimed hrec]

/-- `reclaim` of a marked token changes nothing. -/
theorem reclaim_of_reclaimed (hrec : (p.ledger.token t).reclaimed = true) : p.reclaim t = p := by
  rw [reclaim, markToken_of_reclaimed hrec]

/-- `beginPause` on a marked token is refused with its reason, and changes nothing. -/
theorem beginPause_of_reclaimed (reason : String) (hopen : p.opened = none)
    (hrun : (p.context ctx).running = true) (hrec : (p.ledger.token t).reclaimed = true) :
    p.beginPause ctx t reason =
      (.error (.aborted ("token " ++ (p.ledger.token t).reason ++ " already reclaimed")), p) := by
  rw [beginPause, check_of_none _ hopen]
  simp only [hrun, Ledger.attach_of_reclaimed _ hrec]
  rfl

/-- The signals after `modifySignal`. -/
theorem signal_modifySignal (f : Signal → Signal) (i : Nat) : (p.modifySignal k f).signal i =
    if i = k ∧ k < p.signals.size then f (p.signal i) else p.signal i := by
  rw [signal, modifySignal, Array.getElem?_modify]
  by_cases heq : k = i
  · subst heq
    by_cases hlt : k < p.signals.size
    · rw [if_pos rfl, if_pos ⟨rfl, hlt⟩, signal, Array.getElem?_eq_getElem hlt]
      rfl
    · rw [if_pos rfl, if_neg fun hand => hlt hand.2, signal,
        Array.getElem?_eq_none (Nat.le_of_not_lt hlt)]
      rfl
  · rw [if_neg heq, if_neg fun hand => heq hand.1.symm]
    rfl

/-- The signals of a pool are those in `signals`. -/
theorem signal_congr (h : p'.signals = p.signals) (i : Nat) : p'.signal i = p.signal i := by
  rw [signal, h]
  rfl

/-- `hold` adds a fresh signal and keeps the others. -/
theorem signal_hold (ctx t i : Nat) : (p.hold ctx t).signal i = p.signal i := by
  rw [signal, hold, Array.getElem?_push]
  split
  · rename_i heq
    rw [heq, signal, Array.getElem?_eq_none (Nat.le_refl _)]
    rfl
  · rfl

/-! ### What a pool has to do with its notes -/

/-- A pool **agrees with the notes** `d`: they are sound, and say who holds which token, which ones
are marked, what was sent for which reason, and what each signal was told. -/
structure Agrees (p : Pool ω) (d : List Note) : Prop where
  /-- Every note was in order. -/
  sound : Notes.Sound d
  /-- The holders of a token are those who are parked on it. -/
  holders : ∀ t, (p.ledger.token t).holders = Notes.parkedOn t d
  /-- The tokens that are marked are those of which it was noted. -/
  marked : ∀ t, (p.ledger.token t).reclaimed = true ↔ Notes.IsMarked t d
  /-- All that was sent was sent for the reason of the token. -/
  worded : ∀ t h cause, .sent t h cause ∈ d → cause = (p.ledger.token t).abortCause
  /-- The signals have what was sent. -/
  told : ∀ k, (p.signal k).Tells (Notes.causes k d)
  /-- A pause has a signal. -/
  signalled : ∀ t h, .parked t h ∈ d → h.signal < p.signals.size

namespace Agrees

/-- A pool without tokens and signals agrees with no notes. -/
theorem nil (htokens : p.ledger.tokens = #[]) (hsignals : p.signals = #[]) : Agrees p [] where
  sound := trivial
  holders t := by
    rw [Ledger.token, htokens]
    rfl
  marked t := by
    rw [Ledger.token, htokens]
    exact iff_of_false Bool.false_ne_true fun h => h.elim fun _ => List.not_mem_nil
  worded _ _ _ hmem := absurd hmem List.not_mem_nil
  told k := by
    rw [signal, hsignals]
    exact .nothing
  signalled _ _ hmem := absurd hmem List.not_mem_nil

/-- A token that was marked was issued. -/
theorem lt_of_isMarked (ha : Agrees p d) (hm : Notes.IsMarked t d) : t < p.ledger.tokens.size :=
  Ledger.lt_of_reclaimed ((ha.marked t).2 hm)

/-- What was sent names the reason of its token, which stays the same. -/
theorem worded_of_reason (ha : Agrees p d)
    (hreason : ∀ t < p.ledger.tokens.size, (p'.ledger.token t).reason = (p.ledger.token t).reason)
    (t : Nat) (h : Holder) (cause : String) (hmem : .sent t h cause ∈ d) :
    cause = (p'.ledger.token t).abortCause := by
  have hlt := ha.lt_of_isMarked (ha.sound.taken_of_sent hmem).isMarked
  have hsame : (p'.ledger.token t).abortCause = (p.ledger.token t).abortCause :=
    congrArg (HAppend.hAppend "token reclaimed: ") (hreason t hlt)
  exact (ha.worded t h cause hmem).trans hsame.symm

/-- What keeps the holders and the signals keeps `Agrees`. -/
theorem sameHolders (ha : Agrees p d) (hl : Ledger.SameHolders p.ledger p'.ledger)
    (hsignals : p'.signals = p.signals) : Agrees p' d where
  sound := ha.sound
  holders t := (hl.holders t).trans (ha.holders t)
  marked t := by
    rw [hl.reclaimed]
    exact ha.marked t
  worded := ha.worded_of_reason hl.reason
  told k := by
    rw [signal_congr hsignals]
    exact ha.told k
  signalled t h hmem := by
    rw [hsignals]
    exact ha.signalled t h hmem

/-- `poll` keeps `Agrees`. -/
theorem look (ha : Agrees p d) (k : Nat) : Agrees (p.modifySignal k fun s => s.poll.2) d where
  sound := ha.sound
  holders := ha.holders
  marked := ha.marked
  worded := ha.worded
  told i := by
    rw [signal_modifySignal]
    split
    · exact (ha.told i).poll
    · exact ha.told i
  signalled t h hmem := by
    rw [modifySignal, Array.size_modify]
    exact ha.signalled t h hmem

/-- `hold` keeps `Agrees` with the note `parked`. -/
theorem park (ha : Agrees p d) (hlt : t < p.ledger.tokens.size)
    (hrec : (p.ledger.token t).reclaimed = false) :
    Agrees (p.hold ctx t) (.parked t ⟨ctx, p.signals.size⟩ :: d) := by
  have hquiet : Ledger.SameSlots p.ledger (p.hold ctx t).ledger := .holders _ _ _
  exact {
    sound := by
      refine ⟨⟨fun hm => ?_, fun t' h' hmem => Nat.ne_of_lt (ha.signalled t' h' hmem)⟩, ha.sound⟩
      exact Bool.false_ne_true (hrec.symm.trans ((ha.marked t).2 hm))
    holders := fun i => by
      rw [hold, Ledger.token_modify, Notes.parkedOn]
      by_cases hi : i = t
      · rw [if_pos ⟨hi, hlt⟩, if_pos hi.symm, ← ha.holders i]
      · rw [if_neg fun hand => hi hand.1, if_neg (Ne.symm hi)]
        exact ha.holders i
    marked := fun i => by
      rw [hquiet.reclaimed, Notes.isMarked_cons_of_ne (by simp)]
      exact ha.marked i
    worded := fun i h cause hmem => by
      have hsent := (List.mem_cons.1 hmem).resolve_left (by simp)
      refine ha.worded_of_reason (fun i _ => ?_) i h cause hsent
      rw [hold, Ledger.token_modify]
      split <;> rfl
    told := fun k => by
      rw [signal_hold]
      exact ha.told k
    signalled := fun i h hmem => by
      rw [hold, Array.size_push]
      rcases List.mem_cons.1 hmem with heq | hmem
      · cases heq
        exact Nat.lt_succ_self _
      · exact Nat.lt_succ_of_lt (ha.signalled i h hmem) }

/-- `unpark` keeps `Agrees` with the note `left`. -/
theorem unpark (ha : Agrees p d) (ctx t : Nat) :
    Agrees (p.unpark ctx (some t)) (.left t ctx :: d) where
  sound := ⟨trivial, ha.sound⟩
  holders i := by
    rw [Pool.unpark, Ledger.detach, Ledger.token_modify, Notes.parkedOn]
    by_cases hi : i = t
    · by_cases hlt : t < p.ledger.tokens.size
      · rw [if_pos ⟨hi, hlt⟩, if_pos hi.symm, ← ha.holders i]
      · have hnone : (p.ledger.token i).holders = [] := by
          rw [hi, Ledger.token, Array.getElem?_eq_none (Nat.le_of_not_lt hlt)]
          rfl
        rw [if_neg fun hand => hlt hand.2, if_pos hi.symm, ← ha.holders i, hnone]
        rfl
    · rw [if_neg fun hand => hi hand.1, if_neg (Ne.symm hi)]
      exact ha.holders i
  marked i := by
    rw [reclaimed_unpark, Notes.isMarked_cons_of_ne (by simp)]
    exact ha.marked i
  worded i h cause hmem := by
    have hsent := (List.mem_cons.1 hmem).resolve_left (by simp)
    refine ha.worded_of_reason (fun i _ => ?_) i h cause hsent
    rw [Pool.unpark, Ledger.detach, Ledger.token_modify]
    split <;> rfl
  told := ha.told
  signalled i h hmem := ha.signalled i h ((List.mem_cons.1 hmem).resolve_left (by simp))

/-- `markToken` keeps `Agrees` with the note `marked`. -/
theorem mark (ha : Agrees p d) (hlt : t < p.ledger.tokens.size)
    (hrec : (p.ledger.token t).reclaimed = false) :
    Agrees (p.markToken t).2 (.marked t (p.ledger.token t).holders :: d) := by
  have hledger : (p.markToken t).2.ledger =
      p.ledger.modify t fun t => { t with reclaimed := true, holders := [] } := by
    rw [markToken_of_not_reclaimed hrec]
  exact {
    sound := by
      refine ⟨⟨fun hm => ?_, ha.holders t⟩, ha.sound⟩
      exact Bool.false_ne_true (hrec.symm.trans ((ha.marked t).2 hm))
    holders := fun i => by
      rw [hledger, Ledger.token_modify, Notes.parkedOn]
      by_cases hi : i = t
      · rw [if_pos ⟨hi, hlt⟩, if_pos hi.symm]
      · rw [if_neg fun hand => hi hand.1, if_neg (Ne.symm hi)]
        exact ha.holders i
    marked := fun i => by
      rw [hledger, Ledger.token_modify]
      by_cases hi : i = t
      · rw [if_pos ⟨hi, hlt⟩, hi]
        exact iff_of_true rfl ⟨_, List.mem_cons_self⟩
      · rw [if_neg fun hand => hi hand.1, Notes.isMarked_cons_of_ne fun _ heq =>
          hi (Note.marked.inj heq).1.symm]
        exact ha.marked i
    worded := fun i h cause hmem => by
      have hsent := (List.mem_cons.1 hmem).resolve_left (by simp)
      refine ha.worded_of_reason (fun i _ => ?_) i h cause hsent
      rw [hledger, Ledger.token_modify]
      split <;> rfl
    told := fun k => by
      rw [markToken_of_not_reclaimed hrec]
      exact ha.told k
    signalled := fun i h hmem => by
      rw [markToken_of_not_reclaimed hrec]
      exact ha.signalled i h ((List.mem_cons.1 hmem).resolve_left (by simp)) }

/-- `sendAbort` to a holder that is due keeps `Agrees` with the note `sent`. -/
theorem send (ha : Agrees p d) (hmem : (t, h) ∈ Notes.due d) :
    Agrees (p.sendAbort t h) (.sent t h (p.ledger.token t).abortCause :: d) := by
  obtain ⟨htaken, hnone⟩ := ha.sound.mem_due.1 hmem
  have hlt : h.signal < p.signals.size :=
    ha.signalled t h (ha.sound.parked_of_taken htaken)
  exact {
    sound := ⟨hmem, ha.sound⟩
    holders := ha.holders
    marked := fun i => (ha.marked i).trans (Notes.isMarked_cons_of_ne (by simp)).symm
    worded := fun i h' cause hin => by
      rcases List.mem_cons.1 hin with heq | hin
      · cases heq
        rfl
      · exact ha.worded i h' cause hin
    told := fun k => by
      rw [sendAbort, signal_modifySignal, Notes.causes]
      by_cases hk : k = h.signal
      · rw [if_pos ⟨hk, hlt⟩, if_pos hk.symm, hk, hnone]
        exact (hnone ▸ ha.told h.signal).send _
      · rw [if_neg fun hand => hk hand.1, if_neg (Ne.symm hk)]
        exact ha.told k
    signalled := fun i h' hin => by
      rw [sendAbort, modifySignal, Array.size_modify]
      exact ha.signalled i h' ((List.mem_cons.1 hin).resolve_left (by simp)) }

/-- `releaseToken` of a token that is midway with no holder due keeps `Agrees` with the note
`released`. -/
theorem release (ha : Agrees p d) (hmem : t ∈ Notes.midway d)
    (hnone : ∀ h, (t, h) ∉ Notes.due d) : Agrees (p.releaseToken t) (.released t :: d) where
  sound := ⟨⟨hmem, hnone⟩, ha.sound⟩
  holders := ha.holders
  marked i := (ha.marked i).trans (Notes.isMarked_cons_of_ne (by simp)).symm
  worded i h cause hin := ha.worded i h cause ((List.mem_cons.1 hin).resolve_left (by simp))
  told := ha.told
  signalled i h hin := ha.signalled i h ((List.mem_cons.1 hin).resolve_left (by simp))

/-- `noteBack` with what the signal holds keeps `Agrees` with the note `concluded`. -/
theorem conclude (ha : Agrees p d) (hmem : h ∈ Notes.pauses d) (ctx : Nat) :
    Agrees (p.noteBack ctx (p.signal h.signal).collect)
      (.concluded h (p.signal h.signal).collect :: d) where
  sound := ⟨⟨hmem, (ha.told h.signal).collect⟩, ha.sound⟩
  holders := ha.holders
  marked i := (ha.marked i).trans (Notes.isMarked_cons_of_ne (by simp)).symm
  worded i h cause hin := ha.worded i h cause ((List.mem_cons.1 hin).resolve_left (by simp))
  told := ha.told
  signalled i h hin := ha.signalled i h ((List.mem_cons.1 hin).resolve_left (by simp))

end Agrees

/-! ### Everything else -/

/-- Every act but `mark` keeps the holders. -/
theorem sameHolders_perform (p : Pool ω) {a : PoolAct ω} (hmark : ∀ t, a ≠ .mark t) :
    Ledger.SameHolders p.ledger (p.perform a).ledger := by
  cases a with
  | issue c priority reason => exact .issue c priority reason _ _
  | acquire caller c priority reason =>
    obtain ⟨waiters, heq⟩ := Ledger.acquire_snd c priority reason p.ledger caller
    rw [perform, heq]
    exact .issue c priority reason waiters _
  | giveUp caller c priority reason =>
    obtain ⟨waiters, heq⟩ := Ledger.giveUp_snd c priority reason p.ledger caller
    rw [perform, heq]
    exact .issue c priority reason waiters _
  | mark t => exact absurd rfl (hmark t)
  | check origin =>
    rw [perform, Pool.check]
    split <;> exact .of_tokens rfl
  | start spawned =>
    rw [perform, Pool.start]
    split
    · exact .of_tokens rfl
    · dsimp only
      split <;> exact .of_tokens rfl
  | pushQuit now =>
    rw [perform, pushQuit]
    generalize p.queue.pushQuit now _ = q
    exact .of_tokens rfl
  | tellShrink quits =>
    rw [perform, tellShrink]
    split <;> exact .of_tokens rfl
  | listen =>
    rw [perform, listen]
    split <;> exact .of_tokens rfl
  | _ => exact .of_tokens rfl

/-- Every act but `send` and `look` keeps the signals. -/
theorem signals_perform (p : Pool ω) {a : PoolAct ω} (hsend : ∀ t h, a ≠ .send t h)
    (hlook : ∀ k, a ≠ .look k) : (p.perform a).signals = p.signals := by
  cases a with
  | send t h => exact absurd rfl (hsend t h)
  | look k => exact absurd rfl (hlook k)
  | check origin =>
    rw [perform, Pool.check]
    split <;> rfl
  | start spawned =>
    rw [perform, Pool.start]
    split
    · rfl
    · dsimp only
      split <;> rfl
  | pushQuit now =>
    rw [perform, pushQuit]
  | tellShrink quits =>
    rw [perform, tellShrink]
    split <;> rfl
  | listen =>
    rw [perform, listen]
    split <;> rfl
  | _ => rfl

end Pool

end TurnPool
