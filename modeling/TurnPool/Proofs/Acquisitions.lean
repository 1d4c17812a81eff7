import Mathlib.Logic.Function.Basic
import TurnPool.Proofs.TokenAnswers

/-!
# Those who are ready to wait for a token

Somebody who is ready to wait for a token may be told nothing for a while: it looks, goes to sleep
if there is no room, is roused by those who give a slot back or shut a category down, and looks
again.
In between others come who look as well, and those who rouse do so only after they have let go of
the books. No one gets a wrong answer for that, and no one sleeps on.

## Who waits, and who has yet to notify

A `Lobby` is a ledger in use with a clock, with the calls of those who are ready to wait, and with
the categories that were changed by somebody who has yet to notify (`owing`): whoever gives a slot
back or shuts a category down notifies in a step of its own, and not necessarily in the order in
which the changes were made. A call goes through stages: on behalf of an event that is handled it
tries once at first; then the clock is read; then it asks until it gets an answer. A caller that is
asleep does nothing but expire, once it is past its deadline.

## Main results

* `Settles`, `settles_of_go`, `settles_of_expire`: what somebody who is ready to wait may be told,
  and when.
* `HasReason.after`, `sleeps_of_mem`: a reason to wait stays until somebody notifies, and whoever
  falls asleep has one.
* `Sound.after`: whatever happens, the books stay balanced and nobody is stranded.
* `isShut_after`, `isShut_foldl`: a category is shut down by `.close` of it, and by nothing else.
* `Sound.closed`, `valid_foldl`: a category that was shut down, and a token that was not marked.
* `acquisition_contract`: **everybody gets the right answer**, and nobody is stranded.
-/

namespace TurnPool

namespace Ledger

/-- How far a caller that is ready to wait has come: it tries once, reads the clock, or asks since
an instant. -/
inductive CallStage where
  /-- It tries once before it waits. -/
  | trying
  /-- It is about to read the clock. -/
  | entering
  /-- It asks until it gets an answer, since the clock was read. -/
  | asking (since : Nat)
deriving DecidableEq, Repr

/-- The stage after the caller was told nothing. -/
def CallStage.next (now : Nat) : CallStage → CallStage
  | .trying => .entering
  | .entering => .asking now
  | .asking since => .asking since

/-- A call for a token by a caller that is ready to wait. -/
structure Call where
  /-- The category. -/
  category : Category
  /-- The priority of the event that needs the token. -/
  priority : Priority
  /-- The reason for it. -/
  reason : String
  /-- How long the caller waits, if not for ever. -/
  timeout : Option Nat
  /-- How far the caller has come. -/
  stage : CallStage
deriving DecidableEq, Repr

/-- The instant from which on a call may be given up. -/
def Call.deadline? (call : Call) : Option Nat :=
  match call.stage with
  | .asking since => call.timeout.map (since + ·)
  | _ => none

/-- A ledger in use with the clock, the **calls of those that are ready to wait**, and the
categories that were changed and of which no notification was given since. -/
structure Lobby where
  /-- The ledger. -/
  usage : Usage
  /-- The clock. -/
  now : Nat
  /-- The calls that have no answer yet, by their callers. -/
  calls : Nat → Option Call
  /-- The categories that were changed by somebody who has yet to notify. -/
  owing : List Category

namespace Lobby

/-- Something that happens in a lobby. -/
inductive LobbyEvent where
  /-- Time passes. -/
  | tick (span : Nat)
  /-- Somebody asks for a token once. -/
  | once (c : Category) (priority : Priority) (reason : String)
  /-- Somebody comes who is ready to wait, perhaps after it has tried once. -/
  | come (caller : Nat) (c : Category) (priority : Priority) (reason : String)
    (timeout : Option Nat) (tries : Bool)
  /-- A caller that is not asleep goes on. -/
  | go (caller : Nat)
  /-- A caller that waits is past its deadline. -/
  | expire (caller : Nat)
  /-- A context parks on a token. -/
  | attach (id : Nat) (h : Holder)
  /-- A context leaves a token. -/
  | detach (id : Nat) (context : Nat)
  /-- A token is to be reclaimed. -/
  | mark (id : Nat)
  /-- Whoever has marked a token gives its slot back. -/
  | release (id : Nat)
  /-- A category is shut down. -/
  | close (c : Category)
  /-- Somebody who has changed a category notifies. -/
  | notify (c : Category)

/-- A lobby in which nothing has happened. -/
def new (limits : PerCategory (Option Nat)) : Lobby := ⟨.new limits, 0, fun _ => none, []⟩

variable (b : Lobby)

/-- The ledger. -/
def ledger : Ledger := b.usage.ledger

/-- The callers that are asleep. -/
def asleep : List Nat := b.ledger.waiters.asleep

/-- Whether a caller waits and is past its deadline. -/
def isLate (caller : Nat) (call : Call) : Bool :=
  call.deadline?.any (· ≤ b.now) &&
    (b.ledger.waiters.asleep.contains caller || b.ledger.waiters.isRoused caller)

/-- What the event does with tokens, if anything. -/
def tokenEvent? : LobbyEvent → Option TokenEvent
  | .tick _ | .come _ _ _ _ _ _ => none
  | .once c priority reason => some (.issue c priority reason)
  | .go caller => (b.calls caller).bind fun call =>
    match call.stage with
    | .trying => some (.issue call.category call.priority call.reason)
    | .entering => none
    | .asking _ =>
      if caller ∈ b.asleep then none
      else some (.acquire caller call.category call.priority call.reason)
  | .expire caller => (b.calls caller).bind fun call =>
    if b.isLate caller call then some (.giveUp caller call.category call.priority call.reason)
    else none
  | .attach id h => some (.attach id h)
  | .detach id context => some (.detach id context)
  | .mark id => some (.mark id)
  | .release id => if id ∈ b.usage.midway then some (.release id) else none
  | .close c => some (.close c)
  | .notify c => if c ∈ b.owing then some .notify else none

/-- What a caller that is ready to wait **is told** by the event, if anything. -/
def answer? : LobbyEvent → Option (Except Fault Nat)
  | .go caller => (b.calls caller).bind fun call =>
    match call.stage with
    | .trying =>
      match (b.ledger.issue call.category call.priority call.reason).1 with
      | .error (.categoryFull _) => none
      | r => some r
    | .entering => none
    | .asking _ =>
      if caller ∈ b.asleep then none
      else (b.ledger.acquire caller call.category call.priority call.reason).1
  | .expire caller => (b.calls caller).bind fun call =>
    if b.isLate caller call then
      some (b.ledger.giveUp caller call.category call.priority call.reason).1
    else none
  | _ => none

/-- The calls after the event. -/
def callsAfter (a : LobbyEvent) : Nat → Option Call :=
  match a with
  | .come caller c priority reason timeout tries =>
    if b.calls caller = none then
      Function.update b.calls caller
        (some ⟨c, priority, reason, timeout, if tries then .trying else .entering⟩)
    else b.calls
  | .go caller =>
    if (b.answer? a).isSome then Function.update b.calls caller none
    else Function.update b.calls caller
      ((b.calls caller).map fun call => { call with stage := CallStage.next b.now call.stage })
  | .expire caller =>
    if (b.answer? a).isSome then Function.update b.calls caller none else b.calls
  | _ => b.calls

/-- The categories that are owed a notification after the event. -/
def owingAfter : LobbyEvent → List Category
  | .release id =>
    if id ∈ b.usage.midway then (b.ledger.token id).category :: b.owing else b.owing
  | .close c => c :: b.owing
  | .notify c => b.owing.erase c
  | _ => b.owing

/-- The lobby **after an event**. -/
def after (a : LobbyEvent) : Lobby where
  usage := (b.tokenEvent? a).elim b.usage b.usage.after
  now := match a with
    | .tick span => b.now + span
    | _ => b.now
  calls := b.callsAfter a
  owing := b.owingAfter a

/-- The lobby after a list of events, from a new one. -/
def history (limits : PerCategory (Option Nat)) (acts : List LobbyEvent) : Lobby :=
  acts.foldl after (new limits)

/-! ### One step -/

variable {b : Lobby} {a : LobbyEvent} {e : TokenEvent} {caller : Nat} {call : Call}
  {r : Except Fault Nat}

/-- If `a` does `e` with tokens, the usage afterwards is `b.usage.after e`. -/
theorem usage_after (h : b.tokenEvent? a = some e) : (b.after a).usage = b.usage.after e :=
  congrArg (fun x => x.elim b.usage b.usage.after) h

/-- If `a` does nothing with tokens, the usage is the same. -/
theorem usage_after_none (h : b.tokenEvent? a = none) : (b.after a).usage = b.usage :=
  congrArg (fun x => x.elim b.usage b.usage.after) h

/-- What `.go` does with tokens is asking for one. -/
theorem asked_of_go (h : b.tokenEvent? (.go caller) = some e) : e.asked?.isSome = true := by
  obtain ⟨call, -, heq⟩ := Option.bind_eq_some_iff.1 h
  split at heq
  · cases heq
    rfl
  · cases heq
  · split at heq
    · cases heq
    · cases heq
      rfl

/-- What `.expire` does with tokens is asking for one. -/
theorem asked_of_expire (h : b.tokenEvent? (.expire caller) = some e) : e.asked?.isSome = true := by
  obtain ⟨call, -, heq⟩ := Option.bind_eq_some_iff.1 h
  split at heq
  · cases heq
    rfl
  · cases heq

/-- Those that wait for `c` **have reason to**: it is open and saturated, or it is owed a
notification. -/
def HasReason (b : Lobby) (c : Category) : Prop := b.ledger.IsSaturated c ∨ c ∈ b.owing

/-- An event that stirs category `c` puts it into `owing`. -/
theorem mem_owing_of_stirred (h : b.tokenEvent? a = some e) (hc : e.stirred? b.ledger = some c) :
    c ∈ b.owingAfter a := by
  cases a with
  | release id =>
    rw [tokenEvent?] at h
    split at h
    · rename_i hmem
      cases h
      cases hc
      rw [owingAfter, if_pos hmem]
      exact List.mem_cons_self
    · cases h
  | close c' =>
    cases h
    cases hc
    exact List.mem_cons_self
  | go caller => rw [TokenEvent.stirred?_of_asked (asked_of_go h)] at hc; cases hc
  | expire caller => rw [TokenEvent.stirred?_of_asked (asked_of_expire h)] at hc; cases hc
  | notify c' =>
    rw [tokenEvent?] at h
    split at h
    · cases h
      cases hc
    · cases h
  | tick _ | come _ _ _ _ _ _ => cases h
  | once _ _ _ | attach _ _ | detach _ _ | mark _ =>
    cases h
    cases hc

/-- Only `.notify` takes a category out of `owing`. -/
theorem mem_owingAfter (h : c ∈ b.owing) (hne : b.tokenEvent? a ≠ some .notify) :
    c ∈ b.owingAfter a := by
  cases a with
  | release id =>
    rw [owingAfter]
    split
    · exact List.mem_cons_of_mem _ h
    · exact h
  | close c' => exact List.mem_cons_of_mem _ h
  | notify c' =>
    rw [tokenEvent?] at hne
    split at hne
    · exact absurd rfl hne
    · rename_i hnot
      rw [owingAfter, List.erase_of_not_mem hnot]
      exact h
  | _ => exact h

/-- `HasReason` **stays** until `.notify`. -/
theorem HasReason.after (h : b.HasReason c) (hne : b.tokenEvent? a ≠ some .notify) :
    (b.after a).HasReason c := by
  rcases h with hsat | howing
  · cases htoken : b.tokenEvent? a with
    | none =>
      refine .inl ?_
      rw [ledger, usage_after_none htoken]
      exact hsat
    | some e =>
      cases hasked : e.asked? with
      | some asked =>
        obtain ⟨c', priority, reason⟩ := asked
        obtain ⟨waiters, heq⟩ := Usage.ledger_of_asked (u := b.usage) hasked
        refine .inl ?_
        rw [ledger, usage_after htoken, heq]
        exact hsat.issue c' priority reason
      | none =>
        by_cases hc : e.stirred? b.ledger = some c
        · exact .inr (mem_owing_of_stirred htoken hc)
        · refine .inl ?_
          rw [ledger, usage_after htoken]
          exact hsat.of_slots ((Usage.undrawn_of_not_asked hasked).slots c hc)
  · exact .inr (mem_owingAfter howing hne)

/-- What a caller that is ready to wait may be told, and **when**: a new token while there is room,
a refusal just after shutdown, or a timeout from its deadline on while the category is saturated;
and what changes then. -/
inductive Settles (b : Lobby) (call : Call) : Except Fault Nat → Lobby → Prop
  /-- It gets a new token, if the category is open and below its limit. -/
  | issued {b' : Lobby} (hroom : b.ledger.HasRoom call.category)
      (hlive : ∀ d, b'.ledger.live d =
        if call.category = d then b.ledger.live d ++ [b.ledger.tokens.size] else b.ledger.live d) :
    Settles b call (.ok b.ledger.tokens.size) b'
  /-- It gets none from a category that was shut down. -/
  | refused {b' : Lobby} (hshut : b.ledger.isShut call.category = true)
      (htokens : b'.ledger.tokens = b.ledger.tokens) (hslots : b'.ledger.slots = b.ledger.slots) :
    Settles b call (.error (.categoryShutdown call.category)) b'
  /-- It has waited long enough, and the category is open and saturated. -/
  | late {b' : Lobby} (deadline : Nat) (hdeadline : call.deadline? = some deadline)
      (hle : deadline ≤ b.now) (hfull : b.ledger.IsSaturated call.category)
      (htokens : b'.ledger.tokens = b.ledger.tokens) (hslots : b'.ledger.slots = b.ledger.slots) :
    Settles b call (.error .timeout) b'

/-- No caller that is ready to wait is told `categoryFull`. -/
theorem Settles.ne_full {b' : Lobby} (h : b.Settles call r b') (c : Category) :
    r ≠ .error (.categoryFull c) := by
  rintro rfl
  cases h

/-- What asking once tells, unless it is `categoryFull`, `Settles` the call. -/
theorem settles_of_told {b' : Lobby} {waiters : Waiters}
    (htold : b.ledger.Told call.category call.priority call.reason r)
    (hledger : b'.ledger =
      { (b.ledger.issue call.category call.priority call.reason).2 with waiters }) :
    b.Settles call r b' := by
  obtain ⟨hr, hne⟩ := htold
  rcases issue_answers b.ledger call.category call.priority call.reason with
    ⟨hshut, heq⟩ | ⟨-, heq⟩ | ⟨hroom, heq⟩
  · rw [heq] at hr hledger
    obtain rfl : _ = r := hr
    exact .refused hshut (hledger ▸ rfl) (hledger ▸ rfl)
  · rw [heq] at hr
    exact absurd hr.symm (hne _)
  · rw [heq] at hr hledger
    obtain rfl : _ = r := hr
    refine .issued hroom fun d => ?_
    rw [hledger]
    exact live_issued call.category call.priority call.reason b.ledger

/-- What a caller in the stage `trying` is told by `.go` is `Told` of its category. -/
theorem told_of_trying (hcall : b.calls caller = some call) (hstage : call.stage = .trying)
    (h : b.answer? (.go caller) = some r) :
    b.ledger.Told call.category call.priority call.reason r := by
  rw [answer?, hcall, Option.bind_some, hstage] at h
  rcases issue_answers b.ledger call.category call.priority call.reason with
    ⟨-, heq⟩ | ⟨-, heq⟩ | ⟨-, heq⟩
  · simp only [heq, Option.some.injEq] at h
    subst h
    exact ⟨congrArg Prod.fst heq, fun c' => by simp⟩
  · simp only [heq, reduceCtorEq] at h
  · simp only [heq, Option.some.injEq] at h
    subst h
    exact ⟨congrArg Prod.fst heq, fun c' => by simp⟩

/-- What `.go` tells a caller **settles its call**. -/
theorem settles_of_go (hcall : b.calls caller = some call) (h : b.answer? (.go caller) = some r) :
    b.Settles call r (b.after (.go caller)) := by
  cases hstage : call.stage with
  | trying =>
    have htoken : b.tokenEvent? (.go caller) =
        some (.issue call.category call.priority call.reason) := by
      rw [tokenEvent?, hcall, Option.bind_some, hstage]
    have hledger := congrArg Usage.ledger (usage_after htoken)
    exact settles_of_told (told_of_trying hcall hstage h) hledger
  | entering =>
    rw [answer?, hcall, Option.bind_some, hstage] at h
    cases h
  | asking since =>
    rw [answer?, hcall, Option.bind_some, hstage] at h
    by_cases hasleep : caller ∈ b.asleep
    · simp only [if_pos hasleep, reduceCtorEq] at h
    · simp only [if_neg hasleep] at h
      have htoken : b.tokenEvent? (.go caller) =
          some (.acquire caller call.category call.priority call.reason) := by
        simp only [tokenEvent?, hcall, Option.bind_some, hstage, if_neg hasleep]
      have hledger : (b.after (.go caller)).ledger =
          (b.ledger.acquire caller call.category call.priority call.reason).2 :=
        congrArg Usage.ledger (usage_after htoken)
      rcases acquire_cases caller call.category call.priority call.reason b.ledger with
        ⟨r', htold, heq⟩ | ⟨-, heq⟩
      · rw [heq] at h hledger
        obtain rfl := Option.some.inj h
        exact settles_of_told htold hledger
      · rw [heq] at h
        cases h

/-- What `.expire` tells a caller **settles its call**. -/
theorem settles_of_expire (hcall : b.calls caller = some call)
    (h : b.answer? (.expire caller) = some r) : b.Settles call r (b.after (.expire caller)) := by
  rw [answer?, hcall, Option.bind_some] at h
  split at h
  · rename_i hlate
    have htoken : b.tokenEvent? (.expire caller) =
        some (.giveUp caller call.category call.priority call.reason) := by
      rw [tokenEvent?, hcall, Option.bind_some, if_pos hlate]
    have hledger : (b.after (.expire caller)).ledger =
        (b.ledger.giveUp caller call.category call.priority call.reason).2 :=
      congrArg Usage.ledger (usage_after htoken)
    rcases giveUp_cases caller call.category call.priority call.reason b.ledger with
      ⟨r', htold, heq⟩ | ⟨hfull, heq⟩
    · rw [heq] at h hledger
      obtain rfl := Option.some.inj h
      exact settles_of_told htold hledger
    · rw [heq] at h hledger
      obtain rfl := Option.some.inj h
      obtain ⟨deadline, hdeadline, hle⟩ :=
        (Option.any_eq_true _ _).1 (Bool.and_eq_true_iff.1 hlate).1
      exact .late deadline hdeadline (of_decide_eq_true hle) hfull (hledger ▸ rfl) (hledger ▸ rfl)
  · cases h

/-- Why a caller is asleep after an event: it was asleep before, nobody notified and it was told
nothing; or it has just looked, was told nothing, and its category is saturated. -/
inductive Sleeps (b : Lobby) (a : LobbyEvent) (caller : Nat) : Prop
  /-- It was asleep, nobody notified, and it was told nothing. -/
  | on (hsilent : b.tokenEvent? a ≠ some .notify) (hmem : caller ∈ b.asleep)
      (hnone : a = .expire caller → b.answer? a = none)
  /-- It has just looked, and its category is full. -/
  | falls (call : Call) (since : Nat) (ha : a = .go caller) (hcall : b.calls caller = some call)
      (hstage : call.stage = .asking since) (hnone : b.answer? a = none)
      (hfull : (b.after a).ledger.IsSaturated call.category)

/-- After something is done with tokens that is no request, `Sleeps` explains who is asleep. -/
theorem Sleeps.of_tokenEvent (h : b.tokenEvent? a = some e) (hasked : e.asked? = none)
    (hne : ∀ c, a ≠ .expire c) (hi : caller ∈ (b.after a).asleep) : b.Sleeps a caller := by
  rw [asleep, ledger, usage_after h] at hi
  obtain ⟨hsilent, hmem⟩ := Usage.asleep_of_not_asked hasked hi
  exact .on (fun heq => hsilent (Option.some.inj (h.symm.trans heq))) hmem
    fun heq => absurd heq (hne caller)

/-- After nothing was done with tokens, `Sleeps` explains who is asleep. -/
theorem Sleeps.of_tokenEvent_none (h : b.tokenEvent? a = none)
    (hnone : a = .expire caller → b.answer? a = none)
    (hi : caller ∈ (b.after a).asleep) : b.Sleeps a caller := by
  rw [asleep, ledger, usage_after_none h] at hi
  exact .on (fun heq => by rw [h] at heq; cases heq) hi hnone

/-- After `issue`, `Sleeps` explains who is asleep: whoever was before. -/
theorem Sleeps.of_issue {c : Category} {priority : Priority} {reason : String}
    (h : b.tokenEvent? a = some (.issue c priority reason)) (hne : ∀ c, a ≠ .expire c)
    (hi : caller ∈ (b.after a).asleep) : b.Sleeps a caller := by
  rw [asleep, ledger, usage_after h] at hi
  change caller ∈ (b.ledger.issue c priority reason).2.waiters.asleep at hi
  rw [waiters_issue] at hi
  exact .on (fun heq => by rw [h] at heq; cases heq) hi fun heq => absurd heq (hne caller)

/-- After `.go`, `Sleeps` explains who is asleep. -/
theorem sleeps_of_go {caller' : Nat} (hi : caller ∈ (b.after (.go caller')).asleep) :
    b.Sleeps (.go caller') caller := by
  have hne : ∀ c, LobbyEvent.go caller' ≠ .expire c := fun _ => LobbyEvent.noConfusion
  cases hcall : b.calls caller' with
  | none =>
    exact .of_tokenEvent_none (by rw [tokenEvent?, hcall]; rfl) (fun heq => absurd heq (hne _)) hi
  | some call =>
    cases hstage : call.stage with
    | trying => exact .of_issue (by rw [tokenEvent?, hcall, Option.bind_some, hstage]) hne hi
    | entering =>
      exact .of_tokenEvent_none (by rw [tokenEvent?, hcall, Option.bind_some, hstage])
        (fun heq => absurd heq (hne _)) hi
    | asking since =>
      by_cases hasleep : caller' ∈ b.asleep
      · refine .of_tokenEvent_none ?_ (fun heq => absurd heq (hne _)) hi
        simp only [tokenEvent?, hcall, Option.bind_some, hstage, if_pos hasleep]
      · have htoken : b.tokenEvent? (.go caller') =
            some (.acquire caller' call.category call.priority call.reason) := by
          simp only [tokenEvent?, hcall, Option.bind_some, hstage, if_neg hasleep]
        have hsilent : b.tokenEvent? (.go caller') ≠ some .notify := fun heq => by
          rw [htoken] at heq
          cases heq
        have hledger : (b.after (.go caller')).ledger =
            (b.ledger.acquire caller' call.category call.priority call.reason).2 :=
          congrArg Usage.ledger (usage_after htoken)
        have hanswer : b.answer? (.go caller') =
            (b.ledger.acquire caller' call.category call.priority call.reason).1 := by
          simp only [answer?, hcall, Option.bind_some, hstage, if_neg hasleep]
        rw [asleep, hledger] at hi
        rcases acquire_cases caller' call.category call.priority call.reason b.ledger with
          ⟨r, -, heq⟩ | ⟨hfull, heq⟩
        · rw [heq] at hi
          exact .on hsilent (List.mem_of_mem_filter hi) fun heq => absurd heq (hne _)
        · rw [heq] at hi hanswer hledger
          rcases List.mem_append.1 hi with hold | hnew
          · exact .on hsilent (List.mem_of_mem_filter hold) fun heq => absurd heq (hne _)
          · obtain rfl := List.mem_singleton.1 hnew
            exact .falls call since rfl hcall hstage hanswer (hledger ▸ hfull)

/-- After `.expire`, `Sleeps` explains who is asleep. -/
theorem sleeps_of_expire {caller' : Nat} (hi : caller ∈ (b.after (.expire caller')).asleep) :
    b.Sleeps (.expire caller') caller := by
  cases hcall : b.calls caller' with
  | none =>
    exact .of_tokenEvent_none (by rw [tokenEvent?, hcall]; rfl)
      (fun _ => by rw [answer?, hcall]; rfl) hi
  | some call =>
    by_cases hlate : b.isLate caller' call = true
    · have htoken : b.tokenEvent? (.expire caller') =
          some (.giveUp caller' call.category call.priority call.reason) := by
        rw [tokenEvent?, hcall, Option.bind_some, if_pos hlate]
      have hledger : (b.after (.expire caller')).ledger =
          (b.ledger.giveUp caller' call.category call.priority call.reason).2 :=
        congrArg Usage.ledger (usage_after htoken)
      have hleft : caller ∈ (b.ledger.waiters.leave caller').asleep := by
        rw [asleep, hledger] at hi
        rcases giveUp_cases caller' call.category call.priority call.reason b.ledger with
          ⟨r, -, heq⟩ | ⟨-, heq⟩
        all_goals
          rw [heq] at hi
          exact hi
      obtain ⟨hmem, hother⟩ := List.mem_filter.1 hleft
      refine .on (fun heq => by rw [htoken] at heq; cases heq) hmem fun heq => ?_
      exact absurd (LobbyEvent.expire.inj heq).symm (of_decide_eq_true hother)
    · refine .of_tokenEvent_none ?_ (fun _ => ?_) hi
      · rw [tokenEvent?, hcall, Option.bind_some, if_neg hlate]
      · rw [answer?, hcall, Option.bind_some, if_neg hlate]

/-- After **every event**, `Sleeps` explains who is asleep. -/
theorem sleeps_of_mem (hi : caller ∈ (b.after a).asleep) : b.Sleeps a caller := by
  cases a with
  | tick _ | come _ _ _ _ _ _ => exact .of_tokenEvent_none rfl LobbyEvent.noConfusion hi
  | attach _ _ | detach _ _ | mark _ | close _ =>
    exact .of_tokenEvent rfl rfl (fun _ => LobbyEvent.noConfusion) hi
  | once c priority reason => exact .of_issue rfl (fun _ => LobbyEvent.noConfusion) hi
  | go caller' => exact sleeps_of_go hi
  | expire caller' => exact sleeps_of_expire hi
  | release id =>
    by_cases hmem : id ∈ b.usage.midway
    · exact .of_tokenEvent (e := .release id) (if_pos hmem) rfl (fun _ => LobbyEvent.noConfusion) hi
    · exact .of_tokenEvent_none (if_neg hmem) LobbyEvent.noConfusion hi
  | notify c =>
    by_cases hmem : c ∈ b.owing
    · exact .of_tokenEvent (e := .notify) (if_pos hmem) rfl (fun _ => LobbyEvent.noConfusion) hi
    · exact .of_tokenEvent_none (if_neg hmem) LobbyEvent.noConfusion hi

/-- A caller that `.go` tells nothing keeps its call. -/
theorem callsAfter_of_waiting {since : Nat} (hcall : b.calls caller = some call)
    (hstage : call.stage = .asking since) (hnone : b.answer? (.go caller) = none) :
    b.callsAfter (.go caller) caller = some call := by
  rw [callsAfter, hnone, if_neg (by decide), Function.update_self, hcall, Option.map_some, hstage,
    CallStage.next, ← hstage]

/-- A caller that stays asleep **keeps its call**. -/
theorem callsAfter_of_asleep {since : Nat} (hmem : caller ∈ b.asleep)
    (hcall : b.calls caller = some call) (hstage : call.stage = .asking since)
    (hnone : a = .expire caller → b.answer? a = none) : b.callsAfter a caller = some call := by
  cases a with
  | come caller' c priority reason timeout tries =>
    rw [callsAfter]
    split
    · rename_i hfree
      have hne : caller ≠ caller' := fun heq => by
        rw [← heq, hcall] at hfree
        cases hfree
      rw [Function.update_of_ne hne]
      exact hcall
    · exact hcall
  | go caller' =>
    by_cases heq : caller = caller'
    · subst heq
      have hanswer : b.answer? (.go caller) = none := by
        simp only [answer?, hcall, Option.bind_some, hstage, if_pos hmem]
      exact callsAfter_of_waiting hcall hstage hanswer
    · rw [callsAfter]
      split
      · rw [Function.update_of_ne heq]
        exact hcall
      · rw [Function.update_of_ne heq]
        exact hcall
  | expire caller' =>
    rw [callsAfter]
    split
    · rename_i hanswer
      have hne : caller ≠ caller' := fun heq => by
        rw [hnone (heq ▸ rfl)] at hanswer
        cases hanswer
      rw [Function.update_of_ne hne]
      exact hcall
    · exact hcall
  | _ => exact hcall

/-! ### All of the steps -/

/-- The books are **balanced**, and every caller asleep has a call that is asking, and a category
with a reason to wait. -/
structure Sound (limits : PerCategory (Option Nat)) (b : Lobby) : Prop where
  /-- The books of the tokens. -/
  balanced : b.usage.Balanced limits
  /-- Whoever is asleep has a call, and reason to wait. -/
  reason : ∀ caller ∈ b.asleep, ∃ call since, b.calls caller = some call ∧
    call.stage = .asking since ∧ b.HasReason call.category

variable {limits : PerCategory (Option Nat)}

/-- A new lobby is `Sound`. -/
theorem Sound.new (limits : PerCategory (Option Nat)) : (new limits).Sound limits where
  balanced := .new limits
  reason _ h := nomatch h

/-- **Every event** keeps `Sound`. -/
theorem Sound.after (h : b.Sound limits) (a : LobbyEvent) : (b.after a).Sound limits where
  balanced := by
    cases htoken : b.tokenEvent? a with
    | none => exact (usage_after_none htoken).symm ▸ h.balanced
    | some e => exact (usage_after htoken).symm ▸ h.balanced.after e
  reason caller hi := by
    cases sleeps_of_mem hi with
    | on hsilent hmem hnone =>
      obtain ⟨call, since, hcall, hstage, hreason⟩ := h.reason caller hmem
      exact ⟨call, since, callsAfter_of_asleep hmem hcall hstage hnone, hstage,
        hreason.after hsilent⟩
    | falls call since ha hcall hstage hnone hfull =>
      subst ha
      exact ⟨call, since, callsAfter_of_waiting hcall hstage hnone, hstage, .inl hfull⟩

/-- A list of events keeps `Sound`. -/
theorem Sound.foldl (h : b.Sound limits) (acts : List LobbyEvent) :
    (acts.foldl Lobby.after b).Sound limits :=
  List.foldlRecOn acts _ h fun _ h a _ => h.after a

/-- Only `.mark i` marks token `i`. -/
theorem eq_mark_of_tokenEvent {i : Nat} (h : b.tokenEvent? a = some (.mark i)) : a = .mark i := by
  cases a with
  | mark id =>
    cases h
    rfl
  | go caller => cases asked_of_go h
  | expire caller => cases asked_of_expire h
  | release id | notify c =>
    rw [tokenEvent?] at h
    split at h
    · cases h
    · cases h
  | _ => cases h

/-- Only `.close c` shuts category `c` down. -/
theorem tokenEvent_eq_close_iff {c : Category} :
    b.tokenEvent? a = some (.close c) ↔ a = .close c := by
  refine ⟨fun h => ?_, fun h => h ▸ rfl⟩
  cases a with
  | close c' =>
    cases h
    rfl
  | go caller => cases asked_of_go h
  | expire caller => cases asked_of_expire h
  | release id | notify c' =>
    rw [tokenEvent?] at h
    split at h
    · cases h
    · cases h
  | _ => cases h

/-- **One step** shuts a category down just if it is `.close` of that category. -/
theorem isShut_after {c : Category} (a : LobbyEvent) :
    (b.after a).ledger.isShut c = true ↔ b.ledger.isShut c = true ∨ a = .close c := by
  rw [← tokenEvent_eq_close_iff (b := b), ledger]
  cases htoken : b.tokenEvent? a with
  | none =>
    rw [usage_after_none htoken]
    exact (or_iff_left nofun).symm
  | some e =>
    rw [usage_after htoken, Option.some.injEq]
    exact Usage.isShut_after e

/-- **A whole run** shuts a category down just if it has `.close` of that category in it. -/
theorem isShut_foldl {c : Category} (b : Lobby) (acts : List LobbyEvent) :
    (acts.foldl Lobby.after b).ledger.isShut c = true ↔
      b.ledger.isShut c = true ∨ .close c ∈ acts := by
  induction acts generalizing b with
  | nil => simp only [List.foldl_nil, List.not_mem_nil, or_false]
  | cons a acts ih =>
    rw [List.foldl_cons, ih, isShut_after, List.mem_cons, or_assoc, eq_comm (a := a)]

/-- No category of a new lobby is shut down. -/
theorem isShut_new (limits : PerCategory (Option Nat)) (c : Category) :
    (new limits).ledger.isShut c = false := by
  rw [Ledger.isShut, ledger, new, Usage.new, Ledger.new, PerCategory.get_ofFn]

/-- Shutting `c` down changes no token and no list of live tokens, and **sets its flag**. -/
theorem close_effect (b : Lobby) (c : Category) :
    (b.after (.close c)).ledger.isShut c = true ∧
      (b.after (.close c)).ledger.tokens = b.ledger.tokens ∧
      ∀ d, (b.after (.close c)).ledger.live d = b.ledger.live d :=
  ⟨(isShut_after _).2 (.inr rfl), rfl, live_close c⟩

/-- What is left to a category that was shut down at some time: it stays so, and it has no token
that it had not issued, and no live token that was not live. -/
structure Closed (c : Category) (b b' : Lobby) : Prop where
  /-- The category is shut down in `b'`. -/
  shut : b'.ledger.isShut c = true
  /-- Whatever token of the category there is in `b'` was issued in `b`. -/
  issued : ∀ i < b'.ledger.tokens.size, (b'.ledger.token i).category = c →
    i < b.ledger.tokens.size
  /-- Whatever token of the category is live in `b'` was live in `b`. -/
  live : ∀ i ∈ b'.ledger.live c, i ∈ b.ledger.live c

/-- Every event keeps `Closed`. -/
theorem Closed.after {c : Category} {b b' : Lobby} (h : Closed c b b') (hb' : b'.Sound limits)
    (a : LobbyEvent) : Closed c b (b'.after a) := by
  cases htoken : b'.tokenEvent? a with
  | none =>
    have hledger : (b'.after a).ledger = b'.ledger :=
      congrArg Usage.ledger (usage_after_none htoken)
    exact ⟨hledger ▸ h.shut, hledger ▸ h.issued, hledger ▸ h.live⟩
  | some e =>
    have hledger : (b'.after a).ledger = (b'.usage.after e).ledger :=
      congrArg Usage.ledger (usage_after htoken)
    refine ⟨?_, fun i hlt hcat => ?_, fun i hi => ?_⟩
    · exact (isShut_after a).2 (.inl h.shut)
    · rw [hledger] at hlt hcat
      have hold : i < b'.ledger.tokens.size := Usage.lt_of_isShut h.shut hlt hcat
      have hsame :=
        (KeepsIssued.of_slotChange (Usage.slotChange_perform b'.usage e)).category i hold
      exact h.issued i hold (hsame.symm.trans hcat)
    · rw [hledger] at hi
      exact h.live i (Usage.live_of_isShut hb'.balanced h.shut hi)

/-- Once `isShut c` holds, **`Closed` holds after any events**: no token of `c` is issued. -/
theorem Sound.closed {c : Category} (h : b.Sound limits) (hshut : b.ledger.isShut c = true)
    (acts : List LobbyEvent) : Closed c b (acts.foldl Lobby.after b) := by
  have hrun := List.foldlRecOn (motive := fun b' => b'.Sound limits ∧ Closed c b b') acts
    Lobby.after ⟨h, ⟨hshut, fun _ hlt _ => hlt, fun _ hi => hi⟩⟩
    fun b' hb' a _ => ⟨hb'.1.after a, hb'.2.after hb'.1 a⟩
  exact hrun.2

/-- `IsValid` is kept by any events without `.mark i`. -/
theorem valid_foldl {c : Category} {i : Nat} (h : b.usage.IsValid c i) {acts : List LobbyEvent}
    (hacts : ∀ a ∈ acts, a ≠ .mark i) : (acts.foldl Lobby.after b).usage.IsValid c i := by
  refine List.foldlRecOn (motive := fun b : Lobby => b.usage.IsValid c i) acts _ h
    fun b h a ha => ?_
  cases htoken : b.tokenEvent? a with
  | none => exact (usage_after_none htoken).symm ▸ h
  | some e =>
    exact (usage_after htoken).symm ▸
      h.after fun heq => hacts a ha (eq_mark_of_tokenEvent (htoken.trans (congrArg some heq)))

/-- **The contract of acquiring**, after any events in a lobby:

* `issue` answers `categoryShutdown` just if `isShut`, whether the category is full or not;
  otherwise `categoryFull` just if its limit is `inUse`; and otherwise a new token, which is live.
  It changes nothing unless it answers a token;
* a caller that waits is never told `categoryFull`. What it is told `Settles` its call: a new token
  while there is room, `categoryShutdown` just after shutdown, or `timeout` from its deadline on
  while the category is saturated, and then nothing changes;
* a category `isShut` just if `.close` of it is among the events. `.close` sets the flag and keeps
  every token and all live tokens, and from then on the category is `Closed`: it is issued no token,
  whatever happens;
* a live token that is not marked stays so, and `attach` on it succeeds, through every event but
  `.mark` of it;
* a caller that is asleep has a call, and its category is saturated or in `owing`. -/
theorem acquisition_contract (limits : PerCategory (Option Nat)) (acts : List LobbyEvent) :
    let b := history limits acts
    (∀ c priority reason,
      let answer := b.ledger.issue c priority reason
      (answer.1 = .error (.categoryShutdown c) ↔ b.ledger.isShut c = true) ∧
      (answer.1 = .error (.categoryFull c) ↔
        b.ledger.isShut c = false ∧ b.ledger.limit c = some (b.ledger.inUse c)) ∧
      (b.ledger.isShut c = false → b.ledger.limit c ≠ some (b.ledger.inUse c) →
        answer.1 = .ok b.ledger.tokens.size ∧
        ∀ d, b.ledger.tokens.size ∉ b.ledger.live d ∧ answer.2.live d =
          if c = d then b.ledger.live d ++ [b.ledger.tokens.size] else b.ledger.live d) ∧
      ∀ e, answer.1 = .error e → answer.2 = b.ledger) ∧
    (∀ (a : LobbyEvent) caller call r, a = .go caller ∨ a = .expire caller →
      b.calls caller = some call → b.answer? a = some r →
      b.Settles call r (b.after a) ∧ ∀ c, r ≠ .error (.categoryFull c)) ∧
    (∀ c, b.ledger.isShut c = true ↔ .close c ∈ acts) ∧
    (∀ c, let shut := b.after (.close c)
      shut.ledger.isShut c = true ∧ shut.ledger.tokens = b.ledger.tokens ∧
      (∀ d, shut.ledger.live d = b.ledger.live d) ∧
      ∀ more : List LobbyEvent, Closed c shut (more.foldl after shut)) ∧
    (∀ c (more : List LobbyEvent), b.ledger.isShut c = true → Closed c b (more.foldl after b)) ∧
    (∀ c i (more : List LobbyEvent), i ∈ b.ledger.live c → (b.ledger.token i).reclaimed = false →
      (∀ a ∈ more, a ≠ .mark i) →
      i ∈ (more.foldl after b).ledger.live c ∧
        ((more.foldl after b).ledger.token i).reclaimed = false ∧
        ∀ holder, ∃ l, (more.foldl after b).ledger.attach i holder = .ok l) ∧
    ∀ caller ∈ b.asleep, ∃ call, b.calls caller = some call ∧
      (b.ledger.IsSaturated call.category ∨ call.category ∈ b.owing) := by
  intro b
  have h : b.Sound limits := (Sound.new limits).foldl acts
  refine ⟨fun c priority reason => ?_, fun a caller call r ha hcall hr => ?_, fun c => ?_,
    fun c => ?_, fun c more hshut => h.closed hshut more, fun c i more hi hrec hmore => ?_,
    fun caller hi => ?_⟩
  · exact h.balanced.account.answers_once c priority reason
  · have hsettles : b.Settles call r (b.after a) := by
      rcases ha with rfl | rfl
      · exact settles_of_go hcall hr
      · exact settles_of_expire hcall hr
    exact ⟨hsettles, hsettles.ne_full⟩
  · rw [show b = acts.foldl Lobby.after (Lobby.new limits) from rfl, isShut_foldl, isShut_new]
    exact or_iff_right Bool.false_ne_true
  · obtain ⟨hshut, htokens, hlive⟩ := close_effect b c
    exact ⟨hshut, htokens, hlive, (h.after (.close c)).closed hshut⟩
  · obtain ⟨hlt, hcat, -⟩ := (h.balanced.account.mem_live c i).1 hi
    exact (valid_foldl ⟨hlt, hcat, hrec⟩ hmore).live (h.foldl more).balanced
  · obtain ⟨call, -, hcall, -, hreason⟩ := h.reason caller hi
    exact ⟨call, hcall, hreason⟩

/-- One upload at a time. While the first one is under way another caller comes, tries, reads the
clock, looks and falls asleep; then the slot is given back, and nobody has notified yet. -/
def handover : List LobbyEvent :=
  [.once .upload .normal "first", .come 7 .upload .normal "second" (some 5) true, .go 7, .go 7,
    .go 7, .mark 0, .release 0]

/-- Somebody has yet to notify the caller that is asleep, and it gets the slot when it is roused.
Then uploads are shut down: its token stays live, and nobody gets another one, not even when the
slot is free again. -/
theorem acquisition_contract_handover :
    let limits := (PerCategory.const none).set .upload (some 1)
    let roused := history limits (handover ++ [.notify .upload])
    let shut := history limits (handover ++ [.notify .upload, .go 7, .close .upload])
    let freed : List LobbyEvent := [.mark 1, .release 1, .once .upload .normal "third"]
    (7 : Nat) ∈ (history limits handover).asleep ∧
      (∃ call, (history limits handover).calls 7 = some call ∧
        ((history limits handover).ledger.IsSaturated call.category ∨
          call.category ∈ (history limits handover).owing)) ∧
      roused.answer? (.go 7) = some (.ok 1) ∧
      (∀ c, (Except.ok 1 : Except Fault Nat) ≠ .error (.categoryFull c)) ∧
      shut.ledger.isShut .upload = true ∧
      (shut.ledger.issue .upload .normal "third").1 = .error (.categoryShutdown .upload) ∧
      1 ∈ ((freed.drop 2).foldl after shut).ledger.live .upload ∧
      Closed .upload shut (freed.foldl after shut) ∧
      (freed.foldl after shut).ledger.live .upload = [] := by
  intro limits roused shut freed
  have hasleep : (7 : Nat) ∈ (history limits handover).asleep := by decide
  have hcall : roused.calls 7 = some ⟨.upload, .normal, "second", some 5, .asking 0⟩ := by decide
  have hanswer : roused.answer? (.go 7) = some (.ok 1) := by decide
  have hcontract := acquisition_contract limits (handover ++ [.notify .upload])
  obtain ⟨honce, -, hshut, -, hclosed, hlive, -⟩ :=
    acquisition_contract limits (handover ++ [.notify .upload, .go 7, .close .upload])
  have hflag : shut.ledger.isShut .upload = true :=
    (hshut .upload).2 (List.mem_append_right _ (by simp))
  refine ⟨hasleep, (acquisition_contract limits handover).2.2.2.2.2.2 7 hasleep, hanswer,
    (hcontract.2.1 (.go 7) 7 _ _ (.inl rfl) hcall hanswer).2, hflag,
    (honce .upload .normal "third").1.2 hflag, ?_, hclosed .upload freed hflag, by decide⟩
  refine (hlive .upload 1 (freed.drop 2) (by decide) (by decide) fun a ha => ?_).1
  obtain rfl := List.mem_singleton.1 ha
  exact LobbyEvent.noConfusion

end Lobby

end Ledger

end TurnPool
