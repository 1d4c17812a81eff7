import TurnPool.Proofs.TokenSlots

/-!
# The answers of a category

A category that is asked for a token gives one of three answers: it was shut down, it is full, or
here is a token that nobody has had before. Somebody who is ready to wait hears the second answer
only as an order to go to sleep, or as the news that it has waited long enough. A category that was
shut down issues no token any more, and leaves those alone that it has issued.

## Open, below the limit, saturated

A category *has room* if it is open and below its limit (`HasRoom`), and it is *saturated* if it is
open and not below its limit (`IsSaturated`). In the books of a ledger no category is above its
limit, so that a category is saturated just if it is open and as many tokens are live as its limit
says (`SlotsAccounted.isSaturated_iff`).

## Main results

* `issue_answers`: the three answers, and what becomes of the books.
* `SlotsAccounted.answers_once`: the same for books that are right, answer by answer.
* `acquire_cases`, `giveUp_cases`: what becomes of an answer to somebody who is ready to wait.
* `Usage.drawn_or_undrawn`: nobody gets a token but who asks for it, from a category that has room.
* `Usage.isShut_after`: an event shuts a category down just if it is `.close` of that category.
* `Usage.lt_of_isShut`, `Usage.live_of_isShut`, `Usage.IsValid.after`: what a category that was shut
  down does not do any more, and what its tokens still do.
-/

namespace TurnPool

namespace Ledger

variable {l l' : Ledger} {id i : Nat} {c d : Category} {priority : Priority} {reason : String}

/-! ### What a category is ready for -/

/-- Category `c` was shut down. -/
def isShut (l : Ledger) (c : Category) : Bool := (l.slots.get c).shutdown

/-- `c` is **open and below its limit**, if it has one. -/
def HasRoom (l : Ledger) (c : Category) : Prop :=
  l.isShut c = false ∧ ∀ limit, l.limit c = some limit → l.inUse c < limit

/-- `c` is **open and saturated**: it has a limit, and as many tokens are live. -/
def IsSaturated (l : Ledger) (c : Category) : Prop :=
  l.isShut c = false ∧ ∃ limit, l.limit c = some limit ∧ limit ≤ l.inUse c

/-- A category slot is saturated just if it has a limit that is reached. -/
theorem saturated_iff :
    (l.slots.get c).saturated = true ↔ ∃ limit, l.limit c = some limit ∧ limit ≤ l.inUse c := by
  rw [CategorySlot.saturated, limit]
  cases (l.slots.get c).limit with
  | none => simp
  | some n => simp [inUse]

/-- `issue` **answers** `categoryShutdown`, `categoryFull` or the new token, and which of them is
decided by `isShut` and `IsSaturated`; it changes the ledger only with a token. -/
theorem issue_answers (l : Ledger) (c : Category) (priority : Priority) (reason : String) :
    (l.isShut c = true ∧ l.issue c priority reason = (.error (.categoryShutdown c), l)) ∨
      (l.IsSaturated c ∧ l.issue c priority reason = (.error (.categoryFull c), l)) ∨
      (l.HasRoom c ∧
        l.issue c priority reason = (.ok l.tokens.size, l.issued c priority reason)) := by
  by_cases hshut : (l.slots.get c).shutdown = true
  · exact .inl ⟨hshut, if_pos hshut⟩
  · have hopen : l.isShut c = false := Bool.eq_false_iff.2 hshut
    by_cases hfull : (l.slots.get c).saturated = true
    · exact .inr (.inl ⟨⟨hopen, saturated_iff.1 hfull⟩, (if_neg hshut).trans (if_pos hfull)⟩)
    · refine .inr (.inr ⟨⟨hopen, fun limit hlimit => ?_⟩, (if_neg hshut).trans (if_neg hfull)⟩)
      exact Nat.lt_of_not_le fun hle => hfull (saturated_iff.2 ⟨limit, hlimit, hle⟩)

/-- `IsSaturated` depends on the category's slot only. -/
theorem IsSaturated.of_slots (h : l.IsSaturated c) (heq : l'.slots.get c = l.slots.get c) :
    l'.IsSaturated c := by
  rw [IsSaturated, isShut, limit, inUse, heq]
  exact h

/-- `issued` shuts no category down. -/
@[simp] theorem isShut_issued (c : Category) (priority : Priority) (reason : String) (l : Ledger) :
    (l.issued c priority reason).isShut d = l.isShut d :=
  proj_get_set (f := CategorySlot.shutdown) rfl

/-- `release` shuts no category down. -/
@[simp] theorem isShut_release (id : Nat) (l : Ledger) : (l.release id).isShut d = l.isShut d :=
  proj_get_set (f := CategorySlot.shutdown) rfl

/-- `close c` **sets the flag of `c`**, and no other. -/
theorem isShut_close : (l.close c).isShut d = true ↔ l.isShut d = true ∨ c = d := by
  rw [isShut, close, get_set]
  split
  · rename_i heq
    exact iff_of_true rfl (.inr heq)
  · rename_i hne
    exact (or_iff_left hne).symm

/-- `issued` keeps every category that is saturated so. -/
theorem IsSaturated.issued (h : l.IsSaturated d) : (l.issued c priority reason).IsSaturated d := by
  obtain ⟨hopen, limit, hlimit, hle⟩ := h
  refine ⟨(isShut_issued c priority reason l).trans hopen, limit,
    (limit_issued c priority reason l).trans hlimit, ?_⟩
  have hlive : (l.issued c priority reason).inUse d = _ :=
    congrArg List.length (live_issued (d := d) c priority reason l)
  rw [hlive]
  split
  · rw [List.length_append]
    exact Nat.le_trans hle (Nat.le_add_right _ _)
  · exact hle

/-- `issue` leaves who waits as it is. -/
@[simp] theorem waiters_issue (c : Category) (priority : Priority) (reason : String) (l : Ledger) :
    (l.issue c priority reason).2.waiters = l.waiters := by
  rcases issue_answers l c priority reason with ⟨-, heq⟩ | ⟨-, heq⟩ | ⟨-, heq⟩
  · rw [heq]
  · rw [heq]
  · rw [heq]
    rfl

/-- `issue` shuts no category down, whatever its answer. -/
@[simp] theorem isShut_issue (c : Category) (priority : Priority) (reason : String) (l : Ledger) :
    (l.issue c priority reason).2.isShut d = l.isShut d := by
  rcases issue_answers l c priority reason with ⟨-, heq⟩ | ⟨-, heq⟩ | ⟨-, heq⟩
  · rw [heq]
  · rw [heq]
  · rw [heq]
    exact isShut_issued c priority reason l

/-- `issue` keeps every category that is saturated so. -/
theorem IsSaturated.issue (h : l.IsSaturated d) (c : Category) (priority : Priority)
    (reason : String) : (l.issue c priority reason).2.IsSaturated d := by
  rcases issue_answers l c priority reason with ⟨-, heq⟩ | ⟨-, heq⟩ | ⟨-, heq⟩
  · exact heq ▸ h
  · exact heq ▸ h
  · exact heq ▸ h.issued

/-! ### What is done with tokens -/

/-- What an event asks for, if it asks for a token. -/
def TokenEvent.asked? : TokenEvent → Option (Category × Priority × String)
  | .issue c priority reason | .acquire _ c priority reason | .giveUp _ c priority reason =>
    some (c, priority, reason)
  | _ => none

/-- The category whose callers an event gives **reason to look again**, if there is one. -/
def TokenEvent.stirred? (l : Ledger) : TokenEvent → Option Category
  | .release id => some (l.token id).category
  | .close c => some c
  | _ => none

/-- An event that asks for a token gives no caller reason to look again. -/
theorem TokenEvent.stirred?_of_asked {e : TokenEvent} (h : e.asked?.isSome = true) (l : Ledger) :
    e.stirred? l = none := by
  cases e with
  | release _ | close _ => cases h
  | _ => rfl

/-- No token is issued, none is marked but by `.mark`, and no slot is changed but that of the
category that `e` stirs. -/
structure Undrawn (e : TokenEvent) (l l' : Ledger) : Prop where
  size : l'.tokens.size = l.tokens.size
  reclaimed : ∀ i, e ≠ .mark i → (l'.token i).reclaimed = (l.token i).reclaimed
  slots : ∀ d, e.stirred? l ≠ some d → l'.slots.get d = l.slots.get d

/-- `SameSlots` is `Undrawn` for every event. -/
theorem SameSlots.undrawn {e : TokenEvent} (h : SameSlots l l') : Undrawn e l l' :=
  ⟨h.size, fun i _ => h.reclaimed i, fun _ _ => by rw [h.slots]⟩

/-- Setting the slot of the category that `e` stirs is `Undrawn`. -/
theorem undrawn_of_set {e : TokenEvent} (slot : CategorySlot) (h : e.stirred? l = some c) :
    Undrawn e l { l with slots := l.slots.set c slot } where
  size := rfl
  reclaimed _ _ := rfl
  slots _ hne := PerCategory.get_set_of_ne _ _ fun heq => hne (heq ▸ h)

namespace Usage

variable {u : Usage} {e : TokenEvent}

/-- However a token is asked for, the ledger is that of `issue`, but for who waits. -/
theorem ledger_of_asked (h : e.asked? = some (c, priority, reason)) :
    ∃ waiters, (u.after e).ledger =
      { (u.ledger.issue c priority reason).2 with waiters } := by
  cases e with
  | issue c' priority' reason' =>
    cases h
    exact ⟨_, rfl⟩
  | acquire caller c' priority' reason' =>
    cases h
    exact acquire_snd c priority reason u.ledger caller
  | giveUp caller c' priority' reason' =>
    cases h
    exact giveUp_snd c priority reason u.ledger caller
  | _ => cases h

/-- An event that asks for no token **issues none**. -/
theorem undrawn_of_not_asked (h : e.asked? = none) : Undrawn e u.ledger (u.after e).ledger := by
  cases e with
  | issue _ _ _ | acquire _ _ _ _ | giveUp _ _ _ _ => cases h
  | attach id holder =>
    by_cases hrec : (u.ledger.token id).reclaimed = true
    · simp only [after, perform, attach, hrec, if_true]
      exact (SameSlots.refl _).undrawn
    · simp only [after, perform, attach, hrec]
      exact (SameSlots.holders _ id fun t => t.holders ++ [holder]).undrawn
  | detach id context =>
    exact (SameSlots.holders _ id fun t => t.holders.filter (·.context ≠ context)).undrawn
  | mark id =>
    by_cases hlt : id < u.ledger.tokens.size
    · by_cases hrec : (u.ledger.token id).reclaimed = true
      · simp only [after, perform, if_pos hlt, mark_of_reclaimed hrec]
        exact (SameSlots.refl _).undrawn
      · simp only [after, perform, if_pos hlt, Ledger.mark, hrec]
        refine ⟨size_modify _, fun i hne => ?_, fun _ _ => rfl⟩
        change ((u.ledger.modify id _).token i).reclaimed = _
        rw [token_modify, if_neg fun hand => hne (congrArg TokenEvent.mark hand.1.symm)]
    · simp only [after, perform, if_neg hlt]
      exact (SameSlots.refl _).undrawn
  | release id =>
    by_cases hmem : id ∈ u.midway
    · simp only [after, perform, if_pos hmem]
      exact undrawn_of_set _ rfl
    · simp only [after, perform, if_neg hmem]
      exact (SameSlots.refl _).undrawn
  | notify => exact (SameSlots.waiters _ _).undrawn
  | close c => exact undrawn_of_set _ rfl

/-- An event that asks for no token puts no caller to sleep, and if it notifies none is asleep. -/
theorem asleep_of_not_asked (h : e.asked? = none)
    (hi : i ∈ (u.after e).ledger.waiters.asleep) :
    e ≠ .notify ∧ i ∈ u.ledger.waiters.asleep := by
  cases e with
  | issue _ _ _ | acquire _ _ _ _ | giveUp _ _ _ _ => cases h
  | attach id holder =>
    by_cases hrec : (u.ledger.token id).reclaimed = true
    · simp only [after, perform, attach, hrec, if_true] at hi
      exact ⟨TokenEvent.noConfusion, hi⟩
    · simp only [after, perform, attach, hrec] at hi
      exact ⟨TokenEvent.noConfusion, hi⟩
  | mark id =>
    by_cases hlt : id < u.ledger.tokens.size
    · by_cases hrec : (u.ledger.token id).reclaimed = true
      · simp only [after, perform, if_pos hlt, mark_of_reclaimed hrec] at hi
        exact ⟨TokenEvent.noConfusion, hi⟩
      · simp only [after, perform, if_pos hlt, Ledger.mark, hrec] at hi
        exact ⟨TokenEvent.noConfusion, hi⟩
    · simp only [after, perform, if_neg hlt] at hi
      exact ⟨TokenEvent.noConfusion, hi⟩
  | release id =>
    by_cases hmem : id ∈ u.midway
    · simp only [after, perform, if_pos hmem] at hi
      exact ⟨TokenEvent.noConfusion, hi⟩
    · simp only [after, perform, if_neg hmem] at hi
      exact ⟨TokenEvent.noConfusion, hi⟩
  | notify => cases hi
  | detach id context => exact ⟨TokenEvent.noConfusion, hi⟩
  | close c => exact ⟨TokenEvent.noConfusion, hi⟩

/-- An event **issues a token only in a category that has room**, and is `Undrawn` otherwise. -/
theorem drawn_or_undrawn (u : Usage) (e : TokenEvent) :
    Undrawn e u.ledger (u.after e).ledger ∨ ∃ c priority reason waiters, u.ledger.HasRoom c ∧
      (u.after e).ledger = { u.ledger.issued c priority reason with waiters } := by
  cases hasked : e.asked? with
  | none => exact .inl (undrawn_of_not_asked hasked)
  | some asked =>
    obtain ⟨c, priority, reason⟩ := asked
    obtain ⟨waiters, heq⟩ := ledger_of_asked (u := u) hasked
    rw [heq]
    rcases issue_answers u.ledger c priority reason with ⟨-, heq⟩ | ⟨-, heq⟩ | ⟨hroom, heq⟩
    · rw [heq]
      exact .inl (SameSlots.waiters _ _).undrawn
    · rw [heq]
      exact .inl (SameSlots.waiters _ _).undrawn
    · rw [heq]
      exact .inr ⟨c, priority, reason, waiters, hroom, rfl⟩

/-- **A category is shut down** by `.close` of it and by nothing else, and it stays so. -/
theorem isShut_after (e : TokenEvent) :
    (u.after e).ledger.isShut c = true ↔ u.ledger.isShut c = true ∨ e = .close c := by
  cases hasked : e.asked? with
  | some asked =>
    obtain ⟨c', priority, reason⟩ := asked
    obtain ⟨waiters, heq⟩ := ledger_of_asked (u := u) hasked
    have hkept : (u.after e).ledger.isShut c = u.ledger.isShut c := by
      rw [heq]
      exact isShut_issue c' priority reason u.ledger
    rw [hkept]
    refine (or_iff_left fun hclose => ?_).symm
    rw [hclose] at hasked
    cases hasked
  | none =>
    by_cases hstirred : e.stirred? u.ledger = some c
    · cases e with
      | release id =>
        rw [or_iff_left TokenEvent.noConfusion]
        by_cases hmem : id ∈ u.midway
        · simp only [after, perform, if_pos hmem, isShut_release]
        · simp only [after, perform, if_neg hmem]
      | close c' =>
        rw [TokenEvent.close.injEq]
        exact isShut_close
      | _ => cases hstirred
    · rw [isShut, (undrawn_of_not_asked hasked).slots c hstirred]
      refine (or_iff_left fun hclose => hstirred ?_).symm
      rw [hclose]
      rfl

/-- A category that is shut down **gets no new token**. -/
theorem lt_of_isShut (h : u.ledger.isShut c = true) (hlt : i < (u.after e).ledger.tokens.size)
    (hcat : ((u.after e).ledger.token i).category = c) : i < u.ledger.tokens.size := by
  rcases drawn_or_undrawn u e with hnone | ⟨c', priority, reason, waiters, hroom, heq⟩
  · exact hnone.size ▸ hlt
  · rw [heq] at hlt hcat
    have hlt' : i < u.ledger.tokens.size + 1 := (size_issued c' priority reason u.ledger) ▸ hlt
    refine Nat.lt_of_le_of_ne (Nat.le_of_lt_succ hlt') fun hi => ?_
    have htoken := (token_issued (i := i) c' priority reason u.ledger).trans (if_pos hi)
    have hc : c' = c := (congrArg Token.category htoken).symm.trans hcat
    exact Bool.false_ne_true ((hc ▸ hroom.1).symm.trans h)

/-- The mark of a token changes only by **`.mark` of it**. -/
theorem reclaimed_after (hlt : i < u.ledger.tokens.size) (hne : e ≠ .mark i) :
    ((u.after e).ledger.token i).reclaimed = (u.ledger.token i).reclaimed := by
  rcases drawn_or_undrawn u e with hnone | ⟨c', priority, reason, waiters, -, heq⟩
  · exact hnone.reclaimed i hne
  · rw [heq]
    exact congrArg Token.reclaimed
      ((token_issued (i := i) c' priority reason u.ledger).trans (if_neg (Nat.ne_of_lt hlt)))

/-- In a category that is shut down no token **becomes live**. -/
theorem live_of_isShut {limits : PerCategory (Option Nat)} (hu : u.Balanced limits)
    (h : u.ledger.isShut c = true) (hi : i ∈ (u.after e).ledger.live c) : i ∈ u.ledger.live c := by
  obtain ⟨hlt, hcat, hor⟩ := ((hu.after e).account.mem_live c i).1 hi
  have hold : i < u.ledger.tokens.size := lt_of_isShut h hlt hcat
  have ho : KeepsIssued u.ledger u.midway (u.after e).ledger (u.after e).midway :=
    .of_slotChange (slotChange_perform u e)
  refine (hu.account.mem_live c i).2 ⟨hold, (ho.category i hold).symm.trans hcat, ?_⟩
  rcases hor with hrec | hmid
  · refine .inl (Bool.eq_false_iff.2 fun hmarked => ?_)
    exact Bool.false_ne_true (hrec.symm.trans (ho.reclaimed i hold hmarked))
  · exact (ho.midway_imp i hmid).symm

/-- Token `i` was issued in category `c` and is not marked. -/
structure IsValid (u : Usage) (c : Category) (i : Nat) : Prop where
  lt_size : i < u.ledger.tokens.size
  category : (u.ledger.token i).category = c
  reclaimed : (u.ledger.token i).reclaimed = false

/-- A token **stays valid** through every event but `.mark` of it. -/
theorem IsValid.after (h : u.IsValid c i) (hne : e ≠ .mark i) : (u.after e).IsValid c i where
  lt_size :=
    Nat.lt_of_lt_of_le h.lt_size (KeepsIssued.of_slotChange (slotChange_perform u e)).size_le
  category :=
    ((KeepsIssued.of_slotChange (slotChange_perform u e)).category i h.lt_size).trans h.category
  reclaimed := (reclaimed_after h.lt_size hne).trans h.reclaimed

/-- A valid token is live, and `attach` on it succeeds. -/
theorem IsValid.live {limits : PerCategory (Option Nat)} (h : u.IsValid c i)
    (hu : u.Balanced limits) : i ∈ u.ledger.live c ∧ (u.ledger.token i).reclaimed = false ∧
      ∀ holder, ∃ l, u.ledger.attach i holder = .ok l :=
  ⟨(hu.account.mem_live c i).2 ⟨h.lt_size, h.category, .inl h.reclaimed⟩, h.reclaimed,
    fun holder => ⟨_, by rw [attach, h.reclaimed, if_neg Bool.false_ne_true]⟩⟩

end Usage

/-! ### Those who ask once -/

/-- By the account, a category is saturated **just if it is open and as many tokens are live as its
limit allows**. -/
theorem SlotsAccounted.isSaturated_iff {midway : List Nat} (h : SlotsAccounted l midway) :
    l.IsSaturated c ↔ l.isShut c = false ∧ l.limit c = some (l.inUse c) := by
  refine and_congr_right fun _ =>
    ⟨fun ⟨limit, hlimit, hle⟩ => ?_, fun heq => ⟨_, heq, Nat.le_refl _⟩⟩
  rw [hlimit, Nat.le_antisymm hle (h.within c limit hlimit)]

/-- The next token is not live yet. -/
theorem SlotsAccounted.not_mem_live {midway : List Nat} (h : SlotsAccounted l midway) :
    l.tokens.size ∉ l.live d := fun hmem =>
  Nat.lt_irrefl _ ((h.mem_live d _).1 hmem).1

/-- **What `issue` answers**, and what becomes of the ledger, by `isShut`, the limit and the live
tokens. -/
theorem SlotsAccounted.answers_once {midway : List Nat} (h : SlotsAccounted l midway) (c : Category)
    (priority : Priority) (reason : String) :
    let answer := l.issue c priority reason
    (answer.1 = .error (.categoryShutdown c) ↔ l.isShut c = true) ∧
    (answer.1 = .error (.categoryFull c) ↔
      l.isShut c = false ∧ l.limit c = some (l.inUse c)) ∧
    (l.isShut c = false → l.limit c ≠ some (l.inUse c) →
      answer.1 = .ok l.tokens.size ∧
      ∀ d, l.tokens.size ∉ l.live d ∧ answer.2.live d =
        if c = d then l.live d ++ [l.tokens.size] else l.live d) ∧
    ∀ e, answer.1 = .error e → answer.2 = l := by
  rcases issue_answers l c priority reason with ⟨hshut, heq⟩ | ⟨hfull, heq⟩ | ⟨hroom, heq⟩
  · simp only [heq, hshut]
    simp
  · have hlimit := h.isSaturated_iff.1 hfull
    simp only [heq, hlimit.1, hlimit.2]
    simp
  · have hlimit : l.limit c ≠ some (l.inUse c) := fun hlimit =>
      Nat.lt_irrefl _ (hroom.2 _ hlimit)
    simp only [heq, hroom.1]
    refine ⟨by simp, by simp [hlimit], fun _ _ => ⟨trivial, fun d => ⟨h.not_mem_live, ?_⟩⟩, by simp⟩
    exact live_issued c priority reason l

/-! ### Those who are ready to wait -/

section Waiting

variable (caller : Nat) (c : Category) (priority : Priority) (reason : String) (l : Ledger)

/-- `r` is what asking once answers, and is not `categoryFull`. -/
def Told (l : Ledger) (c : Category) (priority : Priority) (reason : String)
    (r : Except Fault Nat) : Prop :=
  (l.issue c priority reason).1 = r ∧ ∀ c', r ≠ .error (.categoryFull c')

/-- `acquire` answers what asking once tells, or **goes to sleep** where that would be
`categoryFull`. -/
theorem acquire_cases :
    (∃ r, l.Told c priority reason r ∧ l.acquire caller c priority reason =
        (some r, { (l.issue c priority reason).2 with waiters := l.waiters.leave caller })) ∨
      (l.IsSaturated c ∧ l.acquire caller c priority reason =
        (none, { l with waiters := l.waiters.sleep caller })) := by
  rcases issue_answers l c priority reason with ⟨h, heq⟩ | ⟨h, heq⟩ | ⟨h, heq⟩
  · refine .inl ⟨_, ⟨rfl, fun c' => ?_⟩, ?_⟩ <;> simp [acquire, heq]
  · exact .inr ⟨h, by rw [acquire, heq]⟩
  · refine .inl ⟨_, ⟨rfl, fun c' => ?_⟩, ?_⟩ <;> simp [acquire, heq, Ledger.issued]

/-- `giveUp` answers what asking once tells, or **a timeout** where that would be `categoryFull`. -/
theorem giveUp_cases :
    (∃ r, l.Told c priority reason r ∧ l.giveUp caller c priority reason =
        (r, { (l.issue c priority reason).2 with waiters := l.waiters.leave caller })) ∨
      (l.IsSaturated c ∧ l.giveUp caller c priority reason =
        (.error .timeout, { l with waiters := l.waiters.leave caller })) := by
  rcases issue_answers l c priority reason with ⟨h, heq⟩ | ⟨h, heq⟩ | ⟨h, heq⟩
  · refine .inl ⟨_, ⟨rfl, fun c' => ?_⟩, ?_⟩ <;> simp [giveUp, heq]
  · exact .inr ⟨h, by rw [giveUp, heq]⟩
  · refine .inl ⟨_, ⟨rfl, fun c' => ?_⟩, ?_⟩ <;> simp [giveUp, heq, Ledger.issued]

end Waiting

end Ledger

end TurnPool
