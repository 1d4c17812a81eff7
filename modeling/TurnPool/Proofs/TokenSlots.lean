import Mathlib.Data.List.Nodup
import TurnPool.Token.Ledger

/-!
# The slots of tokens

A category has a slot for each of its live tokens. A slot is taken when a token is issued and given
back when it is reclaimed, but marking the token and giving its slot back are two steps, and
anybody may come in between. The books are right all the same: a token is live until its slot is
given back, that is done once, and no limit is ever exceeded.

## What is followed

`Usage` is a ledger with two notes beside it: the tokens that are *midway*, marked and with their
slots still taken, and the tokens that have *departed*. The latter are not told by what was done but
by comparing the live tokens before and after (`departures`). Marking is asked for as often as
anybody likes, by those who reclaim a token and by those who let go of it; only the first one gets
to give the slot back.

## Main results

* `Usage.slotChange_perform`: there are five things that an event can come to.
* `SlotsAccounted.slotChange`: the live tokens are those that were not marked, and those that are
  midway.
* `KeepsIssued.of_slotChange`: what was marked stays marked, and what is not midway does not become
  so again.
* `SlotChange.slots_of_ne`: a move in one category leaves the others alone.
* `token_accounting`: **every slot is taken once and given back once**.
-/

namespace TurnPool

namespace Ledger

variable {l l' : Ledger} {id i : Nat} {c d : Category}

/-- The live tokens of category `c`. -/
def live (l : Ledger) (c : Category) : List Nat := (l.slots.get c).live

/-- The tokens that are live in `l` and not in `l'`, category by category. -/
def departures (l l' : Ledger) : List Nat :=
  Category.all.flatMap fun c => (l.live c).filter (· ∉ l'.live c)

/-- A token departs if it is live in a category before and not after. -/
theorem mem_departures : i ∈ departures l l' ↔ ∃ c, i ∈ l.live c ∧ i ∉ l'.live c := by
  simp only [departures, List.mem_flatMap, List.mem_filter, decide_eq_true_eq]
  exact ⟨fun ⟨c, _, h⟩ => ⟨c, h⟩, fun ⟨c, h⟩ => ⟨c, c.mem_all, h⟩⟩

/-! ### What the operations do -/

/-- Reading a record of categories after one of them was set. -/
theorem get_set {α : Type} (t : PerCategory α) (a : α) :
    (t.set c a).get d = if c = d then a else t.get d := by
  by_cases h : c = d
  · subst h
    rw [if_pos rfl, PerCategory.get_set_self]
  · rw [if_neg h, PerCategory.get_set_of_ne _ _ (Ne.symm h)]

/-- A part `f` of the slots that the new slot keeps is the same in every category. -/
theorem proj_get_set {β : Type} {f : CategorySlot → β} {slot : CategorySlot}
    (h : f slot = f (l.slots.get c)) : f ((l.slots.set c slot).get d) = f (l.slots.get d) := by
  rw [get_set]
  split
  · rename_i hcd
    rw [h, hcd]
  · rfl

/-- The tokens after `modify id f`: `f` of the one at `id`, and the others as before. -/
theorem token_modify (f : Token → Token) :
    (l.modify id f).token i =
      if i = id ∧ id < l.tokens.size then f (l.token i) else l.token i := by
  rw [token, modify, Array.getElem?_modify]
  by_cases h : id = i
  · subst h
    by_cases hlt : id < l.tokens.size
    · rw [if_pos rfl, if_pos ⟨rfl, hlt⟩, token, Array.getElem?_eq_getElem hlt]
      rfl
    · rw [if_pos rfl, if_neg fun hi => hlt hi.2, token,
        Array.getElem?_eq_none (Nat.le_of_not_lt hlt)]
      rfl
  · rw [if_neg h, if_neg fun hi => h hi.1.symm]
    rfl

/-- `modify` adds no token. -/
@[simp] theorem size_modify (f : Token → Token) :
    (l.modify id f).tokens.size = l.tokens.size :=
  Array.size_modify

/-- `release id` takes `id` off the live tokens of its category. -/
theorem live_release : (l.release id).live c =
    if (l.token id).category = c then (l.live c).filter (· ≠ id) else l.live c := by
  rw [live, release, get_set]
  split
  · rename_i h
    rw [h]
    rfl
  · rfl

/-- `release` keeps the limits. -/
@[simp] theorem limit_release (id : Nat) (c : Category) :
    (l.release id).limit c = l.limit c :=
  proj_get_set (f := CategorySlot.limit) rfl

/-- `close` keeps the live tokens. -/
@[simp] theorem live_close (c d : Category) : (l.close c).live d = l.live d :=
  proj_get_set (f := CategorySlot.live) rfl

/-- `close` keeps the limits. -/
@[simp] theorem limit_close (c d : Category) : (l.close c).limit d = l.limit d :=
  proj_get_set (f := CategorySlot.limit) rfl

/-- The ledger in which one more token was issued, live and not marked. -/
def issued (c : Category) (priority : Priority) (reason : String) (l : Ledger) : Ledger :=
  { l with
    tokens := l.tokens.push ⟨c, priority, reason, false, []⟩
    slots := l.slots.set c { l.slots.get c with live := l.live c ++ [l.tokens.size] } }

section Issued

variable (c : Category) (priority : Priority) (reason : String) (l : Ledger)

/-- `issued` adds one token. -/
@[simp] theorem size_issued :
    (l.issued c priority reason).tokens.size = l.tokens.size + 1 :=
  Array.size_push _

/-- The tokens after `issued`: the new one is not marked and has no holder. -/
theorem token_issued : (l.issued c priority reason).token i =
    if i = l.tokens.size then ⟨c, priority, reason, false, []⟩ else l.token i := by
  rw [token, issued, Array.getElem?_push]
  split <;> rfl

/-- The live tokens after `issued`: the new one comes last in its category. -/
theorem live_issued : (l.issued c priority reason).live d =
    if c = d then l.live d ++ [l.tokens.size] else l.live d := by
  rw [live, issued, get_set]
  split
  · rename_i h
    rw [h]
  · rfl

/-- `issued` keeps the limits. -/
@[simp] theorem limit_issued : (l.issued c priority reason).limit d = l.limit d :=
  proj_get_set (f := CategorySlot.limit) rfl

/-- `issue` fails and changes nothing, or there is room below the limit and it **answers the new
token** of `l.issued`. -/
theorem issue_cases :
    (∃ e, l.issue c priority reason = (.error e, l)) ∨
      ((∀ limit, l.limit c = some limit → (l.live c).length < limit) ∧
        l.issue c priority reason = (.ok l.tokens.size, l.issued c priority reason)) := by
  by_cases hclosed : (l.slots.get c).shutdown = true
  · exact Or.inl ⟨_, if_pos hclosed⟩
  · by_cases hfull : (l.slots.get c).saturated = true
    · exact Or.inl ⟨_, (if_neg hclosed).trans (if_pos hfull)⟩
    · refine Or.inr ⟨fun limit hlimit => ?_, (if_neg hclosed).trans (if_neg hfull)⟩
      have heq : (l.slots.get c).limit = some limit := hlimit
      rw [CategorySlot.saturated, heq] at hfull
      exact Nat.lt_of_not_le fun hle => hfull (decide_eq_true hle)

/-- `acquire` changes the ledger as `issue` does, but for who waits. -/
theorem acquire_snd (caller : Nat) :
    ∃ waiters, (l.acquire caller c priority reason).2 =
      { (l.issue c priority reason).2 with waiters } := by
  rw [acquire]
  split <;> rename_i h <;> exact ⟨_, by rw [h]⟩

/-- `giveUp` changes the ledger as `issue` does, but for who waits. -/
theorem giveUp_snd (caller : Nat) :
    ∃ waiters, (l.giveUp caller c priority reason).2 =
      { (l.issue c priority reason).2 with waiters } := by
  rw [giveUp]
  split <;> rename_i h <;> exact ⟨_, by rw [h]⟩

end Issued

/-! ### A ledger in use -/

/-- A ledger with the tokens that are marked and not yet released, and with those that have
departed. -/
structure Usage where
  /-- The ledger. -/
  ledger : Ledger
  /-- The tokens that were marked and whose slots were not given back yet. -/
  midway : List Nat
  /-- The tokens that were live and are no more, latest first. -/
  departed : List Nat

/-- Something that is done with tokens, by anybody. -/
inductive TokenEvent where
  /-- A token is asked for. -/
  | issue (c : Category) (priority : Priority) (reason : String)
  /-- A caller that is ready to wait asks for a token. -/
  | acquire (caller : Nat) (c : Category) (priority : Priority) (reason : String)
  /-- A caller that has waited long enough asks for the last time. -/
  | giveUp (caller : Nat) (c : Category) (priority : Priority) (reason : String)
  /-- A context parks on a token. -/
  | attach (id : Nat) (h : Holder)
  /-- A context leaves a token. -/
  | detach (id : Nat) (context : Nat)
  /-- A token is to be reclaimed, since somebody says so or nobody has it any more. -/
  | mark (id : Nat)
  /-- The slot of a token that is midway is given back. -/
  | release (id : Nat)
  /-- Those who wait are roused. -/
  | notify
  /-- A category is shut down. -/
  | close (c : Category)

/-- The category that the event is about, by the tokens of `l`. -/
def TokenEvent.category? (l : Ledger) : TokenEvent → Option Category
  | .issue c _ _ | .acquire _ c _ _ | .giveUp _ c _ _ | .close c => some c
  | .attach id _ | .detach id _ | .mark id | .release id => some (l.token id).category
  | .notify => none

/-- The slots are the same, and so are the categories and the marks of the tokens; who is parked on
them may change. -/
structure SameSlots (l l' : Ledger) : Prop where
  /-- No token was issued. -/
  size : l'.tokens.size = l.tokens.size
  /-- Tokens keep their categories. -/
  category : ∀ i, (l'.token i).category = (l.token i).category
  /-- No token was marked. -/
  reclaimed : ∀ i, (l'.token i).reclaimed = (l.token i).reclaimed
  /-- The slots are as they were. -/
  slots : l'.slots = l.slots

/-- What an event of a category comes to: nothing for the slots, a token issued within the limit, a
first mark, the release of a token that was midway, or the closing of the category. -/
inductive SlotChange (l : Ledger) (midway : List Nat) :
    Option Category → Ledger → List Nat → Prop where
  /-- Nothing that counts. -/
  | sameSlots {c? : Option Category} {l' : Ledger} (h : SameSlots l l') :
    SlotChange l midway c? l' midway
  /-- A token is issued, and there is room for it. -/
  | issue (c : Category) (priority : Priority) (reason : String) (waiters : Waiters)
    (hroom : ∀ limit, l.limit c = some limit → (l.live c).length < limit) :
    SlotChange l midway (some c) { l.issued c priority reason with waiters } midway
  /-- A token is marked that was not marked before. -/
  | mark (id : Nat) (hlt : id < l.tokens.size) (hfirst : (l.token id).reclaimed = false) :
    SlotChange l midway (some (l.token id).category)
      (l.modify id fun t => { t with reclaimed := true, holders := [] }) (id :: midway)
  /-- The slot of a token that was midway is given back. -/
  | release (id : Nat) (hmem : id ∈ midway) :
    SlotChange l midway (some (l.token id).category) (l.release id) (midway.erase id)
  /-- A category is shut down. -/
  | close (c : Category) : SlotChange l midway (some c) (l.close c) midway

/-- `SameSlots` is reflexive. -/
theorem SameSlots.refl (l : Ledger) : SameSlots l l := ⟨rfl, fun _ => rfl, fun _ => rfl, rfl⟩

/-- Who waits does not matter to the slots. -/
theorem SameSlots.waiters (l : Ledger) (waiters : Waiters) : SameSlots l { l with waiters } :=
  ⟨rfl, fun _ => rfl, fun _ => rfl, rfl⟩

/-- Who is parked on a token does not matter to the slots. -/
theorem SameSlots.holders (l : Ledger) (id : Nat) (f : Token → List Holder) :
    SameSlots l (l.modify id fun t => { t with holders := f t }) where
  size := size_modify _
  category i := by rw [token_modify]; split <;> rfl
  reclaimed i := by rw [token_modify]; split <;> rfl
  slots := rfl

namespace Usage

variable {u : Usage}

/-- A token was issued under the number `id`. -/
def Issued (u : Usage) (id : Nat) : Prop := id < u.ledger.tokens.size

/-- A ledger with the limits from which nothing was issued. -/
def new (limits : PerCategory (Option Nat)) : Usage := ⟨.new limits, [], []⟩

/-- The ledger and what is midway after an event. A number under which no token was issued names
none, and a slot is released only for a token that is midway. -/
def perform (u : Usage) : TokenEvent → Ledger × List Nat
  | .issue c priority reason => ((u.ledger.issue c priority reason).2, u.midway)
  | .acquire caller c priority reason => ((u.ledger.acquire caller c priority reason).2, u.midway)
  | .giveUp caller c priority reason => ((u.ledger.giveUp caller c priority reason).2, u.midway)
  | .attach id h =>
    match u.ledger.attach id h with
    | .ok ledger => (ledger, u.midway)
    | .error _ => (u.ledger, u.midway)
  | .detach id context => (u.ledger.detach id context, u.midway)
  | .mark id =>
    if id < u.ledger.tokens.size then
      match u.ledger.mark id with
      | (some _, ledger) => (ledger, id :: u.midway)
      | (none, ledger) => (ledger, u.midway)
    else (u.ledger, u.midway)
  | .release id =>
    if id ∈ u.midway then (u.ledger.release id, u.midway.erase id) else (u.ledger, u.midway)
  | .notify => (u.ledger.notify, u.midway)
  | .close c => (u.ledger.close c, u.midway)

/-- The usage after an event, with the tokens that departed by it. -/
def after (u : Usage) (e : TokenEvent) : Usage :=
  let (ledger, midway) := u.perform e
  { ledger, midway, departed := departures u.ledger ledger ++ u.departed }

/-- The usage after a list of events, from a new ledger. -/
def history (limits : PerCategory (Option Nat)) (events : List TokenEvent) : Usage :=
  events.foldl after (new limits)

/-- `issue` comes to a `SlotChange` of its category, granted or not. -/
theorem slotChange_issue (c : Category) (priority : Priority) (reason : String) (waiters : Waiters)
    (u : Usage) :
    SlotChange u.ledger u.midway (some c) { (u.ledger.issue c priority reason).2 with waiters }
      u.midway := by
  rcases issue_cases c priority reason u.ledger with ⟨e, heq⟩ | ⟨hroom, heq⟩
  · rw [heq]
    exact .sameSlots (.waiters _ waiters)
  · rw [heq]
    exact .issue c priority reason waiters hroom

/-- **Every event** comes to a `SlotChange` of its category. -/
theorem slotChange_perform (u : Usage) (e : TokenEvent) :
    SlotChange u.ledger u.midway (e.category? u.ledger) (u.perform e).1 (u.perform e).2 := by
  cases e with
  | issue c priority reason => exact slotChange_issue c priority reason _ u
  | acquire caller c priority reason =>
    obtain ⟨waiters, heq⟩ := acquire_snd c priority reason u.ledger caller
    rw [perform, heq]
    exact slotChange_issue c priority reason waiters u
  | giveUp caller c priority reason =>
    obtain ⟨waiters, heq⟩ := giveUp_snd c priority reason u.ledger caller
    rw [perform, heq]
    exact slotChange_issue c priority reason waiters u
  | attach id holder =>
    by_cases hrec : (u.ledger.token id).reclaimed = true
    · simp only [perform, attach, hrec, if_true]
      exact .sameSlots (.refl _)
    · simp only [perform, attach, hrec]
      exact .sameSlots (.holders _ id fun t => t.holders ++ [holder])
  | detach id context =>
    exact .sameSlots (.holders _ id fun t => t.holders.filter (·.context ≠ context))
  | mark id =>
    by_cases hlt : id < u.ledger.tokens.size
    · by_cases hrec : (u.ledger.token id).reclaimed = true
      · simp only [perform, if_pos hlt, mark_of_reclaimed hrec]
        exact .sameSlots (.refl _)
      · simp only [perform, if_pos hlt, Ledger.mark, hrec]
        exact .mark id hlt (Bool.eq_false_iff.2 hrec)
    · simp only [perform, if_neg hlt]
      exact .sameSlots (.refl _)
  | release id =>
    by_cases hmem : id ∈ u.midway
    · simp only [perform, if_pos hmem]
      exact .release id hmem
    · simp only [perform, if_neg hmem]
      exact .sameSlots (.refl _)
  | notify => exact .sameSlots (.waiters _ _)
  | close c => exact .close c

end Usage

/-! ### The account -/

/-- The **account** of the slots: the live tokens of a category are those of it that are not marked
or are midway, none twice and no more than the limit, and what is midway is marked. -/
structure SlotsAccounted (l : Ledger) (midway : List Nat) : Prop where
  /-- The live tokens are those that were not marked, and those that are midway. -/
  mem_live : ∀ c i, i ∈ l.live c ↔
    i < l.tokens.size ∧ (l.token i).category = c ∧ ((l.token i).reclaimed = false ∨ i ∈ midway)
  /-- A token has one slot. -/
  nodup_live : ∀ c, (l.live c).Nodup
  /-- No category has more slots than its limit. -/
  within : ∀ c limit, l.limit c = some limit → (l.live c).length ≤ limit
  /-- What is midway was marked. -/
  marked : ∀ i ∈ midway, i < l.tokens.size ∧ (l.token i).reclaimed = true
  /-- A token is midway once. -/
  nodup_midway : midway.Nodup

namespace SlotsAccounted

variable {midway midway' : List Nat} {c? : Option Category}

/-- The account holds of a new ledger. -/
theorem new (limits : PerCategory (Option Nat)) : SlotsAccounted (.new limits) [] where
  mem_live c i := by
    simp only [live, Ledger.new, PerCategory.get_ofFn]
    exact iff_of_false List.not_mem_nil fun h => Nat.not_lt_zero _ h.1
  nodup_live c := by
    simp only [live, Ledger.new, PerCategory.get_ofFn]
    exact List.nodup_nil
  within c limit _ := by
    simp only [live, Ledger.new, PerCategory.get_ofFn]
    exact Nat.zero_le _
  marked := nofun
  nodup_midway := List.nodup_nil

/-- The account depends on the live tokens, the limits, the categories and the marks only. -/
theorem congr (h : SlotsAccounted l midway) (hsize : l'.tokens.size = l.tokens.size)
    (hlive : ∀ c, l'.live c = l.live c) (hlimit : ∀ c, l'.limit c = l.limit c)
    (hcat : ∀ i, (l'.token i).category = (l.token i).category)
    (hrec : ∀ i, (l'.token i).reclaimed = (l.token i).reclaimed) : SlotsAccounted l' midway where
  mem_live c i := by
    rw [hlive, hsize, hcat, hrec]
    exact h.mem_live c i
  nodup_live c := hlive c ▸ h.nodup_live c
  within c limit := by
    rw [hlive, hlimit]
    exact h.within c limit
  marked i hi := by
    rw [hsize, hrec]
    exact h.marked i hi
  nodup_midway := h.nodup_midway

/-- `SameSlots` keeps the account. -/
theorem sameSlots (h : SlotsAccounted l midway) (hq : SameSlots l l') : SlotsAccounted l' midway :=
  h.congr hq.size (fun c => by rw [live, hq.slots]; rfl) (fun c => by rw [limit, hq.slots]; rfl)
    hq.category hq.reclaimed

/-- A token **issued** within the limit keeps the account. -/
theorem issued (h : SlotsAccounted l midway) (c : Category) (priority : Priority) (reason : String)
    (hroom : ∀ limit, l.limit c = some limit → (l.live c).length < limit) :
    SlotsAccounted (l.issued c priority reason) midway := by
  have hnew : ∀ d, l.tokens.size ∉ l.live d := fun d hmem =>
    Nat.lt_irrefl _ ((h.mem_live d _).1 hmem).1
  exact {
    mem_live := fun d i => by
      rw [live_issued, token_issued, size_issued]
      by_cases hi : i = l.tokens.size
      · subst hi
        rw [if_pos rfl]
        by_cases hd : c = d
        · rw [if_pos hd]
          exact iff_of_true (List.mem_append_right _ List.mem_cons_self)
            ⟨Nat.lt_succ_self _, hd, Or.inl rfl⟩
        · rw [if_neg hd]
          exact iff_of_false (hnew d) fun hn => hd hn.2.1
      · have hlt : i < l.tokens.size + 1 ↔ i < l.tokens.size := by omega
        rw [if_neg hi, hlt, ← h.mem_live]
        split
        · rw [List.mem_append, List.mem_singleton]
          exact or_iff_left hi
        · rfl
    nodup_live := fun d => by
      rw [live_issued]
      split
      · rw [List.nodup_append_comm]
        exact List.nodup_cons.2 ⟨hnew d, h.nodup_live d⟩
      · exact h.nodup_live d
    within := fun d limit hlimit => by
      rw [limit_issued] at hlimit
      rw [live_issued]
      split
      · rename_i hd
        subst hd
        rw [List.length_append, List.length_singleton]
        exact hroom limit hlimit
      · exact h.within d limit hlimit
    marked := fun i hi => by
      obtain ⟨hlt, hrec⟩ := h.marked i hi
      rw [token_issued, size_issued, if_neg (Nat.ne_of_lt hlt)]
      exact ⟨Nat.lt_succ_of_lt hlt, hrec⟩
    nodup_midway := h.nodup_midway }

/-- A first **mark** keeps the account: the token goes midway and keeps its slot. -/
theorem mark (h : SlotsAccounted l midway) (hlt : id < l.tokens.size)
    (hfirst : (l.token id).reclaimed = false) :
    SlotsAccounted (l.modify id fun t => { t with reclaimed := true, holders := [] })
      (id :: midway) where
  mem_live c i := by
    rw [size_modify, token_modify, List.mem_cons]
    refine (h.mem_live c i).trans (and_congr_right fun _ => ?_)
    by_cases hi : i = id
    · subst hi
      rw [if_pos ⟨rfl, hlt⟩]
      exact and_congr_right fun _ => iff_of_true (Or.inl hfirst) (Or.inr (Or.inl rfl))
    · rw [if_neg fun heq => hi heq.1]
      simp only [hi, false_or]
  nodup_live := h.nodup_live
  within := h.within
  marked i hi := by
    rw [size_modify, token_modify]
    by_cases heq : i = id
    · subst heq
      rw [if_pos ⟨rfl, hlt⟩]
      exact ⟨hlt, rfl⟩
    · rw [if_neg fun hand => heq hand.1]
      exact h.marked i ((List.mem_cons.1 hi).resolve_left heq)
  nodup_midway := List.nodup_cons.2
    ⟨fun hmem => Bool.false_ne_true (hfirst.symm.trans (h.marked id hmem).2), h.nodup_midway⟩

/-- The **release** of a token that is midway keeps the account. -/
theorem release (h : SlotsAccounted l midway) (hmem : id ∈ midway) :
    SlotsAccounted (l.release id) (midway.erase id) where
  mem_live c i := by
    have hmarked : (l.token id).reclaimed = true := (h.marked id hmem).2
    change i ∈ (l.release id).live c ↔ i < l.tokens.size ∧ (l.token i).category = c ∧
      ((l.token i).reclaimed = false ∨ i ∈ midway.erase id)
    rw [live_release, h.nodup_midway.mem_erase_iff]
    by_cases hi : i = id
    · subst hi
      refine iff_of_false (fun hlive => ?_) fun ⟨_, _, hor⟩ => ?_
      · split at hlive
        · exact of_decide_eq_true (List.mem_filter.1 hlive).2 rfl
        · exact ‹¬ _› ((h.mem_live c i).1 hlive).2.1
      · exact hor.elim (fun hnot => Bool.false_ne_true (hnot.symm.trans hmarked))
          fun hand => hand.1 rfl
    · simp only [hi, ne_eq, not_false_eq_true, true_and]
      rw [← h.mem_live]
      split
      · simp only [List.mem_filter, hi, not_false_eq_true, decide_true, and_true]
      · rfl
  nodup_live c := by
    rw [live_release]
    split
    · exact (h.nodup_live c).filter _
    · exact h.nodup_live c
  within c limit hlimit := by
    rw [limit_release] at hlimit
    have hle := h.within c limit hlimit
    rw [live_release]
    split
    · exact Nat.le_trans (List.length_filter_le _ _) hle
    · exact hle
  marked i hi := h.marked i (List.mem_of_mem_erase hi)
  nodup_midway := h.nodup_midway.erase id

/-- Every `SlotChange` keeps the account. -/
theorem slotChange (h : SlotsAccounted l midway) (hm : SlotChange l midway c? l' midway') :
    SlotsAccounted l' midway' := by
  cases hm with
  | sameSlots hq => exact h.sameSlots hq
  | issue c priority reason waiters hroom =>
    exact (h.issued c priority reason hroom).sameSlots (.waiters _ waiters)
  | mark id hlt hfirst => exact h.mark hlt hfirst
  | release id hmem => exact h.release hmem
  | close c => exact h.congr rfl (live_close c) (limit_close c) (fun _ => rfl) fun _ => rfl

end SlotsAccounted

/-! ### There is no way back -/

/-- What stays from one ledger to a later one: the tokens with their categories and marks, and the
limits; a new token is not marked, and a token goes midway only by a first mark. -/
structure KeepsIssued (l : Ledger) (midway : List Nat) (l' : Ledger) (midway' : List Nat) :
    Prop where
  /-- Tokens stay issued. -/
  size_le : l.tokens.size ≤ l'.tokens.size
  /-- They keep their categories. -/
  category : ∀ i < l.tokens.size, (l'.token i).category = (l.token i).category
  /-- What was marked stays so. -/
  reclaimed : ∀ i < l.tokens.size, (l.token i).reclaimed = true → (l'.token i).reclaimed = true
  /-- What is midway was so before or was not marked before. -/
  midway_imp : ∀ i ∈ midway', i ∈ midway ∨ (l.token i).reclaimed = false
  /-- A token that is new is not marked. -/
  fresh : ∀ i < l'.tokens.size, ¬ i < l.tokens.size → (l'.token i).reclaimed = false
  /-- The limits are what they were. -/
  limit : ∀ c, l'.limit c = l.limit c

section Moves

variable {midway midway' : List Nat} {c? : Option Category}

/-- A `SlotChange` keeps the issued tokens. -/
theorem KeepsIssued.of_slotChange (hm : SlotChange l midway c? l' midway') :
    KeepsIssued l midway l' midway' := by
  cases hm with
  | sameSlots hq => exact {
      size_le := Nat.le_of_eq hq.size.symm
      category := fun i _ => hq.category i
      reclaimed := fun i _ => (hq.reclaimed i).trans
      midway_imp := fun _ => Or.inl
      fresh := fun i hlt hn => absurd (hq.size ▸ hlt) hn
      limit := fun c => by rw [Ledger.limit, hq.slots]; rfl }
  | issue c priority reason waiters hroom =>
    have htoken : ∀ i < l.tokens.size,
        token { l.issued c priority reason with waiters } i = l.token i := fun i hlt =>
      (token_issued c priority reason l).trans (if_neg (Nat.ne_of_lt hlt))
    exact {
      size_le := size_issued c priority reason l ▸ Nat.le_succ _
      category := fun i hlt => by rw [htoken i hlt]
      reclaimed := fun i hlt => by rw [htoken i hlt]; exact fun h => h
      midway_imp := fun _ => Or.inl
      fresh := fun i hlt hn => by
        have hi : i = l.tokens.size := by
          have hlt' : i < l.tokens.size + 1 := size_issued c priority reason l ▸ hlt
          omega
        exact congrArg Token.reclaimed ((token_issued c priority reason l).trans (if_pos hi))
      limit := fun _ => limit_issued c priority reason l }
  | mark id hlt hfirst => exact {
      size_le := Nat.le_of_eq (size_modify _).symm
      category := fun i _ => by rw [token_modify]; split <;> rfl
      reclaimed := fun i _ h => by
        rw [token_modify]
        split
        · rfl
        · exact h
      midway_imp := fun i hi => (List.mem_cons.1 hi).elim (fun heq => Or.inr (heq ▸ hfirst)) Or.inl
      fresh := fun i hi hn => absurd (size_modify (l := l) _ ▸ hi) hn
      limit := fun _ => rfl }
  | release id hmem => exact {
      size_le := Nat.le_refl _
      category := fun _ _ => rfl
      reclaimed := fun _ _ h => h
      midway_imp := fun i hi => Or.inl (List.mem_of_mem_erase hi)
      fresh := fun i hi hn => absurd hi hn
      limit := limit_release id }
  | close c => exact {
      size_le := Nat.le_refl _
      category := fun _ _ => rfl
      reclaimed := fun _ _ h => h
      midway_imp := fun _ => Or.inl
      fresh := fun i hi hn => absurd hi hn
      limit := limit_close c }

/-- A `SlotChange` of one category **keeps the whole slot of every other**: limit, live tokens and
all. -/
theorem SlotChange.slots_of_ne (hm : SlotChange l midway c? l' midway') (hne : c? ≠ some d) :
    l'.slots.get d = l.slots.get d := by
  have hset : ∀ {c : Category} (slot : CategorySlot), some c ≠ some d →
      (l.slots.set c slot).get d = l.slots.get d := fun slot hne =>
    PerCategory.get_set_of_ne _ _ fun heq => hne (congrArg some heq.symm)
  cases hm with
  | sameSlots hq => rw [hq.slots]
  | issue c priority reason waiters hroom => exact hset _ hne
  | mark id hlt hfirst => rfl
  | release id hmem => exact hset _ hne
  | close c => exact hset _ hne

/-- A token departs just if it **was released** in between: it is marked and not midway afterwards,
and was not so before. -/
theorem mem_departures_iff (h : SlotsAccounted l midway) (h' : SlotsAccounted l' midway')
    (ho : KeepsIssued l midway l' midway') :
    i ∈ departures l l' ↔ i < l.tokens.size ∧
      ((l.token i).reclaimed = false ∨ i ∈ midway) ∧
        (l'.token i).reclaimed = true ∧ i ∉ midway' := by
  rw [mem_departures]
  constructor
  · rintro ⟨c, hlive, hnot⟩
    obtain ⟨hlt, hcat, hor⟩ := (h.mem_live c i).1 hlive
    have hgone : ¬ ((l'.token i).reclaimed = false ∨ i ∈ midway') := fun hor' =>
      hnot ((h'.mem_live c i).2
        ⟨Nat.lt_of_lt_of_le hlt ho.size_le, (ho.category i hlt).trans hcat, hor'⟩)
    exact ⟨hlt, hor, eq_true_of_ne_false fun hr => hgone (Or.inl hr),
      fun hmem => hgone (Or.inr hmem)⟩
  · rintro ⟨hlt, hor, hrec, hnot⟩
    refine ⟨(l.token i).category, (h.mem_live _ i).2 ⟨hlt, rfl, hor⟩, fun hlive => ?_⟩
    exact ((h'.mem_live _ i).1 hlive).2.2.elim
      (fun hr => Bool.false_ne_true (hr.symm.trans hrec)) hnot

/-- No token departs twice. -/
theorem nodup_departures (h : SlotsAccounted l midway) : (departures l l').Nodup := by
  rw [departures, List.nodup_flatMap]
  refine ⟨fun c _ => (h.nodup_live c).filter _, ?_⟩
  have hall : Category.all.Pairwise (· ≠ ·) := by decide
  refine hall.imp fun {c d} hne i hc hd => hne ?_
  exact ((h.mem_live c i).1 (List.mem_of_mem_filter hc)).2.1.symm.trans
    ((h.mem_live d i).1 (List.mem_of_mem_filter hd)).2.1

end Moves

/-! ### The whole of it -/

namespace Usage

variable {u : Usage}

/-- The books of a usage: the account of its slots, and **departed are the issued tokens that are
marked and not midway**, each once. -/
structure Balanced (limits : PerCategory (Option Nat)) (u : Usage) : Prop where
  /-- The account of the slots. -/
  account : SlotsAccounted u.ledger u.midway
  /-- The tokens that have departed are those that were marked and are not midway. -/
  mem_departed : ∀ i, i ∈ u.departed ↔
    u.Issued i ∧ (u.ledger.token i).reclaimed = true ∧ i ∉ u.midway
  /-- A token departs once. -/
  nodup_departed : u.departed.Nodup
  /-- The limits are those that were configured. -/
  limit : ∀ c, u.ledger.limit c = limits.get c

/-- The books hold of a new ledger. -/
theorem Balanced.new (limits : PerCategory (Option Nat)) : (new limits).Balanced limits where
  account := .new limits
  mem_departed _ := iff_of_false List.not_mem_nil fun h => Nat.not_lt_zero _ h.1
  nodup_departed := List.nodup_nil
  limit := limit_new limits

/-- Every event keeps the books. -/
theorem Balanced.after
    {limits : PerCategory (Option Nat)} (h : u.Balanced limits) (e : TokenEvent) :
    (u.after e).Balanced limits := by
  have hm := slotChange_perform u e
  have h' : SlotsAccounted (u.after e).ledger (u.after e).midway := h.account.slotChange hm
  have ho : KeepsIssued u.ledger u.midway (u.after e).ledger (u.after e).midway := .of_slotChange hm
  have hdep : ∀ i, i ∈ departures u.ledger (u.after e).ledger ↔ _ := fun _ =>
    mem_departures_iff h.account h' ho
  refine {
    account := h'
    mem_departed := fun i => List.mem_append.trans ⟨fun hor => ?_, fun ⟨hlt, hrec, hnot⟩ => ?_⟩
    nodup_departed := List.Nodup.append (nodup_departures h.account) h.nodup_departed
      fun i hnow hbefore => ?_
    limit := fun c => (ho.limit c).trans (h.limit c) }
  · rcases hor with hnow | hbefore
    · obtain ⟨hlt, _, hrec, hnot⟩ := (hdep i).1 hnow
      exact ⟨Nat.lt_of_lt_of_le hlt ho.size_le, hrec, hnot⟩
    · obtain ⟨hlt, hrec, hnot⟩ := (h.mem_departed i).1 hbefore
      exact ⟨Nat.lt_of_lt_of_le hlt ho.size_le, ho.reclaimed i hlt hrec, fun hmem =>
        (ho.midway_imp i hmem).elim hnot fun hr => Bool.false_ne_true (hr.symm.trans hrec)⟩
  · have hold : i < u.ledger.tokens.size := by
      by_contra hn
      exact Bool.false_ne_true ((ho.fresh i hlt hn).symm.trans hrec)
    by_cases hstay : (u.ledger.token i).reclaimed = false ∨ i ∈ u.midway
    · exact Or.inl ((hdep i).2 ⟨hold, hstay, hrec, hnot⟩)
    · exact Or.inr ((h.mem_departed i).2 ⟨hold,
        eq_true_of_ne_false fun hr => hstay (Or.inl hr),
        fun hmem => hstay (Or.inr hmem)⟩)
  · obtain ⟨_, hrec, hnot⟩ := (h.mem_departed i).1 hbefore
    exact ((hdep i).1 hnow).2.1.elim (fun hr => Bool.false_ne_true (hr.symm.trans hrec)) hnot

/-- The books hold after any list of events. -/
theorem Balanced.history (limits : PerCategory (Option Nat)) (events : List TokenEvent) :
    (history limits events).Balanced limits :=
  List.foldlRecOn events _ (Balanced.new limits) fun _ h e _ => h.after e

/-- **The account of tokens**, after any events:

* the `live` tokens of a category are those of its issued tokens that are not `reclaimed` or are
  `midway`; so when nothing is midway, they are those that are not `reclaimed`;
* no token is live twice, and no more are live than the limit that was configured allows;
* no token departs twice, and `departed` are the issued tokens that are `reclaimed` and not
  `midway`;
* what is done next keeps the whole slot of every category that it is not about. -/
theorem token_accounting (limits : PerCategory (Option Nat)) (events : List TokenEvent) :
    let u := history limits events
    (∀ c id, id ∈ u.ledger.live c ↔
      u.Issued id ∧ (u.ledger.token id).category = c ∧
        ((u.ledger.token id).reclaimed = false ∨ id ∈ u.midway)) ∧
    (u.midway = [] → ∀ c id, id ∈ u.ledger.live c ↔
      u.Issued id ∧ (u.ledger.token id).category = c ∧ (u.ledger.token id).reclaimed = false) ∧
    (∀ c, (u.ledger.live c).Nodup ∧ u.ledger.limit c = limits.get c ∧
      ∀ limit, limits.get c = some limit → u.ledger.inUse c ≤ limit) ∧
    (u.departed.Nodup ∧ ∀ id, id ∈ u.departed ↔
      u.Issued id ∧ (u.ledger.token id).reclaimed = true ∧ id ∉ u.midway) ∧
    ∀ e c, e.category? u.ledger ≠ some c →
      (u.after e).ledger.slots.get c = u.ledger.slots.get c := by
  intro u
  have h : u.Balanced limits := .history limits events
  refine ⟨h.account.mem_live, fun hnone c id => ?_,
    fun c => ⟨h.account.nodup_live c, h.limit c, fun limit hlimit => ?_⟩,
    ⟨h.nodup_departed, h.mem_departed⟩, fun e c hne => (slotChange_perform u e).slots_of_ne hne⟩
  · refine (h.account.mem_live c id).trans (and_congr_right fun _ => and_congr_right fun _ => ?_)
    rw [hnone]
    exact or_iff_left List.not_mem_nil
  · exact h.account.within c limit ((h.limit c).trans hlimit)

/-- One token at a time may be live for uploads. While the first one is midway nobody gets another,
though it is marked twice; once its slot is given back somebody does. -/
def turnover : List TokenEvent :=
  [.issue .upload .normal "first", .mark 0, .mark 0, .issue .upload .normal "too early",
    .release 0, .release 0, .issue .upload .normal "second"]

/-- While token 0 is midway a second request is refused, and after its release one is granted; token
0 has departed once. -/
theorem token_accounting_turnover :
    let limits := (PerCategory.const none).set .upload (some 1)
    (history limits (turnover.take 4)).ledger.live .upload = [0] ∧
      (history limits turnover).ledger.live .upload = [1] ∧
      (history limits turnover).departed = [0] ∧
      ((1 : Nat) ∈ (history limits turnover).ledger.live .upload ↔
        (history limits turnover).Issued 1 ∧
          ((history limits turnover).ledger.token 1).category = .upload ∧
          ((history limits turnover).ledger.token 1).reclaimed = false) :=
  ⟨by decide, by decide, by decide,
    (token_accounting ((PerCategory.const none).set .upload (some 1)) turnover).2.1 (by decide)
      .upload 1⟩

end Usage

end Ledger

end TurnPool
