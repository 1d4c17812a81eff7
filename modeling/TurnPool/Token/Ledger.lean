import TurnPool.Category
import TurnPool.Fault
import TurnPool.Priority
import TurnPool.Text.Shown
import TurnPool.Waiters

/-!
# Tokens

A token is the permission to do blocking work under a category. A category issues as many as its
limit allows at a time, until it is shut down. A token is *live* from its issue until its slot is
released.

Reclaiming a token takes several steps: it is marked, which takes its holders from it; each of
them is sent a cause; its slot is released; and those who wait for a slot are roused. The steps
are separate operations, for other callers may come in between.

## Main definitions

* `Token`, `Holder`: a token, and a context that is parked on it.
* `Ledger`: every token ever issued, and the slots of the categories.
* `Ledger.issue`, `Ledger.acquire`, `Ledger.giveUp`: a token is asked for; once, by a caller that
  waits, or for the last time by one that has waited long enough.
* `Ledger.attach`, `Ledger.detach`: a context parks on a token and leaves it.
* `Ledger.mark`, `Ledger.release`, `Ledger.notify`: the steps of reclaiming.
* `Ledger.close`: a category is shut down.
-/

namespace TurnPool

open Text

/-- A context that is parked on a token. -/
structure Holder where
  /-- The number of the context. -/
  context : Nat
  /-- The number of the signal of its pause. -/
  signal : Nat
deriving DecidableEq, Repr

/-- A token. -/
structure Token where
  /-- The category it was issued for. -/
  category : Category
  /-- The priority of the event that asked for it. -/
  priority : Priority
  /-- The reason given for it. -/
  reason : String
  /-- Whether it was reclaimed. -/
  reclaimed : Bool
  /-- The contexts that are parked on it. -/
  holders : List Holder
deriving DecidableEq, Repr

/-- The cause that the holders of a token are sent when it is reclaimed. -/
def Token.abortCause (t : Token) : String :=
  "token reclaimed: " ++ t.reason

/-- The diagnostic text of a token. Its identity has no text of its own. -/
def Token.shown (t : Token) : String :=
  Shown.openRecord "Token"
    [("id", "#"), ("category", t.category.variant), ("priority", t.priority.variant),
     ("reason", Shown.quoted t.reason)]

/-- What is known about a category. -/
structure CategorySlot where
  /-- How many tokens may be live, if there is a limit. -/
  limit : Option Nat
  /-- Whether no more tokens are issued. -/
  shutdown : Bool
  /-- The numbers of the live tokens, oldest first. -/
  live : List Nat
deriving DecidableEq, Repr

/-- Whether every token that the limit allows is live. -/
def CategorySlot.saturated (s : CategorySlot) : Bool :=
  match s.limit with
  | some limit => limit ≤ s.live.length
  | none => false

/-- The tokens and the slots of the categories. -/
structure Ledger where
  /-- Every token ever issued, by its number. -/
  tokens : Array Token
  /-- The slots. -/
  slots : PerCategory CategorySlot
  /-- The callers that wait for a slot. -/
  waiters : Waiters
deriving DecidableEq, Repr

namespace Ledger

/-- The ledger with the given limits, from which nothing was issued. -/
def new (limits : PerCategory (Option Nat)) : Ledger :=
  { tokens := #[]
    slots := .ofFn fun c => ⟨limits.get c, false, []⟩
    waiters := .empty }

/-- The limit of a category. -/
def limit (l : Ledger) (c : Category) : Option Nat := (l.slots.get c).limit

/-- The number of live tokens of a category. -/
def inUse (l : Ledger) (c : Category) : Nat := (l.slots.get c).live.length

/-- The token of a number; a blank one if there is none. -/
def token (l : Ledger) (id : Nat) : Token :=
  l.tokens[id]?.getD ⟨default, default, "", false, []⟩

/-- Change a token. -/
def modify (id : Nat) (f : Token → Token) (l : Ledger) : Ledger :=
  { l with tokens := l.tokens.modify id f }

/-! ### Asking for a token -/

/-- Issue a token if the category has room. -/
def issue (c : Category) (priority : Priority) (reason : String) (l : Ledger) :
    Except Fault Nat × Ledger :=
  let slot := l.slots.get c
  if slot.shutdown then (.error (.categoryShutdown c), l)
  else if slot.saturated then (.error (.categoryFull c), l)
  else
    let id := l.tokens.size
    (.ok id,
      { l with
        tokens := l.tokens.push ⟨c, priority, reason, false, []⟩
        slots := l.slots.set c { slot with live := slot.live ++ [id] } })

/-- One attempt of a caller that is ready to wait. There is no answer yet if the category has no
room; then the caller goes to sleep. -/
def acquire (caller : Nat) (c : Category) (priority : Priority) (reason : String) (l : Ledger) :
    Option (Except Fault Nat) × Ledger :=
  match l.issue c priority reason with
  | (.error (.categoryFull _), l') => (none, { l' with waiters := l'.waiters.sleep caller })
  | (r, l') => (some r, { l' with waiters := l'.waiters.leave caller })

/-- The last attempt of a caller that has waited long enough. -/
def giveUp (caller : Nat) (c : Category) (priority : Priority) (reason : String) (l : Ledger) :
    Except Fault Nat × Ledger :=
  match l.issue c priority reason with
  | (.error (.categoryFull _), l') =>
    (.error .timeout, { l' with waiters := l'.waiters.leave caller })
  | (r, l') => (r, { l' with waiters := l'.waiters.leave caller })

/-! ### Parking -/

/-- Park a context on a token. A token that was reclaimed refuses. -/
def attach (id : Nat) (h : Holder) (l : Ledger) : Except Fault Ledger :=
  let t := l.token id
  if t.reclaimed then .error (.aborted ("token " ++ t.reason ++ " already reclaimed"))
  else .ok (l.modify id fun t => { t with holders := t.holders ++ [h] })

/-- A context leaves a token. -/
def detach (id : Nat) (context : Nat) (l : Ledger) : Ledger :=
  l.modify id fun t => { t with holders := t.holders.filter (·.context ≠ context) }

/-! ### Reclaiming -/

/-- Mark a token as reclaimed. The answer holds the contexts that were parked on it until now; there
is none if the token was marked before. -/
def mark (id : Nat) (l : Ledger) : Option (List Holder) × Ledger :=
  let t := l.token id
  if t.reclaimed then (none, l)
  else (some t.holders, l.modify id fun t => { t with reclaimed := true, holders := [] })

/-- Release the slot of a token. -/
def release (id : Nat) (l : Ledger) : Ledger :=
  let c := (l.token id).category
  let slot := l.slots.get c
  { l with slots := l.slots.set c { slot with live := slot.live.filter (· ≠ id) } }

/-- Rouse those who wait for a slot. -/
def notify (l : Ledger) : Ledger :=
  { l with waiters := l.waiters.rouseAll }

/-- Let a category issue no more tokens. -/
def close (c : Category) (l : Ledger) : Ledger :=
  { l with slots := l.slots.set c { l.slots.get c with shutdown := true } }

/-! ### Basic facts -/

/-- A new ledger has the limits that it was given. -/
@[simp] theorem limit_new (limits : PerCategory (Option Nat)) (c : Category) :
    (new limits).limit c = limits.get c := by
  simp [limit, new]

/-- A new ledger has no live tokens. -/
@[simp] theorem inUse_new (limits : PerCategory (Option Nat)) (c : Category) :
    (new limits).inUse c = 0 := by
  simp [inUse, new]

/-- `mark` of a marked token takes no holders and changes nothing. -/
theorem mark_of_reclaimed {id : Nat} {l : Ledger} (h : (l.token id).reclaimed = true) :
    l.mark id = (none, l) := by
  simp [mark, h]

/-- `attach` to a marked token is refused with the reason of the token. -/
theorem attach_of_reclaimed {id : Nat} {l : Ledger} (holder : Holder)
    (h : (l.token id).reclaimed = true) :
    l.attach id holder =
      .error (.aborted ("token " ++ (l.token id).reason ++ " already reclaimed")) := by
  simp [attach, h]

end Ledger

end TurnPool
