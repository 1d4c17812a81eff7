/-!
# Abort signals

Every pause has a signal of its own, through which it learns that its token was reclaimed. Whoever
reclaims the token sends one cause and nothing more. The paused work may look for the cause as
often as it likes; the first one found is kept, and counts as the outcome of the pause.

## Main definitions

* `Signal`: a signal, from both ends.
* `Signal.send`: the cause is sent.
* `Signal.poll`: the paused work looks.
* `Signal.collect`: the cause as the end of the pause finds it.
-/

namespace TurnPool

/-- The signal of one pause. -/
structure Signal where
  /-- The cause that was sent and has not been received. -/
  inbox : Option String
  /-- Whether somebody may still send. -/
  connected : Bool
  /-- The cause that was received. -/
  cause : Option String
deriving DecidableEq, Repr, Inhabited

namespace Signal

/-- The signal of a pause that begins. -/
def fresh : Signal := ⟨none, true, none⟩

/-- The cause that is taken for one when nobody can send any more and nobody has. -/
def disconnectedCause : String := "token released"

/-- Send the cause. There is room for one; nobody can send after that. -/
def send (cause : String) (s : Signal) : Signal :=
  { s with inbox := s.inbox.or (some cause), connected := false }

/-- Whether there is something to receive. -/
def hasNews (s : Signal) : Bool :=
  s.inbox.isSome || !s.connected

/-- Receive what there is to receive. A cause received before is kept. -/
def receive (s : Signal) : Signal :=
  { s with inbox := none, cause := s.cause.or (some (s.inbox.getD disconnectedCause)) }

/-- Look whether the pause was aborted. -/
def poll (s : Signal) : Bool × Signal :=
  if s.cause.isSome then (true, s)
  else if s.hasNews then (true, s.receive)
  else (false, s)

/-- The cause that the end of the pause finds: the one received, or else the one sent. -/
def collect (s : Signal) : Option String :=
  s.cause.or s.inbox

/-! ### Basic facts -/

/-- After `send`, `poll` answers `true`. -/
@[simp] theorem poll_send (cause : String) (s : Signal) : (s.send cause).poll.1 = true := by
  rw [poll]
  split
  · rfl
  · simp [hasNews, send]

/-- After `receive` a cause is there. -/
@[simp] theorem isSome_cause_receive (s : Signal) : s.receive.cause.isSome = true := by
  cases h : s.cause <;> simp [receive, h]

/-- Once a cause is there, `poll` answers `true` and changes nothing. -/
theorem poll_of_isSome_cause {s : Signal} (h : s.cause.isSome = true) : s.poll = (true, s) := by
  simp [poll, h]

/-- Once `poll` has answered `true` it always does. -/
theorem poll_of_poll {s : Signal} (h : s.poll.1 = true) : s.poll.2.poll.1 = true := by
  by_cases hc : s.cause.isSome = true
  · rw [poll_of_isSome_cause hc, poll_of_isSome_cause hc]
  · by_cases hn : s.hasNews = true
    · have hp : s.poll = (true, s.receive) := by simp [poll, hc, hn]
      rw [hp, poll_of_isSome_cause s.isSome_cause_receive]
    · simp [poll, hc, hn] at h

/-- A cause that was sent to an empty signal is collected, whether or not it was polled for. -/
theorem collect_send {s : Signal} (cause : String) (hi : s.inbox = none) (hc : s.cause = none) :
    (s.send cause).collect = some cause := by
  simp [collect, send, hi, hc]

/-- A fresh signal collects nothing. -/
@[simp] theorem collect_fresh : fresh.collect = none := rfl

end Signal

end TurnPool
