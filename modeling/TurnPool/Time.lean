/-!
# Spans and instants

Instants of the pool's clock are whole nanoseconds since its start, without an upper end: a
delay of any size can be added to any instant. A `Span` is a length of time as it is written in
a configuration, in seconds and nanoseconds.

## Main definitions

* `Span.ofParts`: the span of seconds and nanoseconds.
* `Span.wholeMillis`: the whole milliseconds of a span, clamped to one 64-bit word.
* `millis`: a number of milliseconds in the unit of the clock.
* `ceilSeconds`: the least number of whole seconds that covers a delay.
-/

namespace TurnPool

/-- The greatest number that fits into a 64-bit word. -/
def wordMax : Nat := Nat.pow 2 64 - 1

/-- A length of time in seconds and nanoseconds. -/
structure Span where
  /-- Whole seconds. -/
  secs : Nat
  /-- Nanoseconds beyond the whole seconds. -/
  nanos : Nat
deriving DecidableEq, Repr, Inhabited

/-- Why seconds and nanoseconds make no span. -/
inductive SpanFault where
  /-- The seconds, with those carried over from the nanoseconds, do not fit into a word. -/
  | tooLong
deriving DecidableEq, Repr

/-- The wording of a fault. -/
def SpanFault.message : SpanFault → String
  | .tooLong => "overflow in Duration::new"

/-- The span of a number of seconds and of nanoseconds. Nanoseconds that make whole seconds are
carried over. -/
def Span.ofParts (secs nanos : Nat) : Except SpanFault Span :=
  let whole := secs + nanos / 1000000000
  if whole ≤ wordMax then .ok ⟨whole, nanos % 1000000000⟩ else .error .tooLong

/-- Whole milliseconds in a span, clamped to `wordMax`. -/
def Span.wholeMillis (s : Span) : Nat :=
  min wordMax ((s.secs * 1000000000 + s.nanos) / 1000000)

/-- Nanoseconds in `n` milliseconds. -/
def millis (n : Nat) : Nat := n * 1000000

/-- The whole milliseconds in a delay of `n` nanoseconds. -/
def floorMillis (n : Nat) : Nat := n / 1000000

/-- The least number of whole seconds that is not less than `n` nanoseconds. -/
def ceilSeconds (n : Nat) : Nat := (n + 999999999) / 1000000000

@[simp] theorem floorMillis_millis (n : Nat) : floorMillis (millis n) = n := by
  simp [floorMillis, millis]

/-- Carrying over keeps the length. -/
theorem Span.nanos_ofParts {secs nanos : Nat} {s : Span} (h : ofParts secs nanos = .ok s) :
    s.secs * 1000000000 + s.nanos = secs * 1000000000 + nanos := by
  simp only [ofParts] at h
  split at h
  · cases h
    dsimp only
    omega
  · cases h

theorem ceilSeconds_eq_zero_iff {n : Nat} : ceilSeconds n = 0 ↔ n = 0 := by
  rw [ceilSeconds]
  omega

end TurnPool
