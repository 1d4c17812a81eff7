import TurnPool.Json.Value
import TurnPool.Time

/-!
# Plain JSON values

A tagged value has to be kept as a whole until its tag is known, and only plain values can be
kept: strings with a text, numbers within the range of doubles, nested at most 127 deep. A value
that is passed over need not be plain.

## Main definitions

* `Json.scaled`: a number literal as a significand of one word and a power of ten.
* `Json.isFinite`: whether a number literal is within the range of doubles.
* `Json.isPlain`: whether a value can be kept.
-/

namespace TurnPool.Json

/-- The parts of a number literal: the digits before the point, those after it, and the
exponent. -/
structure Parts where
  /-- The digits before the point. -/
  whole : List Char
  /-- The digits after the point. -/
  fraction : List Char
  /-- The exponent of ten. -/
  exponent : Int

/-- The value of a decimal digit. -/
def digitValue (c : Char) : Nat := c.toNat - '0'.toNat

/-- The value of decimal digits. -/
def digitsValue (cs : List Char) : Nat :=
  cs.foldl (fun n c => n * 10 + digitValue c) 0

/-- The value of decimal digits with an optional sign. -/
def signedValue : List Char → Int
  | '-' :: cs => -(digitsValue cs : Int)
  | '+' :: cs => digitsValue cs
  | cs => digitsValue cs

/-- The parts of a number literal. -/
def parts (literal : List Char) : Parts :=
  let body := literal.dropWhile (· = '-')
  let isMark := fun c : Char => c = 'e' || c = 'E'
  let mantissa := body.takeWhile fun c => !isMark c
  { whole := mantissa.takeWhile (· ≠ '.')
    fraction := (mantissa.dropWhile (· ≠ '.')).drop 1
    exponent := signedValue ((body.dropWhile fun c => !isMark c).drop 1) }

/-- A significand times a power of ten. -/
structure Scaled where
  /-- The significand. -/
  significand : Nat
  /-- The exponent of ten. -/
  exponent : Int
deriving DecidableEq, Repr

/-- Digits before the point, on top of the value `n` of those before them. From the first digit on
with which the value would not fit into a word, digits only count as places. -/
def scaleWhole : Nat → List Char → Scaled
  | n, [] => ⟨n, 0⟩
  | n, c :: cs =>
    let n' := n * 10 + digitValue c
    if n' ≤ wordMax then scaleWhole n' cs else ⟨n, (c :: cs).length⟩

/-- A significand fits into a word. -/
theorem significand_scaleWhole_le {n : Nat} {cs : List Char} (h : n ≤ wordMax) :
    (scaleWhole n cs).significand ≤ wordMax := by
  induction cs generalizing n with
  | nil => exact h
  | cons c cs ih =>
    rw [scaleWhole]
    split
    · exact ih ‹_›
    · exact h

/-- Digits after the point, on top of what stands before them. From the first digit on with which
the significand would not fit into a word, digits do not count. -/
def scaleFraction : Scaled → List Char → Scaled
  | s, [] => s
  | s, c :: cs =>
    let n := s.significand * 10 + digitValue c
    if n ≤ wordMax then scaleFraction ⟨n, s.exponent - 1⟩ cs else s

/-- The significand and the exponent of a number literal. -/
def scaled (literal : List Char) : Scaled :=
  let p := parts literal
  let s := scaleFraction (scaleWhole 0 p.whole) p.fraction
  { s with exponent := s.exponent + p.exponent }

/-- The double nearest to a natural number, the even one of two. There is no upper end. -/
def nearestDouble (n : Nat) : Nat :=
  if n < Nat.pow 2 53 then n
  else
    let unit := Nat.pow 2 (n.log2 - 52)
    let rest := n % unit
    let up := unit < 2 * rest || (2 * rest == unit && n / unit % 2 == 1)
    (n / unit + if up then 1 else 0) * unit

/-- Small numbers are doubles. -/
theorem nearestDouble_of_lt {n : Nat} (h : n < Nat.pow 2 53) : nearestDouble n = n := by
  rw [nearestDouble, if_pos h]

/-- The least magnitude that rounds to no finite double. -/
def overflowBound : Nat := Nat.pow 2 1024 - Nat.pow 2 970

/-- Whether a number literal is within the range of doubles. Its double is the product of the
doubles nearest to the significand and to the power of ten, which need not be the double nearest to
the number itself. Powers beyond `10 ^ 308` are no doubles. -/
def isFinite (literal : List Char) : Bool :=
  let s := scaled literal
  if s.significand = 0 || s.exponent ≤ 0 then true
  else if 308 < s.exponent then false
  else
    nearestDouble s.significand * nearestDouble (Nat.pow 10 s.exponent.toNat) < overflowBound

mutual

/-- Whether a value can be kept, if so much nesting is allowed. -/
def plainWithin : Nat → Json → Bool
  | _, .null | _, .bool _ => true
  | _, .num literal => isFinite literal
  | _, .str s => s.isSome
  | 0, .arr _ | 0, .obj _ => false
  | n + 1, .arr vs => itemsPlain n vs
  | n + 1, .obj ms => membersPlain n ms

/-- Whether every item of an array can be kept. -/
def itemsPlain : Nat → List Json → Bool
  | _, [] => true
  | n, v :: vs => plainWithin n v && itemsPlain n vs

/-- Whether every member of an object can be kept. -/
def membersPlain : Nat → List (Option String × Json) → Bool
  | _, [] => true
  | n, (k, v) :: ms => k.isSome && plainWithin n v && membersPlain n ms

end

/-- Whether a value can be kept as a whole. -/
def isPlain (j : Json) : Bool :=
  plainWithin 127 j

end TurnPool.Json
