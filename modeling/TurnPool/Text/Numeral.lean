import TurnPool.Time

/-!
# Decimal numerals of one word

A numeral is a run of decimal digits, with an optional plus sign, whose value fits into a 64-bit
word. Reading goes from left to right and stops at the first fault.

## Main definitions

* `NumeralFault`: why a text is not such a numeral.
* `readWord`: the value of a numeral.
-/

namespace TurnPool.Text

/-- Why a text is not a numeral of one word. -/
inductive NumeralFault where
  /-- There is no text. -/
  | empty
  /-- There is a character other than a digit, or no digit after the sign. -/
  | badDigit
  /-- The digits so far are worth more than a word holds. -/
  | tooLarge
deriving DecidableEq, Repr

/-- The wording of a fault. -/
def NumeralFault.message : NumeralFault → String
  | .empty => "cannot parse integer from empty string"
  | .badDigit => "invalid digit found in string"
  | .tooLarge => "number too large to fit in target type"

/-- The value of a decimal digit. -/
def digit? (c : Char) : Option Nat :=
  if '0' ≤ c ∧ c ≤ '9' then some (c.toNat - '0'.toNat) else none

/-- Read digits on top of the value `acc` of those before them. -/
def readDigits (acc : Nat) : List Char → Except NumeralFault Nat
  | [] => .ok acc
  | c :: cs =>
    match digit? c with
    | none => .error .badDigit
    | some d =>
      if wordMax < acc * 10 + d then .error .tooLarge else readDigits (acc * 10 + d) cs

/-- The value of a numeral. -/
def readWord : List Char → Except NumeralFault Nat
  | [] => .error .empty
  | ['+'] => .error .badDigit
  | '+' :: cs => readDigits 0 cs
  | cs => readDigits 0 cs

/-- What is read fits into a word. -/
theorem readDigits_le {acc n : Nat} {cs : List Char} (hacc : acc ≤ wordMax)
    (h : readDigits acc cs = .ok n) : n ≤ wordMax := by
  induction cs generalizing acc with
  | nil => simp only [readDigits, Except.ok.injEq] at h; omega
  | cons c cs ih =>
    rw [readDigits] at h
    split at h
    · cases h
    · split at h
      · cases h
      · exact ih (by omega) h

end TurnPool.Text
