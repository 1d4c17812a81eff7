import TurnPool.Json.Value
import TurnPool.Time

/-!
# Decoding JSON values

Small decoders from JSON values to the values they stand for. Each gives `none` for a value of
another shape.

## Main definitions

* `Json.word?`: a natural number of one word.
* `Json.variant?`: the name of a constant, plain or as the one key of an object.
* `Json.RecordField`, `Json.decodeRecord?`: records, written as objects or as arrays of their
  fields.
-/

namespace TurnPool.Json

/-- The text of a string. -/
def string? : Json → Option String
  | .str s => s
  | _ => none

/-- A truth value. -/
def bool? : Json → Option Bool
  | .bool b => some b
  | _ => none

/-- The value of a run of decimal digits. -/
def decimal? (cs : List Char) : Option Nat :=
  cs.foldlM (fun n c => if '0' ≤ c ∧ c ≤ '9' then some (n * 10 + (c.toNat - 48)) else none) 0

/-- A natural number of one word: digits without a sign, a point or an exponent. -/
def word? : Json → Option Nat
  | .num literal => (decimal? literal).filter (· ≤ wordMax)
  | _ => none

/-- A natural number of one word, or `null` for its absence. -/
def wordOrNull? : Json → Option (Option Nat)
  | .null => some none
  | j => j.word?.map some

/-- The name of a constant: a string, or the key of an object whose one member is `null`. -/
def variant? : Json → Option String
  | .str s => s
  | .obj [(k, .null)] => k
  | _ => none

/-- A field of a record of type `α`: its name, and how its value changes the record. -/
structure RecordField (α : Type) where
  /-- The name of the field. -/
  name : String
  /-- The record with the field read from a value. -/
  put : Json → α → Option α

/-- Take over the members of an object. A field may be given once; a key that is no field is
passed over; `seen` are the fields given before. -/
def decodeMembers? {α : Type} (fields : List (RecordField α)) :
    List String → List (Option String × Json) → α → Option α
  | _, [], a => some a
  | _, (none, _) :: _, _ => none
  | seen, (some k, v) :: ms, a =>
    match fields.find? (·.name == k) with
    | none => decodeMembers? fields seen ms a
    | some f =>
      if seen.contains k then none
      else (f.put v a).bind (decodeMembers? fields (k :: seen) ms)

/-- Take over the items of an array as the fields in their order; there may be fewer items than
fields, but not more. -/
def decodeItems? {α : Type} : List (RecordField α) → List Json → α → Option α
  | _, [], a => some a
  | [], _ :: _, _ => none
  | f :: fs, v :: vs, a => (f.put v a).bind (decodeItems? fs vs)

/-- A record on top of `base`, from an object or an array of its fields. -/
def decodeRecord? {α : Type} (fields : List (RecordField α)) (base : α) : Json → Option α
  | .obj ms => decodeMembers? fields [] ms base
  | .arr vs => decodeItems? fields vs base
  | _ => none

end TurnPool.Json
