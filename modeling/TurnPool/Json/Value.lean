/-!
# JSON values

A JSON text as a tree that keeps what a strict reader needs to know and no more: a number is the
literal as it is written, and a string in which an escape names half of a surrogate pair has no
text.

## Main definitions

* `Json`: the tree.
* `Json.text`: the compact text of a tree.
-/

namespace TurnPool

/-- A JSON value. -/
inductive Json where
  /-- The literal `null`. -/
  | null
  /-- A truth value. -/
  | bool (b : Bool)
  /-- A number, as it is written. -/
  | num (literal : List Char)
  /-- A string; `none` if it holds an unpaired surrogate. -/
  | str (s : Option String)
  /-- An array. -/
  | arr (items : List Json)
  /-- An object: its members in the order in which they are written. -/
  | obj (members : List (Option String × Json))

namespace Json

/-- A string value. -/
def ofString (s : String) : Json := .str (some s)

/-- A natural number in decimal. -/
def ofNat (n : Nat) : Json := .num (Nat.toDigits 10 n)

/-- A natural number, or `null`. -/
def ofNat? : Option Nat → Json
  | none => .null
  | some n => .ofNat n

/-- An object with distinct readable keys. -/
def ofFields (fields : List (String × Json)) : Json :=
  .obj (fields.map fun f => (some f.1, f.2))

/-- The lower-case hexadecimal digit of a number below sixteen. -/
def hexDigit (n : Nat) : Char :=
  (Nat.toDigits 16 n).headD '0'

/-- How a character is written in a string: what must be escaped is, in the shortest way. -/
def charText (c : Char) : List Char :=
  if c = '"' then ['\\', '"']
  else if c = '\\' then ['\\', '\\']
  else if c = '\x08' then ['\\', 'b']
  else if c = '\x0c' then ['\\', 'f']
  else if c = '\n' then ['\\', 'n']
  else if c = '\r' then ['\\', 'r']
  else if c = '\t' then ['\\', 't']
  else if c.toNat < 0x20 then
    ['\\', 'u', '0', '0', hexDigit (c.toNat / 16), hexDigit (c.toNat % 16)]
  else [c]

/-- How a string is written. One without a text is written as a lone surrogate. -/
def stringText : Option String → List Char
  | some s => '"' :: s.toList.flatMap charText ++ ['"']
  | none => '"' :: '\\' :: ['u', 'd', '8', '0', '0', '"']

mutual

/-- The compact text of a value, as characters. -/
def chars : Json → List Char
  | .null => ['n', 'u', 'l', 'l']
  | .bool true => ['t', 'r', 'u', 'e']
  | .bool false => ['f', 'a', 'l', 's', 'e']
  | .num literal => literal
  | .str s => stringText s
  | .arr [] => ['[', ']']
  | .arr (v :: vs) => '[' :: chars v ++ itemsText vs
  | .obj [] => ['\x7b', '\x7d']
  | .obj ((k, v) :: ms) => '\x7b' :: stringText k ++ ':' :: chars v ++ membersText ms

/-- The items of an array after its first, with the closing bracket. -/
def itemsText : List Json → List Char
  | [] => [']']
  | v :: vs => ',' :: chars v ++ itemsText vs

/-- The members of an object after its first, with the closing brace. -/
def membersText : List (Option String × Json) → List Char
  | [] => ['\x7d']
  | (k, v) :: ms => ',' :: stringText k ++ ':' :: chars v ++ membersText ms

end

/-- The compact text of a value: no blanks, members in their order. -/
def text (j : Json) : String :=
  String.ofList j.chars

end Json

end TurnPool
