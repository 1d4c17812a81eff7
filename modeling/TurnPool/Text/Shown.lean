import TurnPool.Text.Hidden

/-!
# Diagnostic text of values

The one notation in which records, options, sets and strings appear in diagnostic text:
`Name { field: value }`, `Name(value)`, `Some(7)`, `"quoted"`.

## Main definitions

* `Shown.quoted`: a string between double quotes, with what cannot be seen written by number.
* `Shown.record`, `Shown.openRecord`: a record with all, or with some, of its fields.
* `Shown.call`, `Shown.option`, `Shown.map`, `Shown.set`, `Shown.flag`: the other shapes.
-/

namespace TurnPool.Text.Shown

/-- The digits of `n` in base sixteen. -/
def hexDigits (n : Nat) : List Char :=
  Nat.toDigits 16 n

/-- How one character is written between double quotes. The single quote stays as it is. -/
def quotedChar (c : Char) : List Char :=
  if c = '\x00' then ['\\', '0']
  else if c = '\t' then ['\\', 't']
  else if c = '\n' then ['\\', 'n']
  else if c = '\r' then ['\\', 'r']
  else if c = '"' then ['\\', '"']
  else if c = '\\' then ['\\', '\\']
  else if isHidden c then ['\\', 'u', '\x7b'] ++ hexDigits c.toNat ++ ['\x7d']
  else [c]

/-- A string between double quotes. -/
def quoted (s : String) : String :=
  String.ofList ('"' :: s.toList.flatMap quotedChar ++ ['"'])

/-- The fields of a record, separated by commas. -/
def fieldList (fields : List (String × String)) : String :=
  String.intercalate ", " (fields.map fun f => f.1 ++ ": " ++ f.2)

/-- A record with all of its fields: `Name { a: 1, b: 2 }`. -/
def record (name : String) (fields : List (String × String)) : String :=
  name ++ " \x7b " ++ fieldList fields ++ " \x7d"

/-- A record of which some fields are not shown: two dots end the list. -/
def openRecord (name : String) (fields : List (String × String)) : String :=
  name ++ " \x7b " ++ fieldList fields ++ ", .. \x7d"

/-- A value with one unnamed part. -/
def call (name part : String) : String :=
  name ++ "(" ++ part ++ ")"

/-- A value that may be absent. -/
def option {α : Type} (shown : α → String) : Option α → String
  | none => "None"
  | some a => call "Some" (shown a)

/-- A truth value. -/
def flag : Bool → String
  | true => "true"
  | false => "false"

/-- The pairs of a finite map. -/
def map (pairs : List (String × String)) : String :=
  "\x7b" ++ fieldList pairs ++ "\x7d"

/-- The members of a finite set. -/
def set (members : List String) : String :=
  "\x7b" ++ String.intercalate ", " members ++ "\x7d"

end TurnPool.Text.Shown
