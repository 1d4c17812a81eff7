import TurnPool.Json.Value

/-!
# Reading JSON

A strict reader of JSON texts: one value with blanks around it, and nothing after that. Nesting
may be as deep as the text is long, numbers may have any size, and an escape may name half of a
surrogate pair; whether such a value is any use is for those to say who decode it.

## Main definitions

* `Json.Reader.number`, `Json.Reader.string`, `Json.Reader.value`: the grammar, each giving what
  it read and the rest.
* `Json.parse`: the value of a whole text.
-/

namespace TurnPool.Json

namespace Reader

/-- The characters that may stand between tokens. -/
def isSpace (c : Char) : Bool :=
  c = ' ' || c = '\t' || c = '\n' || c = '\r'

/-- The text without the blanks at its start. -/
def skip (cs : List Char) : List Char :=
  cs.dropWhile isSpace

/-- Whether a character is a decimal digit. -/
def isDigit (c : Char) : Bool :=
  '0' ≤ c && c ≤ '9'

/-! ### Numbers -/

/-- One digit or more. -/
def digits (cs : List Char) : Option (List Char × List Char) :=
  match cs.takeWhile isDigit with
  | [] => none
  | ds => some (ds, cs.dropWhile isDigit)

/-- The part of a number before the point: a lone zero, or digits that start with no zero. -/
def whole : List Char → Option (List Char × List Char)
  | '0' :: cs => some (['0'], cs)
  | cs => digits cs

/-- The part of a number from the point on, which may be missing. -/
def fraction : List Char → Option (List Char × List Char)
  | '.' :: cs => (digits cs).map fun (ds, r) => ('.' :: ds, r)
  | cs => some ([], cs)

/-- The sign of an exponent, which may be missing. -/
def exponentSign : List Char → List Char × List Char
  | '+' :: cs => (['+'], cs)
  | '-' :: cs => (['-'], cs)
  | cs => ([], cs)

/-- The exponent of a number, which may be missing. -/
def exponent : List Char → Option (List Char × List Char)
  | c :: cs =>
    if c = 'e' || c = 'E' then
      let (sign, r) := exponentSign cs
      (digits r).map fun (ds, r') => (c :: sign ++ ds, r')
    else some ([], c :: cs)
  | [] => some ([], [])

/-- A number without its sign. -/
def unsigned (cs : List Char) : Option (List Char × List Char) := do
  let (w, r₁) ← whole cs
  let (f, r₂) ← fraction r₁
  let (e, r₃) ← exponent r₂
  some (w ++ f ++ e, r₃)

/-- A number, as it is written. -/
def number : List Char → Option (List Char × List Char)
  | '-' :: cs => (unsigned cs).map fun (ds, r) => ('-' :: ds, r)
  | cs => unsigned cs

/-! ### Strings -/

/-- A piece of a string: a character, or one 16-bit unit written as an escape. -/
inductive Piece where
  /-- A character that stands for itself or is escaped by a letter. -/
  | char (c : Char)
  /-- A unit given by its number. -/
  | unit (n : Nat)

/-- The value of a hexadecimal digit of either case. -/
def hex? (c : Char) : Option Nat :=
  if '0' ≤ c ∧ c ≤ '9' then some (c.toNat - '0'.toNat)
  else if 'a' ≤ c ∧ c ≤ 'f' then some (c.toNat - 'a'.toNat + 10)
  else if 'A' ≤ c ∧ c ≤ 'F' then some (c.toNat - 'A'.toNat + 10)
  else none

/-- The value of four hexadecimal digits. -/
def hex4? (a b c d : Char) : Option Nat := do
  let a ← hex? a
  let b ← hex? b
  let c ← hex? c
  let d ← hex? d
  some (((a * 16 + b) * 16 + c) * 16 + d)

/-- The character that a letter after a backslash stands for. -/
def escape? : Char → Option Char
  | '"' => some '"'
  | '\\' => some '\\'
  | '/' => some '/'
  | 'b' => some '\x08'
  | 'f' => some '\x0c'
  | 'n' => some '\n'
  | 'r' => some '\r'
  | 't' => some '\t'
  | _ => none

/-- The pieces of a string up to its closing quote. Control characters must be escaped. -/
def pieces : List Char → Option (List Piece × List Char)
  | [] => none
  | '"' :: r => some ([], r)
  | '\\' :: 'u' :: a :: b :: c :: d :: r => do
    let n ← hex4? a b c d
    let (ps, r') ← pieces r
    some (.unit n :: ps, r')
  | '\\' :: e :: r => do
    let c ← escape? e
    let (ps, r') ← pieces r
    some (.char c :: ps, r')
  | c :: r =>
    if c.toNat < 0x20 then none
    else (pieces r).map fun (ps, r') => (.char c :: ps, r')

/-- Whether a unit is the first half of a surrogate pair. -/
def isHigh (n : Nat) : Bool := 0xD800 ≤ n && n ≤ 0xDBFF

/-- Whether a unit is the second half of a surrogate pair. -/
def isLow (n : Nat) : Bool := 0xDC00 ≤ n && n ≤ 0xDFFF

/-- The characters that pieces make: two halves of a surrogate pair make one, and a half without
the other makes none. -/
def assemble : List Piece → Option (List Char)
  | [] => some []
  | .char c :: ps => (assemble ps).map (c :: ·)
  | .unit n :: .unit m :: ps =>
    if isHigh n then
      if isLow m then
        (assemble ps).map (Char.ofNat (0x10000 + (n - 0xD800) * 0x400 + (m - 0xDC00)) :: ·)
      else none
    else if isLow n then none
    else (assemble (.unit m :: ps)).map (Char.ofNat n :: ·)
  | .unit n :: ps =>
    if isHigh n || isLow n then none else (assemble ps).map (Char.ofNat n :: ·)

/-- A string after its opening quote. -/
def string (cs : List Char) : Option (Option String × List Char) :=
  (pieces cs).map fun (ps, r) => ((assemble ps).map String.ofList, r)

/-! ### Values -/

mutual

/-- A value with the blanks before it. The first argument bounds the number of values and
brackets that may be opened. -/
def value : Nat → List Char → Option (Json × List Char)
  | 0, _ => none
  | n + 1, cs =>
    match skip cs with
    | 'n' :: 'u' :: 'l' :: 'l' :: r => some (.null, r)
    | 't' :: 'r' :: 'u' :: 'e' :: r => some (.bool true, r)
    | 'f' :: 'a' :: 'l' :: 's' :: 'e' :: r => some (.bool false, r)
    | '"' :: r => (string r).map fun (s, r') => (.str s, r')
    | '[' :: r =>
      match skip r with
      | ']' :: r' => some (.arr [], r')
      | _ => (items n r).map fun (vs, r') => (.arr vs, r')
    | '\x7b' :: r =>
      match skip r with
      | '\x7d' :: r' => some (.obj [], r')
      | _ => (members n r).map fun (ms, r') => (.obj ms, r')
    | cs' => (number cs').map fun (l, r) => (.num l, r)

/-- One item of an array or more, with the closing bracket. -/
def items : Nat → List Char → Option (List Json × List Char)
  | 0, _ => none
  | n + 1, cs => do
    let (v, r) ← value n cs
    match skip r with
    | ',' :: r' => (items n r').map fun (vs, r'') => (v :: vs, r'')
    | ']' :: r' => some ([v], r')
    | _ => none

/-- One member of an object or more, with the closing brace. -/
def members : Nat → List Char → Option (List (Option String × Json) × List Char)
  | 0, _ => none
  | n + 1, cs =>
    match skip cs with
    | '"' :: r => do
      let (k, r₁) ← string r
      match skip r₁ with
      | ':' :: r₂ => do
        let (v, r₃) ← value n r₂
        match skip r₃ with
        | ',' :: r₄ => (members n r₄).map fun (ms, r₅) => ((k, v) :: ms, r₅)
        | '\x7d' :: r₄ => some ([(k, v)], r₄)
        | _ => none
      | _ => none
    | _ => none

end

end Reader

/-- The value of a whole text, if it is the text of one value. -/
def parse (s : String) : Option Json :=
  match Reader.value (2 * s.toList.length + 2) s.toList with
  | some (v, r) => if Reader.skip r = [] then some v else none
  | none => none

end TurnPool.Json
