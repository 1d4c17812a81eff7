import TurnPool.Config.Environment
import TurnPool.Config.Settings
import TurnPool.Text.Alphanumeric

/-!
# Configuration from the environment

The environment of a process, completed by a file of assignments. A line of the file reads
`KEY = VALUE`, with the word `export` before it if one likes; blank lines and lines that start
with `#` say nothing, and so does what follows a `#` after white space. A value may stand in
single or double quotes, and a quoted value may go on over several lines. Outside single quotes
`$NAME` and `${NAME}` stand for the value of a variable that is known by then. A malformed line ends
the file; the lines before it count.

A variable of the environment wins over the file, also with an empty value, and the first of two
lines for one key wins over the second.

## Main definitions

* `Dotenv.logicalLines`: the lines of a file, where a quoted line break does not end a line.
* `Dotenv.said`: what a line says.
* `Dotenv.load`: an environment takes over what lines say, up to the first malformed one.
* `Config.ofEnvironment`: the valid configuration that an environment and a file give.
-/

namespace TurnPool

open Text

namespace Dotenv

/-! ### Lines -/

/-- What a reader of lines knows about the place it is at. -/
inductive QuoteState where
  /-- Outside quotes, after something other than white space. -/
  | plain
  /-- Outside quotes, after white space: a `#` would start a comment. -/
  | blank
  /-- After a backslash outside quotes. -/
  | escape
  /-- Between quotes of the given kind. -/
  | quoted (mark : Char)
  /-- After a backslash between quotes of the given kind. -/
  | quotedEscape (mark : Char)
deriving DecidableEq, Repr

/-- The place after a character that opens no comment. -/
def QuoteState.next (p : QuoteState) (c : Char) : QuoteState :=
  match p with
  | .plain | .blank =>
    if c = '\\' then .escape
    else if c = '"' || c = '\'' then .quoted c
    else if p = .plain ∧ isBlank c ∧ c ≠ '\n' ∧ c ≠ '\r' then .blank
    else .plain
  | .escape => .plain
  | .quoted mark =>
    if c = '\\' then .quotedEscape mark else if c = mark then .plain else .quoted mark
  | .quotedEscape mark => .quoted mark

/-- Walk over a line. The result is the place at its end, or what stands before a comment. -/
def walk : QuoteState → List Char → List Char → QuoteState ⊕ List Char
  | p, _, [] => .inl p
  | p, before, c :: cs =>
    if p = .blank ∧ c = '#' then .inr before.reverse
    else walk (p.next c) (c :: before) cs

/-- Split a text after each line feed. -/
def rawLines : List Char → List (List Char)
  | [] => []
  | c :: cs =>
    if c = '\n' then [c] :: rawLines cs
    else
      match rawLines cs with
      | [] => [[c]]
      | l :: ls => (c :: l) :: ls

/-- A line without its end, a line feed with or without a carriage return before it. -/
def chomp (line : List Char) : List Char :=
  match line.reverse with
  | '\n' :: '\r' :: r => r.reverse
  | '\n' :: r => r.reverse
  | _ => line

/-- The logical lines made of `held`, which is at place `p` and goes on, and the raw lines after
it. A text that ends inside a line which is not complete ends in a malformed line, `none`. -/
def logicalLinesFrom : QuoteState → List Char → List (List Char) → List (Option (List Char))
  | p, _, [] => if p = .plain then [] else [none]
  | p, held, l :: ls =>
    if (trimStart (held ++ l)).head? = some '#' then some [] :: logicalLinesFrom .plain [] ls
    else
      match walk p [] l with
      | .inr before => some (held ++ before) :: logicalLinesFrom .plain [] ls
      | .inl .plain => some (chomp (held ++ l)) :: logicalLinesFrom .plain [] ls
      | .inl p' => logicalLinesFrom p' (held ++ l) ls

/-- The logical lines of a file. A byte order mark at its start is dropped. -/
def logicalLines (text : List Char) : List (Option (List Char)) :=
  let body := match text with
    | '\ufeff' :: cs => cs
    | cs => cs
  logicalLinesFrom .plain [] (rawLines body)

/-! ### Assignments -/

/-- Whether a key may start with a character. -/
def startsKey (c : Char) : Bool :=
  ('a' ≤ c && c ≤ 'z') || ('A' ≤ c && c ≤ 'Z') || c = '_'

/-- Whether a key may go on with a character. -/
def continuesKey (c : Char) : Bool :=
  startsKey c || ('0' ≤ c && c ≤ '9') || c = '.'

/-- The key at the start of a text, and the rest. -/
def key? : List Char → Option (List Char × List Char)
  | [] => none
  | c :: cs =>
    if startsKey c then
      some ((c :: cs).takeWhile continuesKey, (c :: cs).dropWhile continuesKey)
    else none

/-- What follows an equals sign. -/
def afterEquals? : List Char → Option (List Char)
  | '=' :: cs => some cs
  | _ => none

/-- The character that stands for an escaped one. -/
def escaped? (c : Char) : Option Char :=
  if c = 'n' then some '\n'
  else if c = '\\' || c = '\'' || c = '"' || c = '$' || c = ' ' then some c
  else none

/-- What the reader of a value is inside of. A reference may stand by itself or in double quotes;
what has been read of its name is kept, latest first. -/
inductive Inside where
  /-- Nothing. -/
  | open
  /-- Single quotes. -/
  | single
  /-- Double quotes. -/
  | double
  /-- White space after the value, where only a comment may follow. -/
  | done
  /-- The name of a reference, which ends before the first character that is not alphanumeric. -/
  | name (inQuotes : Bool) (before : List Char)
  /-- The name of a reference in braces. -/
  | braces (inQuotes : Bool) (before : List Char)
deriving DecidableEq, Repr

/-- Where a reference stands. -/
def around (inQuotes : Bool) : Inside :=
  if inQuotes then .double else .open

/-- What a reference to a name stands for. A variable that is not known stands for nothing. -/
def referred (known : String → Option String) (before : List Char) : List Char :=
  ((known (String.ofList before.reverse)).getD "").toList

/-- The value that a text spells, where `known` are the variables it may refer to. The character
after the name of a reference stands for itself, unless it begins another reference. -/
def value? (known : String → Option String) : Inside → List Char → Option (List Char)
  | .open, [] | .done, [] => some []
  | .single, [] | .double, [] | .braces _ _, [] => none
  | .name inQuotes before, [] => if inQuotes then none else some (referred known before)
  | .done, c :: cs =>
    if c = ' ' || c = '\t' then value? known .done cs else if c = '#' then some [] else none
  | .single, c :: cs =>
    if c = '\'' then value? known .open cs else (value? known .single cs).map (c :: ·)
  | .double, '\\' :: e :: cs => do
    let c ← escaped? e
    (value? known .double cs).map (c :: ·)
  | .double, c :: cs =>
    if c = '$' then value? known (.name true []) cs
    else if c = '"' then value? known .open cs
    else (value? known .double cs).map (c :: ·)
  | .open, '\\' :: e :: cs => do
    let c ← escaped? e
    (value? known .open cs).map (c :: ·)
  | .open, c :: cs =>
    if c = '$' then value? known (.name false []) cs
    else if c = '\'' then value? known .single cs
    else if c = '"' then value? known .double cs
    else if c = ' ' || c = '\t' then value? known .done cs
    else if c = '\\' then some []
    else (value? known .open cs).map (c :: ·)
  | .name inQuotes before, c :: cs =>
    if isAlphanumeric c then value? known (.name inQuotes (c :: before)) cs
    else if c = '\x7b' && before.isEmpty then value? known (.braces inQuotes []) cs
    else if c = '$' then
      (value? known (.name inQuotes []) cs).map (referred known before ++ ·)
    else (value? known (around inQuotes) cs).map (referred known before ++ c :: ·)
  | .braces inQuotes before, c :: cs =>
    if c = '\x7d' then
      (value? known (around inQuotes) cs).map (referred known before ++ ·)
    else value? known (.braces inQuotes (c :: before)) cs

/-- What a line says. -/
inductive Said where
  /-- Nothing. -/
  | nothing
  /-- A key has a value. -/
  | assigned (key value : String)
  /-- The line is malformed. -/
  | malformed
deriving DecidableEq, Repr

/-- The key of an assignment and what follows its equals sign. The word `export` before a key is
passed over, but it is a key itself if an equals sign follows it. -/
def keyAndRest? (cs : List Char) : Option (List Char × List Char) := do
  let (key, r) ← key? cs
  let r := trimStart r
  match afterEquals? r with
  | some r' => some (key, r')
  | none =>
    if key = "export".toList then
      let (key', r') ← key? r
      let r'' ← afterEquals? (trimStart r')
      some (key', r'')
    else none

/-- What a logical line says, where `known` are the variables it may refer to. -/
def said (known : String → Option String) (line : List Char) : Said :=
  let cs := trimStart (trimEnd line)
  if cs.isEmpty || cs.head? = some '#' then .nothing
  else
    match keyAndRest? cs with
    | none => .malformed
    | some (key, rest) =>
      let cs := trimStart rest
      if cs.isEmpty || cs.head? = some '#' then .assigned (String.ofList key) ""
      else
        match value? known .open cs with
        | none => .malformed
        | some v => .assigned (String.ofList key) (String.ofList v)

/-- The assignments on lines are taken over by an environment, one after the other, up to the first
malformed line. So a value may refer to the variables of the environment and to those of the lines
before it. -/
def load : Environment → List (Option (List Char)) → Except Unsettable Environment
  | env, [] | env, none :: _ => .ok env
  | env, some l :: ls =>
    match said env.text? l with
    | .nothing => load env ls
    | .malformed => .ok env
    | .assigned k v => do load (← env.adopt k v) ls

end Dotenv

/-- An environment completed by the assignments of a file, if it can take them over. -/
def Environment.completed (env : Environment) (file : String) : Except Unsettable Environment :=
  Dotenv.load env (Dotenv.logicalLines file.toList)

/-- The valid configuration that an environment and the text of a file give, if the environment can
take over what the file says. -/
def Config.ofEnvironment (env : Environment) (file : Option String) :
    Except Unsettable (Except ConfigFault Config) :=
  ((file.map env.completed).getD (.ok env)).map fun env => Config.ofLookup env.text?

end TurnPool
