import TurnPool.Text.Shown

/-!
# The environment of a process

An environment is a list of entries `KEY=VALUE`. Whoever asks for a name gets what follows the name
and an equals sign in the first entry that begins with both. A name may hold an equals sign itself
and reach into a value that way: the entry `A=B=C` answers `B=C` for `A`, and `C` for `A=B`.

Values are sequences of bytes. A value that is not text counts as not set.

## Main definitions

* `Environment`: an environment.
* `Environment.text?`: the answer for a name, if it is text.
* `Environment.set`: a variable gets a value.
* `Environment.adopt`: a variable gets a value unless it is set.
-/

namespace TurnPool

open Text

/-- The entries of an environment: keys and values. -/
abbrev Environment := List (String × ByteArray)

/-- The bytes of an entry. -/
def entryBytes (key : String) (value : List UInt8) : List UInt8 :=
  key.toUTF8.data.toList ++ '='.toUInt8 :: value

/-- What is left of some bytes after others that they begin with. -/
def bytesAfter? : List UInt8 → List UInt8 → Option (List UInt8)
  | [], bs => some bs
  | _ :: _, [] => none
  | a :: as, b :: bs => if a = b then bytesAfter? as bs else none

/-- An assignment that no environment can take over, for its value holds a null character. -/
structure Unsettable where
  /-- The key. -/
  key : String
  /-- The value. -/
  value : String
deriving DecidableEq, Repr

namespace Unsettable

/-- A string between double quotes, as `Shown.quoted` writes it but for single quotes, which are
escaped too. -/
def quoted (s : String) : String :=
  let chars := s.toList.flatMap fun c => if c = '\'' then ['\\', c] else Shown.quotedChar c
  String.ofList ('"' :: chars ++ ['"'])

/-- The wording of the refusal. -/
def message (u : Unsettable) : String :=
  "failed to set environment variable `" ++ quoted u.key ++ "` to `" ++ quoted u.value ++
    "`: file name contained an unexpected NUL byte"

end Unsettable

namespace Environment

/-- The answer for a name. The empty name is never set. -/
def bytes? (env : Environment) (name : String) : Option (List UInt8) :=
  if name.isEmpty then none
  else env.findSome? fun (k, v) => bytesAfter? (entryBytes name []) (entryBytes k v.data.toList)

/-- The answer for a name, if it is text. -/
def text? (env : Environment) (name : String) : Option String :=
  (env.bytes? name).bind fun bs => String.fromUTF8? ⟨bs.toArray⟩

/-- A variable gets a value. -/
def set (key value : String) (env : Environment) : Environment :=
  env.filter (·.1 ≠ key) ++ [(key, value.toUTF8)]

/-- A variable gets a value unless it is set. -/
def adopt (key value : String) (env : Environment) : Except Unsettable Environment :=
  if (env.text? key).isSome then .ok env
  else if value.toList.contains '\x00' then .error ⟨key, value⟩
  else .ok (env.set key value)

/-! ### Basic facts -/

/-- What is set wins. -/
theorem adopt_of_isSome {env : Environment} {key : String} (value : String)
    (h : (env.text? key).isSome) : env.adopt key value = .ok env := by
  rw [adopt, if_pos h]

/-- What was put in front is found there. -/
theorem bytesAfter?_append (as bs : List UInt8) : bytesAfter? as (as ++ bs) = some bs := by
  induction as with
  | nil => rfl
  | cons a as ih => simp [bytesAfter?, ih]

/-- An entry answers for its own key. -/
theorem bytes?_cons_self {key : String} (value : ByteArray) (env : Environment)
    (h : key.isEmpty = false) :
    bytes? ((key, value) :: env) key = some value.data.toList := by
  have hp : bytesAfter? (entryBytes key []) (entryBytes key value.data.toList)
      = some value.data.toList := by
    have := bytesAfter?_append (entryBytes key []) value.data.toList
    simpa [entryBytes] using this
  simp [bytes?, h, hp]

end Environment

end TurnPool
