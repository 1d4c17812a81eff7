import TurnPool.Fault

/-!
# Failures of tasks

A task fails with a base cause, a `Fault` of the pool or any other error, around which callers
may have put layers: notes that give context, and errors of their own that name the failure so far
as their source. Each layer makes a level of its own type, and none of these types is `Fault`: a
fault that merely serves as the text of a note is not a level of its own. The failure is fatal when
one of its levels is listed as a fatal `Fault`.

An error that names the failure so far as its source may hold it as it is, or in a box. What a box
takes in is listed by its text only, so that a base cause directly inside a box is no longer listed
as a `Fault`.

## Main definitions

* `Failure`: a base cause and the layers around it.
* `Failure.levels`: every level by its own type, outermost first.
* `Failure.listed`: the levels as whoever walks through them finds them.
* `Failure.isFatal`: whether one of the levels is listed as a fatal fault.
* `Failure.wording`: the texts of all levels, outermost first.
-/

namespace TurnPool

/-- The base cause of a failure. -/
inductive Cause where
  /-- A fault of the pool. -/
  | fault (f : Fault)
  /-- Any other error, known by its text. -/
  | other (text : String)
deriving DecidableEq, Repr

/-- What is put around a failure. -/
inductive Layer where
  /-- A note in words. -/
  | note (text : String)
  /-- A note whose text is that of a fault. -/
  | faultNote (f : Fault)
  /-- An error of another type whose source is a box with the failure so far. -/
  | wrapper (text : String)
  /-- An error of another type whose source is the failure so far, as it is. -/
  | holder (text : String)
deriving DecidableEq, Repr

/-- A failure: its base cause, and the layers around it, innermost first. -/
structure Failure where
  /-- The base cause. -/
  base : Cause
  /-- The layers, innermost first. -/
  layers : List Layer
deriving DecidableEq, Repr

/-- One level of a failure. -/
inductive Level where
  /-- An error of type `Fault`. -/
  | fault (f : Fault)
  /-- An error or a note of any other type, which shows a text. -/
  | other (text : String)
deriving DecidableEq, Repr

namespace Level

/-- The text of a level. -/
def text : Level → String
  | .fault f => f.message
  | .other s => s

/-- Whether a level is a fatal fault. -/
def isFatal : Level → Bool
  | .fault f => f.isFatal
  | .other _ => false

/-- A level in a box: only its text is listed. -/
def boxed (l : Level) : Level := .other l.text

end Level

/-- The level that a base cause makes. -/
def Cause.level : Cause → Level
  | .fault f => .fault f
  | .other s => .other s

namespace Layer

/-- The text of a layer. -/
def text : Layer → String
  | .note s | .wrapper s | .holder s => s
  | .faultNote f => f.message

/-- The level that a layer makes, which is never of type `Fault`. -/
def level (l : Layer) : Level := .other l.text

/-- Whether a layer takes what it is put around into a box. -/
def boxes : Layer → Bool
  | .wrapper _ => true
  | _ => false

end Layer

namespace Failure

/-- A failure without layers whose cause is known by its text. -/
def ofText (s : String) : Failure := ⟨.other s, []⟩

/-- Every level of a failure by its own type, outermost first. -/
def levels (e : Failure) : List Level :=
  e.layers.reverse.map Layer.level ++ [e.base.level]

/-- Whether the base cause is in a box: the layer directly around it puts it there. -/
def isBoxed (e : Failure) : Bool := e.layers.head?.any Layer.boxes

/-- The levels as whoever walks through them finds them, outermost first: a base cause in a box is
listed by its text only. -/
def listed (e : Failure) : List Level :=
  e.layers.reverse.map Layer.level ++ [if e.isBoxed then e.base.level.boxed else e.base.level]

/-- The texts of all levels, outermost first. -/
def chain (e : Failure) : List String :=
  e.levels.map Level.text

/-- The text of the outermost level. -/
def outermost (e : Failure) : String :=
  e.chain.headD ""

/-- The texts of all levels in one line. -/
def wording (e : Failure) : String :=
  String.intercalate ": " e.chain

/-- Whether a failure must not be retried: some level of it is listed as a fatal fault. -/
def isFatal (e : Failure) : Bool :=
  e.listed.any Level.isFatal

end Failure

end TurnPool
