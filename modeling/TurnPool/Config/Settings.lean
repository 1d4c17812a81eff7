import TurnPool.Config.Basic
import TurnPool.Text.Basic

/-!
# Configuration from variables

A configuration can be given by variables, each of which overrides one field of the default. The
variables are asked for one after the other, and the first value that cannot be read ends the
matter.

## Main definitions

* `variableStem`: what the name of every variable starts with.
* `Setting`: a variable and the field it overrides.
* `settings`: all of them, in the order in which they are asked for.
* `Config.ofLookupOn`, `Config.ofLookup`: the valid configuration of a source of variables.
* `asked`: the variables that were asked for.
-/

namespace TurnPool

open Text

/-- What the name of every variable starts with. -/
def variableStem : String := "SYNCD_"

/-- A variable that overrides one field. -/
structure Setting where
  /-- The name of the variable. -/
  variableName : String
  /-- The configuration with the field read from the value, white space around it dropped. -/
  put : List Char → Config → Except NumeralFault Config

/-- A setting whose value is a number. -/
def Setting.number (name : String) (put : Nat → Config → Config) : Setting where
  variableName := variableStem ++ name
  put cs c := (readWord cs).map fun n => put n c

/-- Whether a text is a word in letters of either case. -/
def sameLetters (cs : List Char) (word : String) : Bool :=
  cs.map Char.toLower == word.toList

/-- The setting of the limit of a category: a number, or `unlimited` in letters of either case. -/
def Setting.limit (c : Category) : Setting where
  variableName := variableStem ++ "TOKEN_LIMIT_" ++ c.envName
  put cs cfg :=
    if sameLetters cs "unlimited" then
      .ok { cfg with tokens := cfg.tokens.withLimit c none }
    else
      (readWord cs).map fun n => { cfg with tokens := cfg.tokens.withLimit c (some n) }

/-- The settings, in the order in which they are asked for. -/
def settings : List Setting :=
  [.number "LOW_WATERMARK" fun n c => { c with threads.lowWatermark := n },
   .number "HIGH_WATERMARK" fun n c => { c with threads.highWatermark := n },
   .number "MAX_THREADS" fun n c => { c with threads.maxThreads := n },
   .number "SHRINK_DELAY_MS" fun n c => { c with threads.shrinkDelayMs := n },
   .number "MAX_QUEUE_DEPTH" fun n c => { c with threads.maxQueueDepth := n },
   .number "THREAD_STACK_SIZE" fun n c => { c with threads.stackSize := some n },
   .number "BACKOFF_MIN_MS" fun n c => { c with backoff.minDelayMs := n },
   .number "BACKOFF_MAX_MS" fun n c => { c with backoff.maxDelayMs := n }]
  ++ Category.all.map Setting.limit

/-- The configuration with one setting taken from the variables. A variable that is not set
leaves the field as it is. -/
def Setting.apply (s : Setting) (lookup : String → Option String) (c : Config) :
    Except ConfigFault Config :=
  match lookup s.variableName with
  | none => .ok c
  | some raw => (s.put (trim raw.toList) c).mapError (.setting s.variableName raw)

/-- The configuration with some settings taken from the variables. -/
def override (lookup : String → Option String) :
    List Setting → Config → Except ConfigFault Config
  | [], c => .ok c
  | s :: ss, c => (s.apply lookup c).bind (override lookup ss)

/-- The valid configuration that variables give on a host with a number of processors. -/
def Config.ofLookupOn (processors : Nat) (lookup : String → Option String) :
    Except ConfigFault Config :=
  (override lookup settings (.forProcessors processors)).bind Config.checked

/-- The valid configuration that variables give, for a program that keeps to one processor. -/
def Config.ofLookup : (String → Option String) → Except ConfigFault Config :=
  ofLookupOn 1

/-- The names asked for when some settings are taken on top of a configuration: all of them, or
those up to the first whose value cannot be read. -/
def askedOf (lookup : String → Option String) : List Setting → Config → List String
  | [], _ => []
  | s :: ss, c =>
    s.variableName ::
      match s.apply lookup c with
      | .ok c' => askedOf lookup ss c'
      | .error _ => []

/-- The names of the variables that are asked for. -/
def asked (lookup : String → Option String) : List String :=
  askedOf lookup settings default

end TurnPool
