import TurnPool.Category
import TurnPool.Text.Numeral
import TurnPool.Time

/-!
# Configuration

The settings of a pool in three sections: its worker threads and its queue, the limits of its
tokens, and the bounds of the retry delay. A configuration can be written down whatever its
numbers are; `validate` tells whether a pool can be built from it, and names the first fault
otherwise.

## Main definitions

* `ThreadConfig`, `TokenConfig`, `BackoffConfig`: the sections, with their defaults.
* `Config`: the three of them.
* `SectionFault`, `ConfigFault`: why a configuration is refused.
* `Config.validate`: the first fault, in the order of the sections and of their fields.
-/

namespace TurnPool

open Text

/-! ### Why a configuration is refused -/

/-- A section of a configuration. -/
inductive Section where
  | threads
  | tokens
  | backoff
deriving DecidableEq, Repr

/-- What is wrong inside a section. -/
inductive SectionFault where
  | lowIsZero
  | highNotAboveLow
  | maxBelowHigh
  | depthIsZero
  | stackIsZero
  | limitIsZero (category : Category)
  | minDelayIsZero
  | maxDelayBelowMin
deriving DecidableEq, Repr

/-- Why a configuration as a whole is refused. -/
inductive ConfigFault where
  /-- The text is not a configuration. -/
  | malformed
  /-- The value of a variable is not a number of one word. -/
  | setting (variableName raw : String) (why : NumeralFault)
  /-- A section is at fault. -/
  | part (which : Section) (why : SectionFault)
deriving DecidableEq, Repr

/-! ### Worker threads -/

/-- The size of the pool and the limit of its queue. -/
structure ThreadConfig where
  /-- The number of unpaused workers the pool tries to keep. -/
  lowWatermark : Nat
  /-- The number of unpaused workers at which the pool shrinks back to `lowWatermark`. -/
  highWatermark : Nat
  /-- The most workers there may be. -/
  maxThreads : Nat
  /-- How long a quit waits before it is delivered, in milliseconds. -/
  shrinkDelayMs : Nat
  /-- The stack size of a worker in bytes, if it is not left to the platform. -/
  stackSize : Option Nat
  /-- How many events may be ready, counting those submitted without a delay. -/
  maxQueueDepth : Nat
deriving DecidableEq, Repr

namespace ThreadConfig

/-- The default on a host with a number of processors. -/
def forProcessors (n : Nat) : ThreadConfig :=
  let low := max n 2
  { lowWatermark := low
    highWatermark := low * 2
    maxThreads := max (low * 8) 64
    shrinkDelayMs := 5000
    stackSize := none
    maxQueueDepth := 10000 }

/-- The default for a program that keeps to one processor. -/
instance : Inhabited ThreadConfig := ⟨forProcessors 1⟩

/-- Set both watermarks. -/
def withWatermarks (low high : Nat) (c : ThreadConfig) : ThreadConfig :=
  { c with lowWatermark := low, highWatermark := high }

/-- Set how long a quit waits, as a span. -/
def withShrinkDelay (delay : Span) (c : ThreadConfig) : ThreadConfig :=
  { c with shrinkDelayMs := delay.wholeMillis }

/-- The first fault of the section. -/
def validate (c : ThreadConfig) : Except SectionFault Unit :=
  if c.lowWatermark = 0 then .error .lowIsZero
  else if c.highWatermark ≤ c.lowWatermark then .error .highNotAboveLow
  else if c.maxThreads < c.highWatermark then .error .maxBelowHigh
  else if c.maxQueueDepth = 0 then .error .depthIsZero
  else if c.stackSize = some 0 then .error .stackIsZero
  else .ok ()

end ThreadConfig

/-! ### Token limits -/

/-- The limits of the categories. A category may be missing, be listed without a limit, or be
listed with one; the first two mean the same to the pool. -/
structure TokenConfig where
  /-- What is said about each category. -/
  limits : PerCategory (Option (Option Nat))
deriving DecidableEq, Repr

namespace TokenConfig

/-- The limits of a configuration that sets none. -/
instance : Inhabited TokenConfig :=
  ⟨⟨.ofFn fun
    | .client => some (some 8)
    | .server => some (some 4)
    | .upload | .housekeeping | .userResolution => some (some 2)
    | .unlimited => some none⟩⟩

/-- The configuration that lists no category. -/
def empty : TokenConfig := ⟨.const none⟩

/-- The limit of a category, if it has one. -/
def limit (t : TokenConfig) (c : Category) : Option Nat :=
  (t.limits.get c).getD none

/-- Set what is said about one category. -/
def withLimit (t : TokenConfig) (c : Category) (limit : Option Nat) : TokenConfig :=
  ⟨t.limits.set c (some limit)⟩

/-- The limit of every category. -/
def table (t : TokenConfig) : PerCategory (Option Nat) :=
  .ofFn t.limit

/-- The first category whose limit is zero. -/
def validate (t : TokenConfig) : Except SectionFault Unit :=
  match Category.all.find? fun c => t.limit c = some 0 with
  | some c => .error (.limitIsZero c)
  | none => .ok ()

end TokenConfig

/-! ### Retry delays -/

/-- The bounds of the retry delay, in milliseconds. -/
structure BackoffConfig where
  /-- The first delay. -/
  minDelayMs : Nat
  /-- The greatest delay. -/
  maxDelayMs : Nat
deriving DecidableEq, Repr

namespace BackoffConfig

/-- The bounds of a configuration that sets none. -/
instance : Inhabited BackoffConfig := ⟨⟨1000, 60000⟩⟩

/-- The bounds given as spans. -/
def ofSpans (min max : Span) : BackoffConfig := ⟨min.wholeMillis, max.wholeMillis⟩

/-- The first fault of the section. -/
def validate (b : BackoffConfig) : Except SectionFault Unit :=
  if b.minDelayMs = 0 then .error .minDelayIsZero
  else if b.maxDelayMs < b.minDelayMs then .error .maxDelayBelowMin
  else .ok ()

end BackoffConfig

/-! ### The whole -/

/-- The settings of a pool. -/
structure Config where
  /-- Worker threads and queue. -/
  threads : ThreadConfig
  /-- Token limits. -/
  tokens : TokenConfig
  /-- Retry delays. -/
  backoff : BackoffConfig
deriving DecidableEq, Repr

namespace Config

/-- The default on a host with a number of processors. -/
def forProcessors (n : Nat) : Config :=
  { threads := .forProcessors n, tokens := default, backoff := default }

/-- The default for a program that keeps to one processor. -/
instance : Inhabited Config := ⟨forProcessors 1⟩

/-- The first fault, with the section it is in. -/
def validate (c : Config) : Except ConfigFault Unit := do
  c.threads.validate.mapError (.part .threads)
  c.tokens.validate.mapError (.part .tokens)
  c.backoff.validate.mapError (.part .backoff)

/-- A configuration that passes `validate`, or its first fault. -/
def checked (c : Config) : Except ConfigFault Config :=
  c.validate.map fun _ => c

end Config

end TurnPool
