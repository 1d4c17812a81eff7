import TurnPool.Config.Basic
import TurnPool.Fault

/-!
# What is said of a configuration

The texts that have to do with a configuration: the wording of its faults, for whoever is refused a
pool, the diagnostic text of its sections, and the filter that decides which lines are logged.

## Main definitions

* `SectionFault.message`, `ConfigFault.message`: the wording of a fault, without and with the name
  of the section that it is in.
* `SectionFault.fault`, `ConfigFault.fault`: the same as a `Fault` of the pool.
* `ThreadConfig.shown`, `BackoffConfig.shown`: the diagnostic text of a section.
* `logFilter`: the filter of log lines that is used when none is given.
-/

namespace TurnPool

open Text

/-! ### Why a configuration is refused -/

/-- The name of a section. -/
def Section.name : Section → String
  | .threads => "threads"
  | .tokens => "tokens"
  | .backoff => "backoff"

/-- The wording of a fault inside a section. -/
def SectionFault.message : SectionFault → String
  | .lowIsZero => "low_watermark must be greater than 0"
  | .highNotAboveLow => "high_watermark must be greater than low_watermark"
  | .maxBelowHigh => "max_threads must be at least high_watermark"
  | .depthIsZero => "max_queue_depth must be greater than 0"
  | .stackIsZero => "thread_stack_size must be greater than 0"
  | .limitIsZero c => "token limit for `" ++ c.label ++ "` must be greater than 0"
  | .minDelayIsZero => "min_delay_ms must be greater than 0"
  | .maxDelayBelowMin => "max_delay_ms must be at least min_delay_ms"

/-- The wording of a refusal. -/
def ConfigFault.message : ConfigFault → String
  | .malformed => "parse error"
  | .setting v raw why => v ++ "=" ++ raw ++ ": " ++ why.message
  | .part s why => s.name ++ ": " ++ why.message

/-- A refusal as a fault of the pool. -/
def ConfigFault.fault (e : ConfigFault) : Fault := .invalidConfig e.message

/-- A fault inside a section, told without the name of the section, as a fault of the pool. -/
def SectionFault.fault (e : SectionFault) : Fault := .invalidConfig e.message

/-! ### Diagnostic text -/

/-- The diagnostic text of the settings of the threads. -/
def ThreadConfig.shown (c : ThreadConfig) : String :=
  Shown.record "ThreadControlConfig"
    [("low_watermark", toString c.lowWatermark), ("high_watermark", toString c.highWatermark),
     ("max_threads", toString c.maxThreads), ("shrink_delay_ms", toString c.shrinkDelayMs),
     ("thread_stack_size", Shown.option toString c.stackSize),
     ("max_queue_depth", toString c.maxQueueDepth)]

/-- The diagnostic text of the bounds of the retry delay. -/
def BackoffConfig.shown (b : BackoffConfig) : String :=
  Shown.record "BackoffConfig"
    [("min_delay_ms", toString b.minDelayMs), ("max_delay_ms", toString b.maxDelayMs)]

/-- The filter of log lines used when none is given: events in the life of the pool and above. -/
def logFilter : String := "syncd_core=info"

end TurnPool
