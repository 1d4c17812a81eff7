import TurnPool.Config.Basic
import TurnPool.Json.Decode
import TurnPool.Json.Reader

/-!
# Configuration documents

A configuration as a JSON document. Every section and every field may be missing and then keeps
its default; a section may be written as an array of its fields in their order; an unknown key is
passed over. A `limits` object replaces the limits of all categories, also of those it does not
list.

## Main definitions

* `Config.toJson`: the document of a configuration.
* `Config.ofJson?`: the configuration of a document.
* `Config.ofDocumentOn`, `Config.ofDocument`: the valid configuration of a text, or why there is
  none.
-/

namespace TurnPool

open Json

namespace ThreadConfig

/-- The fields of the section, in their order. -/
def fields : List (RecordField ThreadConfig) :=
  [⟨"low_watermark", fun v c => v.word?.map fun n => { c with lowWatermark := n }⟩,
   ⟨"high_watermark", fun v c => v.word?.map fun n => { c with highWatermark := n }⟩,
   ⟨"max_threads", fun v c => v.word?.map fun n => { c with maxThreads := n }⟩,
   ⟨"shrink_delay_ms", fun v c => v.word?.map fun n => { c with shrinkDelayMs := n }⟩,
   ⟨"thread_stack_size", fun v c => v.wordOrNull?.map fun n => { c with stackSize := n }⟩,
   ⟨"max_queue_depth", fun v c => v.word?.map fun n => { c with maxQueueDepth := n }⟩]

/-- The section as a JSON value. -/
def toJson (c : ThreadConfig) : Json :=
  .ofFields
    [("low_watermark", .ofNat c.lowWatermark), ("high_watermark", .ofNat c.highWatermark),
     ("max_threads", .ofNat c.maxThreads), ("shrink_delay_ms", .ofNat c.shrinkDelayMs),
     ("thread_stack_size", .ofNat? c.stackSize), ("max_queue_depth", .ofNat c.maxQueueDepth)]

/-- The section of a JSON value, on a host with a number of processors. -/
def ofJson? (processors : Nat) : Json → Option ThreadConfig :=
  decodeRecord? fields (.forProcessors processors)

end ThreadConfig

namespace TokenConfig

/-- The limits that the members of an object list. Of two members for one category the later one
counts. -/
def ofLimits? : TokenConfig → List (Option String × Json) → Option TokenConfig
  | t, [] => some t
  | t, (k, v) :: ms => do
    let c ← k.bind Category.ofName?
    let limit ← v.wordOrNull?
    ofLimits? (t.withLimit c limit) ms

/-- The fields of the section. -/
def fields : List (RecordField TokenConfig) :=
  [⟨"limits", fun v _ =>
    match v with
    | .obj ms => ofLimits? .empty ms
    | _ => none⟩]

/-- The section as a JSON value: the listed categories in their order. -/
def toJson (t : TokenConfig) : Json :=
  .ofFields
    [("limits", .ofFields (t.limits.toList.filterMap fun (c, said) =>
      said.map fun limit => (c.name, Json.ofNat? limit)))]

/-- The section of a JSON value. -/
def ofJson? : Json → Option TokenConfig :=
  decodeRecord? fields default

end TokenConfig

namespace BackoffConfig

/-- The fields of the section, in their order. -/
def fields : List (RecordField BackoffConfig) :=
  [⟨"min_delay_ms", fun v b => v.word?.map fun n => { b with minDelayMs := n }⟩,
   ⟨"max_delay_ms", fun v b => v.word?.map fun n => { b with maxDelayMs := n }⟩]

/-- The section as a JSON value. -/
def toJson (b : BackoffConfig) : Json :=
  .ofFields [("min_delay_ms", .ofNat b.minDelayMs), ("max_delay_ms", .ofNat b.maxDelayMs)]

/-- The section of a JSON value. -/
def ofJson? : Json → Option BackoffConfig :=
  decodeRecord? fields default

end BackoffConfig

namespace Config

/-- The sections, in their order, on a host with a number of processors. -/
def fields (processors : Nat) : List (RecordField Config) :=
  [⟨"threads", fun v c =>
    (ThreadConfig.ofJson? processors v).map fun s => { c with threads := s }⟩,
   ⟨"tokens", fun v c => (TokenConfig.ofJson? v).map fun s => { c with tokens := s }⟩,
   ⟨"backoff", fun v c => (BackoffConfig.ofJson? v).map fun s => { c with backoff := s }⟩]

/-- A configuration as a JSON value. -/
def toJson (c : Config) : Json :=
  .ofFields
    [("threads", c.threads.toJson), ("tokens", c.tokens.toJson), ("backoff", c.backoff.toJson)]

/-- The configuration of a JSON value, on a host with a number of processors. -/
def ofJson? (processors : Nat) : Json → Option Config :=
  decodeRecord? (fields processors) (.forProcessors processors)

/-- The document of a configuration. -/
def document (c : Config) : String :=
  c.toJson.text

/-- The valid configuration that a text is the document of, on a host with a number of
processors. -/
def ofDocumentOn (processors : Nat) (text : String) : Except ConfigFault Config :=
  match (Json.parse text).bind (ofJson? processors) with
  | none => .error .malformed
  | some c => c.checked

/-- The valid configuration that a text is the document of, for a program that keeps to one
processor. -/
def ofDocument : String → Except ConfigFault Config :=
  ofDocumentOn 1

end Config

end TurnPool
