import TurnPool.Config.Document
import TurnPool.Proofs.Decoding

/-!
# Settings that are given

A configuration is hardly ever given as a whole. Some settings are given, and the others keep what
they are by default. `Overrides` are the settings that are given, `Overrides.apply` is a
configuration with them, and `Overrides.IsDocument` says of a JSON value that it gives just these,
in whatever order.

A list of limits is given as a whole: a category that is not in the list has no limit, whatever the
default says. In the same way the size of the stack may be given as none.

## Main results

* `Overrides.ofLimits?_of_isObject`: a list of limits is read in any order.
* `Overrides.ofJson?_of_isDocument`: a document **gives its settings over the default**, and nothing
  else.
-/

namespace TurnPool

open Json

/-! ### Numbers that fit into a word -/

/-- The numbers of the section fit into a word. -/
structure ThreadConfig.InWords (c : ThreadConfig) : Prop where
  lowWatermark : c.lowWatermark ≤ wordMax
  highWatermark : c.highWatermark ≤ wordMax
  maxThreads : c.maxThreads ≤ wordMax
  shrinkDelayMs : c.shrinkDelayMs ≤ wordMax
  stackSize : ∀ n ∈ c.stackSize, n ≤ wordMax
  maxQueueDepth : c.maxQueueDepth ≤ wordMax

/-- The limits fit into a word. -/
def TokenConfig.InWords (t : TokenConfig) : Prop :=
  ∀ c, ∀ limit ∈ t.limits.get c, ∀ n ∈ limit, n ≤ wordMax

/-- The numbers of the section fit into a word. -/
structure BackoffConfig.InWords (b : BackoffConfig) : Prop where
  minDelayMs : b.minDelayMs ≤ wordMax
  maxDelayMs : b.maxDelayMs ≤ wordMax

/-- The numbers of a configuration **fit into a word**. -/
structure Config.InWords (c : Config) : Prop where
  threads : c.threads.InWords
  tokens : c.tokens.InWords
  backoff : c.backoff.InWords

/-! ### Settings -/

/-- Settings some of which are given. -/
structure Overrides where
  /-- The low watermark. -/
  lowWatermark : Option Nat
  /-- The high watermark. -/
  highWatermark : Option Nat
  /-- The most workers there may be. -/
  maxThreads : Option Nat
  /-- How long a quit waits. -/
  shrinkDelayMs : Option Nat
  /-- The stack size of a worker, or that it is left to the platform. -/
  stackSize : Option (Option Nat)
  /-- How many events may be ready. -/
  maxQueueDepth : Option Nat
  /-- What is said about each category. -/
  limits : Option (PerCategory (Option (Option Nat)))
  /-- The first retry delay. -/
  minDelayMs : Option Nat
  /-- The greatest retry delay. -/
  maxDelayMs : Option Nat

namespace Overrides

/-- All settings of a configuration. -/
def all (c : Config) : Overrides :=
  { lowWatermark := some c.threads.lowWatermark
    highWatermark := some c.threads.highWatermark
    maxThreads := some c.threads.maxThreads
    shrinkDelayMs := some c.threads.shrinkDelayMs
    stackSize := some c.threads.stackSize
    maxQueueDepth := some c.threads.maxQueueDepth
    limits := some c.tokens.limits
    minDelayMs := some c.backoff.minDelayMs
    maxDelayMs := some c.backoff.maxDelayMs }

/-- The section with what is given. -/
def applyThreads (o : Overrides) (c : ThreadConfig) : ThreadConfig :=
  { lowWatermark := o.lowWatermark.getD c.lowWatermark
    highWatermark := o.highWatermark.getD c.highWatermark
    maxThreads := o.maxThreads.getD c.maxThreads
    shrinkDelayMs := o.shrinkDelayMs.getD c.shrinkDelayMs
    stackSize := o.stackSize.getD c.stackSize
    maxQueueDepth := o.maxQueueDepth.getD c.maxQueueDepth }

/-- The limits that are given. -/
def applyTokens (o : Overrides) (t : TokenConfig) : TokenConfig :=
  ⟨o.limits.getD t.limits⟩

/-- The section with what is given. -/
def applyBackoff (o : Overrides) (b : BackoffConfig) : BackoffConfig :=
  { minDelayMs := o.minDelayMs.getD b.minDelayMs
    maxDelayMs := o.maxDelayMs.getD b.maxDelayMs }

/-- A configuration with the settings that are given. -/
def apply (o : Overrides) (c : Config) : Config :=
  ⟨o.applyThreads c.threads, o.applyTokens c.tokens, o.applyBackoff c.backoff⟩

/-- All settings of a configuration **make it**. -/
@[simp] theorem apply_all (c base : Config) : (all c).apply base = c := rfl

/-- The numbers that are given **fit into a word**. -/
structure InWords (o : Overrides) : Prop where
  lowWatermark : ∀ n ∈ o.lowWatermark, n ≤ wordMax
  highWatermark : ∀ n ∈ o.highWatermark, n ≤ wordMax
  maxThreads : ∀ n ∈ o.maxThreads, n ≤ wordMax
  shrinkDelayMs : ∀ n ∈ o.shrinkDelayMs, n ≤ wordMax
  stackSize : ∀ size ∈ o.stackSize, ∀ n ∈ size, n ≤ wordMax
  maxQueueDepth : ∀ n ∈ o.maxQueueDepth, n ≤ wordMax
  limits : ∀ t ∈ o.limits, TokenConfig.InWords ⟨t⟩
  minDelayMs : ∀ n ∈ o.minDelayMs, n ≤ wordMax
  maxDelayMs : ∀ n ∈ o.maxDelayMs, n ≤ wordMax

theorem inWords_all {c : Config} (h : c.InWords) : (all c).InWords where
  lowWatermark := by rintro _ ⟨⟩; exact h.threads.lowWatermark
  highWatermark := by rintro _ ⟨⟩; exact h.threads.highWatermark
  maxThreads := by rintro _ ⟨⟩; exact h.threads.maxThreads
  shrinkDelayMs := by rintro _ ⟨⟩; exact h.threads.shrinkDelayMs
  stackSize := by rintro _ ⟨⟩; exact h.threads.stackSize
  maxQueueDepth := by rintro _ ⟨⟩; exact h.threads.maxQueueDepth
  limits := by rintro _ ⟨⟩; exact h.tokens
  minDelayMs := by rintro _ ⟨⟩; exact h.backoff.minDelayMs
  maxDelayMs := by rintro _ ⟨⟩; exact h.backoff.maxDelayMs

/-! ### Documents -/

/-- The fields of the section of the threads. -/
def threadFields (o : Overrides) : List (String × Option Json) :=
  [("low_watermark", o.lowWatermark.map ofNat), ("high_watermark", o.highWatermark.map ofNat),
   ("max_threads", o.maxThreads.map ofNat), ("shrink_delay_ms", o.shrinkDelayMs.map ofNat),
   ("thread_stack_size", o.stackSize.map ofNat?), ("max_queue_depth", o.maxQueueDepth.map ofNat)]

/-- The fields of the section of the retry delays. -/
def backoffFields (o : Overrides) : List (String × Option Json) :=
  [("min_delay_ms", o.minDelayMs.map ofNat), ("max_delay_ms", o.maxDelayMs.map ofNat)]

/-- The members of a list of limits. -/
def limitMembers (t : PerCategory (Option (Option Nat))) : List (String × Json) :=
  fieldsOf (t.toList.map fun x => (x.1.name, x.2.map ofNat?))

/-- A JSON value **gives just these settings**, in any order. A section in which nothing is given
may be missing. -/
def IsDocument (o : Overrides) (j : Json) : Prop :=
  ∃ threads tokens backoff limits : Option Json,
    IsObject (fieldsOf [("threads", threads), ("tokens", tokens), ("backoff", backoff)]) j ∧
    IsSection (fieldsOf o.threadFields) threads ∧
    IsSection (fieldsOf [("limits", limits)]) tokens ∧
    IsSection (fieldsOf o.backoffFields) backoff ∧
    ((o.limits = none ∧ limits = none) ∨
      ∃ t l, o.limits = some t ∧ limits = some l ∧ IsObject (limitMembers t) l)

/-! ### Reading the sections -/

variable {o : Overrides}

/-- A number that fits into a word is read as that, if it is given. -/
theorem word?_given {n? : Option Nat} (h : ∀ n ∈ n?, n ≤ wordMax) :
    ∀ n ∈ n?, (ofNat n).word? = some n :=
  fun n hn => word?_ofNat (h n hn)

/-- The fields of the threads' section put `o` into it. -/
theorem foldlM_threadFields (ho : o.InWords) (c : ThreadConfig) :
    o.threadFields.foldlM (putIfGiven ThreadConfig.fields) c = some (o.applyThreads c) := by
  have hlow : ∀ c, putIfGiven ThreadConfig.fields c
      ("low_watermark", o.lowWatermark.map ofNat) =
        some { c with lowWatermark := o.lowWatermark.getD c.lowWatermark } := fun _ =>
    putIfGiven_map rfl (word?_given ho.lowWatermark) (by cases o.lowWatermark <;> rfl)
  have hhigh : ∀ c, putIfGiven ThreadConfig.fields c
      ("high_watermark", o.highWatermark.map ofNat) =
        some { c with highWatermark := o.highWatermark.getD c.highWatermark } := fun _ =>
    putIfGiven_map rfl (word?_given ho.highWatermark) (by cases o.highWatermark <;> rfl)
  have hmax : ∀ c, putIfGiven ThreadConfig.fields c ("max_threads", o.maxThreads.map ofNat) =
      some { c with maxThreads := o.maxThreads.getD c.maxThreads } := fun _ =>
    putIfGiven_map rfl (word?_given ho.maxThreads) (by cases o.maxThreads <;> rfl)
  have hdelay : ∀ c, putIfGiven ThreadConfig.fields c
      ("shrink_delay_ms", o.shrinkDelayMs.map ofNat) =
        some { c with shrinkDelayMs := o.shrinkDelayMs.getD c.shrinkDelayMs } := fun _ =>
    putIfGiven_map rfl (word?_given ho.shrinkDelayMs) (by cases o.shrinkDelayMs <;> rfl)
  have hstack : ∀ c, putIfGiven ThreadConfig.fields c
      ("thread_stack_size", o.stackSize.map ofNat?) =
        some { c with stackSize := o.stackSize.getD c.stackSize } := fun _ =>
    putIfGiven_map rfl (fun size hsize => wordOrNull?_ofNat? (ho.stackSize size hsize))
      (by cases o.stackSize <;> rfl)
  have hdepth : ∀ c, putIfGiven ThreadConfig.fields c
      ("max_queue_depth", o.maxQueueDepth.map ofNat) =
        some { c with maxQueueDepth := o.maxQueueDepth.getD c.maxQueueDepth } := fun _ =>
    putIfGiven_map rfl (word?_given ho.maxQueueDepth) (by cases o.maxQueueDepth <;> rfl)
  simp only [threadFields, List.foldlM_cons, List.foldlM_nil, Option.bind_eq_bind, hlow, hhigh,
    hmax, hdelay, hstack, hdepth, Option.bind_some]
  rfl

/-- The fields of the retry delays' section put `o` into it. -/
theorem foldlM_backoffFields (ho : o.InWords) (b : BackoffConfig) :
    o.backoffFields.foldlM (putIfGiven BackoffConfig.fields) b = some (o.applyBackoff b) := by
  have hmin : ∀ b, putIfGiven BackoffConfig.fields b ("min_delay_ms", o.minDelayMs.map ofNat) =
      some { b with minDelayMs := o.minDelayMs.getD b.minDelayMs } := fun _ =>
    putIfGiven_map rfl (word?_given ho.minDelayMs) (by cases o.minDelayMs <;> rfl)
  have hmax : ∀ b, putIfGiven BackoffConfig.fields b ("max_delay_ms", o.maxDelayMs.map ofNat) =
      some { b with maxDelayMs := o.maxDelayMs.getD b.maxDelayMs } := fun _ =>
    putIfGiven_map rfl (word?_given ho.maxDelayMs) (by cases o.maxDelayMs <;> rfl)
  simp only [backoffFields, List.foldlM_cons, List.foldlM_nil, Option.bind_eq_bind, hmin, hmax,
    Option.bind_some]
  rfl

/-- The fields of the threads' section are independent. -/
theorem threads_independent : ThreadConfig.fields.Pairwise Independent := by
  simp only [ThreadConfig.fields, List.pairwise_cons, List.forall_mem_cons]
  refine ⟨⟨?_, ?_, ?_, ?_, ?_, nofun⟩, ⟨?_, ?_, ?_, ?_, nofun⟩, ⟨?_, ?_, ?_, nofun⟩,
    ⟨?_, ?_, nofun⟩, ⟨?_, nofun⟩, nofun, .nil⟩
  all_goals exact independent_map fun _ _ _ => rfl

/-- The fields of the retry delays' section are independent. -/
theorem backoff_independent : BackoffConfig.fields.Pairwise Independent := by
  simp only [BackoffConfig.fields, List.pairwise_cons, List.forall_mem_cons]
  exact ⟨⟨independent_map fun _ _ _ => rfl, nofun⟩, nofun, .nil⟩

end Overrides

/-! ### Lists of limits -/

/-- No two categories have one name. -/
theorem Category.name_injective {c d : Category} (h : c.name = d.name) : c = d :=
  Option.some.inj ((Category.ofName?_name c).symm.trans (h ▸ Category.ofName?_name d))

/-- A list of limits with distinct names sets **each category that it names to its limit**, and no
other. -/
theorem TokenConfig.ofLimits?_ofFields {ms : List (String × Json)}
    (hnodup : (ms.map Prod.fst).Nodup)
    (hms : ∀ m ∈ ms, ∃ (c : Category) (limit : Option Nat), m = (c.name, ofNat? limit) ∧
      ∀ n ∈ limit, n ≤ wordMax) (t : TokenConfig) :
    ∃ t', ofLimits? t (ms.map fun m => (some m.1, m.2)) = some t' ∧ ∀ c,
      (∀ v, (c.name, v) ∈ ms → t'.limits.get c = v.wordOrNull?) ∧
        (c.name ∉ ms.map Prod.fst → t'.limits.get c = t.limits.get c) := by
  induction ms generalizing t with
  | nil => exact ⟨t, rfl, fun c => ⟨nofun, fun _ => rfl⟩⟩
  | cons m ms ih =>
    rw [List.map_cons, List.nodup_cons] at hnodup
    rw [List.forall_mem_cons] at hms
    obtain ⟨⟨d, limit, rfl, hlimit⟩, hrest⟩ := hms
    obtain ⟨t', ht', hsaid⟩ := ih hnodup.2 hrest (t.withLimit d limit)
    have hread := wordOrNull?_ofNat? hlimit
    refine ⟨t', ?_, fun c => ⟨fun v hv => ?_, fun hnot => ?_⟩⟩
    · rw [List.map_cons, ofLimits?, Option.bind_eq_bind, Option.bind_some, Category.ofName?_name,
        hread]
      exact ht'
    · rcases List.mem_cons.1 hv with heq | hv
      · obtain ⟨hname, rfl⟩ := Prod.mk.inj heq
        obtain rfl : c = d := Category.name_injective hname
        rw [(hsaid c).2 hnodup.1, hread]
        exact PerCategory.get_set_self _ _ _
      · exact (hsaid c).1 v hv
    · rw [List.map_cons, List.mem_cons, not_or] at hnot
      rw [(hsaid c).2 hnot.2]
      exact PerCategory.get_set_of_ne _ _ fun heq => hnot.1 (congrArg _ heq)

namespace Overrides

/-- A member of the list of limits is a category with a limit that is given. -/
theorem mem_limitMembers {t : PerCategory (Option (Option Nat))} {m : String × Json} :
    m ∈ limitMembers t ↔ ∃ c limit, t.get c = some limit ∧ m = (c.name, ofNat? limit) := by
  simp only [limitMembers, mem_fieldsOf, PerCategory.toList, List.mem_map]
  constructor
  · rintro ⟨-, ⟨c, -, rfl⟩, hm⟩
    obtain ⟨hname, hvalue⟩ := Prod.mk.inj hm
    obtain ⟨limit, hlimit, hwritten⟩ := Option.map_eq_some_iff.1 hvalue
    exact ⟨c, limit, hlimit, Prod.ext hname.symm hwritten.symm⟩
  · rintro ⟨c, limit, hlimit, rfl⟩
    exact ⟨(c, t.get c), ⟨c, Category.mem_all c, rfl⟩, by rw [hlimit, Option.map_some]⟩

/-- The list of limits has distinct names. -/
theorem nodup_limitMembers (t : PerCategory (Option (Option Nat))) :
    ((limitMembers t).map Prod.fst).Nodup := by
  refine (sublist_fieldsOf _).nodup ?_
  rw [PerCategory.toList, List.map_map, List.map_map]
  exact (by decide : (Category.all.map Category.name).Nodup)

/-- A list of limits is read **in any order**, whatever it leaves out. -/
theorem ofLimits?_of_isObject {t : PerCategory (Option (Option Nat))}
    (ht : TokenConfig.InWords ⟨t⟩) {l : Json} (hl : IsObject (limitMembers t) l) :
    ∃ ms, l = .obj ms ∧ TokenConfig.ofLimits? .empty ms = some ⟨t⟩ := by
  obtain ⟨ms, hperm, rfl⟩ := hl
  have hnodup : (ms.map Prod.fst).Nodup := (hperm.map _).nodup_iff.2 (nodup_limitMembers t)
  obtain ⟨t', ht', hsaid⟩ := TokenConfig.ofLimits?_ofFields hnodup (fun m hm => by
    obtain ⟨c, limit, hlimit, rfl⟩ := mem_limitMembers.1 (hperm.mem_iff.1 hm)
    exact ⟨c, limit, rfl, ht c limit hlimit⟩) .empty
  refine ⟨_, rfl, ht'.trans (congrArg _ ?_)⟩
  have hget : ∀ c, t'.limits.get c = t.get c := by
    intro c
    cases hc : t.get c with
    | some limit =>
      rw [(hsaid c).1 _ (hperm.mem_iff.2 (mem_limitMembers.2 ⟨c, limit, hc, rfl⟩))]
      exact wordOrNull?_ofNat? (ht c limit hc)
    | none =>
      rw [(hsaid c).2 fun hmem => ?_]
      · exact PerCategory.get_const none c
      · obtain ⟨m, hm, hname⟩ := List.mem_map.1 hmem
        obtain ⟨d, limit, hlimit, rfl⟩ := mem_limitMembers.1 (hperm.mem_iff.1 hm)
        obtain rfl : d = c := Category.name_injective hname
        rw [hc] at hlimit
        cases hlimit
  exact congrArg TokenConfig.mk (PerCategory.ext_get hget)

variable {o : Overrides}

/-- The list of limits, if it is given, becomes the limits of the section. -/
theorem foldlM_limits (ho : o.InWords) {limits : Option Json}
    (hlimits : (o.limits = none ∧ limits = none) ∨
      ∃ t l, o.limits = some t ∧ limits = some l ∧ IsObject (limitMembers t) l) (t : TokenConfig) :
    [("limits", limits)].foldlM (putIfGiven TokenConfig.fields) t = some (o.applyTokens t) := by
  rcases hlimits with ⟨hnone, rfl⟩ | ⟨given, l, hsome, rfl, hl⟩
  · rw [applyTokens, hnone]
    rfl
  · obtain ⟨ms, rfl, hms⟩ := ofLimits?_of_isObject (ho.limits given hsome) hl
    rw [applyTokens, hsome]
    show (TokenConfig.ofLimits? .empty ms).bind _ = _
    rw [hms]
    rfl

/-! ### Documents -/

/-- The sections of a document are independent. -/
theorem sections_independent (processors : Nat) :
    (Config.fields processors).Pairwise Independent := by
  simp only [Config.fields, List.pairwise_cons, List.forall_mem_cons]
  refine ⟨⟨?_, ?_, nofun⟩, ⟨?_, nofun⟩, nofun, .nil⟩
  all_goals exact independent_map fun _ _ _ => rfl

/-- A document of `o` is read as **`o` applied to the default of the host**, in any order. -/
theorem ofJson?_of_isDocument (ho : o.InWords) {j : Json} (hj : o.IsDocument j) (processors : Nat) :
    Config.ofJson? processors j = some (o.apply (.forProcessors processors)) := by
  obtain ⟨threads, tokens, backoff, limits, hobject, hthreads, htokens, hbackoff, hlimits⟩ := hj
  have hthreads' := hthreads.decoded threads_independent (by simp [threadFields])
    (foldlM_threadFields ho (.forProcessors processors))
  have htokens' := htokens.decoded (List.pairwise_singleton _ _) (by simp)
    (foldlM_limits ho hlimits default)
  have hbackoff' := hbackoff.decoded backoff_independent (by simp [backoffFields])
    (foldlM_backoffFields ho default)
  have hnodup : ([("threads", threads), ("tokens", tokens), ("backoff", backoff)].map
      Prod.fst).Nodup := by simp
  rw [Config.ofJson?, decodeRecord?_of_isObject (sections_independent processors)
    ((sublist_fieldsOf _).nodup hnodup) hobject, foldlM_fieldsOf]
  simp only [List.foldlM_cons, List.foldlM_nil, Option.bind_eq_bind]
  rw [putIfGiven_section rfl hthreads' rfl, Option.bind_some,
    putIfGiven_section rfl htokens' rfl, Option.bind_some,
    putIfGiven_section rfl hbackoff' rfl, Option.bind_some]
  rfl

/-- A document of `o` can be read back from its text. -/
theorem IsDocument.readable {j : Json} (hj : o.IsDocument j) : j.Readable := by
  obtain ⟨threads, tokens, backoff, limits, hobject, hthreads, htokens, hbackoff, hlimits⟩ := hj
  have hnumber : ∀ n? : Option Nat, ∀ v ∈ n?.map ofNat, v.Readable := by
    rintro (_ | n) v ⟨⟩
    exact readable_ofNat n
  have hsize : ∀ v ∈ o.stackSize.map ofNat?, v.Readable := by
    intro v hv
    obtain ⟨size, -, rfl⟩ := Option.map_eq_some_iff.1 hv
    exact readable_ofNat? size
  have hthreads' : ∀ v ∈ threads, v.Readable := hthreads.readable <| by
    simp only [threadFields, List.forall_mem_cons]
    exact ⟨hnumber _, hnumber _, hnumber _, hnumber _, hsize, hnumber _, nofun⟩
  have hbackoff' : ∀ v ∈ backoff, v.Readable := hbackoff.readable <| by
    simp only [backoffFields, List.forall_mem_cons]
    exact ⟨hnumber _, hnumber _, nofun⟩
  have htokens' : ∀ v ∈ tokens, v.Readable := htokens.readable <| by
    simp only [List.forall_mem_cons]
    refine ⟨fun v hv => ?_, nofun⟩
    rcases hlimits with ⟨-, rfl⟩ | ⟨t, l, -, rfl, hl⟩
    · cases hv
    · cases hv
      refine hl.readable fun m hm => ?_
      obtain ⟨c, limit, -, rfl⟩ := mem_limitMembers.1 hm
      exact readable_ofNat? limit
  refine hobject.readable fun m hm => ?_
  have hgiven := mem_fieldsOf.1 hm
  simp only [List.mem_cons, List.not_mem_nil, or_false, Prod.mk.injEq] at hgiven
  rcases hgiven with ⟨-, heq⟩ | ⟨-, heq⟩ | ⟨-, heq⟩
  · exact hthreads' _ heq.symm
  · exact htokens' _ heq.symm
  · exact hbackoff' _ heq.symm

end Overrides

end TurnPool
