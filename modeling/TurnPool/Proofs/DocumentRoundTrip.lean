import TurnPool.Proofs.Overrides

/-!
# Documents of configurations

The document of a configuration names every setting, and lists the limits of just those categories
about which something is said. It is read back as the same configuration, whatever its numbers are,
and then checked.

What is read from any text fits into words: numbers that do not are refused, and so are the defaults
of a host that has not more processors than a word can count in. So a configuration that was read
can be written down and read again.

## Main results

* `Overrides.isDocument_all`: the document of a configuration gives all of its settings.
* `Config.inWords_of_ofJson?`: what is read fits into words.
* `document_round_trip`: **what is written is read back**, and what is read can be written.
-/

namespace TurnPool

open Json

/-! ### What is written -/

/-- The document of a configuration **gives all of its settings**. -/
theorem Overrides.isDocument_all (c : Config) : (Overrides.all c).IsDocument c.toJson := by
  have hlimits : limitMembers c.tokens.limits = c.tokens.limits.toList.filterMap fun x =>
      x.2.map fun limit => (x.1.name, ofNat? limit) := by
    rw [limitMembers, fieldsOf, List.filterMap_map]
    refine congrArg (List.filterMap · _) (funext fun x => ?_)
    exact Option.map_map _ _ _
  refine ⟨some c.threads.toJson, some c.tokens.toJson, some c.backoff.toJson, some (.ofFields _),
    isObject_ofFields _, Or.inr ⟨_, rfl, isObject_ofFields _⟩, Or.inr ⟨_, rfl, isObject_ofFields _⟩,
    Or.inr ⟨_, rfl, isObject_ofFields _⟩, Or.inr ⟨_, _, rfl, rfl, ?_⟩⟩
  rw [hlimits]
  exact isObject_ofFields _

/-! ### What is read -/

/-- The numbers of a threads' section that was read fit into words. -/
theorem ThreadConfig.inWords_of_ofJson? {processors : Nat} (hhost : max processors 2 * 8 ≤ wordMax)
    {j : Json} {c : ThreadConfig} (h : ofJson? processors j = some c) : c.InWords := by
  refine decodeRecord?_keeps (fun f hf v a a' ha hput => ?_) ?_ h
  · simp only [fields, List.mem_cons, List.not_mem_nil, or_false] at hf
    rcases hf with rfl | rfl | rfl | rfl | rfl | rfl
    all_goals obtain ⟨n, hn, rfl⟩ := Option.map_eq_some_iff.1 hput
    · exact { ha with lowWatermark := le_of_word? hn }
    · exact { ha with highWatermark := le_of_word? hn }
    · exact { ha with maxThreads := le_of_word? hn }
    · exact { ha with shrinkDelayMs := le_of_word? hn }
    · exact { ha with stackSize := le_of_wordOrNull? hn }
    · exact { ha with maxQueueDepth := le_of_word? hn }
  · have hword : 10000 ≤ wordMax := by decide
    exact {
      lowWatermark := show max processors 2 ≤ wordMax by omega
      highWatermark := show max processors 2 * 2 ≤ wordMax by omega
      maxThreads := show max (max processors 2 * 8) 64 ≤ wordMax by omega
      shrinkDelayMs := show 5000 ≤ wordMax by omega
      stackSize := by rintro _ ⟨⟩
      maxQueueDepth := hword }

/-- The limits of a list that was read fit into words, if those it was read over do. -/
theorem TokenConfig.inWords_of_ofLimits? {ms : List (Option String × Json)} {t t' : TokenConfig}
    (ht : t.InWords) (h : ofLimits? t ms = some t') : t'.InWords := by
  induction ms generalizing t with
  | nil =>
    cases h
    exact ht
  | cons m ms ih =>
    obtain ⟨k, v⟩ := m
    obtain ⟨c, -, hrest⟩ := Option.bind_eq_some_iff.1 h
    obtain ⟨limit, hlimit, hrest⟩ := Option.bind_eq_some_iff.1 hrest
    refine ih (fun d said hd n hn => ?_) hrest
    by_cases hdc : d = c
    · subst hdc
      rw [withLimit, PerCategory.get_set_self] at hd
      cases hd
      exact le_of_wordOrNull? hlimit n hn
    · rw [withLimit, PerCategory.get_set_of_ne _ _ hdc] at hd
      exact ht d said hd n hn

/-- The limits of a tokens' section that was read fit into words. -/
theorem TokenConfig.inWords_of_ofJson? {j : Json} {t : TokenConfig} (h : ofJson? j = some t) :
    t.InWords := by
  refine decodeRecord?_keeps (fun f hf v a a' ha hput => ?_) ?_ h
  · obtain rfl := List.mem_singleton.1 hf
    cases v with
    | obj ms =>
      refine inWords_of_ofLimits? (fun c limit hlimit => ?_) hput
      rw [empty, PerCategory.get_const] at hlimit
      cases hlimit
    | _ => cases hput
  · intro c
    cases c
    all_goals
      rintro _ ⟨⟩ n ⟨⟩
    all_goals decide

/-- The numbers of a retry delays' section that was read fit into words. -/
theorem BackoffConfig.inWords_of_ofJson? {j : Json} {b : BackoffConfig} (h : ofJson? j = some b) :
    b.InWords := by
  refine decodeRecord?_keeps (fun f hf v a a' ha hput => ?_) ⟨by decide, by decide⟩ h
  simp only [fields, List.mem_cons, List.not_mem_nil, or_false] at hf
  rcases hf with rfl | rfl
  all_goals obtain ⟨n, hn, rfl⟩ := Option.map_eq_some_iff.1 hput
  · exact { ha with minDelayMs := le_of_word? hn }
  · exact { ha with maxDelayMs := le_of_word? hn }

/-- The numbers of a configuration that was read **fit into words**. -/
theorem Config.inWords_of_ofJson? {processors : Nat} (hhost : max processors 2 * 8 ≤ wordMax)
    {j : Json} {c : Config} (h : ofJson? processors j = some c) : c.InWords := by
  refine decodeRecord?_keeps (fun f hf v a a' ha hput => ?_) ?_ h
  · simp only [fields, List.mem_cons, List.not_mem_nil, or_false] at hf
    rcases hf with rfl | rfl | rfl
    all_goals obtain ⟨s, hs, rfl⟩ := Option.map_eq_some_iff.1 hput
    · exact { ha with threads := ThreadConfig.inWords_of_ofJson? hhost hs }
    · exact { ha with tokens := TokenConfig.inWords_of_ofJson? hs }
    · exact { ha with backoff := BackoffConfig.inWords_of_ofJson? hs }
  · -- The default is what is read from an object without members.
    have hempty : ThreadConfig.ofJson? processors (.obj []) = some (.forProcessors processors) :=
      rfl
    exact {
      threads := ThreadConfig.inWords_of_ofJson? hhost hempty
      tokens := TokenConfig.inWords_of_ofJson? (show TokenConfig.ofJson? (.obj []) = _ from rfl)
      backoff :=
        BackoffConfig.inWords_of_ofJson? (show BackoffConfig.ofJson? (.obj []) = _ from rfl) }

/-! ### Both ways -/

/-- What is read from a document is checked. -/
theorem Config.ofDocumentOn_of_parse {processors : Nat} {text : String} {j : Json} {c : Config}
    (hparse : Json.parse text = some j) (hread : ofJson? processors j = some c) :
    ofDocumentOn processors text = c.checked := by
  rw [ofDocumentOn, hparse, Option.bind_some, hread]

/-- The document of a configuration in words is read as **that configuration**, checked. -/
theorem Config.ofDocumentOn_document {c : Config} (hc : c.InWords) (processors : Nat) :
    ofDocumentOn processors c.document = c.checked := by
  have hall := Overrides.isDocument_all c
  refine ofDocumentOn_of_parse (parse_text hall.readable) ?_
  rw [Overrides.ofJson?_of_isDocument (Overrides.inWords_all hc) hall, Overrides.apply_all]

/-- `checked` answers the configuration itself, and only if it is valid. -/
theorem Config.checked_eq_ok {c c' : Config} (h : c.checked = .ok c') :
    c.validate = .ok () ∧ c = c' := by
  rw [checked] at h
  cases hvalid : c.validate with
  | error e =>
    rw [hvalid] at h
    cases h
  | ok u =>
    rw [hvalid] at h
    exact ⟨rfl, Except.ok.inj h⟩

/-- **Documents of configurations**, on a host whose default fits into words:

* `document` of any configuration whose numbers fit into words is read as that configuration if
  `validate` accepts it, and refused with the first fault of `validate` otherwise;
* whatever text a configuration was read from, it is valid, its numbers fit into words, and its
  `document` is read as the same configuration. -/
theorem document_round_trip {processors : Nat} (hhost : max processors 2 * 8 ≤ wordMax) :
    (∀ c : Config, c.InWords →
      Config.ofDocumentOn processors c.document = c.validate.map fun _ => c) ∧
    ∀ (text : String) (c : Config), Config.ofDocumentOn processors text = .ok c →
      c.validate = .ok () ∧ c.InWords ∧ Config.ofDocumentOn processors c.document = .ok c := by
  refine ⟨fun c hc => Config.ofDocumentOn_document hc processors, fun text c h => ?_⟩
  rw [Config.ofDocumentOn] at h
  split at h
  · cases h
  · rename_i c' hread
    obtain ⟨hvalid, rfl⟩ := Config.checked_eq_ok h
    obtain ⟨j, -, hj⟩ := Option.bind_eq_some_iff.1 hread
    have hwords := Config.inWords_of_ofJson? hhost hj
    exact ⟨hvalid, hwords, (Config.ofDocumentOn_document hwords processors).trans h⟩

/-- A configuration that says something about two of the categories, and leaves the stack to the
platform. -/
def listed : Config :=
  { (default : Config) with
    tokens := (TokenConfig.empty.withLimit .client (some wordMax)).withLimit .upload none }

/-- It reads back, and so does what an empty list of limits stands for. -/
theorem document_round_trip_listed :
    Config.ofDocumentOn 8 listed.document = .ok listed ∧
      Config.ofDocumentOn 8
        (Config.document { Config.forProcessors 8 with tokens := TokenConfig.empty }) =
          .ok { Config.forProcessors 8 with tokens := TokenConfig.empty } := by
  have hhost : max 8 2 * 8 ≤ wordMax := by decide
  have hlisted : listed.InWords := {
    threads := ⟨by decide, by decide, by decide, by decide, nofun, by decide⟩
    tokens := fun c => by
      cases c
      all_goals rintro _ ⟨⟩ n ⟨⟩
      exact Nat.le_refl wordMax
    backoff := ⟨by decide, by decide⟩ }
  have hread : Config.ofDocumentOn 8 "\x7b\"tokens\": \x7b\"limits\": \x7b\x7d\x7d\x7d" =
      .ok { Config.forProcessors 8 with tokens := TokenConfig.empty } := by
    cbv
  exact ⟨(document_round_trip hhost).1 listed hlisted,
    ((document_round_trip hhost).2 _ _ hread).2.2⟩

end TurnPool
