import Mathlib.Data.List.Forall2
import TurnPool.Config.Settings
import TurnPool.Proofs.DocumentRoundTrip

/-!
# Two ways to give a configuration

Settings may be given in a document or by variables. The two are read in different ways: a document
is read as a whole, a section and a list of limits at a time, and variables are asked for one by
one, on top of the default. What they have in common is that the result is checked.

## How a value is written in a variable

A number is written with any number of leading zeros and perhaps a plus sign, and that a category
has no limit by `unlimited` in letters of either case. White space around it does not count.
`Overrides.IsEnvironment` says of a source of variables that it gives just some settings. It cannot
say of the stack that it is left to the platform, and not of a single category that nothing is said
about it; `config_paths_agree` is about settings that can be given in both ways.

## Main results

* `SpellsNumber.readWord`, `SpellsUnlimited.sameLetters`: values in variables are read.
* `Overrides.override_of_isEnvironment`: variables give their settings over the default.
* `config_paths_agree`: **a document and variables** that give the same settings give the same
  configuration, or are refused for the same reason.
-/

namespace TurnPool

open Text Json

/-! ### Values in variables -/

/-- A text that is some characters with white space around them. -/
def Framed (cs : List Char) (raw : String) : Prop :=
  ∃ before after, (∀ c ∈ before, isBlank c = true) ∧ (∀ c ∈ after, isBlank c = true) ∧
    raw.toList = before ++ cs ++ after

/-- A text that is a number: its digits after any number of zeros, perhaps with a plus sign. -/
def SpellsNumber (n : Nat) (raw : String) : Prop :=
  ∃ plus zeros, (plus = [] ∨ plus = ['+']) ∧ (∀ c ∈ zeros, c = '0') ∧
    Framed (plus ++ (zeros ++ Nat.toDigits 10 n)) raw

/-- A text that says that there is no limit, in letters of either case. -/
def SpellsUnlimited (raw : String) : Prop :=
  ∃ letters, List.Forall₂ (fun c d => c = d ∨ c = d.toUpper) letters "unlimited".toList ∧
    Framed letters raw

/-- A text that is a limit, or says that there is none. -/
def SpellsLimit : Option Nat → String → Prop
  | none => SpellsUnlimited
  | some n => SpellsNumber n

/-- `trim` takes the blanks off that `Framed` put around characters without blanks. -/
theorem Framed.trim {cs : List Char} {raw : String} (h : Framed cs raw) (hne : cs ≠ [])
    (hcs : ∀ c ∈ cs, isBlank c = false) : trim raw.toList = cs := by
  obtain ⟨before, after, hbefore, hafter, hraw⟩ := h
  have hstart : ∀ ds rest : List Char, ds ≠ [] → (∀ c ∈ ds, isBlank c = false) →
      (ds ++ rest).dropWhile isBlank = ds ++ rest := by
    intro ds rest hds hblank
    obtain ⟨d, ds, rfl⟩ := List.exists_cons_of_ne_nil hds
    rw [List.cons_append, List.dropWhile_cons, if_neg (by simp [hblank d List.mem_cons_self])]
  have hend : ∀ c ∈ after.reverse, isBlank c = true := fun c hc =>
    hafter c (List.mem_reverse.1 hc)
  rw [Text.trim, trimStart, trimEnd, hraw, List.append_assoc,
    List.dropWhile_append_of_pos hbefore, hstart cs after hne hcs, List.reverse_append,
    List.dropWhile_append_of_pos hend, ← List.append_nil cs.reverse,
    hstart cs.reverse [] (by simpa using hne) fun c hc => hcs c (List.mem_reverse.1 hc),
    List.append_nil, List.reverse_reverse]

/-- `readDigits` reads digits whose value fits into a word. -/
theorem readDigits_eq_ok {cs : List Char} {acc : Nat} (hdigits : ∀ c ∈ cs, '0' ≤ c ∧ c ≤ '9')
    (hle : Nat.ofDigitChars 10 cs acc ≤ wordMax) :
    readDigits acc cs = .ok (Nat.ofDigitChars 10 cs acc) := by
  induction cs generalizing acc with
  | nil => rfl
  | cons c cs ih =>
    rw [List.forall_mem_cons] at hdigits
    rw [Nat.ofDigitChars_cons, Nat.mul_comm 10 acc] at hle ⊢
    -- Digits that follow do not make the value less.
    have hmono : acc * 10 + (c.toNat - '0'.toNat) ≤ wordMax := by
      refine Nat.le_trans ?_ hle
      rw [Nat.ofDigitChars_eq_ofDigitChars_zero]
      exact Nat.le_add_right_of_le (Nat.le_mul_of_pos_left _ (Nat.pow_pos (by decide)))
    rw [readDigits, digit?, if_pos hdigits.1]
    dsimp only
    rw [if_neg (Nat.not_lt.2 hmono)]
    exact ih hdigits.2 hle

/-- Leading zeros have the value 0. -/
theorem ofDigitChars_zeros {zeros : List Char} (hzeros : ∀ c ∈ zeros, c = '0') :
    Nat.ofDigitChars 10 zeros 0 = 0 := by
  induction zeros with
  | nil => rfl
  | cons c zeros ih =>
    rw [List.forall_mem_cons] at hzeros
    obtain ⟨rfl, hzeros⟩ := hzeros
    rw [Nat.ofDigitChars_cons]
    exact ih hzeros

/-- A digit is no white space. -/
theorem isBlank_of_digit {c : Char} (h : '0' ≤ c ∧ c ≤ '9') : isBlank c = false := by
  have hlo : 48 ≤ c.toNat := h.1
  have hhi : c.toNat ≤ 57 := h.2
  rw [Bool.eq_false_iff]
  intro hblank
  simp only [isBlank, Bool.or_eq_true, Bool.and_eq_true, decide_eq_true_eq, beq_iff_eq] at hblank
  omega

/-- A digit has no other case. -/
theorem toLower_of_digit {c : Char} (h : '0' ≤ c ∧ c ≤ '9') : c.toLower = c := by
  have hhi : c.toNat ≤ 57 := h.2
  refine dif_neg fun hupper => ?_
  have hlo : 65 ≤ c.toNat := hupper.1
  omega

namespace SpellsNumber

variable {n : Nat} {raw : String}

/-- A text that spells `n` is trimmed to digits of the value `n`, perhaps after a plus sign. -/
theorem trim_cases (h : SpellsNumber n raw) :
    ∃ plus digits, (plus = [] ∨ plus = ['+']) ∧ digits ≠ [] ∧
      (∀ c ∈ digits, '0' ≤ c ∧ c ≤ '9') ∧ Nat.ofDigitChars 10 digits 0 = n ∧
      trim raw.toList = plus ++ digits := by
  obtain ⟨plus, zeros, hplus, hzeros, hframed⟩ := h
  have hdigits : ∀ c ∈ zeros ++ Nat.toDigits 10 n, '0' ≤ c ∧ c ≤ '9' := by
    intro c hc
    rcases List.mem_append.1 hc with hc | hc
    · rw [hzeros c hc]
      decide
    · exact isDigit_of_mem_toDigits hc
  have hne : zeros ++ Nat.toDigits 10 n ≠ [] :=
    List.append_ne_nil_of_right_ne_nil _ Nat.toDigits_ne_nil
  refine ⟨plus, zeros ++ Nat.toDigits 10 n, hplus, hne, hdigits, ?_, hframed.trim ?_ ?_⟩
  · rw [Nat.ofDigitChars_append, ofDigitChars_zeros hzeros,
      Nat.ofDigitChars_toDigits (by decide) (by decide)]
  · exact List.append_ne_nil_of_right_ne_nil _ hne
  · intro c hc
    rcases List.mem_append.1 hc with hc | hc
    · rcases hplus with rfl | rfl
      · cases hc
      · rw [List.mem_singleton.1 hc]
        rfl
    · exact isBlank_of_digit (hdigits c hc)

/-- A text that spells a number that fits into a word **is read as it**. -/
theorem readWord (h : SpellsNumber n raw) (hn : n ≤ wordMax) :
    readWord (trim raw.toList) = .ok n := by
  obtain ⟨plus, digits, hplus, hne, hdigits, rfl, htrim⟩ := h.trim_cases
  have hread := readDigits_eq_ok hdigits hn
  obtain ⟨c, cs, rfl⟩ := List.exists_cons_of_ne_nil hne
  rw [htrim]
  rcases hplus with rfl | rfl
  · have hc : c ≠ '+' := by
      rintro rfl
      exact absurd (hdigits '+' List.mem_cons_self) (by decide)
    rw [List.nil_append, Text.readWord, hread]
    · rintro ⟨⟩
    · rintro ⟨⟩
      exact hc rfl
    · rintro _ ⟨⟩
      exact hc rfl
  · exact hread

/-- A text that spells a number does not spell `unlimited`. -/
theorem sameLetters (h : SpellsNumber n raw) :
    sameLetters (trim raw.toList) "unlimited" = false := by
  obtain ⟨plus, digits, hplus, hne, hdigits, -, htrim⟩ := h.trim_cases
  obtain ⟨c, cs, rfl⟩ := List.exists_cons_of_ne_nil hne
  rw [Bool.eq_false_iff]
  intro hsame
  have hletters : (trim raw.toList).map Char.toLower = "unlimited".toList := eq_of_beq hsame
  rw [htrim] at hletters
  rcases hplus with rfl | rfl
  · have hc := hdigits c List.mem_cons_self
    have hu : c.toLower = 'u' := (List.cons.inj hletters).1
    rw [toLower_of_digit hc] at hu
    rw [hu] at hc
    exact absurd hc (by decide)
  · have hu : Char.toLower '+' = 'u' := (List.cons.inj hletters).1
    exact absurd hu (by decide)

end SpellsNumber

/-- A text that spells `unlimited` in either case **is read as that**. -/
theorem SpellsUnlimited.sameLetters {raw : String} (h : SpellsUnlimited raw) :
    sameLetters (trim raw.toList) "unlimited" = true := by
  obtain ⟨letters, hletters, hframed⟩ := h
  have hlower : ∀ c d, d ∈ "unlimited".toList → c = d ∨ c = d.toUpper →
      c.toLower = d ∧ isBlank c = false := by
    intro c d hd hc
    have hletter : ("unlimited".toList.all fun d => d.toLower == d && !isBlank d) = true := rfl
    have hupper : ("unlimited".toList.all fun d =>
        d.toUpper.toLower == d && !isBlank d.toUpper) = true := rfl
    simp only [List.all_eq_true, Bool.and_eq_true, beq_iff_eq, Bool.not_eq_true'] at hletter hupper
    rcases hc with rfl | rfl
    · exact hletter c hd
    · exact hupper d hd
  have hmap : ∀ (ls ws : List Char), List.Forall₂ (fun c d => c = d ∨ c = d.toUpper) ls ws →
      (∀ d ∈ ws, d ∈ "unlimited".toList) →
        ls.map Char.toLower = ws ∧ ∀ c ∈ ls, isBlank c = false := by
    intro ls ws hforall
    induction hforall with
    | nil => exact fun _ => ⟨rfl, nofun⟩
    | @cons c d ls ws hc _ ih =>
      intro hws
      rw [List.forall_mem_cons] at hws
      obtain ⟨hrest, hblank⟩ := ih hws.2
      obtain ⟨hcd, hcblank⟩ := hlower c d hws.1 hc
      rw [List.map_cons, hrest, hcd, List.forall_mem_cons]
      exact ⟨rfl, hcblank, hblank⟩
  obtain ⟨hsame, hblank⟩ := hmap letters _ hletters fun d hd => hd
  have hne : letters ≠ [] := by
    rintro rfl
    cases hletters
  rw [TurnPool.sameLetters, hframed.trim hne hblank, hsame]
  exact beq_self_eq_true _

/-! ### Sources of variables -/

/-- The variable `name` is set to a text that spells the value, or is not set if there is none. -/
def Gives {α : Type} (lookup : String → Option String) (name : String)
    (spells : α → String → Prop) : Option α → Prop
  | none => lookup name = none
  | some a => ∃ raw, lookup name = some raw ∧ spells a raw

/-- A source of variables **gives just these settings**. -/
structure Overrides.IsEnvironment (o : Overrides) (lookup : String → Option String) : Prop where
  lowWatermark : Gives lookup (variableStem ++ "LOW_WATERMARK") SpellsNumber o.lowWatermark
  highWatermark : Gives lookup (variableStem ++ "HIGH_WATERMARK") SpellsNumber o.highWatermark
  maxThreads : Gives lookup (variableStem ++ "MAX_THREADS") SpellsNumber o.maxThreads
  shrinkDelayMs : Gives lookup (variableStem ++ "SHRINK_DELAY_MS") SpellsNumber o.shrinkDelayMs
  stackSize : Gives lookup (variableStem ++ "THREAD_STACK_SIZE")
    (fun size raw => ∃ n, size = some n ∧ SpellsNumber n raw) o.stackSize
  maxQueueDepth : Gives lookup (variableStem ++ "MAX_QUEUE_DEPTH") SpellsNumber o.maxQueueDepth
  limits : ∀ c : Category, Gives lookup (variableStem ++ "TOKEN_LIMIT_" ++ c.envName) SpellsLimit
    (o.limits.bind (·.get c))
  minDelayMs : Gives lookup (variableStem ++ "BACKOFF_MIN_MS") SpellsNumber o.minDelayMs
  maxDelayMs : Gives lookup (variableStem ++ "BACKOFF_MAX_MS") SpellsNumber o.maxDelayMs

namespace Setting

variable {lookup : String → Option String}

/-- A setting whose variable is not set changes nothing, and one whose variable spells a value puts
that into its field. -/
theorem apply_of_gives {α : Type} {spells : α → String → Prop} {s : Setting} {a? : Option α}
    (set : α → Config → Config) (hgives : Gives lookup s.variableName spells a?) {c : Config}
    (hput : ∀ a ∈ a?, ∀ raw, spells a raw → s.put (trim raw.toList) c = .ok (set a c)) :
    s.apply lookup c = .ok (a?.elim c (set · c)) := by
  cases a? with
  | none =>
    rw [apply, show lookup s.variableName = none from hgives]
    rfl
  | some a =>
    obtain ⟨raw, hset, hspells⟩ := hgives
    rw [apply, hset]
    dsimp only
    rw [hput a rfl raw hspells]
    rfl

/-- Setting a field to what is given, and to its old value otherwise, is setting it if it is
given. -/
theorem elim_eq_getD {α : Type} {set : α → Config → Config} {c : Config} {old : α}
    (hold : set old c = c) (a? : Option α) : a?.elim c (set · c) = set (a?.getD old) c := by
  cases a? with
  | none => exact hold.symm
  | some a => rfl

/-- A number that is given **is put into its field**, and the field is unchanged otherwise. -/
theorem apply_number {name : String} {put : Nat → Config → Config} {n? : Option Nat}
    (hgives : Gives lookup (variableStem ++ name) SpellsNumber n?) (hn : ∀ n ∈ n?, n ≤ wordMax)
    {c : Config} (old : Nat) (hold : put old c = c) :
    (number name put).apply lookup c = .ok (put (n?.getD old) c) := by
  rw [apply_of_gives put hgives, elim_eq_getD hold]
  intro n hmem raw hspells
  show (readWord (trim raw.toList)).map _ = _
  rw [hspells.readWord (hn n hmem)]
  rfl

/-- A stack size that is given is put into its field; it cannot be given as `none`. -/
theorem apply_stackSize {size? : Option (Option Nat)}
    (hgives : Gives lookup (variableStem ++ "THREAD_STACK_SIZE")
      (fun size raw => ∃ n, size = some n ∧ SpellsNumber n raw) size?)
    (hn : ∀ size ∈ size?, ∀ n ∈ size, n ≤ wordMax) (c : Config) :
    (number "THREAD_STACK_SIZE" fun n c => { c with threads.stackSize := some n }).apply lookup c =
      .ok { c with threads.stackSize := size?.getD c.threads.stackSize } := by
  rw [apply_of_gives (fun size c => { c with threads.stackSize := size }) hgives]
  · cases size? <;> rfl
  · rintro _ hmem raw ⟨n, rfl, hspells⟩
    show (readWord (trim raw.toList)).map _ = _
    rw [hspells.readWord (hn _ hmem n rfl)]
    rfl

/-- A limit that is given **is put into the list** under its category. -/
theorem apply_limit {d : Category} {limit? : Option (Option Nat)}
    (hgives : Gives lookup (variableStem ++ "TOKEN_LIMIT_" ++ d.envName) SpellsLimit limit?)
    (hn : ∀ limit ∈ limit?, ∀ n ∈ limit, n ≤ wordMax) (c : Config) :
    (limit d).apply lookup c =
      .ok { c with tokens := limit?.elim c.tokens (c.tokens.withLimit d) } := by
  refine (apply_of_gives (fun l c => { c with tokens := c.tokens.withLimit d l }) hgives
    fun l hmem raw hspells => ?_).trans (by cases limit? <;> rfl)
  cases l with
  | none =>
    show (if sameLetters (trim raw.toList) "unlimited" then _ else _) = _
    rw [if_pos (SpellsUnlimited.sameLetters hspells)]
  | some n =>
    have hnumber : SpellsNumber n raw := hspells
    show (if sameLetters (trim raw.toList) "unlimited" then _ else _) = _
    rw [hnumber.sameLetters, if_neg Bool.false_ne_true, hnumber.readWord (hn (some n) hmem n rfl)]
    rfl

end Setting

namespace Overrides

variable {o : Overrides} {lookup : String → Option String}

/-- The limits that are given are put into the list one after the other. -/
theorem override_limits (ho : o.InWords) (henv : o.IsEnvironment lookup) (cs : List Category)
    (c : Config) :
    override lookup (cs.map Setting.limit) c = .ok { c with
      tokens :=
        cs.foldl (fun t d => (o.limits.bind (·.get d)).elim t (t.withLimit d)) c.tokens } := by
  induction cs generalizing c with
  | nil => rfl
  | cons d cs ih =>
    have hn : ∀ limit ∈ o.limits.bind (·.get d), ∀ n ∈ limit, n ≤ wordMax := by
      intro limit hlimit
      obtain ⟨t, ht, hget⟩ := Option.bind_eq_some_iff.1 hlimit
      exact ho.limits t ht d limit hget
    rw [List.map_cons, override, Setting.apply_limit (henv.limits d) hn c]
    exact ih _

/-- Limits that are given for every category make the whole list. -/
theorem foldl_limits (hall : ∀ t ∈ o.limits, ∀ c, (t.get c).isSome) (t : TokenConfig) :
    Category.all.foldl (fun t d => (o.limits.bind (·.get d)).elim t (t.withLimit d)) t =
      o.applyTokens t := by
  cases hlimits : o.limits with
  | none =>
    rw [applyTokens, hlimits]
    rfl
  | some given =>
    rw [applyTokens, hlimits]
    choose limit hlimit using fun c => Option.isSome_iff_exists.1 (hall given hlimits c)
    simp only [Option.bind_some, hlimit, Option.elim_some]
    refine congrArg TokenConfig.mk (PerCategory.ext_get fun c => ?_)
    rw [Option.getD_some, hlimit]
    cases c <;> rfl

/-- `override` applies the first setting, and then the others. -/
theorem override_cons {s : Setting} {ss : List Setting} {c c' : Config}
    {r : Except ConfigFault Config} (happly : s.apply lookup c = .ok c')
    (hrest : override lookup ss c' = r) : override lookup (s :: ss) c = r := by
  rw [override, happly]
  exact hrest

/-- Variables that give just the settings of `o` **apply `o`**, if they give a limit for every
category or for none. -/
theorem override_of_isEnvironment (ho : o.InWords)
    (hall : ∀ t ∈ o.limits, ∀ c, (t.get c).isSome) (henv : o.IsEnvironment lookup) (c : Config) :
    override lookup settings c = .ok (o.apply c) := by
  refine override_cons
    (Setting.apply_number henv.lowWatermark ho.lowWatermark c.threads.lowWatermark rfl) ?_
  refine override_cons
    (Setting.apply_number henv.highWatermark ho.highWatermark c.threads.highWatermark rfl) ?_
  refine override_cons
    (Setting.apply_number henv.maxThreads ho.maxThreads c.threads.maxThreads rfl) ?_
  refine override_cons
    (Setting.apply_number henv.shrinkDelayMs ho.shrinkDelayMs c.threads.shrinkDelayMs rfl) ?_
  refine override_cons
    (Setting.apply_number henv.maxQueueDepth ho.maxQueueDepth c.threads.maxQueueDepth rfl) ?_
  refine override_cons (Setting.apply_stackSize henv.stackSize ho.stackSize _) ?_
  refine override_cons
    (Setting.apply_number henv.minDelayMs ho.minDelayMs c.backoff.minDelayMs rfl) ?_
  refine override_cons
    (Setting.apply_number henv.maxDelayMs ho.maxDelayMs c.backoff.maxDelayMs rfl) ?_
  refine (override_limits ho henv Category.all _).trans ?_
  rw [foldl_limits hall]
  rfl

end Overrides

/-! ### Both paths -/

/-- **Two ways to give a configuration.** Let `o` be settings whose numbers fit into words, with a
limit for every category or for none. On any host, a text that is parsed as a document of `o`, and
variables that are an environment of `o`, lead to the same result: `o` applied to the default of the
host if `validate` accepts that, and the first fault of `validate` otherwise. -/
theorem config_paths_agree {o : Overrides} (ho : o.InWords)
    (hall : ∀ t ∈ o.limits, ∀ c, (t.get c).isSome) (processors : Nat) :
    (∀ j, o.IsDocument j → Json.parse j.text = some j) ∧
    ∀ text j lookup, Json.parse text = some j → o.IsDocument j → o.IsEnvironment lookup →
      Config.ofDocumentOn processors text = Config.ofLookupOn processors lookup ∧
      Config.ofLookupOn processors lookup =
        let c := o.apply (.forProcessors processors)
        c.validate.map fun _ => c := by
  refine ⟨fun j hj => parse_text hj.readable, fun text j lookup hparse hj hlookup => ?_⟩
  have hread := Overrides.ofJson?_of_isDocument ho hj processors
  have hdocument := Config.ofDocumentOn_of_parse hparse hread
  have hvariables : Config.ofLookupOn processors lookup =
      (o.apply (.forProcessors processors)).checked := by
    rw [Config.ofLookupOn, Overrides.override_of_isEnvironment ho hall hlookup]
    rfl
  exact ⟨hdocument.trans hvariables.symm, hvariables⟩

/-- Some numbers, one of which makes no valid configuration, and limits for every category. -/
def Overrides.crossed : Overrides :=
  { lowWatermark := some 3
    highWatermark := none
    maxThreads := some 2
    shrinkDelayMs := none
    stackSize := some (some 65536)
    maxQueueDepth := none
    limits := some ((PerCategory.const (some none)).set .client (some (some 7)))
    minDelayMs := none
    maxDelayMs := some wordMax }

/-- A document with these settings. -/
def crossedDocument : Json :=
  .ofFields [
    ("tokens", .ofFields [("limits", .ofFields (Overrides.limitMembers
      ((PerCategory.const (some none)).set .client (some (some 7)))))]),
    ("threads", .ofFields [("max_threads", ofNat 2), ("low_watermark", ofNat 3),
      ("thread_stack_size", ofNat 65536)]),
    ("backoff", .ofFields [("max_delay_ms", ofNat wordMax)])]

/-- Variables with these settings. -/
def crossedVariables (name : String) : Option String :=
  [("SYNCD_LOW_WATERMARK", "+003"), ("SYNCD_MAX_THREADS", " 2\n"),
   ("SYNCD_THREAD_STACK_SIZE", "65536"), ("SYNCD_BACKOFF_MAX_MS", "18446744073709551615"),
   ("SYNCD_TOKEN_LIMIT_CLIENT", "07"), ("SYNCD_TOKEN_LIMIT_SERVER", "unlimited"),
   ("SYNCD_TOKEN_LIMIT_UPLOAD", " Unlimited"), ("SYNCD_TOKEN_LIMIT_HOUSEKEEPING", "UNLIMITED"),
   ("SYNCD_TOKEN_LIMIT_UNLIMITED", "unLimited"),
   ("SYNCD_TOKEN_LIMIT_USER_RESOLUTION", "unlimited ")].lookup name

/-- Both paths refuse the settings of `crossed`, with the same fault. -/
theorem config_paths_agree_crossed :
    Config.ofDocumentOn 8 crossedDocument.text = Config.ofLookupOn 8 crossedVariables ∧
      Config.ofLookupOn 8 crossedVariables = .error (.part .threads .maxBelowHigh) := by
  have hwords : Overrides.crossed.InWords := {
    lowWatermark := by rintro _ ⟨⟩; decide
    highWatermark := nofun
    maxThreads := by rintro _ ⟨⟩; decide
    shrinkDelayMs := nofun
    stackSize := by rintro _ ⟨⟩ _ ⟨⟩; decide
    maxQueueDepth := nofun
    limits := by
      rintro _ ⟨⟩ c
      cases c
      all_goals rintro _ ⟨⟩ n ⟨⟩
      decide
    minDelayMs := nofun
    maxDelayMs := by rintro _ ⟨⟩; decide }
  have hall : ∀ t ∈ Overrides.crossed.limits, ∀ c, (t.get c).isSome := by
    rintro _ ⟨⟩ c
    cases c <;> rfl
  have hnumber : ∀ (name : String) (n : Nat) (plus zeros before after : List Char) (raw : String),
      crossedVariables name = some raw → (plus = [] ∨ plus = ['+']) → zeros.all (· == '0') = true →
      before.all isBlank = true → after.all isBlank = true →
      raw.toList = before ++ (plus ++ (zeros ++ Nat.toDigits 10 n)) ++ after →
      Gives crossedVariables name SpellsNumber (some n) :=
    fun _ _ plus zeros before after raw hset hplus hzeros hbefore hafter hraw =>
      ⟨raw, hset, plus, zeros, hplus, fun c hc => eq_of_beq (List.all_eq_true.1 hzeros c hc),
        before, after, List.all_eq_true.1 hbefore, List.all_eq_true.1 hafter, hraw⟩
  have hunlimited : ∀ (name : String) (before letters after : List Char) (raw : String),
      crossedVariables name = some raw →
      List.Forall₂ (fun c d => c = d ∨ c = d.toUpper) letters "unlimited".toList →
      before.all isBlank = true → after.all isBlank = true →
      raw.toList = before ++ letters ++ after →
      Gives crossedVariables name SpellsLimit (some none) :=
    fun _ before letters after raw hset hletters hbefore hafter hraw =>
      ⟨raw, hset, letters, hletters, before, after, List.all_eq_true.1 hbefore,
        List.all_eq_true.1 hafter, hraw⟩
  have hvariables : Overrides.crossed.IsEnvironment crossedVariables := {
    lowWatermark := hnumber _ 3 ['+'] ['0', '0'] [] [] "+003" rfl (Or.inr rfl) rfl rfl rfl rfl
    highWatermark := rfl
    maxThreads := hnumber _ 2 [] [] [' '] ['\n'] " 2\n" rfl (Or.inl rfl) rfl rfl rfl rfl
    shrinkDelayMs := rfl
    stackSize := by
      obtain ⟨raw, hset, hraw⟩ := hnumber (variableStem ++ "THREAD_STACK_SIZE") 65536 [] [] [] []
        "65536" rfl (Or.inl rfl) rfl rfl rfl rfl
      exact ⟨raw, hset, 65536, rfl, hraw⟩
    maxQueueDepth := rfl
    limits := fun c => by
      cases c with
      | client => exact hnumber _ 7 [] ['0'] [] [] "07" rfl (Or.inl rfl) rfl rfl rfl rfl
      | server =>
        exact hunlimited _ [] "unlimited".toList [] "unlimited" rfl (by decide) rfl rfl rfl
      | upload =>
        exact hunlimited _ [' '] "Unlimited".toList [] " Unlimited" rfl (by decide) rfl rfl rfl
      | housekeeping =>
        exact hunlimited _ [] "UNLIMITED".toList [] "UNLIMITED" rfl (by decide) rfl rfl rfl
      | unlimited =>
        exact hunlimited _ [] "unLimited".toList [] "unLimited" rfl (by decide) rfl rfl rfl
      | userResolution =>
        exact hunlimited _ [] "unlimited".toList [' '] "unlimited " rfl (by decide) rfl rfl rfl
    minDelayMs := rfl
    maxDelayMs := hnumber _ wordMax [] [] [] [] "18446744073709551615" rfl (Or.inl rfl) rfl rfl rfl
      rfl }
  have hdocument : Overrides.crossed.IsDocument crossedDocument := by
    exact ⟨_, _, _, _, ⟨_, .swap _ _ _, rfl⟩, Or.inr ⟨_, rfl, _, .swap _ _ _, rfl⟩,
      Or.inr ⟨_, rfl, isObject_ofFields _⟩, Or.inr ⟨_, rfl, isObject_ofFields _⟩,
      Or.inr ⟨_, _, rfl, rfl, isObject_ofFields _⟩⟩
  obtain ⟨htext, hpaths⟩ := config_paths_agree hwords hall 8
  obtain ⟨hsame, hresult⟩ := hpaths _ _ _ (htext _ hdocument) hdocument hvariables
  exact ⟨hsame, hresult.trans rfl⟩

end TurnPool
