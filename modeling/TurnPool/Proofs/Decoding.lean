import Mathlib.Data.List.Pairwise
import Mathlib.Data.List.TakeWhile
import TurnPool.Json.Decode
import TurnPool.Proofs.JsonRoundTrip

/-!
# Natural numbers and records in JSON

A natural number is written by its decimal digits, and read back if it fits into a word. A record is
read from the members of an object one after the other, whatever their order; since each field
changes its own part of the record only, the order is of no consequence.

## Main results

* `decimal?_eq_ofDigitChars`: the value of a run of digits.
* `word?_ofNat`, `wordOrNull?_ofNat?`: a number that fits into a word **reads back**.
* `decodeRecord?_keeps`: what each field keeps is so of every record that is read.
* `decodeRecord?_of_isObject`: a record **in any order** of its members.
-/

namespace TurnPool.Json

open Reader

/-! ### Numbers -/

/-- The decimal digits of a number are digits. -/
theorem isDigit_of_mem_toDigits {n : Nat} {c : Char} (h : c ∈ Nat.toDigits 10 n) :
    '0' ≤ c ∧ c ≤ '9' := by
  have hdigit := Nat.isDigit_of_mem_toDigits (by decide) (by decide) h
  simp only [Char.isDigit, Bool.and_eq_true, decide_eq_true_eq] at hdigit
  exact hdigit

/-- The value of a run of digits is `Nat.ofDigitChars`. -/
theorem decimal?_eq_ofDigitChars {cs : List Char} (h : ∀ c ∈ cs, '0' ≤ c ∧ c ≤ '9') :
    decimal? cs = some (Nat.ofDigitChars 10 cs 0) := by
  suffices hacc : ∀ (cs : List Char) (n : Nat), (∀ c ∈ cs, '0' ≤ c ∧ c ≤ '9') →
      cs.foldlM (fun n c => if '0' ≤ c ∧ c ≤ '9' then some (n * 10 + (c.toNat - 48)) else none) n =
        some (Nat.ofDigitChars 10 cs n) from hacc cs 0 h
  intro cs
  induction cs with
  | nil => intro n _; rfl
  | cons c cs ih =>
    intro n h
    rw [List.forall_mem_cons] at h
    rw [List.foldlM_cons, if_pos h.1, Nat.ofDigitChars_cons, Nat.mul_comm 10 n]
    exact ih _ h.2

/-- A number that fits into a word **reads back**. -/
theorem word?_ofNat {n : Nat} (h : n ≤ wordMax) : (ofNat n).word? = some n := by
  rw [ofNat, word?, decimal?_eq_ofDigitChars fun _ => isDigit_of_mem_toDigits,
    Nat.ofDigitChars_toDigits (by decide) (by decide), Option.filter_some,
    if_pos (by simpa using h)]

/-- A number that fits into a word, or `null`, reads back. -/
theorem wordOrNull?_ofNat? {n? : Option Nat} (h : ∀ n ∈ n?, n ≤ wordMax) :
    (ofNat? n?).wordOrNull? = some n? := by
  cases n? with
  | none => rfl
  | some n =>
    show (ofNat n).word?.map some = _
    rw [word?_ofNat (h n rfl)]
    rfl

/-- What is read as a word fits into one. -/
theorem le_of_word? {j : Json} {n : Nat} (h : j.word? = some n) : n ≤ wordMax := by
  cases j with
  | num literal => exact of_decide_eq_true (Option.filter_eq_some_iff.1 h).2
  | _ => cases h

/-- What is read as a word or `null` fits into one, if it is a number. -/
theorem le_of_wordOrNull? {j : Json} {n? : Option Nat} (h : j.wordOrNull? = some n?) :
    ∀ n ∈ n?, n ≤ wordMax := by
  rintro n rfl
  cases j with
  | null => cases h
  | num literal =>
    obtain ⟨m, hm, heq⟩ := Option.map_eq_some_iff.1 h
    cases heq
    exact le_of_word? hm
  | _ => cases h

/-- The digits of a positive number do not begin with a zero. -/
theorem head_toDigits {n : Nat} (h : 0 < n) : (Nat.toDigits 10 n).head? ≠ some '0' := by
  induction n using Nat.strongRecOn with
  | ind n ih =>
    by_cases hn : n < 10
    · have hdigit : ∀ n < 10, 0 < n → some n.digitChar ≠ some '0' := by decide
      rw [Nat.toDigits_of_lt_base hn]
      exact hdigit n hn h
    · have hrest := ih (n / 10) (by omega) (by omega)
      obtain ⟨c, cs, hcs⟩ := List.exists_cons_of_ne_nil (@Nat.toDigits_ne_nil (n / 10) 10)
      rw [Nat.toDigits_of_base_le (by decide) (Nat.not_lt.1 hn), hcs]
      rw [hcs] at hrest
      exact hrest

/-- The text of a number can be read back. -/
theorem readable_ofNat (n : Nat) : (ofNat n).Readable := by
  show number (Nat.toDigits 10 n) = some (Nat.toDigits 10 n, [])
  by_cases hzero : n = 0
  · subst hzero
    rfl
  · have hdigits : ∀ c ∈ Nat.toDigits 10 n, isDigit c = true := fun c hc => by
      have hdigit := isDigit_of_mem_toDigits hc
      simp only [isDigit, Bool.and_eq_true, decide_eq_true_eq]
      exact hdigit
    have hhead := head_toDigits (Nat.pos_of_ne_zero hzero)
    obtain ⟨c, cs, hcs⟩ := List.exists_cons_of_ne_nil (@Nat.toDigits_ne_nil n 10)
    rw [hcs] at hdigits hhead ⊢
    have hminus : c ≠ '-' := by
      rintro rfl
      exact absurd (hdigits '-' List.mem_cons_self) (by decide)
    have hwhole : whole (c :: cs) = some (c :: cs, []) := by
      rw [whole, digits, List.takeWhile_eq_self_iff.2 hdigits, List.dropWhile_eq_nil_iff.2 hdigits]
      rintro _ ⟨⟩
      exact hhead rfl
    rw [number, unsigned, hwhole]
    · simp [fraction, exponent]
    · rintro _ ⟨⟩
      exact hminus rfl

/-- The text of a number or `null` can be read back. -/
theorem readable_ofNat? (n? : Option Nat) : (ofNat? n?).Readable := by
  cases n? with
  | none => trivial
  | some n => exact readable_ofNat n

/-! ### Records -/

section Records

variable {α β : Type} {fields : List (RecordField α)}

/-- If every field keeps `P`, then **every record** that is read from a base with `P` has it. -/
theorem decodeRecord?_keeps {P : α → Prop}
    (hput : ∀ f ∈ fields, ∀ v a a', P a → f.put v a = some a' → P a') {base a : α} (hbase : P base)
    {j : Json} (h : decodeRecord? fields base j = some a) : P a := by
  have hmembers : ∀ (ms : List (Option String × Json)) (seen : List String) (b : α), P b →
      decodeMembers? fields seen ms b = some a → P a := by
    intro ms
    induction ms with
    | nil =>
      intro seen b hb h
      cases h
      exact hb
    | cons m ms ih =>
      intro seen b hb h
      obtain ⟨_ | k, v⟩ := m
      · cases h
      · rw [decodeMembers?] at h
        split at h
        · exact ih seen b hb h
        · rename_i f hfind
          split at h
          · cases h
          · obtain ⟨b', hb', hrest⟩ := Option.bind_eq_some_iff.1 h
            exact ih _ b' (hput f (List.mem_of_find?_eq_some hfind) v b b' hb hb') hrest
  have hitems : ∀ (fs : List (RecordField α)) (vs : List Json) (b : α), (∀ f ∈ fs, f ∈ fields) →
      P b → decodeItems? fs vs b = some a → P a := by
    intro fs
    induction fs with
    | nil =>
      intro vs b _ hb h
      cases vs with
      | nil =>
        cases h
        exact hb
      | cons v vs => cases h
    | cons f fs ih =>
      intro vs b hfs hb h
      rw [List.forall_mem_cons] at hfs
      cases vs with
      | nil =>
        cases h
        exact hb
      | cons v vs =>
        obtain ⟨b', hb', hrest⟩ := Option.bind_eq_some_iff.1 h
        exact ih vs b' hfs.2 (hput f hfs.1 v b b' hb hb') hrest
  cases j with
  | obj ms => exact hmembers ms [] base hbase h
  | arr vs => exact hitems fields vs base (fun _ hf => hf) hbase h
  | _ => cases h

/-- Take over one member. A key that is no field is passed over. -/
def putMember (fields : List (RecordField α)) (a : α) (m : String × Json) : Option α :=
  match fields.find? (·.name == m.1) with
  | none => some a
  | some f => f.put m.2 a

/-- Members of distinct names are taken over one after the other. -/
theorem decodeMembers?_eq_foldlM {ms : List (String × Json)} (hnodup : (ms.map Prod.fst).Nodup)
    {seen : List String} (hseen : ∀ m ∈ ms, m.1 ∉ seen) (a : α) :
    decodeMembers? fields seen (ms.map fun m => (some m.1, m.2)) a =
      ms.foldlM (putMember fields) a := by
  induction ms generalizing seen a with
  | nil => rfl
  | cons m ms ih =>
    rw [List.map_cons, List.nodup_cons] at hnodup
    rw [List.forall_mem_cons] at hseen
    rw [List.map_cons, decodeMembers?, List.foldlM_cons, putMember]
    cases fields.find? (·.name == m.1) with
    | none => exact ih hnodup.2 hseen.2 a
    | some f =>
      dsimp only
      rw [if_neg (by simpa using hseen.1)]
      refine congrArg (Option.bind _) (funext fun a' => ih hnodup.2 (fun x hx => ?_) a')
      rw [List.mem_cons, not_or]
      exact ⟨fun heq => hnodup.1 (heq ▸ List.mem_map_of_mem hx), hseen.2 x hx⟩

/-- Two fields that **can be put in either order**. -/
def Independent (f g : RecordField α) : Prop :=
  ∀ v w a, (f.put v a).bind (g.put w) = (g.put w a).bind (f.put v)

/-- Two fields whose changes commute are independent. -/
theorem independent_map {β γ : Type} {m n : String} {f : Json → Option β} {g : Json → Option γ}
    {setf : β → α → α} {setg : γ → α → α} (h : ∀ b c a, setg c (setf b a) = setf b (setg c a)) :
    Independent ⟨m, fun v a => (f v).map (setf · a)⟩ ⟨n, fun v a => (g v).map (setg · a)⟩ := by
  intro v w a
  dsimp only
  cases f v with
  | none => cases g w <;> rfl
  | some b =>
    cases g w with
    | none => rfl
    | some c => exact congrArg some (h b c a)

/-- A fold over a list of steps that commute pairwise does not depend on their order. -/
theorem foldlM_perm {f : α → β → Option α} {l l' : List β} (hperm : l.Perm l')
    (hcomm : l.Pairwise fun x y => ∀ a, (f a x).bind (f · y) = (f a y).bind (f · x)) (a : α) :
    l.foldlM f a = l'.foldlM f a := by
  induction hperm generalizing a with
  | nil => rfl
  | cons x _ ih =>
    rw [List.foldlM_cons, List.foldlM_cons]
    exact congrArg (Option.bind (f a x)) (funext fun a' => ih (List.Pairwise.of_cons hcomm) a')
  | swap x y l =>
    have hswap := List.rel_of_pairwise_cons hcomm List.mem_cons_self a
    simp only [List.foldlM_cons, Option.bind_eq_bind, ← Option.bind_assoc, hswap]
  | trans hfst _ ih ih' =>
    refine (ih hcomm a).trans (ih' ?_ a)
    exact (List.Perm.pairwise_iff (fun h a => (h a).symm) hfst).1 hcomm

/-- The field that `find?` finds for a name has that name. -/
theorem name_of_find? {name : String} {f : RecordField α}
    (h : fields.find? (·.name == name) = some f) : f ∈ fields ∧ f.name = name := by
  have hname := List.find?_some h
  exact ⟨List.mem_of_find?_eq_some h, eq_of_beq hname⟩

/-- Members of different names can be taken over in either order. -/
theorem putMember_comm (hapart : fields.Pairwise Independent) {m m' : String × Json}
    (hne : m.1 ≠ m'.1)
    (a : α) : (putMember fields a m).bind (putMember fields · m') =
      (putMember fields a m').bind (putMember fields · m) := by
  unfold putMember
  cases hfind : fields.find? (·.name == m.1) with
  | none => cases fields.find? (·.name == m'.1) <;> simp
  | some f =>
    cases hfind' : fields.find? (·.name == m'.1) with
    | none => simp
    | some g =>
      obtain ⟨hf, hfname⟩ := name_of_find? hfind
      obtain ⟨hg, hgname⟩ := name_of_find? hfind'
      have hfg : f ≠ g := by
        rintro rfl
        exact hne (hfname.symm.trans hgname)
      have hsymm : Std.Symm (@Independent α) := ⟨fun f g h v w a => (h w v a).symm⟩
      exact hapart.forall hf hg hfg m.2 m'.2 a

/-- `j` is an object with the members `ms`, in any order. -/
def IsObject (ms : List (String × Json)) (j : Json) : Prop :=
  ∃ ms', ms'.Perm ms ∧ j = ofFields ms'

/-- An object with the members in the given order is one. -/
theorem isObject_ofFields (ms : List (String × Json)) : IsObject ms (ofFields ms) :=
  ⟨ms, .refl ms, rfl⟩

/-- An object with readable members is readable. -/
theorem IsObject.readable {ms : List (String × Json)} {j : Json} (hj : IsObject ms j)
    (hms : ∀ m ∈ ms, m.2.Readable) : j.Readable := by
  obtain ⟨ms', hperm, rfl⟩ := hj
  have hms' : ∀ m ∈ ms', m.2.Readable := fun m hm => hms m (hperm.mem_iff.1 hm)
  show MembersReadable (ms'.map fun m => (some m.1, m.2))
  clear hperm
  induction ms' with
  | nil => trivial
  | cons m ms' ih =>
    rw [List.forall_mem_cons] at hms'
    exact ⟨rfl, hms'.1, ih hms'.2⟩

/-- A record is read **in any order** of its members. -/
theorem decodeRecord?_of_isObject (hapart : fields.Pairwise Independent) {ms : List (String × Json)}
    (hnodup : (ms.map Prod.fst).Nodup) {j : Json} (hj : IsObject ms j) (base : α) :
    decodeRecord? fields base j = ms.foldlM (putMember fields) base := by
  obtain ⟨ms', hperm, rfl⟩ := hj
  have hnodup' : (ms'.map Prod.fst).Nodup := (hperm.map Prod.fst).nodup_iff.2 hnodup
  refine (decodeMembers?_eq_foldlM hnodup' (fun _ _ => List.not_mem_nil) base).trans ?_
  refine foldlM_perm hperm ?_ base
  refine (List.pairwise_map.1 hnodup').imp fun {x y} hne a => ?_
  exact putMember_comm hapart hne a

/-! ### Objects some of whose fields may be missing -/

/-- The fields that are given. -/
def fieldsOf (fs : List (String × Option Json)) : List (String × Json) :=
  fs.filterMap fun f => f.2.map (f.1, ·)

/-- The names of the fields that are given are among those of all fields. -/
theorem sublist_fieldsOf (fs : List (String × Option Json)) :
    ((fieldsOf fs).map Prod.fst).Sublist (fs.map Prod.fst) := by
  induction fs with
  | nil => exact .slnil
  | cons f fs ih =>
    obtain ⟨name, _ | v⟩ := f
    · exact ih.cons name
    · exact ih.cons_cons name

/-- A field is given if it has a value. -/
theorem mem_fieldsOf {fs : List (String × Option Json)} {m : String × Json} :
    m ∈ fieldsOf fs ↔ (m.1, some m.2) ∈ fs := by
  obtain ⟨name, v⟩ := m
  simp only [fieldsOf, List.mem_filterMap, Option.map_eq_some_iff, Prod.mk.injEq]
  constructor
  · rintro ⟨⟨n, w⟩, hmem, v', rfl, rfl, rfl⟩
    exact hmem
  · intro hmem
    exact ⟨_, hmem, v, rfl, rfl, rfl⟩

/-- Take over a field, if it is given. -/
def putIfGiven (fields : List (RecordField α)) (a : α) (f : String × Option Json) : Option α :=
  match f.2 with
  | none => some a
  | some v => putMember fields a (f.1, v)

/-- Taking over the fields that are given is taking over each field if it is given. -/
theorem foldlM_fieldsOf (fs : List (String × Option Json)) (a : α) :
    (fieldsOf fs).foldlM (putMember fields) a = fs.foldlM (putIfGiven fields) a := by
  induction fs generalizing a with
  | nil => rfl
  | cons f fs ih =>
    obtain ⟨name, _ | v⟩ := f
    · exact ih a
    · show (putMember fields a (name, v)).bind _ = (putMember fields a (name, v)).bind _
      exact congrArg _ (funext ih)

/-- A field whose value is given and reads back is set to it; one that is not given leaves the
record as it is. -/
theorem putIfGiven_map {name : String} {read : Json → Option β} {write : β → Json}
    {set : β → α → α}
    (hfind : fields.find? (·.name == name) = some ⟨name, fun v a => (read v).map (set · a)⟩)
    {b? : Option β} (hread : ∀ b ∈ b?, read (write b) = some b) {a a' : α}
    (ha : b?.elim a (set · a) = a') : putIfGiven fields a (name, b?.map write) = some a' := by
  cases b? with
  | none => exact congrArg some ha
  | some b =>
    show putMember fields a (name, write b) = some a'
    rw [putMember, hfind, ← ha]
    dsimp only
    rw [hread b rfl]
    rfl

/-- `j?` is an object with the fields of a section, in any order, or nothing if none is given. -/
def IsSection (ms : List (String × Json)) (j? : Option Json) : Prop :=
  (j? = none ∧ ms = []) ∨ ∃ j, j? = some j ∧ IsObject ms j

/-- A section with readable fields is readable. -/
theorem IsSection.readable {fs : List (String × Option Json)} {j? : Option Json}
    (hj : IsSection (fieldsOf fs) j?) (hfs : ∀ f ∈ fs, ∀ v ∈ f.2, v.Readable) :
    ∀ j ∈ j?, j.Readable := by
  rintro j rfl
  rcases hj with ⟨hnone, -⟩ | ⟨j', hsome, hobject⟩
  · cases hnone
  · cases hsome
    exact hobject.readable fun m hm => hfs _ (mem_fieldsOf.1 hm) m.2 rfl

/-- A section is read as **its fields change the base**, whether it is there or not. -/
theorem IsSection.decoded {fs : List (String × Option Json)} {j? : Option Json}
    (hj : IsSection (fieldsOf fs) j?) (hapart : fields.Pairwise Independent)
    (hnodup : (fs.map Prod.fst).Nodup) {base a : α}
    (hfold : fs.foldlM (putIfGiven fields) base = some a) :
    (j? = none ∧ a = base) ∨ ∃ j, j? = some j ∧ decodeRecord? fields base j = some a := by
  rw [← foldlM_fieldsOf] at hfold
  rcases hj with ⟨hnone, hnil⟩ | ⟨j, hsome, hobject⟩
  · rw [hnil] at hfold
    exact Or.inl ⟨hnone, (Option.some.inj hfold).symm⟩
  · refine Or.inr ⟨j, hsome, ?_⟩
    rw [decodeRecord?_of_isObject hapart ((sublist_fieldsOf fs).nodup hnodup) hobject, hfold]

/-- A section is set to **what it makes of its base**, whether it is there or not. -/
theorem putIfGiven_section {name : String} {read : Json → Option β} {set : β → α → α}
    (hfind : fields.find? (·.name == name) = some ⟨name, fun v a => (read v).map (set · a)⟩)
    {j? : Option Json} {base b : β}
    (hj : (j? = none ∧ b = base) ∨ ∃ j, j? = some j ∧ read j = some b) {a : α}
    (ha : set base a = a) : putIfGiven fields a (name, j?) = some (set b a) := by
  rcases hj with ⟨rfl, rfl⟩ | ⟨j, rfl, hread⟩
  · exact congrArg some ha.symm
  · show putMember fields a (name, j) = some (set b a)
    rw [putMember, hfind]
    dsimp only
    rw [hread]
    rfl

end Records

end TurnPool.Json
