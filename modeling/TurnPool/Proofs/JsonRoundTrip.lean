import TurnPool.Json.Reader

/-!
# Reading what was written

The compact text of a JSON value reads back as that value. A value may hold what has no text to
read back: a literal that is no number, or a string without a text. `Json.Readable` says that it
does not.

## How much the reader needs

The reader is bounded by the number of values and brackets that it may open, and each of them has a
character of its own in the text. So the length of a text bounds what is needed to read it, also
when more text follows (`Reader.value_chars`). A number has no end of its own: what follows it must
not go on as a number would (`Reader.EndsNumber`), and in the text of a value it never does.

## Main results

* `Reader.number_append`, `Reader.string_stringText`: numbers and strings with text behind them.
* `Reader.value_chars`: a value with text behind it.
* `parse_text`: **the text of a value reads back** as that value.
-/

namespace TurnPool.Json

namespace Reader

variable {cs ds r rest : List Char}

/-! ### Numbers -/

/-- `r` does not begin with a digit, a point or an exponent letter, so no number goes on in it. -/
def EndsNumber (r : List Char) : Prop :=
  ∀ c ∈ r.head?, isDigit c = false ∧ c ≠ '.' ∧ c ≠ 'e' ∧ c ≠ 'E'

/-- The empty text ends numbers. -/
theorem endsNumber_nil : EndsNumber [] := nofun

/-- A text ends numbers if its first character is neither a digit, a point nor an exponent
letter. -/
theorem endsNumber_cons {c : Char}
    (h : isDigit c = false ∧ c ≠ '.' ∧ c ≠ 'e' ∧ c ≠ 'E') : EndsNumber (c :: r) := by
  rintro d ⟨⟩
  exact h

/-- A text that ends numbers has no leading digits. -/
theorem EndsNumber.takeWhile (hr : EndsNumber r) : r.takeWhile isDigit = [] := by
  cases r with
  | nil => rfl
  | cons c r => rw [List.takeWhile_cons, (hr c rfl).1, if_neg Bool.false_ne_true]

/-- Dropping the leading digits of a text that ends numbers drops nothing. -/
theorem EndsNumber.dropWhile (hr : EndsNumber r) : r.dropWhile isDigit = r := by
  cases r with
  | nil => rfl
  | cons c r => rw [List.dropWhile_cons, (hr c rfl).1, if_neg Bool.false_ne_true]

/-- `digits` reads the same with `r` behind it, if `r` ends numbers. -/
theorem digits_append (hr : EndsNumber r) (h : digits cs = some (ds, rest)) :
    digits (cs ++ r) = some (ds, rest ++ r) := by
  have htake : (cs ++ r).takeWhile isDigit = cs.takeWhile isDigit := by
    rw [List.takeWhile_append, hr.takeWhile]
    split
    · rename_i hall
      rw [List.append_nil, (List.takeWhile_prefix isDigit).eq_of_length hall]
    · rfl
  have hdrop : (cs ++ r).dropWhile isDigit = cs.dropWhile isDigit ++ r := by
    rw [List.dropWhile_append, hr.dropWhile]
    split
    · rename_i hnone
      rw [List.isEmpty_iff.1 hnone, List.nil_append]
    · rfl
  rw [digits] at h ⊢
  rw [htake, hdrop]
  cases hds : cs.takeWhile isDigit with
  | nil =>
    rw [hds] at h
    cases h
  | cons d ds' =>
    rw [hds] at h
    cases h
    rfl

/-- `whole` reads the same with `r` behind it, if `r` ends numbers. -/
theorem whole_append (hr : EndsNumber r) (h : whole cs = some (ds, rest)) :
    whole (cs ++ r) = some (ds, rest ++ r) := by
  cases cs with
  | nil => cases h
  | cons c cs =>
    by_cases hc : c = '0'
    · subst hc
      cases h
      rfl
    · have heq : ∀ cs, whole (c :: cs) = digits (c :: cs) := fun cs => by
        rw [whole]
        rintro _ ⟨⟩
        exact hc rfl
      rw [heq] at h
      rw [List.cons_append, heq]
      exact digits_append hr h

/-- Without a point the fraction is empty. -/
theorem fraction_of_ne {c : Char} (hc : c ≠ '.') : fraction (c :: cs) = some ([], c :: cs) := by
  rw [fraction]
  rintro _ ⟨⟩
  exact hc rfl

/-- `fraction` reads the same with `r` behind it, if `r` ends numbers. -/
theorem fraction_append (hr : EndsNumber r) (h : fraction cs = some (ds, rest)) :
    fraction (cs ++ r) = some (ds, rest ++ r) := by
  cases cs with
  | nil =>
    cases h
    cases r with
    | nil => rfl
    | cons c r => exact fraction_of_ne (hr c rfl).2.1
  | cons c cs =>
    by_cases hc : c = '.'
    · subst hc
      rw [fraction, Option.map_eq_some_iff] at h
      obtain ⟨⟨ds', rest'⟩, hds, heq⟩ := h
      cases heq
      rw [List.cons_append, fraction, digits_append hr hds]
      rfl
    · rw [fraction_of_ne hc] at h
      cases h
      exact fraction_of_ne hc

/-- The sign of an exponent is read the same with any text behind it. -/
theorem exponentSign_append (h : cs ≠ []) :
    exponentSign (cs ++ r) = ((exponentSign cs).1, (exponentSign cs).2 ++ r) := by
  obtain ⟨c, cs, rfl⟩ := List.exists_cons_of_ne_nil h
  rw [List.cons_append]
  by_cases hplus : c = '+'
  · subst hplus
    rfl
  · by_cases hminus : c = '-'
    · subst hminus
      rfl
    · have heq : ∀ cs, exponentSign (c :: cs) = ([], c :: cs) := fun cs => by
        rw [exponentSign]
        · rintro _ ⟨⟩
          exact hplus rfl
        · rintro _ ⟨⟩
          exact hminus rfl
      rw [heq, heq]
      rfl

/-- `exponent` reads the same with `r` behind it, if `r` ends numbers. -/
theorem exponent_append (hr : EndsNumber r) (h : exponent cs = some (ds, rest)) :
    exponent (cs ++ r) = some (ds, rest ++ r) := by
  cases cs with
  | nil =>
    cases h
    cases r with
    | nil => rfl
    | cons c r =>
      have hc := hr c rfl
      rw [List.nil_append, exponent, if_neg (by simp [hc.2.2])]
  | cons c cs =>
    rw [exponent] at h
    rw [List.cons_append, exponent]
    by_cases hc : (c = 'e' || c = 'E') = true
    · rw [if_pos hc] at h ⊢
      have hne : cs ≠ [] := by
        rintro rfl
        cases h
      simp only [Option.map_eq_some_iff] at h
      obtain ⟨⟨ds', rest'⟩, hds, heq⟩ := h
      cases heq
      simp only [exponentSign_append hne, digits_append hr hds, Option.map_some]
    · rw [if_neg hc] at h ⊢
      cases h
      rfl

/-- `unsigned` reads the same with `r` behind it, if `r` ends numbers. -/
theorem unsigned_append (hr : EndsNumber r) (h : unsigned cs = some (ds, rest)) :
    unsigned (cs ++ r) = some (ds, rest ++ r) := by
  simp only [unsigned, Option.bind_eq_bind, Option.bind_eq_some_iff, Option.some.injEq] at h
  obtain ⟨⟨w, r₁⟩, hw, ⟨f, r₂⟩, hf, ⟨e, r₃⟩, he, heq⟩ := h
  cases heq
  simp only [unsigned, Option.bind_eq_bind, whole_append hr hw, fraction_append hr hf,
    exponent_append hr he, Option.bind_some]

/-- `number` **reads the same** with `r` behind it, if `r` ends numbers. -/
theorem number_append (hr : EndsNumber r) (h : number cs = some (ds, rest)) :
    number (cs ++ r) = some (ds, rest ++ r) := by
  cases cs with
  | nil => cases h
  | cons c cs =>
    rw [List.cons_append]
    by_cases hc : c = '-'
    · subst hc
      rw [number, Option.map_eq_some_iff] at h
      obtain ⟨⟨ds', rest'⟩, hds, heq⟩ := h
      cases heq
      rw [number, unsigned_append hr hds]
      rfl
    · have heq : ∀ cs, number (c :: cs) = unsigned (c :: cs) := fun cs => by
        rw [number]
        rintro _ ⟨⟩
        exact hc rfl
      rw [heq] at h ⊢
      exact unsigned_append hr h

/-- A number begins with a digit or with the sign. -/
theorem exists_head_of_number (h : number cs = some (ds, rest)) :
    ∃ c cs', cs = c :: cs' ∧ (isDigit c = true ∨ c = '-') := by
  cases cs with
  | nil => cases h
  | cons c cs =>
    refine ⟨c, cs, rfl, ?_⟩
    by_cases hminus : c = '-'
    · exact Or.inr hminus
    · by_cases hdigit : isDigit c = true
      · exact Or.inl hdigit
      · have hzero : c ≠ '0' := fun heq => hdigit (heq ▸ rfl)
        have hwhole : whole (c :: cs) = none := by
          rw [whole, digits, List.takeWhile_cons, if_neg hdigit]
          rintro _ ⟨⟩
          exact hzero rfl
        rw [number, unsigned, hwhole] at h
        · cases h
        · rintro _ ⟨⟩
          exact hminus rfl

/-! ### Strings -/

/-- The two hexadecimal digits of a control character are read back as its number. -/
theorem hex4?_hexDigit :
    ∀ n < 0x20, hex4? '0' '0' (hexDigit (n / 16)) (hexDigit (n % 16)) = some n := by
  decide

/-- A unit below `0x20` is the character of that number. -/
theorem assemble_unit {n : Nat} (h : n < 0x20) (ps : List Piece) :
    assemble (.unit n :: ps) = (assemble ps).map (Char.ofNat n :: ·) := by
  have hhigh : isHigh n = false := by
    simp only [isHigh, Bool.and_eq_false_imp, decide_eq_true_eq, decide_eq_false_iff_not]
    omega
  have hlow : isLow n = false := by
    simp only [isLow, Bool.and_eq_false_imp, decide_eq_true_eq, decide_eq_false_iff_not]
    omega
  cases ps with
  | nil => simp [assemble, hhigh, hlow]
  | cons p ps =>
    cases p with
    | char c => simp [assemble, hhigh, hlow]
    | unit m => simp [assemble, hhigh, hlow]

/-- `charText c` is read as one piece, which is assembled to `c`. -/
def ReadBack (c : Char) : Prop :=
  ∃ p : Piece, (∀ r, pieces (charText c ++ r) = (pieces r).map fun (ps, r') => (p :: ps, r')) ∧
    ∀ ps, assemble (p :: ps) = (assemble ps).map (c :: ·)

/-- A character that is written as a backslash and a letter is read back. -/
theorem readBack_escape {e c : Char} (hu : e ≠ 'u') (he : escape? e = some c)
    (htext : charText c = ['\\', e]) : ReadBack c := by
  refine ⟨.char c, fun r => ?_, fun ps => rfl⟩
  rw [htext, List.cons_append, List.cons_append, List.nil_append, pieces, he]
  · cases pieces r <;> rfl
  · rintro _ _ _ _ _ heq
    exact absurd heq hu

/-- A character that is written as `\u00xx` is read back. -/
theorem readBack_unit {c : Char} (hc : c.toNat < 0x20)
    (htext : charText c = ['\\', 'u', '0', '0', hexDigit (c.toNat / 16), hexDigit (c.toNat % 16)]) :
    ReadBack c := by
  refine ⟨.unit c.toNat, fun r => ?_, fun ps => ?_⟩
  · rw [htext]
    simp only [List.cons_append, List.nil_append, pieces, hex4?_hexDigit c.toNat hc]
    cases pieces r <;> rfl
  · rw [assemble_unit hc, Char.ofNat_toNat]

/-- A character that is written as it is, is read back. -/
theorem readBack_plain {c : Char} (hquote : c ≠ '"') (hslash : c ≠ '\\') (hc : ¬ c.toNat < 0x20)
    (htext : charText c = [c]) : ReadBack c := by
  refine ⟨.char c, fun r => ?_, fun ps => rfl⟩
  rw [htext, List.cons_append, List.nil_append, pieces, if_neg hc]
  · exact hquote
  · rintro _ _ _ _ _ rfl
    exact absurd rfl hslash
  · rintro _ _ rfl
    exact absurd rfl hslash

/-- **How a character is written**: by an escape letter, by its number, or as it is. -/
theorem charText_cases (c : Char) :
    (∃ e, e ≠ 'u' ∧ escape? e = some c ∧ charText c = ['\\', e]) ∨
      (c.toNat < 0x20 ∧ charText c =
        ['\\', 'u', '0', '0', hexDigit (c.toNat / 16), hexDigit (c.toNat % 16)]) ∨
      (c ≠ '"' ∧ c ≠ '\\' ∧ ¬ c.toNat < 0x20 ∧ charText c = [c]) := by
  by_cases hletter : c ∈ ['"', '\\', '\x08', '\x0c', '\n', '\r', '\t']
  · refine Or.inl ?_
    simp only [List.mem_cons, List.not_mem_nil, or_false] at hletter
    rcases hletter with rfl | rfl | rfl | rfl | rfl | rfl | rfl
    · exact ⟨'"', by decide, rfl, rfl⟩
    · exact ⟨'\\', by decide, rfl, rfl⟩
    · exact ⟨'b', by decide, rfl, rfl⟩
    · exact ⟨'f', by decide, rfl, rfl⟩
    · exact ⟨'n', by decide, rfl, rfl⟩
    · exact ⟨'r', by decide, rfl, rfl⟩
    · exact ⟨'t', by decide, rfl, rfl⟩
  · simp only [List.mem_cons, List.not_mem_nil, or_false, not_or] at hletter
    obtain ⟨hquote, hslash, hb, hf, hn, hr, ht⟩ := hletter
    by_cases hc : c.toNat < 0x20
    · refine Or.inr (Or.inl ⟨hc, ?_⟩)
      rw [charText, if_neg hquote, if_neg hslash, if_neg hb, if_neg hf, if_neg hn, if_neg hr,
        if_neg ht, if_pos hc]
    · refine Or.inr (Or.inr ⟨hquote, hslash, hc, ?_⟩)
      rw [charText, if_neg hquote, if_neg hslash, if_neg hb, if_neg hf, if_neg hn, if_neg hr,
        if_neg ht, if_neg hc]

/-- **Every character** is read back. -/
theorem readBack (c : Char) : ReadBack c := by
  rcases charText_cases c with ⟨e, hu, he, htext⟩ | ⟨hc, htext⟩ | ⟨hquote, hslash, hc, htext⟩
  · exact readBack_escape hu he htext
  · exact readBack_unit hc htext
  · exact readBack_plain hquote hslash hc htext

/-- The characters of a string before a closing quote are read back. -/
theorem pieces_flatMap (s : List Char) (r : List Char) :
    ∃ ps, pieces (s.flatMap charText ++ '"' :: r) = some (ps, r) ∧ assemble ps = some s := by
  induction s with
  | nil => exact ⟨[], rfl, rfl⟩
  | cons c s ih =>
    obtain ⟨ps, hps, hs⟩ := ih
    obtain ⟨p, hpieces, hassemble⟩ := readBack c
    refine ⟨p :: ps, ?_, ?_⟩
    · rw [List.flatMap_cons, List.append_assoc, hpieces, hps]
      rfl
    · rw [hassemble, hs]
      rfl

/-- A string with text behind it **reads back**. -/
theorem string_stringText (s : String) (r : List Char) :
    ∃ cs, stringText (some s) ++ r = '"' :: cs ∧ string cs = some (some s, r) := by
  obtain ⟨ps, hps, hs⟩ := pieces_flatMap s.toList r
  refine ⟨s.toList.flatMap charText ++ '"' :: r, ?_, ?_⟩
  · rw [stringText, List.cons_append, List.cons_append, List.append_assoc]
    rfl
  · simp only [string, hps, Option.map_some, hs, String.ofList_toList]

end Reader

/-! ### Values -/

mutual

/-- A value whose text can be read back: its numbers are numbers by the grammar, and its strings
have texts. -/
def Readable : Json → Prop
  | .null | .bool _ => True
  | .num literal => Reader.number literal = some (literal, [])
  | .str s => s.isSome
  | .arr vs => ItemsReadable vs
  | .obj ms => MembersReadable ms

/-- Each item is readable. -/
def ItemsReadable : List Json → Prop
  | [] => True
  | v :: vs => v.Readable ∧ ItemsReadable vs

/-- Each member has a name and a readable value. -/
def MembersReadable : List (Option String × Json) → Prop
  | [] => True
  | (k, v) :: ms => k.isSome ∧ v.Readable ∧ MembersReadable ms

end

namespace Reader

/-- `itemsText` ends numbers. -/
theorem endsNumber_itemsText (vs : List Json) (r : List Char) :
    EndsNumber (itemsText vs ++ r) := by
  cases vs with
  | nil => exact endsNumber_cons (by decide)
  | cons v vs =>
    rw [itemsText]
    exact endsNumber_cons (by decide)

/-- `membersText` ends numbers. -/
theorem endsNumber_membersText (ms : List (Option String × Json)) (r : List Char) :
    EndsNumber (membersText ms ++ r) := by
  cases ms with
  | nil => exact endsNumber_cons (by decide)
  | cons m ms =>
    rw [membersText]
    exact endsNumber_cons (by decide)

/-- `itemsText` is not empty: it ends with a bracket. -/
theorem itemsText_pos (vs : List Json) : 0 < (itemsText vs).length := by
  cases vs <;> exact Nat.succ_pos _

/-- `membersText` is not empty: it ends with a brace. -/
theorem membersText_pos (ms : List (Option String × Json)) : 0 < (membersText ms).length := by
  cases ms <;> exact Nat.succ_pos _

/-- `skip` keeps a text that does not begin with white space. -/
theorem skip_cons {c : Char} (h : isSpace c = false) : skip (c :: cs) = c :: cs := by
  rw [skip, List.dropWhile_cons, if_neg (Bool.eq_false_iff.1 h)]

/-- A character that begins a number is none of those that begin something else. -/
theorem not_mem_of_number {c : Char} (h : isDigit c = true ∨ c = '-') :
    c ∉ [' ', '\t', '\n', '\r', 'n', 't', 'f', '"', '[', '\x7b'] := by
  intro hmem
  simp only [List.mem_cons, List.not_mem_nil, or_false] at hmem
  rcases hmem with rfl | rfl | rfl | rfl | rfl | rfl | rfl | rfl | rfl | rfl
  all_goals exact absurd h (by decide)

/-- A number with text behind it is read as a value. -/
theorem value_num (n : Nat) (hr : EndsNumber r) {literal : List Char}
    (h : number literal = some (literal, [])) :
    value (n + 1) (literal ++ r) = some (.num literal, r) := by
  obtain ⟨c, cs, rfl, hc⟩ := exists_head_of_number h
  have hnot := not_mem_of_number hc
  simp only [List.mem_cons, List.not_mem_nil, or_false, not_or] at hnot
  obtain ⟨h₁, h₂, h₃, h₄, hn, ht, hf, hquote, hbracket, hbrace⟩ := hnot
  have hspace : isSpace c = false := by simp [isSpace, h₁, h₂, h₃, h₄]
  have hnumber := number_append hr h
  rw [List.cons_append] at hnumber ⊢
  rw [value, skip_cons hspace]
  split
  · rename_i heq; exact absurd (List.cons.inj heq).1 hn
  · rename_i heq; exact absurd (List.cons.inj heq).1 ht
  · rename_i heq; exact absurd (List.cons.inj heq).1 hf
  · rename_i heq; exact absurd (List.cons.inj heq).1 hquote
  · rename_i heq; exact absurd (List.cons.inj heq).1 hbracket
  · rename_i heq; exact absurd (List.cons.inj heq).1 hbrace
  · rw [hnumber]
    rfl

/-- `value` reads nothing from a closing bracket or brace. -/
theorem value_of_end {c : Char} (hc : c = ']' ∨ c = '\x7d') (h : skip cs = c :: r) (n : Nat) :
    value n cs = none := by
  cases n with
  | zero => rfl
  | succ n =>
    rw [value, h]
    rcases hc with rfl | rfl
    · rfl
    · rfl

/-- What `value` reads behind an **opening bracket**. -/
theorem value_bracket (n : Nat) (cs : List Char) : value (n + 1) ('[' :: cs) =
    match skip cs with
    | ']' :: r => some (.arr [], r)
    | _ => (items n cs).map fun (vs, r) => (.arr vs, r) := by
  rw [value, skip_cons rfl]
  rfl

/-- What `value` reads behind an **opening brace**. -/
theorem value_brace (n : Nat) (cs : List Char) : value (n + 1) ('\x7b' :: cs) =
    match skip cs with
    | '\x7d' :: r => some (.obj [], r)
    | _ => (members n cs).map fun (ms, r) => (.obj ms, r) := by
  rw [value, skip_cons rfl]
  rfl

/-- If the text behind an opening bracket begins with a value, its items are those of the array. -/
theorem value_arr {n : Nat} {v : Json} {vs : List Json} (hv : value n cs = some (v, rest))
    (hvs : items (n + 1) cs = some (vs, r)) : value (n + 2) ('[' :: cs) = some (.arr vs, r) := by
  rw [value_bracket]
  split
  · rename_i r' heq
    rw [value_of_end (Or.inl rfl) heq] at hv
    cases hv
  · rw [hvs]
    rfl

/-- If the text behind an opening brace begins with a name, its members are those of the object. -/
theorem value_obj {n : Nat} {s : String} {ms : List (Option String × Json)}
    (hms : members (n + 1) (stringText (some s) ++ cs) = some (ms, r)) :
    value (n + 2) ('\x7b' :: (stringText (some s) ++ cs)) = some (.obj ms, r) := by
  obtain ⟨cs', htext, -⟩ := string_stringText s cs
  rw [htext] at hms ⊢
  rw [value_brace, skip_cons rfl, hms]
  rfl

mutual

/-- A readable value with text behind it **reads back**, if `n` is at least the length of its
text. -/
theorem value_chars : ∀ (j : Json) (n : Nat) (r : List Char), j.Readable →
    (chars j).length ≤ n → EndsNumber r → value n (chars j ++ r) = some (j, r)
  | .null, 0, _, _, hn, _ => absurd hn (by decide)
  | .null, _ + 1, _, _, _, _ => rfl
  | .bool true, 0, _, _, hn, _ => absurd hn (by decide)
  | .bool true, _ + 1, _, _, _, _ => rfl
  | .bool false, 0, _, _, hn, _ => absurd hn (by decide)
  | .bool false, _ + 1, _, _, _, _ => rfl
  | .num literal, 0, r, hj, hn, hr => by
    obtain rfl : literal = [] := List.eq_nil_of_length_eq_zero (Nat.le_zero.1 hn)
    cases hj
  | .num literal, n + 1, r, hj, hn, hr => value_num n hr hj
  | .str s, 0, r, hj, hn, hr => by
    cases s with
    | none => cases hj
    | some s => cases hn
  | .str s, n + 1, r, hj, hn, hr => by
    obtain ⟨s, rfl⟩ := Option.isSome_iff_exists.1 hj
    obtain ⟨cs, htext, hstring⟩ := string_stringText s r
    rw [chars, htext, value, skip_cons rfl]
    simp only [hstring, Option.map_some]
  | .arr [], 0, _, _, hn, _ => absurd hn (by decide)
  | .arr [], _ + 1, _, _, _, _ => rfl
  | .arr (v :: vs), n, r, hj, hn, hr => by
    have hpos := itemsText_pos vs
    rw [chars, List.cons_append, List.length_cons, List.length_append] at hn
    obtain ⟨n, rfl⟩ := Nat.exists_eq_add_of_le' (show 2 ≤ n by omega)
    have hv := value_chars v n (itemsText vs ++ r) hj.1 (by omega) (endsNumber_itemsText vs r)
    have hvs := items_itemsText vs n _ v r hj.2 (by omega) hv
    rw [chars, List.cons_append, List.cons_append, List.append_assoc]
    exact value_arr hv hvs
  | .obj [], 0, _, _, hn, _ => absurd hn (by decide)
  | .obj [], _ + 1, _, _, _, _ => rfl
  | .obj ((k, v) :: ms), n, r, hj, hn, hr => by
    obtain ⟨s, rfl⟩ := Option.isSome_iff_exists.1 hj.1
    have hpos := membersText_pos ms
    simp only [chars, List.cons_append, List.length_cons, List.length_append] at hn
    obtain ⟨n, rfl⟩ := Nat.exists_eq_add_of_le' (show 2 ≤ n by omega)
    have hv := value_chars v n (membersText ms ++ r) hj.2.1 (by omega) (endsNumber_membersText ms r)
    have hms := members_membersText ms n s v r hj.2.2 (by omega) hv
    simp only [chars, List.cons_append, List.append_assoc]
    exact value_obj hms

/-- `items` reads `itemsText` back, behind the first item. -/
theorem items_itemsText : ∀ (vs : List Json) (n : Nat) (cs : List Char) (v : Json) (r : List Char),
    ItemsReadable vs → (itemsText vs).length ≤ n + 1 →
      value n cs = some (v, itemsText vs ++ r) → items (n + 1) cs = some (v :: vs, r)
  | [], n, cs, v, r, _, _, hv => by
    rw [items, hv]
    rfl
  | w :: ws, 0, cs, v, r, hvs, hn, hv => by
    cases hv
  | w :: ws, n + 1, cs, v, r, hvs, hn, hv => by
    have hpos := itemsText_pos ws
    rw [itemsText, List.cons_append, List.length_cons, List.length_append] at hn
    have hw := value_chars w n (itemsText ws ++ r) hvs.1 (by omega) (endsNumber_itemsText ws r)
    have hrest := items_itemsText ws n _ w r hvs.2 (by omega) hw
    rw [items, hv, itemsText]
    simp only [List.cons_append, List.append_assoc, Option.bind_eq_bind, Option.bind_some,
      skip_cons (show isSpace ',' = false from rfl), hrest, Option.map_some]

/-- `members` reads `membersText` back, behind the first member. -/
theorem members_membersText : ∀ (ms : List (Option String × Json)) (n : Nat) (s : String) (v : Json)
    (r : List Char), MembersReadable ms → (membersText ms).length ≤ n + 1 →
      value n (chars v ++ (membersText ms ++ r)) = some (v, membersText ms ++ r) →
        members (n + 1) (stringText (some s) ++ ':' :: (chars v ++ (membersText ms ++ r))) =
          some ((some s, v) :: ms, r)
  | [], n, s, v, r, _, _, hv => by
    obtain ⟨cs, htext, hstring⟩ := string_stringText s (':' :: (chars v ++ (membersText [] ++ r)))
    rw [htext, members, skip_cons rfl]
    simp only [hstring, Option.bind_eq_bind, Option.bind_some,
      skip_cons (show isSpace ':' = false from rfl), hv]
    rfl
  | (k, w) :: ms, 0, s, v, r, hms, hn, hv => by
    cases hv
  | (k, w) :: ms, n + 1, s, v, r, hms, hn, hv => by
    obtain ⟨s', rfl⟩ := Option.isSome_iff_exists.1 hms.1
    have hpos := membersText_pos ms
    have hlen := hn
    simp only [membersText, List.cons_append, List.length_cons, List.length_append] at hlen
    have hw := value_chars w n (membersText ms ++ r) hms.2.1 (by omega)
      (endsNumber_membersText ms r)
    have hrest := members_membersText ms n s' w r hms.2.2 (by omega) hw
    obtain ⟨cs, htext, hstring⟩ :=
      string_stringText s (':' :: (chars v ++ (membersText ((some s', w) :: ms) ++ r)))
    rw [htext, members, skip_cons rfl]
    simp only [hstring, Option.bind_eq_bind, Option.bind_some,
      skip_cons (show isSpace ':' = false from rfl), hv]
    simp only [membersText, List.cons_append, List.append_assoc,
      skip_cons (show isSpace ',' = false from rfl), hrest, Option.map_some]

end

end Reader

/-- `parse` reads **the text of a readable value** as that value. -/
theorem parse_text {j : Json} (h : j.Readable) : parse j.text = some j := by
  have hread := Reader.value_chars j (2 * j.chars.length + 2) [] h (by omega) Reader.endsNumber_nil
  rw [List.append_nil] at hread
  rw [parse, text, String.toList_ofList, hread]
  rfl

end TurnPool.Json
