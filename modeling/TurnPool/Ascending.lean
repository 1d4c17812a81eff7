/-!
# Ascending lists

Many parts of the pool keep their elements in order: the entries of the queue, the paused contexts,
the free slots of the workers, the tasks that wait out a delay. Each of them is a list that is
ascending in an order of its own, and grows by insertion.

## Main definitions

* `insertBy`: insertion into an ascending list. An element that counts as the same is replaced.

## Main statements

* `mem_insertBy`, `insertBy_perm`: what is in the list after an insertion.
* `pairwise_insertBy`: insertion keeps the order.
-/

namespace TurnPool

variable {α β : Type} {before same : α → α → Bool} {a b : α} {bs : List α}

/-- Insert `a` into a list that is ascending in `before`: in front of the first element that it is
`before`, or in place of the first one that counts as the `same`, whichever comes first. -/
def insertBy (before same : α → α → Bool) (a : α) : List α → List α
  | [] => [a]
  | b :: bs =>
    if before a b then a :: b :: bs
    else if same a b then a :: bs
    else b :: insertBy before same a bs

/-- Nothing is in `insertBy before same a bs` but `a` and elements of `bs`. -/
theorem mem_of_mem_insertBy (h : b ∈ insertBy before same a bs) : b = a ∨ b ∈ bs := by
  induction bs with
  | nil => exact .inl (List.mem_singleton.1 h)
  | cons c bs ih =>
    rw [insertBy] at h
    split at h
    · exact List.mem_cons.1 h
    · split at h
      · exact (List.mem_cons.1 h).imp_right (List.mem_cons_of_mem c)
      · rcases List.mem_cons.1 h with rfl | h
        · exact .inr List.mem_cons_self
        · exact (ih h).imp_right (List.mem_cons_of_mem c)

/-- What is inserted is there. -/
theorem mem_insertBy_self : a ∈ insertBy before same a bs := by
  induction bs with
  | nil => exact List.mem_cons_self
  | cons c bs ih =>
    rw [insertBy]
    split
    · exact List.mem_cons_self
    · split
      · exact List.mem_cons_self
      · exact List.mem_cons_of_mem c ih

/-- An element of `bs` stays if none but `a` itself counts as the same as `a`. -/
theorem mem_insertBy_of_mem (hsame : ∀ c, same a c = true → a = c) (h : b ∈ bs) :
    b ∈ insertBy before same a bs := by
  induction bs with
  | nil => cases h
  | cons c bs ih =>
    rw [insertBy]
    split
    · exact List.mem_cons_of_mem a h
    · split
      · rename_i heq
        exact hsame c heq ▸ h
      · exact List.mem_cons.2 ((List.mem_cons.1 h).imp_right ih)

/-- Insertion **adds one element** if none but `a` itself counts as the same as `a`. -/
theorem mem_insertBy (hsame : ∀ c, same a c = true → a = c) :
    b ∈ insertBy before same a bs ↔ b = a ∨ b ∈ bs := by
  refine ⟨mem_of_mem_insertBy, ?_⟩
  rintro (rfl | h)
  · exact mem_insertBy_self
  · exact mem_insertBy_of_mem hsame h

/-- An element as which none of the others counts is **put somewhere**, and the others stay. -/
theorem insertBy_perm (hnew : ∀ b ∈ bs, same a b = false) :
    (insertBy before same a bs).Perm (a :: bs) := by
  induction bs with
  | nil => exact .refl _
  | cons b bs ih =>
    rw [insertBy, if_neg (Bool.eq_false_iff.1 (hnew b List.mem_cons_self))]
    split
    · exact .refl _
    · exact ((ih fun c hc => hnew c (List.mem_cons_of_mem b hc)).cons b).trans (.swap a b bs)

/-- An element that is not in the list yet is put somewhere. -/
theorem insertBy_perm_of_not_mem [BEq α] [LawfulBEq α] (h : a ∉ bs) :
    (insertBy before (· == ·) a bs).Perm (a :: bs) :=
  insertBy_perm fun _ hb => beq_false_of_ne fun heq => h (heq ▸ hb)

/-- Insertion **keeps the order** `r` of a list if `a` is in the order with what it is put in front
of or in place of, and with all that follow, and with what it is put behind. -/
theorem pairwise_insertBy {r : α → α → Prop} (front : ∀ b, before a b = true → r a b)
    (past : ∀ b c, before a b = true → r b c → r a c)
    (place : ∀ b c, same a b = true → r b c → r a c)
    (behind : ∀ b, before a b = false → same a b = false → r b a) (h : bs.Pairwise r) :
    (insertBy before same a bs).Pairwise r := by
  induction bs with
  | nil => exact List.pairwise_singleton r a
  | cons b bs ih =>
    obtain ⟨hb, hbs⟩ := List.pairwise_cons.1 h
    rw [insertBy]
    split
    · rename_i hab
      refine List.pairwise_cons.2 ⟨fun c hc => ?_, h⟩
      rcases List.mem_cons.1 hc with rfl | hc
      · exact front c hab
      · exact past b c hab (hb c hc)
    · rename_i hab
      split
      · rename_i heq
        exact List.pairwise_cons.2 ⟨fun c hc => place b c heq (hb c hc), hbs⟩
      · rename_i hne
        refine List.pairwise_cons.2 ⟨fun c hc => ?_, ih hbs⟩
        rcases mem_of_mem_insertBy hc with rfl | hc
        · exact behind b (Bool.eq_false_iff.2 hab) (Bool.eq_false_iff.2 hne)
        · exact hb c hc

/-- A function that keeps `before` and `same` takes an insertion to an insertion. -/
theorem map_insertBy {f : α → β} {before' same' : β → β → Bool}
    (hbefore : ∀ b, before' (f a) (f b) = before a b) (hsame : ∀ b, same' (f a) (f b) = same a b) :
    (insertBy before same a bs).map f = insertBy before' same' (f a) (bs.map f) := by
  induction bs with
  | nil => rfl
  | cons b bs ih =>
    rw [insertBy, List.map_cons, insertBy, hbefore, hsame]
    split
    · rfl
    · split
      · rfl
      · rw [List.map_cons, ih]

end TurnPool
