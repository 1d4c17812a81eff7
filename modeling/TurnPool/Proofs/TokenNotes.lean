import Mathlib.Data.List.Nodup
import TurnPool.Token.Ledger
import TurnPool.Token.Signal

/-!
# What is noted of tokens and pauses

Whoever reclaims a token marks it, and the mark takes all its holders from it; each of them is then
sent the cause, one after the other, and the slot is released at the end. Others may come in between
all the time. This module does not look at a pool. It looks at the notes that can be taken of all
this, and says what they tell if each of them was in order when it was taken.

## What is in order

The latest note comes first. `MayFollow` says of a note what has to be true of the older ones, and
asks for no more than what whoever takes the note can see. A context parks with a signal that is
new, and on a token without a mark. A mark comes once, and takes those who are parked. A cause is
sent to somebody who was taken and whose turn is still to come; the slot is released when nobody is
left. A pause that is over has the cause that it was sent by then, if it was sent one.

## Main results

* `Sound.parked_unique`: a signal belongs to one pause on one token.
* `Sound.mem_due`: **what is still to be sent**, and that is to those who were taken and have no
  cause.
* `Sound.causes_of_taken`, `Sound.causes_of_not_taken`: who was taken gets one cause, and nobody
  else gets any.
* `Sound.not_taken_of_left`: who has left the token is not taken.
* `Sound.not_due_of_released`, `Sound.released_once`: the slot is released last, and once.
-/

namespace TurnPool

/-- Something of note about tokens and pauses: who parked, who left, which token was marked with
whom it took, who was sent a cause, whose slot was released, and which pause was concluded. -/
inductive Note where
  /-- A context has parked on a token. -/
  | parked (token : Nat) (h : Holder)
  /-- A context has left a token. -/
  | left (token ctx : Nat)
  /-- A token was marked, and these were its holders. -/
  | marked (token : Nat) (taken : List Holder)
  /-- One of those was sent a cause. -/
  | sent (token : Nat) (h : Holder) (cause : String)
  /-- The slot of a token was released. -/
  | released (token : Nat)
  /-- A pause is over, with a cause or without one. -/
  | concluded (h : Holder) (cause : Option String)
deriving DecidableEq, Repr

namespace Notes

variable {d older : List Note} {n : Note} {t t' k ctx : Nat} {h h' : Holder}
  {cause : String}

/-! ### What the notes tell -/

/-- The holders that are parked on token `t` by the notes `d`. -/
def parkedOn (t : Nat) : List Note → List Holder
  | [] => []
  | .parked t' h :: d => if t' = t then parkedOn t d ++ [h] else parkedOn t d
  | .left t' ctx :: d =>
    if t' = t then (parkedOn t d).filter (·.context ≠ ctx) else parkedOn t d
  | .marked t' _ :: d => if t' = t then [] else parkedOn t d
  | _ :: d => parkedOn t d

/-- The pauses that have begun and are not concluded by the notes `d`. -/
def pauses : List Note → List Holder
  | [] => []
  | .parked _ h :: d => h :: pauses d
  | .concluded h _ :: d => (pauses d).filter (· ≠ h)
  | _ :: d => pauses d

/-- The causes that signal `k` was sent, latest first. -/
def causes (k : Nat) : List Note → List String
  | [] => []
  | .sent _ h cause :: d => if h.signal = k then cause :: causes k d else causes k d
  | _ :: d => causes k d

/-- The pairs of a token and a holder that was taken from it and is **still to be sent** its
cause. -/
def due : List Note → List (Nat × Holder)
  | [] => []
  | .marked t taken :: d => taken.map (Prod.mk t) ++ due d
  | .sent t h _ :: d => (due d).erase (t, h)
  | _ :: d => due d

/-- The tokens that were marked and whose slots are still to be released. -/
def midway : List Note → List Nat
  | [] => []
  | .marked t _ :: d => t :: midway d
  | .released t :: d => (midway d).erase t
  | _ :: d => midway d

/-- Token `t` was marked. -/
def IsMarked (t : Nat) (d : List Note) : Prop := ∃ taken, .marked t taken ∈ d

/-- Holder `h` was **taken** from token `t` by its mark. -/
def Taken (t : Nat) (h : Holder) (d : List Note) : Prop := ∃ taken, .marked t taken ∈ d ∧ h ∈ taken

/-- Whether a note may be taken after `d`: a pause begins with a new signal on a token that is not
marked, a token is marked once and takes whoever is parked, a cause is sent to a holder that is due,
a slot is released when no holder of its token is due, and a pause that is not over is concluded
with the cause of its signal, if there is one. -/
def MayFollow (d : List Note) : Note → Prop
  | .parked t h => ¬ IsMarked t d ∧ ∀ t' h', .parked t' h' ∈ d → h'.signal ≠ h.signal
  | .left _ _ => True
  | .marked t taken => ¬ IsMarked t d ∧ taken = parkedOn t d
  | .sent t h _ => (t, h) ∈ due d
  | .released t => t ∈ midway d ∧ ∀ h, (t, h) ∉ due d
  | .concluded h cause => h ∈ pauses d ∧ cause = (causes h.signal d).head?

/-- Notes of which **each was allowed** by `MayFollow` when it was taken. -/
def Sound : List Note → Prop
  | [] => True
  | n :: d => MayFollow d n ∧ Sound d

/-- `Sound` notes have `Sound` older notes. -/
theorem Sound.of_suffix (hd : Sound d) (hsuffix : older <:+ d) : Sound older := by
  induction d with
  | nil => exact (List.suffix_nil.1 hsuffix) ▸ hd
  | cons n d ih =>
    rcases List.suffix_cons_iff.1 hsuffix with heq | hsuffix
    · exact heq ▸ hd
    · exact ih hd.2 hsuffix

/-- Each of `Sound` notes has `MayFollow` after the older ones. -/
theorem Sound.mayFollow (hd : Sound d) (hsuffix : n :: older <:+ d) : MayFollow older n :=
  (hd.of_suffix hsuffix).1

/-- Each of `Sound` notes has `MayFollow` after some of the others. -/
theorem Sound.mayFollow_of_mem (hd : Sound d) (hmem : n ∈ d) :
    ∃ older, older ⊆ d ∧ MayFollow older n := by
  obtain ⟨newer, older, rfl⟩ := List.append_of_mem hmem
  have hsuffix : n :: older <:+ newer ++ n :: older := List.suffix_append _ _
  exact ⟨older, fun _ hin => hsuffix.subset (List.mem_cons_of_mem n hin), hd.mayFollow hsuffix⟩

/-- `IsMarked` by the latest note or by an older one. -/
theorem isMarked_cons : IsMarked t (n :: d) ↔ (∃ taken, n = .marked t taken) ∨ IsMarked t d := by
  simp only [IsMarked, List.mem_cons, exists_or, eq_comm]

/-- Only a note `marked` marks a token. -/
theorem isMarked_cons_of_ne (hn : ∀ taken, n ≠ .marked t taken) :
    IsMarked t (n :: d) ↔ IsMarked t d :=
  isMarked_cons.trans (or_iff_right fun ⟨taken, heq⟩ => hn taken heq)

/-- `IsMarked` is kept by more notes. -/
theorem IsMarked.mono (hm : IsMarked t older) (hsub : older ⊆ d) : IsMarked t d :=
  hm.imp fun _ hmem => hsub hmem

/-- `IsMarked` is kept by one more note. -/
theorem IsMarked.cons (hm : IsMarked t d) : IsMarked t (n :: d) :=
  hm.mono (List.subset_cons_self n d)

/-- A token from which somebody was taken is marked. -/
theorem Taken.isMarked (ht : Taken t h d) : IsMarked t d := ht.imp fun _ => And.left

/-- `Taken` is kept by more notes. -/
theorem Taken.mono (ht : Taken t h older) (hsub : older ⊆ d) : Taken t h d :=
  ht.imp fun _ => And.imp_left fun hmem => hsub hmem

/-- `Taken` is kept by one more note. -/
theorem Taken.cons (ht : Taken t h d) : Taken t h (n :: d) := ht.mono (List.subset_cons_self n d)

/-- `Taken` by the latest note or by an older one. -/
theorem taken_cons :
    Taken t h (n :: d) ↔ (∃ taken, n = .marked t taken ∧ h ∈ taken) ∨ Taken t h d := by
  constructor
  · rintro ⟨taken, hmem, hin⟩
    rcases List.mem_cons.1 hmem with heq | hmem
    · exact Or.inl ⟨taken, heq.symm, hin⟩
    · exact Or.inr ⟨taken, hmem, hin⟩
  · rintro (⟨taken, rfl, hin⟩ | ht)
    · exact ⟨taken, List.mem_cons_self, hin⟩
    · exact ht.cons

/-- A cause of signal `k` was sent to a holder with that signal. -/
theorem mem_causes (hmem : cause ∈ causes k d) : ∃ t h, h.signal = k ∧ .sent t h cause ∈ d := by
  induction d with
  | nil => exact absurd hmem List.not_mem_nil
  | cons n d ih =>
    have hold : cause ∈ causes k d → ∃ t h, h.signal = k ∧ .sent t h cause ∈ n :: d := fun hmem =>
      have ⟨t, h, hk, hsent⟩ := ih hmem
      ⟨t, h, hk, List.mem_cons_of_mem n hsent⟩
    cases n with
    | sent t h c =>
      rw [causes] at hmem
      split at hmem
      · rename_i hk
        rcases List.mem_cons.1 hmem with heq | hmem
        · exact ⟨t, h, hk, heq ▸ List.mem_cons_self⟩
        · exact hold hmem
      · exact hold hmem
    | _ => exact hold hmem

/-! ### Who is parked -/

/-- A holder that is parked on `t` has parked there. -/
theorem parked_of_mem_parkedOn (hmem : h ∈ parkedOn t d) : .parked t h ∈ d := by
  induction d with
  | nil => exact absurd hmem List.not_mem_nil
  | cons n d ih =>
    have hold : h ∈ parkedOn t d → .parked t h ∈ n :: d := fun hmem =>
      List.mem_cons_of_mem n (ih hmem)
    cases n with
    | parked t' h' =>
      rw [parkedOn] at hmem
      split at hmem
      · rename_i ht
        rcases List.mem_append.1 hmem with hmem | hmem
        · exact hold hmem
        · rw [ht, List.mem_singleton.1 hmem]
          exact List.mem_cons_self
      · exact hold hmem
    | left t' ctx =>
      rw [parkedOn] at hmem
      split at hmem
      · exact hold (List.mem_of_mem_filter hmem)
      · exact hold hmem
    | marked t' taken =>
      rw [parkedOn] at hmem
      split at hmem
      · exact absurd hmem List.not_mem_nil
      · exact hold hmem
    | _ => exact hold hmem

namespace Sound

/-- No two pauses have **the same signal**. -/
theorem parked_unique (hd : Sound d) (hmem : .parked t h ∈ d) (hmem' : .parked t' h' ∈ d)
    (hsignal : h.signal = h'.signal) : t = t' ∧ h = h' := by
  induction d with
  | nil => exact absurd hmem List.not_mem_nil
  | cons n d ih =>
    rcases List.mem_cons.1 hmem with rfl | hold
    · rcases List.mem_cons.1 hmem' with heq | hold'
      · cases heq
        exact ⟨rfl, rfl⟩
      · exact absurd hsignal.symm (hd.1.2 t' h' hold')
    · rcases List.mem_cons.1 hmem' with rfl | hold'
      · exact absurd hsignal (hd.1.2 t h hold)
      · exact ih hd.2 hold hold'

/-- `parkedOn` is empty for a marked token. -/
theorem parkedOn_of_isMarked (hd : Sound d) (hm : IsMarked t d) : parkedOn t d = [] := by
  induction d with
  | nil => rfl
  | cons n d ih =>
    obtain ⟨taken, hmem⟩ := hm
    rcases List.mem_cons.1 hmem with rfl | hold
    · rw [parkedOn, if_pos rfl]
    · have hnone : parkedOn t d = [] := ih hd.2 ⟨taken, hold⟩
      cases n with
      | parked t' h' =>
        have hne : t' ≠ t := fun heq => hd.1.1 ⟨taken, heq ▸ hold⟩
        rw [parkedOn, if_neg hne, hnone]
      | left t' ctx => rw [parkedOn, hnone, List.filter_nil, ite_self]
      | marked t' taken' => rw [parkedOn, hnone, ite_self]
      | _ => exact hnone

/-- `parkedOn` has no holder twice. -/
theorem nodup_parkedOn (hd : Sound d) (t : Nat) : (parkedOn t d).Nodup := by
  induction d with
  | nil => exact List.nodup_nil
  | cons n d ih =>
    have hold : (parkedOn t d).Nodup := ih hd.2
    cases n with
    | parked t' h' =>
      rw [parkedOn]
      split
      · refine List.nodup_append.2 ⟨hold, List.nodup_singleton h', fun a ha b hb heq => ?_⟩
        rw [List.mem_singleton.1 hb] at heq
        exact hd.1.2 t h' (parked_of_mem_parkedOn (heq ▸ ha)) rfl
      · exact hold
    | left t' ctx =>
      rw [parkedOn]
      split
      · exact hold.filter _
      · exact hold
    | marked t' taken =>
      rw [parkedOn]
      split
      · exact List.nodup_nil
      · exact hold
    | _ => exact hold

/-! ### Who is taken -/

/-- A holder that was taken from `t` **had parked** on `t`. -/
theorem parked_of_taken (hd : Sound d) (ht : Taken t h d) : .parked t h ∈ d := by
  obtain ⟨taken, hmem, hin⟩ := ht
  obtain ⟨older, hsub, -, htaken⟩ := hd.mayFollow_of_mem hmem
  exact hsub (parked_of_mem_parkedOn (htaken ▸ hin))

/-- A holder whose context has left `t` since it parked is not parked there. -/
theorem not_mem_parkedOn_of_left (hd : Sound d) (hleft : .left t h.context :: older <:+ d)
    (hparked : .parked t h ∈ older) : h ∉ parkedOn t d := by
  induction d with
  | nil => exact absurd (List.suffix_nil.1 hleft) (List.cons_ne_nil _ _)
  | cons n d ih =>
    rcases List.suffix_cons_iff.1 hleft with heq | hold
    · cases heq
      rw [parkedOn, if_pos rfl]
      exact fun hmem => of_decide_eq_true (List.mem_filter.1 hmem).2 rfl
    · have hnot : h ∉ parkedOn t d := ih hd.2 hold
      have hthere : .parked t h ∈ d := hold.subset (List.mem_cons_of_mem _ hparked)
      cases n with
      | parked t' h' =>
        have hne : h ≠ h' := fun heq => hd.1.2 t h hthere (congrArg Holder.signal heq)
        rw [parkedOn]
        split
        · rw [List.mem_append, List.mem_singleton]
          exact not_or.2 ⟨hnot, hne⟩
        · exact hnot
      | left t' ctx =>
        rw [parkedOn]
        split
        · exact fun hmem => hnot (List.mem_of_mem_filter hmem)
        · exact hnot
      | marked t' taken =>
        rw [parkedOn]
        split
        · exact List.not_mem_nil
        · exact hnot
      | _ => exact hnot

/-- A holder that was parked when its context **left** is never taken, neither before nor after. -/
theorem not_taken_of_left (hd : Sound d) (hleft : .left t h.context :: older <:+ d)
    (hparked : h ∈ parkedOn t older) : ¬ Taken t h d := by
  induction d with
  | nil => exact absurd (List.suffix_nil.1 hleft) (List.cons_ne_nil _ _)
  | cons n d ih =>
    intro ht
    rcases List.suffix_cons_iff.1 hleft with heq | hold
    · cases heq
      -- Who is still parked has not been taken before.
      rcases taken_cons.1 ht with ⟨_, heq, -⟩ | ht
      · exact nomatch heq
      · rw [parkedOn_of_isMarked hd.2 ht.isMarked] at hparked
        exact absurd hparked List.not_mem_nil
    · rcases taken_cons.1 ht with ⟨taken, rfl, hin⟩ | ht
      · exact not_mem_parkedOn_of_left hd.2 hold (parked_of_mem_parkedOn hparked) (hd.1.2 ▸ hin)
      · exact ih hd.2 hold ht

end Sound

/-! ### What is sent -/

/-- A holder that is due was taken. -/
theorem taken_of_mem_due (hmem : (t, h) ∈ due d) : Taken t h d := by
  induction d with
  | nil => exact absurd hmem List.not_mem_nil
  | cons n d ih =>
    cases n with
    | marked t' taken =>
      rcases List.mem_append.1 hmem with hmem | hmem
      · obtain ⟨h', hin, heq⟩ := List.mem_map.1 hmem
        cases heq
        exact ⟨taken, List.mem_cons_self, hin⟩
      · exact (ih hmem).cons
    | sent t' h' cause => exact (ih (List.mem_of_mem_erase hmem)).cons
    | _ => exact (ih hmem).cons

/-- A token whose slot is still to be released is marked. -/
theorem isMarked_of_mem_midway (hmem : t ∈ midway d) : IsMarked t d := by
  induction d with
  | nil => exact absurd hmem List.not_mem_nil
  | cons n d ih =>
    cases n with
    | marked t' taken =>
      rcases List.mem_cons.1 hmem with rfl | hmem
      · exact ⟨taken, List.mem_cons_self⟩
      · exact (ih hmem).cons
    | released t' => exact (ih (List.mem_of_mem_erase hmem)).cons
    | _ => exact (ih hmem).cons

namespace Sound

/-- `due` has no pair twice. -/
theorem nodup_due (hd : Sound d) : (due d).Nodup := by
  induction d with
  | nil => exact List.nodup_nil
  | cons n d ih =>
    have hold : (due d).Nodup := ih hd.2
    cases n with
    | marked t taken =>
      obtain ⟨hfirst, htaken⟩ := hd.1
      have hnow : (taken.map (Prod.mk t)).Nodup :=
        (htaken ▸ nodup_parkedOn hd.2 t).map fun _ _ heq => congrArg Prod.snd heq
      refine hnow.append hold fun x hx hx' => ?_
      obtain ⟨h, -, rfl⟩ := List.mem_map.1 hx
      exact hfirst (taken_of_mem_due hx').isMarked
    | sent t h cause => exact hold.erase _
    | _ => exact hold

/-- A holder that was sent a cause was taken. -/
theorem taken_of_sent (hd : Sound d) (hmem : .sent t h cause ∈ d) : Taken t h d := by
  obtain ⟨older, hsub, hdue⟩ := hd.mayFollow_of_mem hmem
  exact (taken_of_mem_due hdue).mono hsub

/-- A holder that parked on `t` has a cause only if it was **taken from `t`** and was sent that
one. -/
theorem taken_of_mem_causes (hd : Sound d) (hparked : .parked t h ∈ d)
    (hmem : cause ∈ causes h.signal d) : Taken t h d ∧ .sent t h cause ∈ d := by
  obtain ⟨t', h', hsignal, hsent⟩ := mem_causes hmem
  have ht := hd.taken_of_sent hsent
  obtain ⟨rfl, rfl⟩ := hd.parked_unique hparked (hd.parked_of_taken ht) hsignal.symm
  exact ⟨ht, hsent⟩

/-- A pair is due just if the holder **was taken and has no cause**. -/
theorem mem_due (hd : Sound d) : (t, h) ∈ due d ↔ Taken t h d ∧ causes h.signal d = [] := by
  induction d with
  | nil => exact iff_of_false List.not_mem_nil fun hand => hand.1.elim fun _ h => nomatch h.1
  | cons n d ih =>
    have hold := ih hd.2
    cases n with
    | marked t' taken =>
      obtain ⟨hfirst, htaken⟩ := hd.1
      have hcauses : causes h.signal (.marked t' taken :: d) = causes h.signal d := rfl
      rw [due, List.mem_append, hcauses, taken_cons]
      constructor
      · rintro (hmem | hmem)
        · obtain ⟨h', hin, heq⟩ := List.mem_map.1 hmem
          cases heq
          have hparked := parked_of_mem_parkedOn (htaken ▸ hin)
          refine ⟨Or.inl ⟨taken, rfl, hin⟩, List.eq_nil_iff_forall_not_mem.2 fun c hc => ?_⟩
          exact hfirst (hd.2.taken_of_mem_causes hparked hc).1.isMarked
        · exact ⟨Or.inr (hold.1 hmem).1, (hold.1 hmem).2⟩
      · rintro ⟨⟨taken', heq, hin⟩ | ht, hnone⟩
        · cases heq
          exact Or.inl (List.mem_map_of_mem hin)
        · exact Or.inr (hold.2 ⟨ht, hnone⟩)
    | sent t' h' c =>
      have hdue : (t', h') ∈ due d := hd.1
      rw [due, hd.2.nodup_due.mem_erase_iff, hold, causes, taken_cons]
      constructor
      · rintro ⟨hne, ht, hnone⟩
        have hsignal : h'.signal ≠ h.signal := fun heq => by
          obtain ⟨rfl, rfl⟩ := hd.2.parked_unique
            (hd.2.parked_of_taken (taken_of_mem_due hdue)) (hd.2.parked_of_taken ht) heq
          exact hne rfl
        rw [if_neg hsignal]
        exact ⟨Or.inr ht, hnone⟩
      · rintro ⟨⟨_, heq, -⟩ | ht, hnone⟩
        · exact nomatch heq
        · split at hnone
          · exact absurd hnone (List.cons_ne_nil _ _)
          · rename_i hsignal
            exact ⟨fun heq => hsignal (congrArg (·.2.signal) heq).symm, ht, hnone⟩
    | _ =>
      refine ⟨fun hmem => ⟨(hold.1 hmem).1.cons, (hold.1 hmem).2⟩, fun ⟨ht, hnone⟩ => ?_⟩
      refine hold.2 ⟨(taken_cons.1 ht).resolve_left ?_, hnone⟩
      rintro ⟨_, heq, -⟩
      exact nomatch heq

/-- No signal is sent **more than one cause**. -/
theorem causes_length (hd : Sound d) (k : Nat) : (causes k d).length ≤ 1 := by
  induction d with
  | nil => exact Nat.zero_le 1
  | cons n d ih =>
    cases n with
    | sent t h cause =>
      rw [causes]
      split
      · rename_i hk
        rw [← hk, (hd.2.mem_due.1 hd.1).2]
        exact Nat.le_refl 1
      · exact ih hd.2
    | _ => exact ih hd.2

/-- A holder that was taken and is not due has **one cause**, and it was sent because of that
token. -/
theorem causes_of_taken (hd : Sound d) (ht : Taken t h d) (hnot : (t, h) ∉ due d) :
    ∃ cause, causes h.signal d = [cause] ∧ .sent t h cause ∈ d := by
  have hlength := hd.causes_length h.signal
  have hsome : causes h.signal d ≠ [] := fun hnone => hnot (hd.mem_due.2 ⟨ht, hnone⟩)
  obtain ⟨cause, rest, heq⟩ := List.exists_cons_of_ne_nil hsome
  have hrest : rest = [] := by
    rw [heq, List.length_cons] at hlength
    exact List.length_eq_zero_iff.1 (Nat.le_zero.1 (Nat.le_of_succ_le_succ hlength))
  have hmem : cause ∈ causes h.signal d := heq ▸ List.mem_cons_self
  exact ⟨cause, hrest ▸ heq, (hd.taken_of_mem_causes (hd.parked_of_taken ht) hmem).2⟩

/-- A holder that was not taken has **no cause**. -/
theorem causes_of_not_taken (hd : Sound d) (hparked : .parked t h ∈ d) (hnot : ¬ Taken t h d) :
    causes h.signal d = [] :=
  List.eq_nil_iff_forall_not_mem.2 fun _ hc => hnot (hd.taken_of_mem_causes hparked hc).1

/-! ### What is released -/

/-- A token whose slot was released is marked. -/
theorem isMarked_of_released (hd : Sound d) (hmem : .released t ∈ d) : IsMarked t d := by
  obtain ⟨older, hsub, hmidway, -⟩ := hd.mayFollow_of_mem hmem
  exact (isMarked_of_mem_midway hmidway).mono hsub

/-- `midway` has no token twice. -/
theorem nodup_midway (hd : Sound d) : (midway d).Nodup := by
  induction d with
  | nil => exact List.nodup_nil
  | cons n d ih =>
    have hold : (midway d).Nodup := ih hd.2
    cases n with
    | marked t taken =>
      exact List.nodup_cons.2 ⟨fun hmem => hd.1.1 (isMarked_of_mem_midway hmem), hold⟩
    | released t => exact hold.erase t
    | _ => exact hold

/-- When the slot of `t` is released, no holder of `t` **is due**. -/
theorem not_due_of_released (hd : Sound d) (hmem : .released t ∈ d) (h : Holder) :
    (t, h) ∉ due d := by
  induction d with
  | nil => exact absurd hmem List.not_mem_nil
  | cons n d ih =>
    rcases List.mem_cons.1 hmem with rfl | hold
    · exact hd.1.2 h
    · have hnot : (t, h) ∉ due d := ih hd.2 hold
      cases n with
      | marked t' taken =>
        intro hin
        rcases List.mem_append.1 hin with hnow | hin
        · obtain ⟨_, -, heq⟩ := List.mem_map.1 hnow
          cases heq
          exact hd.1.1 (hd.2.isMarked_of_released hold)
        · exact hnot hin
      | sent t' h' cause => exact fun hin => hnot (List.mem_of_mem_erase hin)
      | _ => exact hnot

/-- A slot that was released is not to be released any more. -/
theorem not_mem_midway_of_released (hd : Sound d) (hmem : .released t ∈ d) : t ∉ midway d := by
  induction d with
  | nil => exact absurd hmem List.not_mem_nil
  | cons n d ih =>
    rcases List.mem_cons.1 hmem with rfl | hold
    · exact hd.2.nodup_midway.not_mem_erase
    · have hnot : t ∉ midway d := ih hd.2 hold
      cases n with
      | marked t' taken =>
        intro hin
        rcases List.mem_cons.1 hin with rfl | hin
        · exact hd.1.1 (hd.2.isMarked_of_released hold)
        · exact hnot hin
      | released t' => exact fun hin => hnot (List.mem_of_mem_erase hin)
      | _ => exact hnot

/-- A slot is released **once**. -/
theorem released_once (hd : Sound d) (hsuffix : .released t :: older <:+ d) : .released t ∉ older :=
  fun hmem =>
    not_mem_midway_of_released (hd.of_suffix hsuffix).2 hmem (hd.mayFollow hsuffix).1

end Sound

/-! ### Pauses -/

/-- A pause that is not concluded has begun. -/
theorem parked_of_mem_pauses (hmem : h ∈ pauses d) : ∃ t, .parked t h ∈ d := by
  induction d with
  | nil => exact absurd hmem List.not_mem_nil
  | cons n d ih =>
    have hold : h ∈ pauses d → ∃ t, .parked t h ∈ n :: d := fun hmem =>
      (ih hmem).imp fun _ => List.mem_cons_of_mem n
    cases n with
    | parked t' h' =>
      rcases List.mem_cons.1 hmem with rfl | hmem
      · exact ⟨t', List.mem_cons_self⟩
      · exact hold hmem
    | concluded h' cause => exact hold (List.mem_of_mem_filter hmem)
    | _ => exact hold hmem

/-- A pause that has begun is not concluded, or its conclusion was noted. -/
theorem mem_pauses_or (hparked : .parked t h ∈ d) :
    h ∈ pauses d ∨ ∃ cause, .concluded h cause ∈ d := by
  induction d with
  | nil => exact absurd hparked List.not_mem_nil
  | cons n d ih =>
    rcases List.mem_cons.1 hparked with rfl | hold
    · exact Or.inl List.mem_cons_self
    · rcases ih hold with hmem | ⟨cause, hmem⟩
      · cases n with
        | parked t' h' => exact Or.inl (List.mem_cons_of_mem _ hmem)
        | concluded h' cause =>
          by_cases heq : h = h'
          · exact Or.inr ⟨cause, heq ▸ List.mem_cons_self⟩
          · exact Or.inl (List.mem_filter.2 ⟨hmem, decide_eq_true heq⟩)
        | _ => exact Or.inl hmem
      · exact Or.inr ⟨cause, List.mem_cons_of_mem n hmem⟩

namespace Sound

/-- A pause that was concluded has begun. -/
theorem parked_of_concluded {cause : Option String} (hd : Sound d)
    (hmem : .concluded h cause ∈ d) : ∃ t, .parked t h ∈ d := by
  obtain ⟨older, hsub, hpause, -⟩ := hd.mayFollow_of_mem hmem
  exact (parked_of_mem_pauses hpause).imp fun _ hparked => hsub hparked

/-- A pause that was concluded is not among `pauses`. -/
theorem not_mem_pauses_of_concluded {cause : Option String} (hd : Sound d)
    (hmem : .concluded h cause ∈ d) : h ∉ pauses d := by
  induction d with
  | nil => exact absurd hmem List.not_mem_nil
  | cons n d ih =>
    rcases List.mem_cons.1 hmem with rfl | hold
    · exact fun hin => of_decide_eq_true (List.mem_filter.1 hin).2 rfl
    · have hnot : h ∉ pauses d := ih hd.2 hold
      cases n with
      | parked t' h' =>
        intro hin
        rcases List.mem_cons.1 hin with rfl | hin
        · obtain ⟨t, hparked⟩ := hd.2.parked_of_concluded hold
          exact hd.1.2 t h hparked rfl
        · exact hnot hin
      | concluded h' cause' => exact fun hin => hnot (List.mem_of_mem_filter hin)
      | _ => exact hnot

/-- A pause that has begun is among `pauses` **until its conclusion is noted**. -/
theorem mem_pauses (hd : Sound d) (hparked : .parked t h ∈ d) :
    h ∈ pauses d ↔ ∀ cause, .concluded h cause ∉ d := by
  refine ⟨fun hin cause hmem => hd.not_mem_pauses_of_concluded hmem hin, fun hnot => ?_⟩
  exact (mem_pauses_or hparked).resolve_right fun ⟨cause, hmem⟩ => hnot cause hmem

end Sound

end Notes

end TurnPool
