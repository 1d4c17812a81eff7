import TurnPool.Proofs.Reclaims

/-!
# What comes of a pause

A pause can end in many ways: its work has a value or panics, a wake comes or does not come in time,
something is open when the context runs again, and its token may be reclaimed all the while. A cause
that was sent may have been found by the work, or received instead of a wake, or nobody may have
looked for it. What the event gets to see depends on none of this but what it should.

## What is followed

`Ward` is a `Chronicle` with the work of the pauses. A context that runs enters a pause, and is
refused or has a `Stay`; then its work looks at the signal as often as it likes, and closes in a way
that befits the manner of the pause (`Stay.canClose`). A sleep is work that looks once, when it is
over or cut short; a pause that waits for a wake takes the wake, or receives what its signal has, or
waits no longer if it has a limit. When the work is closed the context comes back: it collects the
cause, and whatever is sent after that comes too late. Then it leaves, and the event gets its answer
(`Ward.answer?`). In between anything else may happen that can happen in a chronicle.

## Main results

* `Signal.Tells.receive`: a cause that is received is the one that was sent.
* `Ward.Sound.after`: the stays are the pauses that are not over, and each has found what it was
  sent.
* `Ward.enter_cases`: who enters is refused, or has a stay.
* `Ward.Sound.books_leave`: the books are right again when a context has left.
* `Ward.Sound.outcome`: what the event gets to see, in the order of what comes first.
* `pause_outcomes`: **what an event gets to see of a pause**.
-/

namespace TurnPool

namespace Signal.Tells

variable {s : Signal} {causes : List String}

/-- If `s` has news, then `causes` is not empty. -/
theorem ne_nil_of_hasNews (h : s.Tells causes) (hnews : s.hasNews = true) : causes ≠ [] := by
  cases h with
  | nothing => cases hnews
  | one h => exact List.cons_ne_nil _ _

/-- `receive` keeps `Tells`: the cause received is **the one that was sent**. -/
theorem receive (h : s.Tells causes) (hnews : s.hasNews = true) : s.receive.Tells causes := by
  cases h with
  | nothing => cases hnews
  | one h =>
    refine .one ?_
    cases hcause : s.cause with
    | some c =>
      rw [Signal.collect, hcause, Option.some_or] at h
      simp only [Signal.collect, Signal.receive, hcause, Option.some_or, h]
    | none =>
      rw [Signal.collect, hcause, Option.none_or] at h
      simp only [Signal.collect, Signal.receive, hcause, h, Option.getD_some, Option.none_or,
        Option.or_none]

end Signal.Tells

namespace Notes

variable {d older : List Note} {t : Nat} {h : Holder} {cause : String}

/-- If `.sent t h cause` was noted, then `cause` is among `causes h.signal d`. -/
theorem mem_causes_of_sent (hmem : .sent t h cause ∈ d) : cause ∈ causes h.signal d := by
  induction d with
  | nil => exact absurd hmem List.not_mem_nil
  | cons n d ih =>
    rcases List.mem_cons.1 hmem with rfl | hold
    · rw [causes, if_pos rfl]
      exact List.mem_cons_self
    · have hin := ih hold
      cases n with
      | sent t' h' cause' =>
        rw [causes]
        split
        · exact List.mem_cons_of_mem _ hin
        · exact hin
      | _ => exact hin

/-- A pause that began on token `t` has causes **just if `t` sent it one**. -/
theorem Sound.causes_ne_nil_iff (hd : Sound d) (hparked : .parked t h ∈ d) :
    causes h.signal d ≠ [] ↔ ∃ cause, .sent t h cause ∈ d := by
  constructor
  · intro hne
    obtain ⟨cause, hmem⟩ := List.exists_mem_of_ne_nil _ hne
    exact ⟨cause, (hd.taken_of_mem_causes hparked hmem).2⟩
  · rintro ⟨cause, hsent⟩
    exact List.ne_nil_of_mem (mem_causes_of_sent hsent)

/-- The causes noted up to an earlier moment are causes later. -/
theorem causes_ne_nil_of_suffix {k : Nat} (hsuffix : older <:+ d) (hne : causes k older ≠ []) :
    causes k d ≠ [] := by
  obtain ⟨cause, hmem⟩ := List.exists_mem_of_ne_nil _ hne
  obtain ⟨t, h, rfl, hsent⟩ := mem_causes hmem
  exact List.ne_nil_of_mem (mem_causes_of_sent (hsuffix.subset hsent))

end Notes

namespace Pool

variable {ω α : Type} {p p' : Pool ω} {ctx token k : Nat} {reason : String}

/-! ### Receiving -/

/-- Whether the next half of a pause will balance the books does not change under `SamePauses`. -/
theorem Floor.WillBalance.samePauses {s : Floor ω} (h : s.WillBalance) (hu : SamePauses s.pool p') :
    Floor.WillBalance { s with pool := p' } := by
  obtain ⟨p, under, stage⟩ := s
  refine ⟨h.books.samePauses ?_, fun ctx token reason hstage =>
    Nat.lt_of_lt_of_le (h.there ctx token reason hstage) hu.size_le⟩
  cases stage with
  | free => exact hu
  | pausing ctx token reason => exact hu.noteAway (h.there ctx token reason rfl)
  | resuming ctx held => exact hu.unpark held

namespace Chronicle

variable {s : Chronicle ω}

/-- The pause that waits on signal `k` receives what was sent to it; nothing is noted. -/
def receive (k : Nat) (s : Chronicle ω) : Chronicle ω :=
  { s with floor := { s.floor with pool := s.floor.pool.modifySignal k Signal.receive } }

/-- `receive` keeps a chronicle faithful. -/
theorem Faithful.receive (hs : s.Faithful) (hnews : (s.floor.pool.signal k).hasNews = true) :
    (s.receive k).Faithful := by
  have hu : SamePauses s.floor.pool (s.floor.pool.modifySignal k Signal.receive) :=
    .of_eq rfl rfl rfl (.of_tokens rfl)
  refine hs.of_sameHolders (hs.settled.samePauses hu) ?_ rfl
  exact {
    sound := hs.agrees.sound
    holders := hs.agrees.holders
    marked := hs.agrees.marked
    worded := hs.agrees.worded
    told := fun i => by
      rw [signal_modifySignal]
      split
      · rename_i hi
        exact hi.1 ▸ (hs.agrees.told k).receive hnews
      · exact hs.agrees.told i
    signalled := fun t h hmem => by
      rw [modifySignal, Array.size_modify]
      exact hs.agrees.signalled t h hmem }

/-- A `PoolAct` begins and ends no pause. -/
theorem pauses_act (s : Chronicle ω) (a : PoolAct ω) :
    Notes.pauses (s.after (.act a)).notes = Notes.pauses s.notes := by
  rw [after]
  split
  · cases a with
    | mark t =>
      simp only [noted]
      split <;> rfl
    | _ => rfl
  · rfl

/-- A `PoolAct` leaves the half that is to be done as it is. -/
theorem stage_act (s : Chronicle ω) (a : PoolAct ω) :
    (s.after (.act a)).floor.stage = s.floor.stage := by
  rw [after]
  split <;> rfl

end Chronicle

/-! ### Pauses with their work -/

/-- How the work of a pause is done: a body that runs, a sleep, or waiting for a wake, with a time
limit or without. -/
inductive Manner where
  /-- The event does something. -/
  | body
  /-- It sleeps. -/
  | sleep
  /-- It waits for a wake, for a limited time or not. -/
  | await (limited : Bool)
deriving DecidableEq, Repr

/-- How the work of a pause was over: with a value, with a panic, after the sleep, by a wake, by an
abort, or because the limit passed. -/
inductive Closing (α : Type) where
  /-- It had a value. -/
  | value (a : α)
  /-- It panicked. -/
  | panicked (q : Panic)
  /-- It had slept. -/
  | slept
  /-- There was a wake. -/
  | woken
  /-- There was no wake, but news on the signal. -/
  | told
  /-- It had waited long enough. -/
  | late

namespace Closing

/-- What `Closing` is for `settle`; it has no value unless a body gave one. -/
def ending : Closing α → Ending (Option α)
  | .value a => .value (some a)
  | .panicked q => .panicked q
  | .late => .timedOut
  | _ => .value none

/-- The ways in which work of each manner can be over. -/
def befits : Manner → Closing α → Bool
  | .body, .value _ | .body, .panicked _ | .sleep, .slept => true
  | .await _, .woken | .await _, .told | .await true, .late => true
  | _, _ => false

/-- Unless the work panicked, an open resource on the way out **is what the event sees**, whatever
the ending and the cause are. -/
theorem settle_of_error {closing : Closing α} (h : ∀ q, closing ≠ .panicked q) (e : Fault)
    (cause : Option String) : settle closing.ending (.error e) cause = .result (.error e) := by
  cases closing with
  | panicked q => exact absurd rfl (h q)
  | _ => rfl

/-- Unless the work panicked, a cause that was collected **is what the event sees** if nothing is
open. -/
theorem settle_of_cause {closing : Closing α} (h : ∀ q, closing ≠ .panicked q) (cause : String) :
    settle closing.ending (.ok ()) (some cause) = .result (.error (.aborted cause)) := by
  cases closing with
  | panicked q => exact absurd rfl (h q)
  | _ => rfl

end Closing

/-- A pause with its work: what its body has seen when it polled, latest first, and how it was over,
if it is. -/
structure Stay (α : Type) where
  /-- The token. -/
  token : Nat
  /-- The context and its signal. -/
  holder : Holder
  /-- How the work is done. -/
  manner : Manner
  /-- What the work found when it looked, latest first. -/
  looks : List Bool
  /-- How the work was over, if it is. -/
  closing : Option (Closing α)

namespace Stay

/-- Whether the work may poll for an abort: a body at any time, a sleep once, a wait never. -/
def canLook (x : Stay α) : Bool :=
  x.closing.isNone && match x.manner with
    | .body => true
    | .sleep => x.looks.isEmpty
    | .await _ => false

/-- Whether the work may be over with `closing`: it must not be over yet, `closing` must befit its
manner, and the pool must allow it. -/
def canClose (p : Pool ω) (closing : Closing α) (x : Stay α) : Bool :=
  x.closing.isNone && closing.befits x.manner && match closing with
    | .slept => !x.looks.isEmpty
    | .woken => (p.context x.holder.context).woken
    | .told => (p.signal x.holder.signal).hasNews
    | _ => true

end Stay

/-- A context that has collected its cause and still has to check what is open. -/
structure Return (α : Type) where
  /-- The pause. -/
  stay : Stay α
  /-- How its work was over. -/
  closing : Closing α
  /-- The cause that was collected. -/
  cause : Option String

/-- A chronicle with the pauses that are not over, and the context on its way out of one, if any. -/
structure Ward (ω α : Type) where
  /-- The pool, and what was noted of it. -/
  chronicle : Chronicle ω
  /-- The pauses that are not over. -/
  stays : List (Stay α)
  /-- Who is about to leave. -/
  returning : Option (Return α)

/-- What is done with pauses and their work: entering, noting the entry, polling, being over, coming
back, leaving, and any other `PoolAct`. -/
inductive WardEvent (ω α : Type) where
  /-- A context begins to pause. -/
  | enter (ctx token : Nat) (reason : String) (manner : Manner)
  /-- It is noted as paused. -/
  | noteAway
  /-- The work of a context looks whether the pause was aborted, or waits for that and finds it so
  or not. -/
  | look (ctx : Nat)
  /-- The work of a context is over. -/
  | close (ctx : Nat) (closing : Closing α)
  /-- A context collects the cause and runs again. -/
  | back (ctx : Nat)
  /-- It leaves its pause. -/
  | leave
  /-- Anything else. -/
  | other (a : PoolAct ω)

namespace Ward

variable {s : Ward ω α} {x : Stay α}

/-- The pool of the chronicle. -/
def pool (s : Ward ω α) : Pool ω := s.chronicle.floor.pool

/-- The notes of the chronicle. -/
def notes (s : Ward ω α) : List Note := s.chronicle.notes

/-- The half of a pause that is still to be done. -/
def stage (s : Ward ω α) : PauseStage := s.chronicle.floor.stage

/-- The pause of context `ctx`, if it has one. -/
def stay? (ctx : Nat) (s : Ward ω α) : Option (Stay α) := s.stays.find? (·.holder.context = ctx)

/-- The ward with `chronicle`, and with `x` in place of the stay of the same holder. -/
def work (chronicle : Chronicle ω) (x : Stay α) (s : Ward ω α) : Ward ω α :=
  { s with chronicle, stays := s.stays.map fun y => if y.holder = x.holder then x else y }

/-- The stays after `ctx` entered: one more if `park` succeeded. -/
def enters (ctx token : Nat) (manner : Manner) (s : Ward ω α) : List (Stay α) :=
  match (s.pool.park ctx token).1 with
  | .ok signal => ⟨token, ⟨ctx, signal⟩, manner, [], none⟩ :: s.stays
  | .error _ => s.stays

/-- The chronicle after the work was over: a wake is taken, an abort is received, and nothing
happens otherwise. -/
def close (x : Stay α) (closing : Closing α) (c : Chronicle ω) : Chronicle ω :=
  match closing with
  | .woken => c.after (.act (.takeWake x.holder.context))
  | .told => c.receive x.holder.signal
  | _ => c

/-- The ward after an event; an event that cannot happen changes nothing. -/
def after (s : Ward ω α) : WardEvent ω α → Ward ω α
  | .enter ctx token reason manner =>
    match s.stage with
    | .free =>
      if ctx < s.pool.contexts.size ∧ token < s.pool.ledger.tokens.size then
        { s with
          chronicle := s.chronicle.after (.park ctx token reason)
          stays := s.enters ctx token manner }
      else s
    | _ => s
  | .noteAway => { s with chronicle := s.chronicle.after .noteAway }
  | .look ctx =>
    match s.stay? ctx with
    | some x =>
      if x.canLook then
        s.work (s.chronicle.after (.act (.look x.holder.signal)))
          { x with looks := (s.pool.signal x.holder.signal).poll.1 :: x.looks }
      else s
    | none => s
  | .close ctx closing =>
    match s.stay? ctx with
    | some x =>
      if x.canClose s.pool closing then
        s.work (close x closing s.chronicle) { x with closing := some closing }
      else s
    | none => s
  | .back ctx =>
    match s.stage, s.stay? ctx with
    | .free, some x =>
      match x.closing with
      | some closing =>
        let cause := (s.pool.signal x.holder.signal).collect
        { chronicle := s.chronicle.after (.noteBack ctx cause)
          stays := s.stays.filter (·.holder ≠ x.holder)
          returning := some ⟨x, closing, cause⟩ }
      | none => s
    | _, _ => s
  | .leave =>
    { s with chronicle := s.chronicle.after .unpark, returning := none }
  | .other a => { s with chronicle := s.chronicle.after (.act a) }

/-- The ward after a list of events, from the pool `p` without pauses. -/
def history (p : Pool ω) (deeds : List (WardEvent ω α)) : Ward ω α :=
  deeds.foldl after ⟨⟨⟨p, [], .free⟩, []⟩, [], none⟩

/-- What the event sees when the context in `returning` leaves its pause. -/
def answer? (s : Ward ω α) : Option (Settled (Option α)) :=
  match s.returning, s.stage with
  | some r, .resuming ctx held =>
    some (settle r.closing.ending ((s.pool.unpark ctx held).check "resume").1 r.cause)
  | _, _ => none

end Ward

namespace Stay

/-- What the notes `d` say of `x`: its pause began, polls that found an abort were followed by polls
that found it and were after a cause was sent, and so was an ending by abort. -/
structure FitsNotes (x : Stay α) (d : List Note) : Prop where
  /-- The context has parked on the token. -/
  parked : .parked x.token x.holder ∈ d
  /-- Work that has found the pause aborted finds it so from then on. -/
  steady : x.looks.Pairwise fun later earlier => earlier = true → later = true
  /-- It found it so only if a cause was sent. -/
  found : true ∈ x.looks → Notes.causes x.holder.signal d ≠ []
  /-- There was news only if a cause was sent. -/
  told : x.closing = some .told → Notes.causes x.holder.signal d ≠ []

namespace FitsNotes

variable {x : Stay α} {d older : List Note} {b : Bool} {closing : Closing α}

/-- A pause that has just begun fits the notes that say so. -/
theorem fresh (hparked : .parked token ⟨ctx, k⟩ ∈ d) (manner : Manner) :
    FitsNotes (⟨token, ⟨ctx, k⟩, manner, [], none⟩ : Stay α) d where
  parked := hparked
  steady := .nil
  found := nofun
  told := nofun

/-- A pause that fits the notes fits any later ones. -/
theorem mono (hx : x.FitsNotes older) (hsuffix : older <:+ d) : x.FitsNotes d where
  parked := hsuffix.subset hx.parked
  steady := hx.steady
  found hmem := Notes.causes_ne_nil_of_suffix hsuffix (hx.found hmem)
  told hclosing := Notes.causes_ne_nil_of_suffix hsuffix (hx.told hclosing)

/-- A poll that answers `true` **just if a cause was sent** may be added to `looks`. -/
theorem look (hx : x.FitsNotes d) (hb : b = true ↔ Notes.causes x.holder.signal d ≠ []) :
    FitsNotes { x with looks := b :: x.looks } d where
  parked := hx.parked
  steady := by
    refine List.pairwise_cons.2 ⟨fun earlier hmem htrue => ?_, hx.steady⟩
    exact hb.2 (hx.found (htrue ▸ hmem))
  found hmem := by
    rcases List.mem_cons.1 hmem with htrue | hmem
    · exact hb.1 htrue.symm
    · exact hx.found hmem
  told := hx.told

/-- The work may be over with `closing` if, for `.told`, a cause was sent. -/
theorem close (hx : x.FitsNotes d)
    (htold : closing = .told → Notes.causes x.holder.signal d ≠ []) :
    FitsNotes { x with closing := some closing } d where
  parked := hx.parked
  steady := hx.steady
  found := hx.found
  told h := htold (Option.some.inj h)

end FitsNotes

end Stay

/-- What is true of a context in `returning`: its pause was concluded with `r.cause`, fitted the
notes before that, and `leave` is still to be done. -/
structure Return.FitsChronicle (r : Return α) (c : Chronicle ω) : Prop where
  /-- The work was over. -/
  closing : r.stay.closing = some r.closing
  /-- What was true of the pause when it ended. -/
  stay : ∃ older, .concluded r.stay.holder r.cause :: older <:+ c.notes ∧ r.stay.FitsNotes older
  /-- The context is about to leave. -/
  stage : ∃ held, c.floor.stage = .resuming r.stay.holder.context held
  /-- It has no other pause. -/
  gone : ∀ h ∈ Notes.pauses c.notes, h.context ≠ r.stay.holder.context

namespace Ward

/-- The stays are **the pauses that are not over** by the notes, each fits the notes, the chronicle
is faithful, and `returning` fits it. -/
structure Sound (s : Ward ω α) : Prop where
  /-- The notes are faithful. -/
  faithful : s.chronicle.Faithful
  /-- The stays are the pauses that are not over. -/
  stays : s.stays.map (·.holder) = Notes.pauses s.notes
  /-- Each of them fits. -/
  fits : ∀ x ∈ s.stays, x.FitsNotes s.notes
  /-- So does who is about to leave. -/
  returning : ∀ r, s.returning = some r → r.FitsChronicle s.chronicle

variable {s : Ward ω α} {x y : Stay α} {c : Chronicle ω}

/-- The stay that `stay?` finds is one of context `ctx`. -/
theorem mem_of_stay (h : s.stay? ctx = some x) : x ∈ s.stays ∧ x.holder.context = ctx := by
  rw [stay?] at h
  have heq := List.find?_some h
  exact ⟨List.mem_of_find?_eq_some h, of_decide_eq_true heq⟩

/-- In a sound ward `stay?` finds every stay by its context. -/
theorem Sound.stay_eq (hs : s.Sound) (hmem : x ∈ s.stays) :
    s.stay? x.holder.context = some x := by
  have hnodup : (s.stays.map fun x => x.holder.context).Nodup := by
    have hunder := hs.faithful.under
    rw [show Notes.pauses s.chronicle.notes = s.stays.map (·.holder) from hs.stays.symm,
      List.map_map] at hunder
    exact hunder ▸ hs.faithful.apart
  cases hfind : s.stay? x.holder.context with
  | none => exact absurd (decide_eq_true rfl) (List.find?_eq_none.1 hfind x hmem)
  | some y =>
    have heq : y.holder.context = x.holder.context := (mem_of_stay hfind).2
    rw [List.inj_on_of_nodup_map hnodup (List.mem_of_find?_eq_some hfind) hmem heq]

/-- After `work c x`, the stay of the context is `x`. -/
theorem stay_work (hfind : s.stay? ctx = some y) (heq : y.holder = x.holder) :
    (s.work c x).stay? ctx = some x := by
  have hholder : ∀ y : Stay α, (if y.holder = x.holder then x else y).holder = y.holder :=
    fun y => by
      split
      · rename_i h
        exact h.symm
      · rfl
  rw [stay?, work, List.find?_map]
  simp only [Function.comp_def, hholder]
  rw [show s.stays.find? (·.holder.context = ctx) = some y from hfind, Option.map_some, if_pos heq]

/-- A later faithful chronicle with the same pauses may take the place of `s.chronicle`. -/
theorem Sound.happens (hs : s.Sound) (hc : c.Faithful) (hsuffix : s.notes <:+ c.notes)
    (hpauses : Notes.pauses c.notes = Notes.pauses s.notes)
    (hstage : ∀ ctx held, s.stage = .resuming ctx held → c.floor.stage = .resuming ctx held) :
    Sound { s with chronicle := c } where
  faithful := hc
  stays := hs.stays.trans hpauses.symm
  fits x hmem := (hs.fits x hmem).mono hsuffix
  returning r hr := by
    obtain ⟨hclosing, ⟨older, hconcluded, hfits⟩, ⟨held, hresuming⟩, hgone⟩ := hs.returning r hr
    exact ⟨hclosing, ⟨older, hconcluded.trans hsuffix, hfits⟩, ⟨held, hstage _ _ hresuming⟩,
      hpauses ▸ hgone⟩

/-- A stay that fits the notes may take the place of the one of its holder. -/
theorem Sound.work (hs : s.Sound) (hx : x.FitsNotes s.notes) :
    Sound (s.work s.chronicle x) where
  faithful := hs.faithful
  stays := by
    refine Eq.trans ?_ hs.stays
    rw [Ward.work, List.map_map]
    refine List.map_congr_left fun y _ => ?_
    rw [Function.comp_apply]
    split
    · rename_i h
      exact h.symm
    · rfl
  fits y hmem := by
    obtain ⟨z, hz, rfl⟩ := List.mem_map.1 hmem
    split
    · exact hx
    · exact hs.fits z hz
  returning := hs.returning

end Ward

/-! ### What a pause comes to -/

/-- No `"token reclaimed: …"` is the cause that is given when the sender is gone. -/
theorem abortCause_ne_disconnected (reason : String) :
    "token reclaimed: " ++ reason ≠ Signal.disconnectedCause := by
  intro heq
  have hlength := congrArg String.length heq
  rw [String.length_append] at hlength
  have hlong : "token reclaimed: ".length = 17 := rfl
  have hshort : Signal.disconnectedCause.length = 14 := rfl
  omega

namespace Chronicle.Faithful

variable {s : Chronicle ω} {t : Nat} {h : Holder}

/-- Noting that a pause is over with what its signal holds keeps a chronicle faithful, and
**`resuming` its context** is what is to be done. -/
theorem after_noteBack (hs : s.Faithful) (hfree : s.floor.stage = .free)
    (hmem : h ∈ Notes.pauses s.notes) :
    let cause := (s.floor.pool.signal h.signal).collect
    s.after (.noteBack h.context cause) =
      ⟨⟨s.floor.pool.noteBack h.context cause, s.floor.under.filter (· ≠ h.context),
        .resuming h.context (s.floor.pool.context h.context).heldToken⟩,
        .concluded h cause :: s.notes⟩ := by
  intro cause
  have hmay : s.may (.noteBack h.context cause) = true := by
    refine List.all_eq_true.2 fun h' hmem' => decide_eq_true ?_
    by_cases heq : h'.context = h.context
    · exact Or.inr (hs.pause_unique hmem' hmem heq ▸ rfl)
    · exact Or.inl heq
  have hunder : h.context ∈ s.floor.under := hs.under ▸ List.mem_map_of_mem hmem
  rw [Chronicle.after, if_pos hmay]
  simp only [noted, Floor.after, hfree, if_pos hunder, hs.find_pause hmem]
  rfl

/-- A concluded pause has a cause **just if one was sent before**, and then it is `"token reclaimed:
"` with the reason of its token. -/
theorem cause_of_concluded {cause : Option String} {older : List Note} (hs : s.Faithful)
    (hsuffix : .concluded h cause :: older <:+ s.notes) (hparked : .parked t h ∈ older) :
    ((∃ sent, .sent t h sent ∈ older) ∧
        cause = some ("token reclaimed: " ++ (s.floor.pool.ledger.token t).reason)) ∨
      ((∀ sent, .sent t h sent ∉ older) ∧ cause = none) := by
  have hsound : Notes.Sound s.notes := hs.agrees.sound
  have hsuffix' : older <:+ s.notes := (List.suffix_cons _ _).trans hsuffix
  have hcause : cause = (Notes.causes h.signal older).head? := (hsound.mayFollow hsuffix).2
  have hiff := (hsound.of_suffix hsuffix').causes_ne_nil_iff hparked
  cases hcauses : Notes.causes h.signal older with
  | nil =>
    refine Or.inr ⟨fun sent hsent => hiff.2 ⟨sent, hsent⟩ hcauses, ?_⟩
    rw [hcause, hcauses]
    rfl
  | cons c cs =>
    have hsent : .sent t h c ∈ older :=
      ((hsound.of_suffix hsuffix').taken_of_mem_causes hparked (hcauses ▸ List.mem_cons_self)).2
    refine Or.inl ⟨⟨c, hsent⟩, ?_⟩
    rw [hcause, hcauses, hs.agrees.worded t h c (hsuffix'.subset hsent)]
    rfl

/-- No pause collects `disconnectedCause`. -/
theorem collect_ne_disconnected (hs : s.Faithful) (k : Nat) :
    (s.floor.pool.signal k).collect ≠ some Signal.disconnectedCause := by
  intro heq
  rw [(hs.agrees.told k).collect] at heq
  obtain ⟨t, h, -, hsent⟩ := Notes.mem_causes (List.mem_of_mem_head? heq)
  exact abortCause_ne_disconnected _ (hs.agrees.worded t h _ hsent).symm

end Chronicle.Faithful

/-- On a token that is not reclaimed, a running context with nothing open parks, and gets a new
signal. -/
theorem park_of_live {p : Pool ω} (hopen : p.opened = none) (hrun : (p.context ctx).running = true)
    (hrec : (p.ledger.token token).reclaimed = false) :
    p.park ctx token = (.ok p.signals.size, p.hold ctx token) := by
  simp only [park, check_of_none _ hopen, hrun, Ledger.attach, hrec]
  rfl

/-- If the event sees `aborted cause`, the cause was collected or came from what the resume
answered. -/
theorem settle_aborted_cases {ending : Ending α} {resumed : Except Fault Unit}
    {collected : Option String} {cause : String}
    (h : settle ending resumed collected = .result (.error (.aborted cause))) :
    resumed = .error (.aborted cause) ∨ collected = some cause := by
  cases ending <;> rcases resumed with e | _ <;> cases collected <;> cases h
  all_goals first | exact Or.inl rfl | exact Or.inr rfl

namespace Ward

variable {s : Ward ω α} {x : Stay α} {r : Return α} {closing : Closing α}

/-- `enter` is **refused**, and then only the reports change, or the context **gets a stay** with a
new signal. -/
theorem enter_cases (hfree : s.stage = .free) (hctx : ctx < s.pool.contexts.size)
    (htoken : token < s.pool.ledger.tokens.size) (reason : String) (manner : Manner) :
    (∃ e reports, s.pool.park ctx token = (.error e, { s.pool with reports }) ∧
      s.after (.enter ctx token reason manner) =
        { s with chronicle := ⟨{ s.chronicle.floor with pool := { s.pool with reports } },
            s.notes⟩ }) ∨
      (s.pool.opened = none ∧ (s.pool.ledger.token token).reclaimed = false ∧
        s.pool.park ctx token = (.ok s.pool.signals.size, s.pool.hold ctx token) ∧
        s.after (.enter ctx token reason manner) =
          ⟨⟨⟨s.pool.hold ctx token, ctx :: s.chronicle.floor.under, .pausing ctx token reason⟩,
            .parked token ⟨ctx, s.pool.signals.size⟩ :: s.notes⟩,
            ⟨token, ⟨ctx, s.pool.signals.size⟩, manner, [], none⟩ :: s.stays, s.returning⟩) := by
  obtain ⟨⟨⟨p, under, stage⟩, d⟩, stays, returning⟩ := s
  obtain rfl : stage = .free := hfree
  have hthere : ctx < p.contexts.size ∧ token < p.ledger.tokens.size := ⟨hctx, htoken⟩
  have hmay : ∀ s : Chronicle ω, s.may (.park ctx token reason) = true := fun _ => rfl
  rcases park_cases ctx token p with ⟨e, reports, heq⟩ | ⟨hopen, -, hrec, heq⟩
  · refine Or.inl ⟨e, reports, heq, ?_⟩
    simp only [after, stage, pool, enters, Chronicle.after, hmay, if_true, Chronicle.noted,
      Floor.after, if_pos hthere, heq]
    rfl
  · refine Or.inr ⟨hopen, hrec, heq, ?_⟩
    simp only [after, stage, pool, enters, Chronicle.after, hmay, if_true, Chronicle.noted,
      Floor.after, if_pos hthere, heq]
    rfl

/-- `enter` keeps the ward sound. -/
theorem Sound.enter (hs : s.Sound) (ctx token : Nat) (reason : String) (manner : Manner) :
    Sound (s.after (.enter ctx token reason manner)) := by
  by_cases hguard : s.stage = .free ∧ ctx < s.pool.contexts.size ∧ token < s.pool.ledger.tokens.size
  · obtain ⟨hfree, hctx, htoken⟩ := hguard
    have hchronicle : (s.after (.enter ctx token reason manner)).chronicle.Faithful := by
      have heq : (s.after (.enter ctx token reason manner)).chronicle =
          s.chronicle.after (.park ctx token reason) := by
        simp only [after, hfree, hctx, htoken, and_self, if_true]
      exact heq ▸ hs.faithful.after _
    have hnone : ∀ r, s.returning ≠ some r := fun r hr => by
      obtain ⟨held, hresuming⟩ := (hs.returning r hr).stage
      exact nomatch hfree.symm.trans hresuming
    rcases enter_cases hfree hctx htoken reason manner with
      ⟨e, reports, -, heq⟩ | ⟨-, -, -, heq⟩
    · rw [heq] at hchronicle ⊢
      exact hs.happens hchronicle List.suffix_rfl rfl fun _ _ hresuming => hresuming
    · rw [heq] at hchronicle ⊢
      exact {
        faithful := hchronicle
        stays := congrArg (List.cons _) hs.stays
        fits := fun x hmem => by
          rcases List.mem_cons.1 hmem with rfl | hmem
          · exact .fresh List.mem_cons_self manner
          · exact (hs.fits x hmem).mono (List.suffix_cons _ _)
        returning := fun r hr => absurd hr (hnone r) }
  · have heq : s.after (.enter ctx token reason manner) = s := by
      rw [after]
      split
      · rename_i hfree
        exact if_neg fun hthere => hguard ⟨hfree, hthere⟩
      · rfl
    rw [heq]
    exact hs

/-- `look` keeps the ward sound. -/
theorem Sound.look (hs : s.Sound) (ctx : Nat) : Sound (s.after (.look ctx)) := by
  rw [after]
  split
  · rename_i x hfind
    split
    · have hx := hs.fits x (mem_of_stay hfind).1
      have hlook := hs.happens (hs.faithful.after (.act (.look x.holder.signal)))
        List.suffix_rfl rfl fun _ _ hresuming => hresuming
      exact hlook.work (hx.look (hs.faithful.agrees.told x.holder.signal).poll_fst)
    · exact hs
  · exact hs

/-- `close` keeps the ward sound. -/
theorem Sound.close (hs : s.Sound) (ctx : Nat) (closing : Closing α) :
    Sound (s.after (.close ctx closing)) := by
  rw [after]
  split
  · rename_i x hfind
    split
    · rename_i hcan
      have hx := hs.fits x (mem_of_stay hfind).1
      have hnews : closing = .told → (s.pool.signal x.holder.signal).hasNews = true := by
        rintro rfl
        exact (Bool.and_eq_true_iff.1 hcan).2
      have hx' := hx.close fun htold =>
        (hs.faithful.agrees.told x.holder.signal).ne_nil_of_hasNews (hnews htold)
      cases closing with
      | woken =>
        exact (hs.happens (hs.faithful.after (.act (.takeWake x.holder.context)))
          List.suffix_rfl rfl fun _ _ hresuming => hresuming).work hx'
      | told =>
        exact (hs.happens (hs.faithful.receive (hnews rfl))
          List.suffix_rfl rfl fun _ _ hresuming => hresuming).work hx'
      | _ => exact hs.work hx'
    · exact hs
  · exact hs

/-- `back` of a context whose work is over **concludes** its pause with what its signal holds, and
puts it in `returning`. -/
theorem Sound.after_back (hs : s.Sound) (hfree : s.stage = .free) (hmem : x ∈ s.stays)
    (hclosing : x.closing = some closing) :
    let cause := (s.pool.signal x.holder.signal).collect
    s.after (.back x.holder.context) =
      ⟨⟨⟨s.pool.noteBack x.holder.context cause,
          s.chronicle.floor.under.filter (· ≠ x.holder.context),
          .resuming x.holder.context (s.pool.context x.holder.context).heldToken⟩,
        .concluded x.holder cause :: s.notes⟩,
        s.stays.filter (·.holder ≠ x.holder), some ⟨x, closing, cause⟩⟩ := by
  intro cause
  have hpause : x.holder ∈ Notes.pauses s.chronicle.notes :=
    hs.stays ▸ List.mem_map_of_mem hmem
  simp only [after, hfree, hs.stay_eq hmem, hclosing]
  rw [show s.chronicle.after (.noteBack x.holder.context cause) = _ from
    hs.faithful.after_noteBack hfree hpause]
  rfl

/-- `back` keeps the ward sound. -/
theorem Sound.back (hs : s.Sound) (ctx : Nat) : Sound (s.after (.back ctx)) := by
  by_cases hguard : ∃ x closing, s.stage = .free ∧ s.stay? ctx = some x ∧ x.closing = some closing
  · obtain ⟨x, closing, hfree, hfind, hclosing⟩ := hguard
    obtain ⟨hmem, rfl⟩ := mem_of_stay hfind
    have hpause : x.holder ∈ Notes.pauses s.chronicle.notes :=
      hs.stays ▸ List.mem_map_of_mem hmem
    have hfaithful := hs.faithful.after
      (.noteBack x.holder.context (s.chronicle.floor.pool.signal x.holder.signal).collect)
    rw [hs.faithful.after_noteBack hfree hpause] at hfaithful
    rw [hs.after_back hfree hmem hclosing]
    exact {
      faithful := hfaithful
      stays := by
        have hfilter : (s.stays.map (·.holder)).filter (· ≠ x.holder) =
            (s.stays.filter (·.holder ≠ x.holder)).map (·.holder) := List.filter_map
        exact hfilter.symm.trans (congrArg _ hs.stays)
      fits := fun y hy => (hs.fits y (List.mem_filter.1 hy).1).mono (List.suffix_cons _ _)
      returning := fun r hr => by
        obtain rfl := Option.some.inj hr
        exact {
          closing := hclosing
          stay := ⟨s.notes, List.suffix_rfl, hs.fits x hmem⟩
          stage := ⟨_, rfl⟩
          gone := fun h hin heq => by
            obtain ⟨hin, hne⟩ := List.mem_filter.1 hin
            exact of_decide_eq_true hne (hs.faithful.pause_unique hin hpause heq) } }
  · have heq : s.after (.back ctx) = s := by
      rw [after]
      split
      · rename_i x hfree hfind
        split
        · rename_i closing hclosing
          exact absurd ⟨x, closing, hfree, hfind, hclosing⟩ hguard
        · rfl
      · rfl
    rw [heq]
    exact hs

/-- `leave` keeps the ward sound. -/
theorem Sound.leave (hs : s.Sound) : Sound (s.after .leave) := by
  have hpauses : Notes.pauses (s.chronicle.after .unpark).notes = Notes.pauses s.notes := by
    have hmay : s.chronicle.may .unpark = true := rfl
    rw [Chronicle.after, if_pos hmay]
    simp only [Chronicle.noted]
    split <;> rfl
  have hsuffix := s.chronicle.notes_suffix .unpark
  exact {
    faithful := hs.faithful.after .unpark
    stays := hs.stays.trans hpauses.symm
    fits := fun x hmem => (hs.fits x hmem).mono hsuffix
    returning := by rintro r ⟨⟩ }

/-- Every event **keeps the ward sound**. -/
theorem Sound.after (hs : s.Sound) (e : WardEvent ω α) : Sound (s.after e) := by
  cases e with
  | enter ctx token reason manner => exact hs.enter ctx token reason manner
  | noteAway =>
    refine hs.happens (hs.faithful.after .noteAway) List.suffix_rfl rfl fun ctx held hresuming => ?_
    have hstage : s.chronicle.floor.stage = .resuming ctx held := hresuming
    have hmay : s.chronicle.may .noteAway = true := rfl
    rw [Chronicle.after, if_pos hmay]
    simp only [Floor.after, hstage]
  | look ctx => exact hs.look ctx
  | close ctx closing => exact hs.close ctx closing
  | back ctx => exact hs.back ctx
  | leave => exact hs.leave
  | other a =>
    refine hs.happens (hs.faithful.after (.act a)) (s.chronicle.notes_suffix _)
      (s.chronicle.pauses_act a) fun _ _ hresuming => ?_
    rw [Chronicle.stage_act]
    exact hresuming

/-- Every ward that a list of events leads to is sound, from any pool that was built. -/
theorem Sound.history {p : Pool ω} {config : ThreadConfig} {limits : PerCategory (Option Nat)}
    (hp : ofParts config limits = .ok p) (deeds : List (WardEvent ω α)) : Sound (history p deeds) :=
  List.foldlRecOn deeds _ ⟨.history hp [], rfl, nofun, nofun⟩ fun _ hs e _ => hs.after e

/-! ### What the event gets to see -/

/-- A running context has no stay. -/
theorem Sound.stay_of_running (hs : s.Sound) (hfree : s.stage = .free)
    (hrun : (s.pool.context ctx).running = true) : s.stay? ctx = none := by
  cases hfind : s.stay? ctx with
  | none => rfl
  | some x =>
    obtain ⟨hmem, rfl⟩ := mem_of_stay hfind
    have hpause : x.holder ∈ Notes.pauses s.chronicle.notes := hs.stays ▸ List.mem_map_of_mem hmem
    have hunder : x.holder.context ∈ s.chronicle.floor.under :=
      hs.faithful.under ▸ List.mem_map_of_mem hpause
    have hbooks : Books s.pool s.chronicle.floor.under := by
      have hsettled := hs.faithful.settled.books
      rwa [Floor.settled, show s.chronicle.floor.stage = .free from hfree] at hsettled
    exact absurd (((hbooks.running _).1 hunder).symm.trans hrun) Bool.false_ne_true

/-- With a resource open, `enter` is **refused** with the violation, which is also reported, and no
pause begins. -/
theorem Sound.enter_of_opened {what : String} (hs : s.Sound) (hfree : s.stage = .free)
    (hctx : ctx < s.pool.contexts.size) (htoken : token < s.pool.ledger.tokens.size)
    (hrun : (s.pool.context ctx).running = true) (hopen : s.pool.opened = some what)
    (reason : String) (manner : Manner) :
    let s' := s.after (.enter ctx token reason manner)
    (s.pool.beginPause ctx token reason).1 =
        .error (.invariantViolation ("pause with open resources: " ++ what)) ∧
      s'.stay? ctx = none ∧ ∃ reports, s' = { s with
        chronicle := ⟨{ s.chronicle.floor with pool := { s.pool with reports } }, s.notes⟩ } := by
  rcases enter_cases hfree hctx htoken reason manner with ⟨e, reports, -, heq⟩ | ⟨hnone, -⟩
  · refine ⟨?_, ?_, reports, heq⟩
    · rw [beginPause, check_of_opened "pause" hopen]
      rfl
    · rw [heq]
      exact hs.stay_of_running hfree hrun
  · exact absurd (hopen.symm.trans hnone) (Option.some_ne_none what)

/-- With nothing open, `enter` on a reclaimed token is **refused** with the reason of the token, and
nothing changes. -/
theorem Sound.enter_of_reclaimed (hs : s.Sound) (hfree : s.stage = .free)
    (hctx : ctx < s.pool.contexts.size) (htoken : token < s.pool.ledger.tokens.size)
    (hrun : (s.pool.context ctx).running = true) (hopen : s.pool.opened = none)
    (hrec : (s.pool.ledger.token token).reclaimed = true) (reason : String) (manner : Manner) :
    let s' := s.after (.enter ctx token reason manner)
    (s.pool.beginPause ctx token reason).1 = .error
        (.aborted ("token " ++ (s.pool.ledger.token token).reason ++ " already reclaimed")) ∧
      s'.stay? ctx = none ∧ s' = s := by
  have hbegin := beginPause_of_reclaimed reason hopen hrun hrec
  rcases enter_cases hfree hctx htoken reason manner with ⟨e, reports, hpark, heq⟩ | ⟨-, hlive, -⟩
  · have hsame : { s.pool with reports } = s.pool := by
      have hhalf := beginPause_eq ctx token reason s.pool
      rw [hpark] at hhalf
      exact congrArg Prod.snd (hhalf.symm.trans hbegin)
    have hstill : s.after (.enter ctx token reason manner) = s := by
      rw [heq, hsame]
      rfl
    refine ⟨congrArg Prod.fst hbegin, ?_, hstill⟩
    rw [hstill]
    exact hs.stay_of_running hfree hrun
  · exact absurd (hlive.symm.trans hrec) Bool.false_ne_true

/-- With nothing open, `enter` on a token that is not reclaimed **begins a pause**. -/
theorem enter_of_live (hfree : s.stage = .free) (hctx : ctx < s.pool.contexts.size)
    (htoken : token < s.pool.ledger.tokens.size) (hrun : (s.pool.context ctx).running = true)
    (hopen : s.pool.opened = none) (hrec : (s.pool.ledger.token token).reclaimed = false)
    (reason : String) (manner : Manner) :
    let s' := s.after (.enter ctx token reason manner)
    ∃ signal newSlot, (s.pool.beginPause ctx token reason).1 = .ok ⟨signal, newSlot⟩ ∧
      s'.stays = ⟨token, ⟨ctx, signal⟩, manner, [], none⟩ :: s.stays ∧
      (s'.after .noteAway).pool = (s.pool.beginPause ctx token reason).2 := by
  have hlive := park_of_live hopen hrun hrec
  rcases enter_cases hfree hctx htoken reason manner with
    ⟨e, reports, hpark, -⟩ | ⟨-, -, hpark, heq⟩
  · exact nomatch congrArg Prod.fst (hlive.symm.trans hpark)
  · rw [heq, beginPause_eq, hpark]
    exact ⟨_, _, rfl, rfl, rfl⟩

/-- The check on the way out fails just if something is open, and names it. -/
theorem check_unpark (held : Option Nat) (p : Pool ω) :
    ((p.unpark ctx held).check "resume").1 = match p.opened with
      | none => .ok ()
      | some what => .error (.invariantViolation ("resume with open resources: " ++ what)) := by
  cases hopen : p.opened with
  | none => rw [check_of_none (p := p.unpark ctx held) "resume" hopen]
  | some what => rw [check_of_opened (p := p.unpark ctx held) "resume" hopen]; rfl

/-- What the event sees is `settle` of **how the work was over, of what is open, and of the cause
that was collected**. -/
theorem Sound.answer_eq (hs : s.Sound) (hr : s.returning = some r) :
    s.answer? = some (settle r.closing.ending (match s.pool.opened with
      | none => .ok ()
      | some what => .error (.invariantViolation ("resume with open resources: " ++ what)))
      r.cause) := by
  obtain ⟨held, hresuming⟩ := (hs.returning r hr).stage
  have hstage : s.stage = .resuming r.stay.holder.context held := hresuming
  simp only [answer?, hr, hstage, check_unpark]

/-- After `leave` the context **runs, holds no token and is parked on none**, and `paused` counts
those that are still away. -/
theorem Sound.books_leave (hs : s.Sound) (hr : s.returning = some r) :
    let s' := s.after .leave
    s'.stage = .free ∧ Books s'.pool s'.chronicle.floor.under ∧
      (s'.pool.context r.stay.holder.context).running = true := by
  intro s'
  obtain ⟨held, hresuming⟩ := (hs.returning r hr).stage
  have hmay : s.chronicle.may .unpark = true := rfl
  have hfloor : s'.chronicle.floor = { s.chronicle.floor with
      pool := ((s.pool.unpark r.stay.holder.context held).check "resume").2, stage := .free } := by
    have hafter : s'.chronicle = s.chronicle.after .unpark := rfl
    rw [hafter, Chronicle.after, if_pos hmay]
    simp only [Floor.after, hresuming]
    rfl
  have hfree : s'.stage = .free := congrArg Floor.stage hfloor
  have hbooks : Books s'.pool s'.chronicle.floor.under := by
    have hsettled := (hs.after .leave).faithful.settled.books
    rwa [Floor.settled, show (s.after .leave).chronicle.floor.stage = .free from hfree] at hsettled
  refine ⟨hfree, hbooks, ?_⟩
  by_contra hrun
  have hunder := (hbooks.running _).2 (Bool.eq_false_iff.2 hrun)
  rw [congrArg Floor.under hfloor] at hunder
  obtain ⟨h, hin, heq⟩ := List.mem_map.1 (hs.faithful.under ▸ hunder)
  exact (hs.returning r hr).gone h hin heq

/-- What the event sees, **in the order of what comes first**: a panic of the work, an open
resource, a cause that was sent before it was collected, and only then how the work was over. -/
theorem Sound.outcome (hs : s.Sound) (hr : s.returning = some r) :
    ∃ older, .concluded r.stay.holder r.cause :: older <:+ s.notes ∧
      (∀ q, r.closing = .panicked q → s.answer? = some (.panic q)) ∧
      ((∀ q, r.closing ≠ .panicked q) →
        (∀ what, s.pool.opened = some what → s.answer? =
          some (.result (.error (.invariantViolation ("resume with open resources: " ++ what))))) ∧
        (s.pool.opened = none →
          ((∃ cause, .sent r.stay.token r.stay.holder cause ∈ older) → s.answer? =
            some (.result (.error (.aborted
              ("token reclaimed: " ++ (s.pool.ledger.token r.stay.token).reason))))) ∧
          ((∀ cause, .sent r.stay.token r.stay.holder cause ∉ older) →
            r.closing ≠ .told ∧
            (∀ a, r.closing = .value a → s.answer? = some (.result (.ok (some a)))) ∧
            (r.closing = .slept ∨ r.closing = .woken → s.answer? = some (.result (.ok none))) ∧
            (r.closing = .late → s.answer? = some (.result (.error .timeout)))))) := by
  obtain ⟨hclosing, ⟨older, hsuffix, hfits⟩, -, -⟩ := hs.returning r hr
  have hanswer := hs.answer_eq hr
  have hcause := hs.faithful.cause_of_concluded hsuffix hfits.parked
  refine ⟨older, hsuffix, fun q hq => ?_, fun hends => ⟨fun what hopen => ?_, fun hopen =>
    ⟨fun hsent => ?_, fun hnone => ?_⟩⟩⟩
  · rw [hanswer, hq]
    rfl
  · rw [hanswer, hopen, Closing.settle_of_error hends]
  · obtain ⟨-, hsome⟩ := hcause.resolve_right fun hnot => hsent.elim hnot.1
    rw [hanswer, hopen, hsome, Closing.settle_of_cause hends]
    rfl
  · obtain ⟨-, hnull⟩ := hcause.resolve_left fun hsent => hsent.1.elim hnone
    rw [hanswer, hopen, hnull]
    refine ⟨fun htold => ?_, fun a ha => ?_, fun hor => ?_, fun hlate => ?_⟩
    · -- What the work found instead of a wake was sent because of the token.
      have hsound : Notes.Sound older :=
        hs.faithful.agrees.sound.of_suffix ((List.suffix_cons _ _).trans hsuffix)
      obtain ⟨cause, hsent⟩ := (hsound.causes_ne_nil_iff hfits.parked).1
        (hfits.told (htold ▸ hclosing))
      exact hnone cause hsent
    · rw [ha]
      rfl
    · rcases hor with h | h <;> rw [h] <;> rfl
    · rw [hlate]
      rfl

/-- No event sees `disconnectedCause`. -/
theorem Sound.answer_ne_disconnected (hs : s.Sound) :
    s.answer? ≠ some (.result (.error (.aborted Signal.disconnectedCause))) := by
  intro heq
  cases hr : s.returning with
  | none =>
    rw [answer?, hr] at heq
    exact nomatch heq
  | some r =>
    obtain ⟨-, ⟨older, hsuffix, hfits⟩, -, -⟩ := hs.returning r hr
    rw [hs.answer_eq hr] at heq
    rcases settle_aborted_cases (Option.some.inj heq) with hresumed | hcause
    · split at hresumed <;> exact nomatch hresumed
    · rcases hs.faithful.cause_of_concluded hsuffix hfits.parked with ⟨-, hsome⟩ | ⟨-, hnone⟩
      · exact abortCause_ne_disconnected _ (Option.some.inj (hsome.symm.trans hcause))
      · exact nomatch hnone.symm.trans hcause

end Ward

/-- **What an event sees of a pause**, after any events on a pool:

* `enter` is refused with an `invariantViolation` if a resource is open, and otherwise with
  `aborted` if the token is `reclaimed`; then there is no stay, and only a report may be new.
  Otherwise the context has a stay on the token, with a new signal;
* work that polls finds the pause aborted **just if a cause was `sent`** to its holder, and from
  then on always;
* when the work is over, `back` collects what the signal holds and concludes the pause, and `leave`
  checks what is open; both together are `endPause`;
* then the context runs, has no token, is parked on none, and `paused` counts those still away. The
  event sees a panic of the work first, then what is open, then the reason of the token if a cause
  was **sent before the pause was concluded**, and only then the value, nothing for a wake or a
  sleep, or a timeout;
* no signal collects `disconnectedCause`, and no event sees it. -/
theorem pause_outcomes {p : Pool ω} {config : ThreadConfig} {limits : PerCategory (Option Nat)}
    (hp : ofParts config limits = .ok p) (deeds : List (WardEvent ω α)) :
    let s := Ward.history p deeds
    let l := s.pool.ledger
    (∀ ctx token reason manner, s.stage = .free → ctx < s.pool.contexts.size →
      token < l.tokens.size → (s.pool.context ctx).running = true →
      let s' := s.after (.enter ctx token reason manner)
      let answer := (s.pool.beginPause ctx token reason).1
      (∀ what, s.pool.opened = some what →
        answer = .error (.invariantViolation ("pause with open resources: " ++ what)) ∧
        s'.stay? ctx = none ∧ ∃ reports, s' = { s with
          chronicle := ⟨{ s.chronicle.floor with pool := { s.pool with reports } }, s.notes⟩ }) ∧
      (s.pool.opened = none → (l.token token).reclaimed = true →
        answer = .error (.aborted ("token " ++ (l.token token).reason ++ " already reclaimed")) ∧
        s'.stay? ctx = none ∧ s' = s) ∧
      (s.pool.opened = none → (l.token token).reclaimed = false →
        ∃ signal newSlot, answer = .ok ⟨signal, newSlot⟩ ∧
          s'.stays = ⟨token, ⟨ctx, signal⟩, manner, [], none⟩ :: s.stays ∧
          (s'.after .noteAway).pool = (s.pool.beginPause ctx token reason).2)) ∧
    (∀ x ∈ s.stays,
      (x.looks.Pairwise fun later earlier => earlier = true → later = true) ∧
      (x.canLook = true → ∃ b,
        (s.after (.look x.holder.context)).stay? x.holder.context =
          some { x with looks := b :: x.looks } ∧
        (b = true ↔ ∃ cause, .sent x.token x.holder cause ∈ s.notes))) ∧
    (∀ x ∈ s.stays, ∀ closing, x.closing = some closing → s.stage = .free →
      let cause := (s.pool.signal x.holder.signal).collect
      let s' := s.after (.back x.holder.context)
      s'.returning = some ⟨x, closing, cause⟩ ∧
      s'.notes = .concluded x.holder cause :: s.notes ∧
      s'.answer? = some (settle closing.ending (s.pool.endPause x.holder.context cause).1 cause) ∧
      (s'.after .leave).pool = (s.pool.endPause x.holder.context cause).2) ∧
    (∀ r, s.returning = some r →
      let x := r.stay
      let ctx := x.holder.context
      let s' := s.after .leave
      (s'.stage = .free ∧ (s'.pool.context ctx).running = true ∧
        (s'.pool.context ctx).heldToken = none ∧ ctx ∉ s'.pool.away ∧
        (∀ t, ctx ∉ s'.pool.ledger.parked t) ∧
        s'.pool.sizer.paused = s'.pool.away.countP fun i => (s'.pool.context i).pooled) ∧
      ∃ older, .concluded x.holder r.cause :: older <:+ s.notes ∧
        (∀ q, r.closing = .panicked q → s.answer? = some (.panic q)) ∧
        ((∀ q, r.closing ≠ .panicked q) →
          (∀ what, s.pool.opened = some what → s.answer? = some (.result (.error
            (.invariantViolation ("resume with open resources: " ++ what))))) ∧
          (s.pool.opened = none →
            ((∃ cause, .sent x.token x.holder cause ∈ older) → s.answer? =
              some (.result (.error
                (.aborted ("token reclaimed: " ++ (l.token x.token).reason))))) ∧
            ((∀ cause, .sent x.token x.holder cause ∉ older) →
              r.closing ≠ .told ∧
              (∀ a, r.closing = .value a → s.answer? = some (.result (.ok (some a)))) ∧
              (r.closing = .slept ∨ r.closing = .woken → s.answer? = some (.result (.ok none))) ∧
              (r.closing = .late → s.answer? = some (.result (.error .timeout))))))) ∧
    (∀ k, (s.pool.signal k).collect ≠ some Signal.disconnectedCause) ∧
    s.answer? ≠ some (.result (.error (.aborted Signal.disconnectedCause))) := by
  intro s l
  have hs : s.Sound := .history hp deeds
  refine ⟨fun ctx token reason manner hfree hctx htoken hrun => ?_,
    fun x hmem => ⟨(hs.fits x hmem).steady, fun hcan => ?_⟩,
    fun x hmem closing hclosing hfree => ?_, fun r hr => ⟨?_, hs.outcome hr⟩,
    hs.faithful.collect_ne_disconnected, hs.answer_ne_disconnected⟩
  · exact ⟨fun what hopen => hs.enter_of_opened hfree hctx htoken hrun hopen reason manner,
      fun hopen hrec => hs.enter_of_reclaimed hfree hctx htoken hrun hopen hrec reason manner,
      fun hopen hrec => Ward.enter_of_live hfree hctx htoken hrun hopen hrec reason manner⟩
  · have hiff := hs.faithful.agrees.sound.causes_ne_nil_iff (hs.fits x hmem).parked
    refine ⟨(s.pool.signal x.holder.signal).poll.1, ?_,
      (hs.faithful.agrees.told x.holder.signal).poll_fst.trans hiff⟩
    simp only [Ward.after, hs.stay_eq hmem, hcan, if_true]
    exact Ward.stay_work (hs.stay_eq hmem) rfl
  · have hback := hs.after_back hfree hmem hclosing
    intro cause s'
    rw [show s' = _ from hback]
    exact ⟨rfl, rfl, rfl, rfl⟩
  · obtain ⟨hfree, hbooks, hrun⟩ := hs.books_leave hr
    refine ⟨hfree, hrun, hbooks.idle _ hrun, fun haway => ?_, fun t hparked => ?_, hbooks.counted⟩
    · exact Bool.false_ne_true (((hbooks.noted _).1 haway).symm.trans hrun)
    · have hheld := hbooks.parked t _ hparked
      rw [hbooks.idle _ hrun] at hheld
      exact nomatch hheld

/-- A worker reads and a caller waits to be woken, both on one token. The token is marked and the
worker is sent the cause; the caller has waited long enough before it is sent one. The work of the
worker has a value after all. -/
def interrupted : List (WardEvent Unit Nat) :=
  [.other (.add (.worker 0) true), .other (.add (.caller "main") false),
    .other (.issue .unlimited .normal "read"), .enter 0 0 "reading" .body, .noteAway,
    .enter 1 0 "waiting" (.await true), .noteAway, .look 0, .other (.mark 0), .look 0,
    .other (.send 0 ⟨0, 0⟩), .look 0, .close 1 .late, .back 1, .other (.send 0 ⟨1, 1⟩), .leave,
    .look 0, .close 0 (.value 7), .back 0]

/-- The worker has found what it was sent, and its event sees that the token was reclaimed. The
event of the caller saw that it was too late. -/
theorem pause_outcomes_interrupted :
    let s := Ward.history untouched interrupted
    (Ward.history untouched (interrupted.take 14)).answer? = some (.result (.error .timeout)) ∧
      s.returning = some ⟨⟨0, ⟨0, 0⟩, .body, [true, true, false, false], some (.value 7)⟩, .value 7,
        some ("token reclaimed: " ++ "read")⟩ ∧
      s.answer? = some (.result (.error (.aborted ("token reclaimed: " ++ "read")))) ∧
      ((s.after .leave).pool.context 0).running = true ∧ 0 ∉ (s.after .leave).pool.away := by
  have hfresh : ofParts default (.const none) = .ok untouched := rfl
  obtain ⟨-, -, -, hreturn, -, -⟩ := pause_outcomes hfresh interrupted
  obtain ⟨⟨-, hrun, -, haway, -, -⟩, -⟩ := hreturn _ rfl
  exact ⟨rfl, rfl, rfl, hrun, haway⟩

end Pool

end TurnPool
