import TurnPool.Proofs.PauseOutcomes
import TurnPool.Scenario.Step

/-!
# Wakes

Whoever has a waker of a context may send it a wake at any time: while the event has yet to pause,
while it is paused, or when the pause is over and the next one is not there yet. A wake that is not
lost ends the next pause of the event that waits for one; a wake that is left over must not end a
pause of a later event.

## What is followed

A `Watch` is a ward with its bells: the events that began, the wakes that were sent, and the pauses
whose work was over, with or without taking a wake. An event begins on a context that runs, by
whoever has the core lock; a wake is taken by who waits for one and by nobody else; and who waits
for a limited time is late only if there is neither a wake nor news then. Everything else is as in a
ward. A context *has been rung for* by the bells if it was sent a wake since its event began and
since a pause of it last took one.

## Main results

* `Watch.Sound.after`: a wake waits to be taken just if the context has been rung for.
* `Watch.Sound.mayClose_iff`: how a pause that waits for a wake can end.
* `Watch.Sound.answer_iff`: what the event gets to see of it.
* `Scenario.resume_wake`: in a scenario a thread that waits for a wake does what a watch allows.
* `wakes_end_pauses`: **which wakes end which pauses**, whatever is done and in whatever order.
-/

namespace TurnPool

namespace Pool

variable {ω α : Type} {p : Pool ω} {ctx i : Nat}

/-! ### What becomes of a wake that waits -/

/-- A change of one context that keeps `woken` there keeps it everywhere. -/
theorem woken_modifyContext {f : Context → Context} (hf : ∀ c, (f c).woken = c.woken) (i : Nat) :
    ((p.modifyContext ctx f).context i).woken = (p.context i).woken := by
  rw [context_modifyContext]
  split
  · exact hf _
  · rfl

/-- Only a context of the pool can have a wake. -/
theorem lt_of_woken (h : (p.context i).woken = true) : i < p.contexts.size := by
  by_contra hge
  rw [context, Array.getElem?_eq_none (Nat.le_of_not_lt hge)] at h
  exact Bool.false_ne_true h

/-- Whether an act is about the wakes of context `i`: it begins an event, wakes it or takes its
wake. -/
def PoolAct.isAbout (i : Nat) : PoolAct ω → Bool
  | .serve ctx _ | .wake ctx | .takeWake ctx => ctx = i
  | _ => false

/-- An act that is not about `i` **leaves `woken` of `i` alone**. -/
theorem woken_perform {a : PoolAct ω} (ha : a.isAbout i = false) (p : Pool ω) :
    ((p.perform a).context i).woken = (p.context i).woken := by
  have helse : ∀ (f : Context → Context) {ctx : Nat}, decide (ctx = i) = false →
      ((p.modifyContext ctx f).context i).woken = (p.context i).woken := fun f ctx hne => by
    rw [context_modifyContext, if_neg fun hand => of_decide_eq_false hne hand.1.symm]
  cases a with
  | add name pooled =>
    rw [perform, addContext, context, context, Array.getElem?_push]
    split
    · rename_i hi
      rw [hi, Array.getElem?_eq_none (Nat.le_refl _)]
      rfl
    · rfl
  | serve ctx priority => exact helse _ ha
  | wake ctx => exact helse _ ha
  | takeWake ctx => exact helse _ ha
  | check origin =>
    rw [perform, Pool.check]
    split <;> rfl
  | start spawned =>
    rw [perform, Pool.start]
    split
    · rfl
    · dsimp only
      split <;> rfl
  | pushQuit now => rw [perform, pushQuit, context, context]
  | tellShrink quits =>
    rw [perform, tellShrink]
    split <;> rfl
  | listen =>
    rw [perform, Pool.listen]
    split <;> rfl
  | _ => rfl

/-- The halves of pauses leave `woken` alone. -/
theorem Floor.woken_after {s : Floor ω} {e : FloorEvent ω} (he : ∀ a, e ≠ .act a) (i : Nat) :
    ((s.after e).pool.context i).woken = (s.pool.context i).woken := by
  cases e with
  | park ctx token reason =>
    rw [after]
    split
    · split
      · rcases park_cases ctx token s.pool with ⟨e, reports, heq⟩ | ⟨-, -, -, heq⟩ <;>
          rw [heq] <;> rfl
      · rfl
    · rfl
  | noteAway =>
    rw [after]
    split
    · rename_i ctx token reason _
      exact woken_modifyContext (f := .markPaused token reason) (fun _ => rfl) i
    · rfl
  | noteBack ctx cause =>
    rw [after]
    split
    · split
      · exact woken_modifyContext (f := .markResumed cause) (fun _ => rfl) i
      · rfl
    · rfl
  | unpark =>
    rw [after]
    split
    · rw [check]
      split <;> rfl
    · rfl
  | act a => exact absurd rfl (he a)

/-- Noting the halves of pauses leaves `woken` alone. -/
theorem Chronicle.woken_after {s : Chronicle ω} {e : FloorEvent ω} (he : ∀ a, e ≠ .act a)
    (i : Nat) :
    ((s.after e).floor.pool.context i).woken = (s.floor.pool.context i).woken := by
  rw [after]
  split
  · exact Floor.woken_after he i
  · rfl

/-- An act that is not about `i` leaves `woken` of `i` alone in a chronicle too. -/
theorem Chronicle.woken_act {s : Chronicle ω} {a : PoolAct ω} (ha : a.isAbout i = false) :
    ((s.after (.act a)).floor.pool.context i).woken = (s.floor.pool.context i).woken := by
  rw [after]
  split
  · exact woken_perform ha s.floor.pool
  · rfl

/-! ### Bells -/

/-- Something by which a wake comes or goes: an event began, a wake was sent, or the work of a pause
was over and took one or not. -/
inductive Bell where
  /-- An event begins on a context. -/
  | began (ctx : Nat)
  /-- A context is sent a wake. -/
  | rang (ctx : Nat)
  /-- The work of a pause is over. It has taken a wake or not. -/
  | closed (h : Holder) (took : Bool)
deriving DecidableEq

/-- Whether `ctx` is without a wake afterwards: its event begins, or a pause of it takes one. -/
def Bell.silences (ctx : Nat) : Bell → Bool
  | .began c => c = ctx
  | .rang _ => false
  | .closed h took => took && h.context = ctx

/-- `ctx` **has been rung for**: it was sent a wake, and since then no event of it has begun and no
pause of it has taken one. -/
def Rung (ctx : Nat) (bells : List Bell) : Prop :=
  ∃ newer older, bells = newer ++ .rang ctx :: older ∧ ∀ b ∈ newer, b.silences ctx = false

namespace Rung

variable {b : Bell} {bells : List Bell}

/-- Without bells nobody has been rung for. -/
theorem not_nil : ¬ Rung ctx [] := by
  rintro ⟨newer, older, heq, -⟩
  exact absurd heq.symm (List.append_ne_nil_of_right_ne_nil newer (List.cons_ne_nil _ _))

/-- `Rung` of a list is decided by its latest bell, or by the rest if that one does not silence
`ctx`. -/
theorem cons_iff : Rung ctx (b :: bells) ↔
    b = .rang ctx ∨ (b.silences ctx = false ∧ Rung ctx bells) := by
  constructor
  · rintro ⟨_ | ⟨n, newer⟩, older, heq, hsilent⟩
    · exact Or.inl (List.cons.inj heq).1
    · obtain ⟨rfl, rfl⟩ := List.cons.inj heq
      exact Or.inr ⟨hsilent b List.mem_cons_self, newer, older, rfl,
        fun n hn => hsilent n (List.mem_cons_of_mem _ hn)⟩
  · rintro (rfl | ⟨hb, newer, older, rfl, hsilent⟩)
    · exact ⟨[], bells, rfl, fun _ hn => absurd hn List.not_mem_nil⟩
    · exact ⟨b :: newer, older, rfl, List.forall_mem_cons.2 ⟨hb, hsilent⟩⟩

/-- After a bell that silences `ctx`, it has not been rung for. -/
theorem of_silences (hb : b.silences ctx = true) : ¬ Rung ctx (b :: bells) := by
  rw [cons_iff]
  rintro (rfl | ⟨hnot, -⟩)
  · exact Bool.false_ne_true hb
  · exact Bool.false_ne_true (hnot.symm.trans hb)

/-- A bell that neither rings for `ctx` nor silences it does not matter. -/
theorem cons_of_not_silences (hne : b ≠ .rang ctx) (hb : b.silences ctx = false) :
    Rung ctx (b :: bells) ↔ Rung ctx bells := by
  rw [cons_iff]
  exact ⟨fun h => (h.resolve_left hne).2, fun h => Or.inr ⟨hb, h⟩⟩

end Rung

/-! ### A ward with bells -/

/-- Whether `closing` takes a wake. -/
def Closing.takesWake : Closing α → Bool
  | .woken => true
  | _ => false

/-- A ward with its bells, latest first. -/
structure Watch (ω α : Type) where
  /-- The ward. -/
  ward : Ward ω α
  /-- The bells. -/
  bells : List Bell

namespace Watch

variable {s : Watch ω α} {x : Stay α} {r : Return α} {closing : Closing α}

/-- The pool of the ward. -/
def pool (s : Watch ω α) : Pool ω := s.ward.pool

/-- Whether the work of `x` may be over with `closing`; with `.late` only if there is neither a wake
nor news. -/
def mayClose (x : Stay α) (closing : Closing α) (s : Watch ω α) : Bool :=
  x.canClose s.pool closing && match closing with
    | .late => !(s.pool.context x.holder.context).woken && !(s.pool.signal x.holder.signal).hasNews
    | _ => true

/-- Whether an event may happen. An event begins on a running context by who has the core lock, and
a wake is taken by the pause that waits for it and by nothing else. -/
def may (s : Watch ω α) : WardEvent ω α → Bool
  | .other (.serve ctx _) =>
    (match s.ward.stage with
      | .free => true
      | _ => false) && (s.pool.context ctx).running
  | .other (.takeWake _) => false
  | .close ctx closing => (s.ward.stay? ctx).any fun x => s.mayClose x closing
  | _ => true

/-- The bells of an event. A wake that is sent to no context of the pool rings for nobody. -/
def rings (s : Watch ω α) : WardEvent ω α → List Bell
  | .other (.serve ctx _) => [.began ctx]
  | .other (.wake ctx) => if ctx < s.pool.contexts.size then [.rang ctx] else []
  | .close ctx closing =>
    match s.ward.stay? ctx with
    | some x => [.closed x.holder closing.takesWake]
    | none => []
  | _ => []

/-- The watch after an event; one that `may` forbids changes nothing. -/
def after (s : Watch ω α) (e : WardEvent ω α) : Watch ω α :=
  if s.may e then ⟨s.ward.after e, s.rings e ++ s.bells⟩ else s

/-- The watch after a list of events, from the pool `p` without pauses and bells. -/
def history (p : Pool ω) (deeds : List (WardEvent ω α)) : Watch ω α :=
  deeds.foldl after ⟨.history p [], []⟩

end Watch

/-! ### What an event leaves alone -/

/-- The halves of pauses only add signals. -/
theorem signals_le_floor (s : Floor ω) (e : FloorEvent ω) :
    s.pool.signals.size ≤ (s.after e).pool.signals.size := by
  cases e with
  | park ctx token reason =>
    rw [Floor.after]
    split
    · split
      · rcases park_cases ctx token s.pool with ⟨e, reports, heq⟩ | ⟨-, -, -, heq⟩
        · refine Nat.le_of_eq ?_
          rw [heq]
        · rw [heq]
          show _ ≤ (s.pool.signals.push _).size
          rw [Array.size_push]
          exact Nat.le_succ _
      · exact Nat.le_refl _
    · exact Nat.le_refl _
  | noteAway =>
    rw [Floor.after]
    split <;> exact Nat.le_refl _
  | noteBack ctx cause =>
    rw [Floor.after]
    split
    · split <;> exact Nat.le_refl _
    · exact Nat.le_refl _
  | unpark =>
    rw [Floor.after]
    split
    · rw [check]
      split <;> exact Nat.le_refl _
    · exact Nat.le_refl _
  | act a =>
    show _ ≤ (s.pool.perform a).signals.size
    by_cases hlook : ∃ k, a = .look k
    · obtain ⟨k, rfl⟩ := hlook
      exact Nat.le_of_eq Array.size_modify.symm
    · by_cases hsend : ∃ t h, a = .send t h
      · obtain ⟨t, h, rfl⟩ := hsend
        exact Nat.le_of_eq Array.size_modify.symm
      · exact Nat.le_of_eq (congrArg Array.size (signals_perform s.pool
          (fun t h heq => hsend ⟨t, h, heq⟩) fun k heq => hlook ⟨k, heq⟩)).symm

/-- The events of a chronicle only add signals. -/
theorem signals_le (s : Chronicle ω) (e : FloorEvent ω) :
    s.floor.pool.signals.size ≤ (s.after e).floor.pool.signals.size := by
  rw [Chronicle.after]
  split
  · exact signals_le_floor s.floor e
  · exact Nat.le_refl _

namespace Ward

/-- **No work ends and no context comes back**: each stay of `s'` is a new one, or one of `s` with
the same holder, manner and `closing`, and `returning` is as it was or empty. -/
structure KeepsStays (s s' : Ward ω α) : Prop where
  /-- Signals stay there. -/
  signals : s.pool.signals.size ≤ s'.pool.signals.size
  /-- A stay is a new one, with a signal of its own, or it was there. -/
  stays : ∀ y ∈ s'.stays, (y.closing = none ∧ s.pool.signals.size ≤ y.holder.signal) ∨
    ∃ x ∈ s.stays, x.holder = y.holder ∧ x.manner = y.manner ∧ x.closing = y.closing
  /-- Nobody comes back. -/
  returning : ∀ r, s'.returning = some r → s.returning = some r

/-- A ward with the same stays and the same `returning` keeps its stays. -/
theorem keepsStays_of_stays {s s' : Ward ω α}
    (hsignals : s.pool.signals.size ≤ s'.pool.signals.size)
    (hstays : s'.stays = s.stays) (hreturning : s'.returning = s.returning) : KeepsStays s s' where
  signals := hsignals
  stays y hy := Or.inr ⟨y, hstays ▸ hy, rfl, rfl, rfl⟩
  returning _ hr := hreturning ▸ hr

/-- `enter` keeps the stays. -/
theorem keepsStays_enter (ctx token : Nat) (reason : String) (manner : Manner) (s : Ward ω α) :
    KeepsStays s (s.after (.enter ctx token reason manner)) := by
  rw [after]
  split
  · split
    · refine ⟨signals_le s.chronicle _, fun y hy => ?_, fun _ hr => hr⟩
      have hy' : y ∈ s.enters ctx token manner := hy
      rw [enters] at hy'
      split at hy'
      · rename_i signal hpark
        rcases List.mem_cons.1 hy' with rfl | hy'
        · refine Or.inl ⟨rfl, ?_⟩
          rcases park_cases ctx token s.pool with ⟨e, reports, heq⟩ | ⟨-, -, -, heq⟩
          · rw [heq] at hpark
            cases hpark
          · rw [heq] at hpark
            cases hpark
            exact Nat.le_refl _
        · exact Or.inr ⟨y, hy', rfl, rfl, rfl⟩
      · exact Or.inr ⟨y, hy', rfl, rfl, rfl⟩
    · exact keepsStays_of_stays (Nat.le_refl _) rfl rfl
  · exact keepsStays_of_stays (Nat.le_refl _) rfl rfl

/-- `look` keeps the stays. -/
theorem keepsStays_look (ctx : Nat) (s : Ward ω α) : KeepsStays s (s.after (.look ctx)) := by
  rw [after]
  split
  · rename_i x hfind
    split
    · refine ⟨signals_le s.chronicle _, fun y hy => ?_, fun _ hr => hr⟩
      obtain ⟨z, hz, rfl⟩ := List.mem_map.1 hy
      split
      · exact Or.inr ⟨x, (mem_of_stay hfind).1, rfl, rfl, rfl⟩
      · exact Or.inr ⟨z, hz, rfl, rfl, rfl⟩
    · exact keepsStays_of_stays (Nat.le_refl _) rfl rfl
  · exact keepsStays_of_stays (Nat.le_refl _) rfl rfl

/-- `noteAway` keeps the stays. -/
theorem keepsStays_noteAway (s : Ward ω α) : KeepsStays s (s.after .noteAway) :=
  keepsStays_of_stays (signals_le s.chronicle _) rfl rfl

/-- A `PoolAct` keeps the stays. -/
theorem keepsStays_act (a : PoolAct ω) (s : Ward ω α) : KeepsStays s (s.after (.other a)) :=
  keepsStays_of_stays (signals_le s.chronicle (.act a)) rfl rfl

/-- `leave` keeps the stays, and empties `returning`. -/
theorem keepsStays_leave (s : Ward ω α) : KeepsStays s (s.after .leave) where
  signals := signals_le s.chronicle _
  stays y hy := Or.inr ⟨y, hy, rfl, rfl, rfl⟩
  returning r hr := by cases hr

/-- `back` does nothing, or concludes the pause of a stay that is closed and puts it in
`returning`. -/
theorem back_cases (ctx : Nat) (s : Ward ω α) : s.after (.back ctx) = s ∨
    ∃ x ∈ s.stays, ∃ closing cause, x.closing = some closing ∧ s.after (.back ctx) =
      ⟨s.chronicle.after (.noteBack ctx cause), s.stays.filter (·.holder ≠ x.holder),
        some ⟨x, closing, cause⟩⟩ := by
  rw [after]
  split
  · rename_i x hfree hfind
    split
    · rename_i closing hclosing
      exact Or.inr ⟨x, (mem_of_stay hfind).1, closing, _, hclosing, rfl⟩
    · exact Or.inl rfl
  · exact Or.inl rfl

/-- `enter` leaves `woken` alone. -/
theorem woken_enter (token : Nat) (reason : String) (manner : Manner) (s : Ward ω α) (i : Nat) :
    ((s.after (.enter ctx token reason manner)).pool.context i).woken =
      (s.pool.context i).woken := by
  rw [after]
  split
  · split
    · exact Chronicle.woken_after (s := s.chronicle) (fun _ h => by cases h) i
    · rfl
  · rfl

/-- `look` leaves `woken` alone. -/
theorem woken_look (s : Ward ω α) (i : Nat) :
    ((s.after (.look ctx)).pool.context i).woken = (s.pool.context i).woken := by
  rw [after]
  split
  · split
    · exact Chronicle.woken_act (s := s.chronicle) rfl
    · rfl
  · rfl

end Ward

namespace Watch

variable {s : Watch ω α} {x : Stay α} {r : Return α} {closing : Closing α}

/-- What the bells say of a stay that is closed with `closing`: at its first bell `closed` it took a
wake or not as `closing` says, `closing` befits its manner, and its context **had been rung for** if
it was woken, and had not if it was late. -/
def Heard (x : Stay α) (closing : Closing α) (bells : List Bell) : Prop :=
  ∃ older, .closed x.holder closing.takesWake :: older <:+ bells ∧
    (∀ took, .closed x.holder took ∉ older) ∧ closing.befits x.manner = true ∧
    (closing = .woken → Rung x.holder.context older) ∧
    (closing = .late → ¬ Rung x.holder.context older)

/-- What was heard stays heard when bells are added. -/
theorem Heard.mono {bells bells' : List Bell} (h : Heard x closing bells)
    (hsuffix : bells <:+ bells') : Heard x closing bells' := by
  obtain ⟨older, hclosed, hrest⟩ := h
  exact ⟨older, hclosed.trans hsuffix, hrest⟩

/-- The **bells are right**: `woken` says who has been rung for, and every stay or return that is
closed was heard, and no other was. -/
structure Sound (s : Watch ω α) : Prop where
  /-- The ward is in order. -/
  ward : s.ward.Sound
  /-- A wake waits to be taken just if the context has been rung for. -/
  woken : ∀ ctx, (s.pool.context ctx).woken = true ↔ Rung ctx s.bells
  /-- Pauses that are over had a signal. -/
  known : ∀ h took, .closed h took ∈ s.bells → h.signal < s.pool.signals.size
  /-- A pause whose work is not over has no bell. -/
  going : ∀ x ∈ s.ward.stays, x.closing = none → ∀ took, .closed x.holder took ∉ s.bells
  /-- One whose work is over has. -/
  closed : ∀ x ∈ s.ward.stays, ∀ c, x.closing = some c → Heard x c s.bells
  /-- So has one whose context has come back. -/
  returning : ∀ r, s.ward.returning = some r → Heard r.stay r.closing s.bells

namespace Sound

/-- `Sound` is kept by a ward that keeps its stays, if the new bells `r` close nothing and explain
`woken`. -/
theorem keepsStays (h : s.Sound) {ward : Ward ω α} {r : List Bell} (hward : ward.Sound)
    (hm : s.ward.KeepsStays ward)
    (hwoken : ∀ ctx, (ward.pool.context ctx).woken = true ↔ Rung ctx (r ++ s.bells))
    (hrings : ∀ h took, .closed h took ∉ r) : (⟨ward, r ++ s.bells⟩ : Watch ω α).Sound := by
  have hsuffix : s.bells <:+ r ++ s.bells := List.suffix_append r s.bells
  have hold : ∀ {k took}, .closed k took ∈ r ++ s.bells → .closed k took ∈ s.bells :=
    fun hmem => (List.mem_append.1 hmem).resolve_left (hrings _ _)
  exact {
    ward := hward
    woken := hwoken
    known := fun k took hmem => Nat.lt_of_lt_of_le (h.known k took (hold hmem)) hm.signals
    going := fun y hy hnone took hmem => by
      rcases hm.stays y hy with ⟨-, hfresh⟩ | ⟨x, hx, hholder, -, hclosing⟩
      · exact Nat.not_le.2 (h.known _ took (hold hmem)) hfresh
      · exact h.going x hx (hclosing.trans hnone) took (hholder ▸ hold hmem)
    closed := fun y hy c hc => by
      rcases hm.stays y hy with ⟨hnone, -⟩ | ⟨x, hx, hholder, hmanner, hclosing⟩
      · exact absurd (hnone.symm.trans hc) (Option.some_ne_none c).symm
      · have hheard := (h.closed x hx c (hclosing.trans hc)).mono hsuffix
        rwa [Heard, hholder, hmanner] at hheard
    returning := fun r hr => (h.returning r (hm.returning r hr)).mono hsuffix }

/-- `Sound` is kept without a new bell if the stays and `woken` are kept. -/
theorem silent (h : s.Sound) {ward : Ward ω α} (hward : ward.Sound) (hm : s.ward.KeepsStays ward)
    (hwoken : ∀ ctx, (ward.pool.context ctx).woken = (s.pool.context ctx).woken) :
    (⟨ward, s.bells⟩ : Watch ω α).Sound :=
  h.keepsStays hward hm (fun ctx => (hwoken ctx).symm ▸ h.woken ctx)
    fun _ _ => List.not_mem_nil

/-- `serve` keeps `Sound` with the bell `began`: **a wake that was left over is dropped**. -/
theorem serve (h : s.Sound) (ctx : Nat) (priority : Priority) :
    (⟨s.ward.after (.other (.serve ctx priority)), .began ctx :: s.bells⟩ : Watch ω α).Sound := by
  refine h.keepsStays (r := [.began ctx]) (h.ward.after _) (Ward.keepsStays_act _ _) (fun i => ?_)
    fun k took hmem => ?_
  · show ((s.pool.modifyContext ctx (.beginEvent priority)).context i).woken = true ↔ _
    rw [List.singleton_append, context_modifyContext]
    by_cases hi : i = ctx
    · subst hi
      refine iff_of_false (fun hwoken => ?_) (Rung.of_silences (decide_eq_true rfl))
      split at hwoken
      · cases hwoken
      · rename_i hnot
        exact hnot ⟨rfl, lt_of_woken hwoken⟩
    · rw [if_neg fun hand => hi hand.1, Rung.cons_of_not_silences (by simp) (by simp [Bell.silences,
        Ne.symm hi])]
      exact h.woken i
  · cases List.mem_singleton.1 hmem

/-- `wake` of a context of the pool keeps `Sound` with the bell `rang`, whether a wake waits already
or not. -/
theorem wake (h : s.Sound) {ctx : Nat} (hlt : ctx < s.pool.contexts.size) :
    (⟨s.ward.after (.other (.wake ctx)), .rang ctx :: s.bells⟩ : Watch ω α).Sound := by
  refine h.keepsStays (r := [.rang ctx]) (h.ward.after _) (Ward.keepsStays_act _ _) (fun i => ?_)
    fun k took hmem => ?_
  · show ((s.pool.modifyContext ctx .wake).context i).woken = true ↔ _
    rw [List.singleton_append, context_modifyContext, Rung.cons_iff]
    by_cases hi : i = ctx
    · subst hi
      rw [if_pos ⟨rfl, hlt⟩]
      exact iff_of_true rfl (Or.inl rfl)
    · rw [if_neg fun hand => hi hand.1, h.woken i]
      exact ⟨fun hrung => Or.inr ⟨rfl, hrung⟩, fun hor =>
        (hor.resolve_left fun heq => hi (Bell.rang.inj heq).symm).2⟩
  · cases List.mem_singleton.1 hmem

/-- `wake` of no context of the pool keeps `Sound` without a bell. -/
theorem wake_nobody (h : s.Sound) {ctx : Nat} (hge : ¬ ctx < s.pool.contexts.size) :
    (⟨s.ward.after (.other (.wake ctx)), s.bells⟩ : Watch ω α).Sound := by
  refine h.silent (h.ward.after _) (Ward.keepsStays_act _ _) fun i => ?_
  show ((s.pool.modifyContext ctx .wake).context i).woken = _
  rw [context_modifyContext, if_neg fun hand => hge hand.2]

/-- After `close`, `woken` is unset for the holder if a wake was taken, and unchanged otherwise. -/
theorem woken_close (x : Stay α) (closing : Closing α) (c : Chronicle ω) (i : Nat) :
    ((Ward.close x closing c).floor.pool.context i).woken =
      if closing.takesWake = true ∧ i = x.holder.context then false
      else (c.floor.pool.context i).woken := by
  cases closing with
  | woken =>
    show ((c.floor.pool.modifyContext x.holder.context .takeWake).context i).woken = _
    rw [context_modifyContext]
    by_cases hi : i = x.holder.context
    · rw [if_pos (show Closing.takesWake (.woken : Closing α) = true ∧ _ from ⟨rfl, hi⟩)]
      split
      · rfl
      · rename_i hnot
        exact Bool.eq_false_iff.2 fun hwoken => hnot ⟨hi, hi ▸ lt_of_woken hwoken⟩
    · rw [if_neg fun hand => hi hand.1, if_neg fun hand => hi hand.2]
  | _ => rfl

/-- `close`, where `mayClose` allows it, keeps `Sound` with the bell `closed`. -/
theorem close (h : s.Sound) (hx : x ∈ s.ward.stays) (hmay : s.mayClose x closing = true) :
    (⟨s.ward.after (.close x.holder.context closing),
      .closed x.holder closing.takesWake :: s.bells⟩ : Watch ω α).Sound := by
  have hfind := h.ward.stay_eq hx
  obtain ⟨hcan, hlate⟩ := Bool.and_eq_true_iff.1 hmay
  obtain ⟨hgoing, hcan'⟩ := Bool.and_eq_true_iff.1 hcan
  obtain ⟨hnone, hbefits⟩ := Bool.and_eq_true_iff.1 hgoing
  have heq : s.ward.after (.close x.holder.context closing) =
      s.ward.work (Ward.close x closing s.ward.chronicle) { x with closing := some closing } := by
    rw [Ward.after, hfind]
    exact if_pos hcan
  have hsound := h.ward.after (.close x.holder.context closing)
  rw [heq] at hsound ⊢
  have hsize : (Ward.close x closing s.ward.chronicle).floor.pool.signals.size =
      s.pool.signals.size := by
    cases closing with
    | told => exact Array.size_modify
    | _ => rfl
  have hstays : ∀ y ∈ (s.ward.work (Ward.close x closing s.ward.chronicle)
      { x with closing := some closing }).stays,
      y = { x with closing := some closing } ∨ (y ∈ s.ward.stays ∧ y.holder ≠ x.holder) :=
    fun y hy => by
      obtain ⟨z, hz, rfl⟩ := List.mem_map.1 hy
      split
      · exact Or.inl rfl
      · rename_i hne
        exact Or.inr ⟨hz, hne⟩
  have hnever := h.going x hx (Option.isNone_iff_eq_none.1 hnone)
  exact {
    ward := hsound
    woken := fun i => by
      show ((Ward.close x closing s.ward.chronicle).floor.pool.context i).woken = true ↔ _
      rw [woken_close]
      by_cases htakes : closing.takesWake = true ∧ i = x.holder.context
      · rw [if_pos htakes]
        refine iff_of_false Bool.false_ne_true (Rung.of_silences ?_)
        simp [Bell.silences, htakes.1, htakes.2]
      · rw [if_neg htakes, Rung.cons_of_not_silences (by simp) (by
          simp only [Bell.silences, Bool.and_eq_false_iff, decide_eq_false_iff_not]
          exact (not_and_or.1 htakes).imp Bool.eq_false_iff.2 fun hne heq => hne heq.symm)]
        exact h.woken i
    known := fun k took hmem => by
      show k.signal < (Ward.close x closing s.ward.chronicle).floor.pool.signals.size
      rw [hsize]
      rcases List.mem_cons.1 hmem with heq | hmem
      · cases heq
        exact h.ward.faithful.agrees.signalled x.token x.holder (h.ward.fits x hx).parked
      · exact h.known k took hmem
    going := fun y hy hyNone took hmem => by
      rcases hstays y hy with rfl | ⟨hy, hne⟩
      · cases hyNone
      · rcases List.mem_cons.1 hmem with heq | hmem
        · exact hne (Bell.closed.inj heq).1
        · exact h.going y hy hyNone took hmem
    closed := fun y hy c hc => by
      rcases hstays y hy with rfl | ⟨hy, -⟩
      · obtain rfl := Option.some.inj hc
        refine ⟨s.bells, List.suffix_rfl, hnever, hbefits, ?_, ?_⟩
        · rintro rfl
          exact (h.woken _).1 hcan'
        · rintro rfl hrung
          have hnot := (Bool.and_eq_true_iff.1 hlate).1
          rw [(h.woken _).2 hrung] at hnot
          exact Bool.false_ne_true hnot
      · exact (h.closed y hy c hc).mono (List.suffix_cons _ _)
    returning := fun r hr => (h.returning r hr).mono (List.suffix_cons _ _) }

/-- `back` keeps `Sound` without a bell. -/
theorem back (h : s.Sound) (ctx : Nat) :
    (⟨s.ward.after (.back ctx), s.bells⟩ : Watch ω α).Sound := by
  have hsound := h.ward.after (.back ctx)
  rcases s.ward.back_cases ctx with heq | ⟨x, hx, closing, cause, hclosing, heq⟩
  · rw [heq]
    exact h
  · rw [heq] at hsound ⊢
    exact {
      ward := hsound
      woken := fun i => by
        have hsame : ((s.ward.chronicle.after (.noteBack ctx cause)).floor.pool.context i).woken =
            (s.pool.context i).woken :=
          Chronicle.woken_after (fun _ h => by cases h) i
        exact hsame.symm ▸ h.woken i
      known := fun k took hmem =>
        Nat.lt_of_lt_of_le (h.known k took hmem) (signals_le s.ward.chronicle _)
      going := fun y hy => h.going y (List.mem_of_mem_filter hy)
      closed := fun y hy => h.closed y (List.mem_of_mem_filter hy)
      returning := fun r hr => by
        obtain rfl := Option.some.inj hr
        exact h.closed x hx closing hclosing }

/-- A `PoolAct` that may happen keeps `Sound` with its bells. -/
theorem act (h : s.Sound) {a : PoolAct ω} (hmay : s.may (.other a) = true) :
    (⟨s.ward.after (.other a), s.rings (.other a) ++ s.bells⟩ : Watch ω α).Sound := by
  cases a with
  | serve ctx priority => exact h.serve ctx priority
  | wake ctx =>
    rw [rings]
    split
    · rename_i hlt
      exact h.wake hlt
    · rename_i hge
      exact h.wake_nobody hge
  | takeWake ctx => exact absurd hmay Bool.false_ne_true
  | _ => exact h.silent (h.ward.after _) (Ward.keepsStays_act _ _) fun _ => Chronicle.woken_act rfl

/-- Every event keeps `Sound`. -/
theorem after (h : s.Sound) (e : WardEvent ω α) : (s.after e).Sound := by
  rw [Watch.after]
  split
  · rename_i hmay
    match e with
    | .enter ctx token reason manner =>
      exact h.silent (h.ward.after _) (Ward.keepsStays_enter ..)
        (Ward.woken_enter token reason manner _)
    | .noteAway =>
      exact h.silent (h.ward.after _) (Ward.keepsStays_noteAway _)
        (Chronicle.woken_after (s := s.ward.chronicle) fun _ h => by cases h)
    | .look ctx => exact h.silent (h.ward.after _) (Ward.keepsStays_look ctx _) (Ward.woken_look _)
    | .close ctx closing =>
      obtain ⟨x, hfind, hclose⟩ := (Option.any_eq_true _ _).1 hmay
      obtain ⟨hx, rfl⟩ := Ward.mem_of_stay hfind
      rw [rings, hfind]
      exact h.close hx hclose
    | .back ctx => exact h.back ctx
    | .leave =>
      exact h.silent (h.ward.after _) (Ward.keepsStays_leave _)
        (Chronicle.woken_after (s := s.ward.chronicle) fun _ h => by cases h)
    | .other a => exact h.act hmay
  · exact h

/-- Every watch that a list of events leads to is sound, from any pool that was built. -/
theorem history {p : Pool ω} {config : ThreadConfig} {limits : PerCategory (Option Nat)}
    (hp : ofParts config limits = .ok p) (deeds : List (WardEvent ω α)) :
    (Watch.history p deeds).Sound := by
  refine List.foldlRecOn deeds _ ?_ fun _ h e _ => h.after e
  exact {
    ward := .history hp []
    woken := fun ctx => iff_of_false (fun hwoken => by
      have hlt : ctx < p.contexts.size := lt_of_woken hwoken
      rw [(unused_ofParts hp).contexts] at hlt
      exact absurd hlt (Nat.not_lt_zero _)) Rung.not_nil
    known := fun _ _ hmem => absurd hmem List.not_mem_nil
    going := fun _ hmem => absurd hmem List.not_mem_nil
    closed := fun _ hmem => absurd hmem List.not_mem_nil
    returning := fun _ hr => by cases hr }

/-! ### What ends a pause -/

/-- No cause **was sent** because of a token that is not reclaimed. -/
theorem not_sent_of_live (h : s.Sound) {t : Nat}
    (hlive : (s.pool.ledger.token t).reclaimed = false) (k : Holder) (cause : String) :
    .sent t k cause ∉ s.ward.notes := fun hsent => by
  have hagrees := h.ward.faithful.agrees
  have hmarked := (hagrees.marked t).2 (hagrees.sound.taken_of_sent hsent).isMarked
  exact Bool.false_ne_true (hlive.symm.trans hmarked)

/-- The signal of a stay on a token that is not reclaimed has no news. -/
theorem hasNews_of_live (h : s.Sound) (hx : x ∈ s.ward.stays)
    (hlive : (s.pool.ledger.token x.token).reclaimed = false) :
    (s.pool.signal x.holder.signal).hasNews = false := by
  have hagrees := h.ward.faithful.agrees
  refine Bool.eq_false_iff.2 fun hnews => ?_
  have hne := (hagrees.told x.holder.signal).ne_nil_of_hasNews hnews
  obtain ⟨cause, hsent⟩ := (hagrees.sound.causes_ne_nil_iff (h.ward.fits x hx).parked).1 hne
  exact h.not_sent_of_live hlive _ _ hsent

/-- A stay that waits for a wake, on a token that is not reclaimed, **may end by a wake just if its
context has been rung for**, and otherwise only by its limit. -/
theorem mayClose_iff (h : s.Sound) (hx : x ∈ s.ward.stays) {limited : Bool}
    (hmanner : x.manner = .await limited) (hgoing : x.closing = none)
    (hlive : (s.pool.ledger.token x.token).reclaimed = false) (closing : Closing α) :
    s.mayClose x closing = true ↔ (closing = .woken ∧ Rung x.holder.context s.bells) ∨
      (closing = .late ∧ limited = true ∧ ¬ Rung x.holder.context s.bells) := by
  have hnews : ((Watch.pool s).signal x.holder.signal).hasNews = false := h.hasNews_of_live hx hlive
  rw [← h.woken]
  cases closing <;> cases limited <;>
    simp [mayClose, Stay.canClose, hmanner, hgoing, Closing.befits, hnews]

/-- For a return from such a stay with nothing open, **the event sees no error just if its context
had been rung for** when the work was over, and a timeout otherwise. -/
theorem answer_iff (h : s.Sound) (hr : s.ward.returning = some r) {limited : Bool}
    (hmanner : r.stay.manner = .await limited)
    (hlive : (s.pool.ledger.token r.stay.token).reclaimed = false) (hopen : s.pool.opened = none) :
    ∃ older, .closed r.stay.holder r.closing.takesWake :: older <:+ s.bells ∧
      (∀ took, .closed r.stay.holder took ∉ older) ∧
      (r.closing.takesWake = true ↔ Rung r.stay.holder.context older) ∧
      (s.ward.answer? = some (.result (.ok none)) ↔ Rung r.stay.holder.context older) ∧
      (s.ward.answer? = some (.result (.error .timeout)) ↔ ¬ Rung r.stay.holder.context older) ∧
      (¬ Rung r.stay.holder.context older → limited = true) := by
  obtain ⟨older, hclosed, honce, hbefits, hwoken, hlate⟩ := h.returning r hr
  obtain ⟨notes, hsuffix, -, hsilent⟩ := h.ward.outcome hr
  have hnone : ∀ cause, .sent r.stay.token r.stay.holder cause ∉ notes := fun cause hmem =>
    h.not_sent_of_live hlive _ _ (((List.suffix_cons _ _).trans hsuffix).subset hmem)
  refine ⟨older, hclosed, honce, ?_⟩
  rw [hmanner] at hbefits
  cases hclosing : r.closing with
  | woken =>
    have hrung := hwoken hclosing
    have hanswer := ((hsilent (by simp [hclosing])).2 hopen).2 hnone
    rw [hanswer.2.2.1 (Or.inr hclosing)]
    simp [Closing.takesWake, hrung]
  | late =>
    have hnot := hlate hclosing
    have hanswer := ((hsilent (by simp [hclosing])).2 hopen).2 hnone
    rw [hanswer.2.2.2 hclosing]
    rw [hclosing] at hbefits
    cases limited with
    | false => cases hbefits
    | true => simp [Closing.takesWake, hnot]
  | told => exact absurd hclosing (((hsilent (by simp [hclosing])).2 hopen).2 hnone).1
  | value a =>
    rw [hclosing] at hbefits
    cases hbefits
  | panicked q =>
    rw [hclosing] at hbefits
    cases hbefits
  | slept =>
    rw [hclosing] at hbefits
    cases hbefits

/-- A pause that is entered when its context has been rung for **ends by the wake, and in no other
way**. -/
theorem mayClose_enter (h : s.Sound) {ctx token : Nat} (hfree : s.ward.stage = .free)
    (hctx : ctx < s.pool.contexts.size) (htoken : token < s.pool.ledger.tokens.size)
    (hrun : (s.pool.context ctx).running = true) (hopen : s.pool.opened = none)
    (hlive : (s.pool.ledger.token token).reclaimed = false) (hrung : Rung ctx s.bells)
    (reason : String) (limited : Bool) :
    let s' := s.after (.enter ctx token reason (.await limited))
    ∃ x, s'.ward.stay? ctx = some x ∧ x.token = token ∧ x.closing = none ∧
      ∀ closing, s'.mayClose x closing = true ↔ closing = .woken := by
  intro s'
  have hs' : s'.Sound := h.after _
  have hward : s'.ward = s.ward.after (.enter ctx token reason (.await limited)) := rfl
  obtain ⟨signal, newSlot, -, hstays, -⟩ :=
    Ward.enter_of_live hfree hctx htoken hrun hopen hlive reason (.await limited)
  set x : Stay α := ⟨token, ⟨ctx, signal⟩, .await limited, [], none⟩
  have hx : x ∈ s'.ward.stays := by
    rw [hward, hstays]
    exact List.mem_cons_self
  have hlive' : (s'.pool.ledger.token x.token).reclaimed = false := by
    rcases Ward.enter_cases hfree hctx htoken reason (.await limited) with
      ⟨e, reports, -, heq⟩ | ⟨-, -, -, heq⟩
    · show (s'.ward.pool.ledger.token token).reclaimed = false
      rw [hward, heq]
      exact hlive
    · show (s'.ward.pool.ledger.token token).reclaimed = false
      rw [hward, heq]
      show ((s.pool.ledger.modify token _).token token).reclaimed = false
      rw [Ledger.token_modify]
      split <;> exact hlive
  refine ⟨x, hs'.ward.stay_eq hx, rfl, rfl, fun closing => ?_⟩
  have hrung' : Rung x.holder.context s'.bells := hrung
  rw [hs'.mayClose_iff hx rfl rfl hlive' closing]
  simp [hrung']

/-- Work that is over without `.woken` **takes no wake**. -/
theorem woken_of_not_takesWake (h : s.Sound) (hx : x ∈ s.ward.stays)
    (hmay : s.mayClose x closing = true) (htakes : closing.takesWake = false) (ctx : Nat) :
    let s' := s.after (.close x.holder.context closing)
    ((s'.pool.context ctx).woken = (s.pool.context ctx).woken) ∧
      (Rung ctx s'.bells ↔ Rung ctx s.bells) := by
  intro s'
  have hfind := h.ward.stay_eq hx
  have hafter : s' = ⟨s.ward.after (.close x.holder.context closing),
      .closed x.holder closing.takesWake :: s.bells⟩ := by
    have hcan : s.may (.close x.holder.context closing) = true := by
      rw [may, hfind]
      exact hmay
    show s.after _ = _
    rw [Watch.after, if_pos hcan, rings, hfind]
    rfl
  have hrung : Rung ctx s'.bells ↔ Rung ctx s.bells := by
    rw [hafter, Rung.cons_of_not_silences (by simp) (by simp [Bell.silences, htakes])]
  refine ⟨Bool.eq_iff_iff.2 ?_, hrung⟩
  rw [(h.after (.close x.holder.context closing)).woken, h.woken]
  exact hrung

end Sound

/-- A second wake right after the first **changes nothing**. -/
theorem wake_wake (s : Watch ω α) (ctx : Nat) :
    ((s.after (.other (.wake ctx))).after (.other (.wake ctx))).ward =
      (s.after (.other (.wake ctx))).ward := by
  have hsame : (s.pool.modifyContext ctx Context.wake).modifyContext ctx Context.wake =
      s.pool.modifyContext ctx Context.wake := by
    have hcontexts : (s.pool.contexts.modify ctx Context.wake).modify ctx Context.wake =
        s.pool.contexts.modify ctx Context.wake := by
      refine Array.ext_getElem? fun i => ?_
      rw [Array.getElem?_modify, Array.getElem?_modify]
      split
      · rw [Option.map_map]
        rfl
      · rfl
    rw [modifyContext, modifyContext, hcontexts]
  exact congrArg (fun p => ({ s.ward with
    chronicle := ⟨{ s.ward.chronicle.floor with pool := p }, s.ward.notes⟩ } : Ward ω α)) hsame

/-- Work that does not wait for a wake takes none, and may be over **just as it might without
one**. -/
theorem mayClose_wake (hmanner : ∀ limited, x.manner ≠ .await limited) (closing : Closing α)
    (ctx : Nat) : (s.mayClose x closing = true → closing.takesWake = false) ∧
      (s.after (.other (.wake ctx))).mayClose x closing = s.mayClose x closing := by
  cases hx : x.manner with
  | await limited => exact absurd hx (hmanner limited)
  | body => cases closing <;> simp [mayClose, Stay.canClose, hx, Closing.befits, Closing.takesWake]
  | sleep => cases closing <;> simp [mayClose, Stay.canClose, hx, Closing.befits, Closing.takesWake]

end Watch

end Pool

namespace Scenario

variable {V α : Type} {w : Scene V} {s : Pool.Watch (Job V) α} {x : Pool.Stay α}

/-- A scenario's thread that waits for a wake **goes on in a way that `mayClose` allows**; if a wake
is there it goes on at once and takes it. -/
theorem resume_wake (hpool : w.pool = s.pool) {limited : Bool} (hmanner : x.manner = .await limited)
    (hgoing : x.closing = none) {deadline : Option Nat}
    (hlimited : deadline.isSome = true → limited = true) (t : Thread V) :
    let wait := Wait.wake x.holder.context x.holder.signal deadline
    ((w.pool.context x.holder.context).woken = true → ready t w wait = true) ∧
      (ready t w wait = true → ∃ closing, s.mayClose x closing = true ∧
        ((w.pool.context x.holder.context).woken = true → closing = .woken) ∧
        (resume wait t w).2.pool = (Pool.Ward.close x closing s.ward.chronicle).floor.pool ∧
        ((closing = .late ∧ (resume wait t w).1 = t.go .late) ∨
          (closing ≠ .late ∧ (resume wait t w).1 = t.go .next))) := by
  intro wait
  have hready : ready t w wait = ((w.pool.context x.holder.context).woken ||
      (w.pool.signal x.holder.signal).hasNews || passed deadline w) := rfl
  have hresume : resume wait t w =
      if (w.pool.context x.holder.context).woken then
        (t.go .next, w.modifyPool (·.modifyContext x.holder.context Context.takeWake))
      else if (w.pool.signal x.holder.signal).hasNews then
        (t.go .next, w.modifyPool (·.modifySignal x.holder.signal Signal.receive))
      else (t.go .late, w) := rfl
  rw [hready, hresume]
  by_cases hwoken : (w.pool.context x.holder.context).woken = true
  · refine ⟨fun _ => by rw [hwoken]; rfl, fun _ => ⟨.woken, ?_, fun _ => rfl, ?_, ?_⟩⟩
    · rw [hpool] at hwoken
      simp [Pool.Watch.mayClose, Pool.Stay.canClose, hmanner, hgoing, Pool.Closing.befits, hwoken]
    · rw [if_pos hwoken]
      show w.pool.modifyContext _ _ = _
      rw [hpool]
      rfl
    · exact Or.inr ⟨by simp, by rw [if_pos hwoken]⟩
  · refine ⟨fun h => absurd h hwoken, fun hor => ?_⟩
    by_cases hnews : (w.pool.signal x.holder.signal).hasNews = true
    · refine ⟨.told, ?_, fun h => absurd h hwoken, ?_, ?_⟩
      · rw [hpool] at hnews
        simp [Pool.Watch.mayClose, Pool.Stay.canClose, hmanner, hgoing, Pool.Closing.befits, hnews]
      · rw [if_neg hwoken, if_pos hnews]
        show w.pool.modifySignal _ _ = _
        rw [hpool]
        rfl
      · exact Or.inr ⟨by simp, by rw [if_neg hwoken, if_pos hnews]⟩
    · obtain rfl : limited = true := by
        rw [Bool.eq_false_iff.2 hwoken, Bool.eq_false_iff.2 hnews] at hor
        refine hlimited ?_
        cases deadline with
        | none => exact absurd hor Bool.false_ne_true
        | some d => rfl
      refine ⟨.late, ?_, fun h => absurd h hwoken, ?_, ?_⟩
      · rw [hpool] at hwoken hnews
        simp [Pool.Watch.mayClose, Pool.Stay.canClose, hmanner, hgoing, Pool.Closing.befits, hwoken,
          hnews]
      · rw [if_neg hwoken, if_neg hnews]
        exact hpool
      · exact Or.inl ⟨rfl, by rw [if_neg hwoken, if_neg hnews]⟩

end Scenario

namespace Pool

variable {ω α : Type}

/-- **Which wakes end which pauses**, after any events on a pool:

* `woken` holds of a context just if it was `Rung`: sent a wake since its event began and since a
  pause of it last took one. A second wake changes nothing;
* a stay that awaits a wake, on a token that is not `reclaimed`, may end `.woken` just if its
  context was `Rung`, and otherwise only `.late`, if it has a limit;
* when it has ended with nothing open, the event sees no error just if its context was **`Rung` when
  the work was over**, and the wake was taken then; otherwise it sees a timeout, and none was taken;
* a pause that is entered when its context was `Rung` may end `.woken` and in no other way;
* work that awaits no wake takes none, and may be over just as it might without one; work that ends
  otherwise than `.woken` leaves `woken` as it is;
* when an event begins its context is not `Rung`. -/
theorem wakes_end_pauses {p : Pool ω} {config : ThreadConfig} {limits : PerCategory (Option Nat)}
    (hp : ofParts config limits = .ok p) (deeds : List (WardEvent ω α)) :
    let s := Watch.history p deeds
    (∀ ctx, ((s.pool.context ctx).woken = true ↔ Rung ctx s.bells) ∧
      ((s.after (.other (.wake ctx))).after (.other (.wake ctx))).ward =
        (s.after (.other (.wake ctx))).ward) ∧
    (∀ x ∈ s.ward.stays, ∀ limited, x.manner = .await limited → x.closing = none →
      (s.pool.ledger.token x.token).reclaimed = false → ∀ closing,
        s.mayClose x closing = true ↔ (closing = .woken ∧ Rung x.holder.context s.bells) ∨
          (closing = .late ∧ limited = true ∧ ¬ Rung x.holder.context s.bells)) ∧
    (∀ r, s.ward.returning = some r → ∀ limited, r.stay.manner = .await limited →
      (s.pool.ledger.token r.stay.token).reclaimed = false → s.pool.opened = none →
      ∃ older, .closed r.stay.holder r.closing.takesWake :: older <:+ s.bells ∧
        (∀ took, .closed r.stay.holder took ∉ older) ∧
        (r.closing.takesWake = true ↔ Rung r.stay.holder.context older) ∧
        (s.ward.answer? = some (.result (.ok none)) ↔ Rung r.stay.holder.context older) ∧
        (s.ward.answer? = some (.result (.error .timeout)) ↔ ¬ Rung r.stay.holder.context older) ∧
        (¬ Rung r.stay.holder.context older → limited = true)) ∧
    (∀ ctx token reason limited, s.ward.stage = .free → ctx < s.pool.contexts.size →
      token < s.pool.ledger.tokens.size → (s.pool.context ctx).running = true →
      s.pool.opened = none → (s.pool.ledger.token token).reclaimed = false → Rung ctx s.bells →
      let s' := s.after (.enter ctx token reason (.await limited))
      ∃ x, s'.ward.stay? ctx = some x ∧ x.token = token ∧ x.closing = none ∧
        ∀ closing, s'.mayClose x closing = true ↔ closing = .woken) ∧
    (∀ x ∈ s.ward.stays, ∀ closing : Closing α,
      ((∀ limited, x.manner ≠ .await limited) → ∀ ctx,
        (s.mayClose x closing = true → closing.takesWake = false) ∧
          (s.after (.other (.wake ctx))).mayClose x closing = s.mayClose x closing) ∧
      (s.mayClose x closing = true → closing.takesWake = false → ∀ ctx,
        let s' := s.after (.close x.holder.context closing)
        (s'.pool.context ctx).woken = (s.pool.context ctx).woken ∧
          (Rung ctx s'.bells ↔ Rung ctx s.bells))) ∧
    ∀ ctx priority, s.may (.other (.serve ctx priority)) = true →
      ¬ Rung ctx (s.after (.other (.serve ctx priority))).bells := by
  intro s
  have h : s.Sound := .history hp deeds
  refine ⟨fun ctx => ⟨h.woken ctx, s.wake_wake ctx⟩,
    fun x hx limited hmanner hgoing hlive => h.mayClose_iff hx hmanner hgoing hlive,
    fun r hr limited hmanner hlive hopen => h.answer_iff hr hmanner hlive hopen,
    fun ctx token reason limited hfree hctx htoken hrun hopen hlive hrung =>
      h.mayClose_enter hfree hctx htoken hrun hopen hlive hrung reason limited,
    fun x hx closing => ⟨fun hmanner ctx => Watch.mayClose_wake hmanner closing ctx,
      fun hmay htakes ctx => h.woken_of_not_takesWake hx hmay htakes ctx⟩,
    fun ctx priority hmay => ?_⟩
  have hafter : (s.after (.other (.serve ctx priority))).bells = .began ctx :: s.bells := by
    rw [Watch.after, if_pos hmay]
    rfl
  rw [hafter]
  exact Rung.of_silences (decide_eq_true rfl)

/-- An event is sent two wakes before it pauses, and pauses twice. -/
def twoWakes : List (WardEvent Unit Nat) :=
  [.other (.add (.caller "main") false), .other (.issue .unlimited .normal "download"),
    .other (.serve 0 .normal), .other (.wake 0), .other (.wake 0), .enter 0 0 "first" (.await true),
    .noteAway, .close 0 .woken, .back 0, .leave, .enter 0 0 "second" (.await true), .noteAway,
    .close 0 .late, .back 0]

/-- The two wakes have ended the first pause; the second one has waited in vain. -/
theorem wakes_end_pauses_twoWakes :
    (Watch.history untouched (twoWakes.take 9)).ward.answer? = some (.result (.ok none)) ∧
      (Watch.history untouched twoWakes).ward.answer? = some (.result (.error .timeout)) ∧
      ∃ older, .closed ⟨0, 1⟩ false :: older <:+ (Watch.history untouched twoWakes).bells ∧
        ¬ Rung 0 older := by
  have hfresh : ofParts default (.const none) = .ok untouched := rfl
  obtain ⟨-, -, hreturn, -⟩ := wakes_end_pauses hfresh twoWakes
  have htimeout : (Watch.history untouched twoWakes).ward.answer? =
      some (.result (.error .timeout)) := rfl
  obtain ⟨older, hclosed, -, -, -, hlate, -⟩ := hreturn
    ⟨⟨0, ⟨0, 1⟩, .await true, [], some .late⟩, .late, none⟩ rfl true rfl rfl rfl
  exact ⟨rfl, htimeout, older, hclosed, hlate.1 htimeout⟩

end Pool

end TurnPool
