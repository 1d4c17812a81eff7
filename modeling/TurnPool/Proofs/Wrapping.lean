import TurnPool.Proofs.Stories

/-!
# Layers around a failure

Whoever passes a failure on may put layers around it. Whether it is fatal is asked of the outside,
by a walk through its levels, and decided by the base cause alone, however many layers there are and
whatever they show: a layer is never of type `Fault`, not even one whose text is that of a fatal
fault.

## What is taken for granted

The walk finds what is listed, and the statements are about failures each level of which is listed
by its own type (`Failure.listed = Failure.levels`). These are the failures without a box, and those
with boxes around other layers (`Failure.listed_eq_levels`); a box directly around a base cause
shows its text only.

## Main results

* `Failure.isFatal_iff`: a failure is fatal if and only if its base cause is a `Fault.fatal` or a
  `Fault.invariantViolation`.
* `Scene.deliver_failure_congr`: the schedulers treat all failures alike that are not fatal.
* `Story.layers_keep_base`: a run with a fatal base cause halts the task and is reported once, and
  one with another base cause goes on as after the bare base cause, in both kinds of scheduler.
-/

namespace TurnPool

/-- A base cause makes a fatal level just if it is one of the **two fatal kinds** of `Fault`. -/
theorem Cause.isFatal_level (c : Cause) :
    c.level.isFatal = true ↔
      ∃ message, c = .fault (.fatal message) ∨ c = .fault (.invariantViolation message) := by
  rcases c with f | text
  · cases f <;> simp [Cause.level, Level.isFatal, Fault.isFatal]
  · simp [Cause.level, Level.isFatal]

namespace Failure

variable {e : Failure}

/-- Every level is listed by its own type unless the innermost layer is a box. -/
theorem listed_eq_levels (h : e.isBoxed = false) : e.listed = e.levels := by
  rw [listed, if_neg (ne_true_of_eq_false h), levels]

/-- No layer makes a fatal level, whatever its text is. -/
theorem any_isFatal_map_level (ls : List Layer) :
    (ls.map Layer.level).any Level.isFatal = false := by
  induction ls with
  | nil => rfl
  | cons l ls ih => exact ih

/-- A failure is fatal **if and only if its base cause is** a `Fault.fatal` or a
`Fault.invariantViolation`, if each of its levels is listed by its own type. -/
theorem isFatal_iff (hlisted : e.listed = e.levels) :
    e.isFatal = true ↔
      ∃ message, e.base = .fault (.fatal message) ∨
        e.base = .fault (.invariantViolation message) := by
  rw [isFatal, hlisted, levels, List.any_append, any_isFatal_map_level, Bool.false_or,
    List.any_cons,
    List.any_nil, Bool.or_false, e.base.isFatal_level]

example : (⟨.fault (.fatal "disk gone"), [.holder "io layer", .faultNote .timeout]⟩ :
    Failure).isFatal = true := by decide

end Failure

namespace Scenario

variable {V : Type} {w : Scene V}

namespace Scene

/-- `deliver` **reports** the text of a fatal outcome under the name of the task, and nothing
else. -/
theorem reports_deliver {task : Nat} (hlt : task < w.crew.size) (o : Outcome) :
    (w.deliver task o).pool.reports =
      w.pool.reports ++ (o.fatal?.map fun message => (w.crew.name task, message)).toList := by
  rw [deliver_eq hlt o, found]
  exact congrArg (· ++ _) (keepsReports_absorb task o w).reports

/-- `deliver` to a task that has joined has **delivered** the outcome, in the sense of
`Delivered`. -/
theorem delivered_deliver {d : Docket} {es : List Errand} {task : Nat} (h : CrewMatches d es w)
    (hlt : task < w.crew.size) (o : Outcome) : w.Delivered task o (w.deliver task o) := by
  obtain ⟨hlives, hhalted⟩ := h.delivered hlt o
  rw [deliver_eq hlt o]
  exact ⟨hlives, hhalted⟩

/-- `deliver` of two failures that are not fatal **leads to the same scene**. -/
theorem deliver_failure_congr {e e' : Failure} (he : e.isFatal = false) (he' : e'.isFatal = false)
    (task : Nat) : w.deliver task (.failure e) = w.deliver task (.failure e') := by
  have hsame : ∀ {Q : Type} [Timetable Q (Job V)] (p : Crew × Q),
      Crew.deliver w.options Job.errand w.readings.1 task (.failure e) p =
        Crew.deliver w.options Job.errand w.readings.1 task (.failure e') p := fun p => by
    have hlife : ∀ l : Lifecycle, l.deliver w.options.backoff (.failure e) =
        l.deliver w.options.backoff (.failure e') := fun l => by
      simp only [Lifecycle.deliver, he, he', Bool.false_eq_true, if_false]
    obtain ⟨tasks | g, q⟩ := p
    · simp only [Crew.deliver, Single.deliver, hlife]
    · simp only [Crew.deliver, Group.deliver, hlife]
  simp only [deliver, onCrew, readings] at hsame ⊢
  simp only [hsame]

end Scene

namespace Story

/-- **Layers change nothing** about what is done with a failure `e` whose levels are listed by their
own types. It `isFatal` just if its base cause is a `Fault.fatal` or a `Fault.invariantViolation`.
When a completion that is owed is spent with `e`, in any reachable story, such a base cause makes
its task `Halted` and is reported once, under the name of the task. After any other base cause
nothing is reported, the task fails and is retried, and the scene is the one after the bare base
cause. -/
theorem layers_keep_base {e : Failure} (hlisted : e.listed = e.levels) :
    let fatalBase :=
      ∃ message, e.base = .fault (.fatal message) ∨ e.base = .fault (.invariantViolation message)
    (e.isFatal = true ↔ fatalBase) ∧
      ∀ {s : Story V}, s.Reachable → ∀ (us : List (Thread V)) (c : Completion) (how : Fate)
        (unwinding : Bool), c.task < s.scene.crew.size → c.owed = true →
        how = .fail e ∨ how = .finish (.error e) →
        let w := { s.scene with threads := us }
        let w' := w.spend unwinding how c
        (fatalBase → w.Halted c.task w' ∧
          w'.pool.reports = w.pool.reports ++ [(w.crew.name c.task, e.wording)]) ∧
        (¬ fatalBase → w'.pool.reports = w.pool.reports ∧
          w'.crew.lives = Function.update w.crew.lives c.task
            ((w.crew.life c.task).enact w.options.backoff (w.crew.life c.task).state.fail).1 ∧
          w' = w.spend unwinding (.fail ⟨e.base, []⟩) c) := by
  intro fatalBase
  have hiff : e.isFatal = true ↔ fatalBase := Failure.isFatal_iff hlisted
  refine ⟨hiff, fun {s} h us c how unwinding hlt howed hhow => ?_⟩
  intro w w'
  have hroster : Scene.CrewMatches s.docket (s.scene.threads.flatMap Thread.errands) w :=
    h.sound.consistent.sound.roster.congr rfl rfl rfl rfl rfl
  have hspend : w' = w.deliver c.task (.failure e) := by
    show w.spend unwinding how c = _
    rw [Scene.spend_of_owed howed]
    rcases hhow with rfl | rfl <;> rfl
  have hfatal? : (Outcome.failure e).fatal? = if e.isFatal then some e.wording else none := rfl
  have hreports := Scene.reports_deliver (w := w) hlt (.failure e)
  have hdelivered := Scene.delivered_deliver hroster hlt (.failure e)
  rw [hspend]
  refine ⟨fun hbase => ⟨hdelivered.halted (hiff.2 hbase), ?_⟩, fun hbase => ?_⟩
  · rw [hreports, hfatal?, if_pos (hiff.2 hbase)]
    rfl
  · have he : e.isFatal = false := Bool.eq_false_iff.2 fun hfatal => hbase (hiff.1 hfatal)
    have hbare : (⟨e.base, []⟩ : Failure).isFatal = false :=
      Bool.eq_false_iff.2 fun hfatal =>
        hbase ((Failure.isFatal_iff (e := ⟨e.base, []⟩) rfl).1 hfatal)
    refine ⟨?_, ?_, ?_⟩
    · rw [hreports, hfatal?, if_neg (ne_true_of_eq_false he)]
      exact List.append_nil _
    · rw [hdelivered.lives, Lifecycle.deliver_failure _ he]
    · rw [Scene.spend_of_owed howed]
      exact Scene.deliver_failure_congr he hbare c.task

/-- A fatal base cause with a note, a note whose text is that of a fault, an error that holds it and
a box around all of them. -/
def deepFailure : Failure :=
  ⟨.fault (.fatal "disk gone"),
    [.holder "sync", .note "writing the journal", .faultNote .timeout, .wrapper "io layer"]⟩

/-- A run on the bench that fails with `deepFailure` halts its task and is reported once. -/
theorem layers_keep_base_bench : deepFailure.listed = deepFailure.levels ∧
    ∃ w : Scene Unit, w.Begins ∧ w.Halted 0 (w.spend false (.fail deepFailure) (.fresh 0)) ∧
      (w.spend false (.fail deepFailure) (.fresh 0)).pool.reports =
        [("pull", deepFailure.wording)] := by
  let setup : BenchSetup Unit := ⟨⟨quickBackoff, .normal⟩, true, [⟨"pull", "pull", []⟩]⟩
  obtain ⟨w, hw, hsize, hname, hreports⟩ : ∃ w : Scene Unit, setup.scene = .ok w ∧
      w.crew.size = 1 ∧ w.crew.name 0 = "pull" ∧ w.pool.reports = [] := ⟨_, rfl, rfl, rfl, rfl⟩
  have hbegins : w.Begins := Or.inr ⟨setup, hw⟩
  have hlt : (Completion.fresh 0).task < w.crew.size := hsize ▸ Nat.one_pos
  have hlisted : deepFailure.listed = deepFailure.levels := rfl
  obtain ⟨-, hrun⟩ := layers_keep_base (V := Unit) hlisted
  obtain ⟨hhalted, hreported⟩ :=
    (hrun (.start hbegins) w.threads (.fresh 0) (.fail deepFailure) false hlt rfl (Or.inl rfl)).1
      ⟨"disk gone", Or.inl rfl⟩
  exact ⟨hlisted, w, hbegins, hhalted, hreported.trans (by rw [hreports, ← hname]; rfl)⟩

end Story

end Scenario

end TurnPool
