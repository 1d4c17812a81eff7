import TurnPool.Proofs.Dockets
import TurnPool.Scenario.Thread

/-!
# What threads stand on

A thread of a scenario is in the middle of at most one thing that counts: a run of a task, or
something else that a worker serves. What it is in the middle of shows in its frames. Most frames
are *plain*: they are put on the others and taken off again, and a panic that passes through them
comes to no report. The frames below them are where a run of a task ends, where the loop of a worker
goes on, or where an agenda is worked off, and there are only a few ways in which they stand
together (`Footing`). So there is no second run above a run, and above what a worker serves apart
from a run there are plain frames only.

## Main results

* `Frame.isPlain`: frames that are put on others.
* `Footing`: how the frames of a thread stand, and what the docket says of the thread.
* `Footing.push`, `Footing.of_plain`: plain frames come and go.
* `Footing.congr`: only what the docket says of the thread itself is a matter of its frames.
-/

namespace TurnPool.Scenario

variable {V : Type}

namespace Frame

/-- Whether a frame may stand on any others: no run of a task ends there, no errand begins there,
and it is no loop. -/
def isPlain : Frame V → Bool
  | .ops place _ _ _ run => run.isNone && decide (place ≠ .bench)
  | .job _ (.errand _) | .worker _ _ _ | .drain _ _ => false
  | _ => true

/-- The contexts that a frame is about. -/
def contexts : Frame V → List Nat
  | .ops (.event ctx) _ _ _ _ | .job ctx _ | .worker _ ctx _ | .pausing ctx _ _ _ => [ctx]
  | _ => []

/-- The context whose pause ends there. -/
def paused? : Frame V → Option Nat
  | .pausing ctx _ _ _ => some ctx
  | _ => none

/-- The errand that is about to arrive there. -/
def errand? : Frame V → Option Errand
  | .job _ (.errand e) => some e
  | _ => none

/-- A plain frame has no errand. -/
theorem errand?_of_isPlain {fr : Frame V} (h : fr.isPlain = true) : fr.errand? = none := by
  cases fr with
  | job ctx j =>
    cases j with
    | event e => rfl
    | errand e => exact absurd h Bool.false_ne_true
  | _ => rfl

end Frame

/-- The token that was granted, if one was. -/
def Focus.granted? : Focus V → Option Nat
  | .granted (.ok id) => some id
  | _ => none

/-- The token that a thread was granted and has not taken yet. -/
def Mode.granted? : Mode V → Option Nat
  | .running f | .waiting (.core f) | .waiting (.unlocked f) | .waiting (.clock _ f) => f.granted?
  | _ => none

/-- The mode is not `over`, and a token that it was granted is below `bound`. -/
def Mode.Goes (bound : Nat) : Mode V → Prop
  | .over _ => False
  | m => ∀ id, m.granted? = some id → id < bound

/-- A mode that goes on was granted no token from `bound` on. -/
theorem Mode.Goes.granted {bound : Nat} {m : Mode V} (h : m.Goes bound) :
    ∀ id, m.granted? = some id → id < bound := by
  cases m with
  | running f => exact h
  | waiting w => exact h
  | «over» r => exact absurd h not_false

/-- A thread whose mode goes on is not over. -/
theorem Mode.Goes.going {bound : Nat} {t : Thread V} (h : t.mode.Goes bound) :
    t.isOver = false := by
  rw [Thread.isOver]
  split
  · rename_i r hr
    rw [hr] at h
    exact absurd h not_false
  · rfl

namespace Thread

/-- The contexts that a thread is about. -/
def contexts (t : Thread V) : List Nat := t.frames.flatMap Frame.contexts

/-- The contexts with a pause under way on a thread. -/
def away (t : Thread V) : List Nat := t.frames.filterMap Frame.paused?

/-- The errands that are about to arrive on a thread. -/
def errands (t : Thread V) : List Errand := t.frames.filterMap Frame.errand?

/-- The two threads are about different contexts. -/
def DisjointContexts (t t' : Thread V) : Prop := ∀ i ∈ t.contexts, i ∉ t'.contexts

/-- `DisjointContexts` is symmetric. -/
theorem DisjointContexts.symm {t t' : Thread V} (h : t.DisjointContexts t') :
    t'.DisjointContexts t :=
  fun i hi' hi => h i hi hi'

end Thread

/-! ### Footings -/

/-- The dockets `d` and `d'` have the same body for thread `id` and the same completion in its hand,
and the jobs of `d` are jobs of `d'`. -/
structure Docket.SameFor (id : Nat) (d d' : Docket) : Prop where
  /-- The thread is in the middle of the same. -/
  body : d'.body id = d.body id
  /-- It has the same completion in hand. -/
  hand : d'.keeps (.hand id) = d.keeps (.hand id)
  /-- What was begun stays so. -/
  jobs : ∀ (n : Nat) (what : Option Nat), d.jobs[n]? = some what → d'.jobs[n]? = some what

/-- The frames below a run of a task, or below the errand that is to claim one. -/
inductive Perch : List (Frame V) → Prop
  /-- A worker serves the entry. -/
  | serve (slot ctx : Nat) : Perch [.worker slot ctx .serve]
  /-- Somebody took the entry from an agenda. -/
  | taken (a : Answer V) : Perch [.inline a]
  /-- Somebody works off an agenda. -/
  | drain (a : Answer V) (left count : Nat) : Perch [.inline a, .drain left count]

/-- What the frames of thread `id` can be, and what the docket says of it then: it has no body, or
an event that it serves, or a run whose completion is in its hand while it is owed. -/
inductive Footing (d : Docket) (id : Nat) : List (Frame V) → Prop
  /-- There is nothing below. -/
  | ground (body : d.body id = none) : Footing d id []
  /-- An agenda is worked off. -/
  | drain (body : d.body id = none) (left count : Nat) : Footing d id [.drain left count]
  /-- A worker is between two entries. -/
  | loop (body : d.body id = none) (slot ctx : Nat) {phase : Phase} (between : phase ≠ .serve) :
      Footing d id [.worker slot ctx phase]
  /-- An errand is about to arrive. -/
  | errand (body : d.body id = none) (ctx : Nat) (e : Errand) {below : List (Frame V)}
      (perch : Perch below) : Footing d id (.job ctx (.errand e) :: below)
  /-- A worker serves something else. -/
  | served {n : Nat} (body : d.body id = some n) (job : d.jobs[n]? = some none) (slot ctx : Nat) :
      Footing d id [.worker slot ctx .serve]
  /-- A run of a task is under way. -/
  | run {n : Nat} {c : Completion} (body : d.body id = some n)
      (job : d.jobs[n]? = some (some c.task))
      (hand : d.keeps (.hand id) = if c.owed then some n else none) (ctx : Nat) (label : String)
      (current : Option String) (rest : List (Op V)) {below : List (Frame V)}
      (perch : Perch below) : Footing d id (.ops (.event ctx) label current rest (some c) :: below)
  /-- A plain frame is put on others. -/
  | push {fr : Frame V} {below : List (Frame V)} (plain : fr.isPlain = true)
      (footing : Footing d id below) : Footing d id (fr :: below)

namespace Footing

variable {d d' : Docket} {id : Nat} {fr : Frame V} {fs below : List (Frame V)}

/-- A plain frame may be taken off a footing. -/
theorem of_plain (h : Footing d id (fr :: below)) (hplain : fr.isPlain = true) :
    Footing d id below := by
  cases h with
  | push plain footing => exact footing
  | drain body left count => exact absurd hplain Bool.false_ne_true
  | loop body slot ctx between => exact absurd hplain Bool.false_ne_true
  | errand body ctx e perch => exact absurd hplain Bool.false_ne_true
  | served body job slot ctx => exact absurd hplain Bool.false_ne_true
  | run body job hand ctx label current rest perch => exact absurd hplain Bool.false_ne_true

/-- Plain frames may be put on a footing. -/
theorem append (h : Footing d id below) (hplain : ∀ fr ∈ fs, fr.isPlain = true) :
    Footing d id (fs ++ below) := by
  induction fs with
  | nil => exact h
  | cons fr fs ih =>
    exact .push (hplain fr List.mem_cons_self)
      (ih fun fr' hmem => hplain fr' (List.mem_cons_of_mem _ hmem))

/-- `Footing` depends on what the docket says of the thread only. -/
theorem congr (h : Footing d id fs) (ha : Docket.SameFor id d d') : Footing d' id fs := by
  induction h with
  | ground body => exact .ground (ha.body.trans body)
  | drain body left count => exact .drain (ha.body.trans body) left count
  | loop body slot ctx between => exact .loop (ha.body.trans body) slot ctx between
  | errand body ctx e perch => exact .errand (ha.body.trans body) ctx e perch
  | served body job slot ctx => exact .served (ha.body.trans body) (ha.jobs _ _ job) slot ctx
  | run body job hand ctx label current rest perch =>
    exact .run (ha.body.trans body) (ha.jobs _ _ job) (ha.hand.trans hand) ctx label current rest
      perch
  | push plain footing ih => exact .push plain ih

/-- A perch is a footing of a thread without a body, unless it is a worker that has served. -/
theorem of_perch (hbody : d.body id = none) {below : List (Frame V)} (h : Perch below) :
    Footing d id below ∨ ∃ slot ctx, below = [.worker slot ctx .serve] := by
  cases h with
  | serve slot ctx => exact Or.inr ⟨slot, ctx, rfl⟩
  | taken a => exact Or.inl (.push rfl (.ground hbody))
  | drain a left count => exact Or.inl (.push rfl (.drain hbody left count))

end Footing

/-- How a thread **stands**: on a footing, or as a worker without a body that has served its entry
and goes on at once. -/
def Thread.Stands (d : Docket) (t : Thread V) : Prop :=
  Footing d t.id t.frames ∨
    (d.body t.id = none ∧ t.mode = .running .next ∧
      ∃ slot ctx, t.frames = [.worker slot ctx .serve])

namespace Thread.Stands

variable {d d' : Docket} {t : Thread V}

/-- `Stands` depends on what the docket says of the thread only. -/
theorem congr (h : t.Stands d) (ha : Docket.SameFor t.id d d') : t.Stands d' := by
  rcases h with h | ⟨body, rest⟩
  · exact Or.inl (h.congr ha)
  · exact Or.inr ⟨ha.body.trans body, rest⟩

/-- A thread whose top frame is no worker that has served stands on a footing. -/
theorem footing (h : t.Stands d) {fr : Frame V} {below : List (Frame V)}
    (hframes : t.frames = fr :: below) (hfr : ∀ slot ctx, fr ≠ .worker slot ctx .serve) :
    Footing d t.id (fr :: below) := by
  rcases h with h | ⟨-, -, slot, ctx, heq⟩
  · exact hframes ▸ h
  · rw [hframes] at heq
    exact absurd (List.cons.inj heq).1 (hfr slot ctx)

end Thread.Stands

end TurnPool.Scenario
