import TurnPool.Scenario.Answer
import TurnPool.Scenario.Op

/-!
# Threads

A thread of a scenario is a stack of frames, with either something in focus that the top frame is
to act on, or something that the thread waits for. Frames are what is left to do: operations of an
event or of a paused body, taking the core lock back, the end of a pause, the loop of a worker.

## Main definitions

* `Focus`: what the top frame is to act on.
* `Wait`: what a thread waits for.
* `Frame`: what is left to do.
* `Thread`: a thread.
-/

namespace TurnPool.Scenario

variable {V : Type}

/-- What the top frame of a thread is to act on. -/
inductive Focus (V : Type) where
  /-- Go on. -/
  | next
  /-- An operation answered. -/
  | give (a : Answer V)
  /-- The request for a token was granted or not. -/
  | granted (r : Except Fault Nat)
  /-- Time is up. -/
  | late
  /-- A panic is passing through. -/
  | unwind (p : Panic)

/-- Where an operation stands. -/
inductive Place where
  /-- Outside the pool. -/
  | ground
  /-- In the body of a pause with a signal. -/
  | body (signal : Nat)
  /-- In an event on a context. -/
  | event (ctx : Nat)
  /-- Outside the pool, by somebody who has the core lock. -/
  | locked
  /-- Outside an idle pool, by somebody who works off an agenda. -/
  | bench
deriving DecidableEq, Repr

/-- What a thread waits for. -/
inductive Wait (V : Type) where
  /-- The core lock, to go on with a focus. -/
  | core (f : Focus V)
  /-- The core lock, to do one thing under it and give it back at once. -/
  | look (op : Op V)
  /-- Nobody has the core lock. -/
  | unlocked (f : Focus V)
  /-- Room in the queue, for an event. -/
  | room (e : Event V)
  /-- A slot for a token, until an instant. The token is to have a name. -/
  | slot (name : String) (category : Category) (priority : Priority) (reason : String)
      (deadline : Option Nat)
  /-- An instant. -/
  | clock (deadline : Nat) (f : Focus V)
  /-- A wake of a context or news on a signal, until an instant. -/
  | wake (ctx signal : Nat) (deadline : Option Nat)
  /-- News on a signal, until an instant. -/
  | abort (signal : Nat) (deadline : Option Nat)
  /-- Data in the queue, until an instant. -/
  | data (deadline : Option Nat)
  /-- The end of a thread that waits for a token of a name. -/
  | join (name : String)

/-- Where a worker is in its loop. It has the core lock in the first and in the last phase. -/
inductive Phase where
  /-- It takes the next entry from the queue. -/
  | pick
  /-- It serves an event. -/
  | serve
  /-- It counts the quits to push. -/
  | tally
deriving DecidableEq, Repr

/-- What is left for a thread to do. -/
inductive Frame (V : Type) where
  /-- Operations, noted in a trace under a label. The answer of the current one is awaited, if it is
  noted at all. -/
  | ops (place : Place) (label : String) (current : Option String) (rest : List (Op V))
      (run : Option Completion)
  /-- Operations under the core lock, and the answers so far, latest first. -/
  | batch (rest : List (Op V)) (answers : List (Answer V))
  /-- A job on a context begins. -/
  | job (ctx : Nat) (j : Job V)
  /-- The event that the thread ran by itself is over, and this is the answer. -/
  | inline (answer : Answer V)
  /-- Take the core lock back. -/
  | relock
  /-- Keep the token that was granted under a name. -/
  | keep (name : String)
  /-- A pause is over. Without a value its answer is only that it was done. -/
  | pausing (ctx token signal : Nat) (value : Option V)
  /-- The loop of the worker of a slot. -/
  | worker (slot ctx : Nat) (phase : Phase)
  /-- Go on with the agenda. -/
  | drain (left count : Nat)
  /-- Leave the token that was granted for whoever waits for this thread. -/
  | deposit (name : String)

/-- What a thread is doing. -/
inductive Mode (V : Type) where
  /-- The top frame acts. -/
  | running (f : Focus V)
  /-- It waits. -/
  | waiting (w : Wait V)
  /-- It is over, with an answer if it has one. -/
  | over (r : Except Panic (Option (Answer V)))

/-- What a thread is for. -/
inductive Role where
  /-- It goes through the scenario. -/
  | main
  /-- It is the worker of a slot. -/
  | worker (slot : Nat)
  /-- It does something while an event is blocked. -/
  | helper
  /-- It waits for a token or for room in the queue. -/
  | waiter
deriving DecidableEq, Repr

/-- The name under which a thread runs events by itself. -/
def Role.threadName : Role → ThreadName
  | .main => .caller "main"
  | .worker slot => .worker slot
  | .helper | .waiter => .caller "inline"

/-- A thread. -/
structure Thread (V : Type) where
  /-- Its number. -/
  id : Nat
  /-- What it is for. -/
  role : Role
  /-- What is left to do, the next thing first. -/
  frames : List (Frame V)
  /-- What it is doing. -/
  mode : Mode V

namespace Thread

/-- Go on with a focus. -/
def go (t : Thread V) (f : Focus V) : Thread V := { t with mode := .running f }

/-- Go on with some frames on the stack. -/
def goOn (t : Thread V) (frames : List (Frame V)) (f : Focus V) : Thread V :=
  { t with frames, mode := .running f }

/-- Answer the current operation. -/
def answer (t : Thread V) (a : Answer V) : Thread V := t.go (.give a)

/-- Wait for something. -/
def await (t : Thread V) (w : Wait V) : Thread V := { t with mode := .waiting w }

/-- Put frames on the stack. -/
def push (t : Thread V) (fs : List (Frame V)) : Thread V := { t with frames := fs ++ t.frames }

/-- Whether the thread is over. -/
def isOver (t : Thread V) : Bool :=
  match t.mode with
  | .over _ => true
  | _ => false

/-- The instant at which the thread stops waiting whatever happens. A worker that waits for data
stops only to look again. -/
def deadline (t : Thread V) : Option Nat :=
  match t.mode with
  | .waiting (.slot _ _ _ _ d) | .waiting (.wake _ _ d) | .waiting (.abort _ d) => d
  | .waiting (.clock d _) => some d
  | _ => none

end Thread

end TurnPool.Scenario
