/-
A device that is a file of registers, behind a bus whose transfers can fail.

A driver programs such a device by reading a register, working out what it should
hold, and writing it back if that differs.  `Update` is one such step and
`Update.run` carries it out; `runAll` carries out a list of them and stops at the
first write that fails.  A driver that narrows the result of a read to the width of a
register before it looks at it takes an error for a value: `decode` is the value it
takes it for.

When no transfer fails the list is a function on register files, `applyAll`, and the
final contents of a register depend on its own updates alone: `applyAll_at`.
-/
import Mathlib.Logic.Function.Basic

namespace Registers

variable {A V E : Type}

/-- A transfer, and how it ended. -/
inductive Transfer (A V E : Type)
  | read (a : A) (result : Except E V)
  | write (a : A) (v : V) (result : Option E)

/-- The device, and the transfers made so far. -/
structure Bus (A V E : Type) where
  file : A → V
  log : List (Transfer A V E)

/-- Which transfers fail, by their number, and with what error. -/
abbrev Faults (E : Type) := Nat → Option E

/-- The schedule in which no transfer fails. -/
def noFaults : Faults E := fun _ => none

/-- A read, which changes nothing but the log. -/
def Bus.read (faults : Faults E) (bus : Bus A V E) (a : A) : Except E V × Bus A V E :=
  let result := match faults bus.log.length with
    | some e => .error e
    | none => .ok (bus.file a)
  (result, { bus with log := bus.log ++ [.read a result] })

/-- A write, which takes effect unless it fails. -/
def Bus.write [DecidableEq A] (faults : Faults E) (bus : Bus A V E) (a : A) (v : V) :
    Option E × Bus A V E :=
  let result := faults bus.log.length
  let file := match result with
    | some _ => bus.file
    | none => Function.update bus.file a v
  (result, { file := file, log := bus.log ++ [.write a v result] })

/-- Read a register, and write it back unless there is nothing to change. -/
structure Update (A V : Type) where
  addr : A
  change : V → Option V

variable [DecidableEq A]

/-- One update: the error of its write, if it was made and failed. -/
def Update.run (faults : Faults E) (decode : Except E V → V) (u : Update A V)
    (bus : Bus A V E) : Option E × Bus A V E :=
  let (result, bus) := bus.read faults u.addr
  match u.change (decode result) with
  | none => (none, bus)
  | some v => bus.write faults u.addr v

/-- The updates in order, up to the first write that fails. -/
def runAll (faults : Faults E) (decode : Except E V → V) :
    List (Update A V) → Bus A V E → Option E × Bus A V E
  | [], bus => (none, bus)
  | u :: us, bus =>
      match u.run faults decode bus with
      | (some e, bus) => (some e, bus)
      | (none, bus) => runAll faults decode us bus

/-! ### What updates do when no transfer fails -/

/-- What an update leaves in its register. -/
def Update.settle (v : V) (u : Update A V) : V := (u.change v).getD v

/-- An update as a function on register files. -/
def Update.apply (file : A → V) (u : Update A V) : A → V :=
  Function.update file u.addr (u.settle (file u.addr))

/-- The updates as a function on register files. -/
def applyAll (us : List (Update A V)) (file : A → V) : A → V := us.foldl Update.apply file

omit [DecidableEq A] in
theorem Bus.read_noFaults (bus : Bus A V E) (a : A) :
    bus.read noFaults a
      = (.ok (bus.file a), { bus with log := bus.log ++ [.read a (.ok (bus.file a))] }) := rfl

theorem Update.run_noFaults {decode : Except E V → V} (hdecode : ∀ v, decode (.ok v) = v)
    (u : Update A V) (bus : Bus A V E) :
    (u.run noFaults decode bus).1 = none ∧
      (u.run noFaults decode bus).2.file = u.apply bus.file := by
  unfold Update.run Update.apply Update.settle
  simp only [Bus.read_noFaults, hdecode]
  cases hchange : u.change (bus.file u.addr) with
  | none => exact ⟨rfl, by simp⟩
  | some v => exact ⟨rfl, rfl⟩

/-- **Without faults a list of updates is a function on register files.** -/
theorem runAll_noFaults {decode : Except E V → V} (hdecode : ∀ v, decode (.ok v) = v)
    (us : List (Update A V)) (bus : Bus A V E) :
    (runAll noFaults decode us bus).1 = none ∧
      (runAll noFaults decode us bus).2.file = applyAll us bus.file := by
  induction us generalizing bus with
  | nil => exact ⟨rfl, rfl⟩
  | cons u us ih =>
      obtain ⟨hnone, hfile⟩ := u.run_noFaults hdecode bus
      unfold runAll
      rw [show u.run noFaults decode bus = (none, (u.run noFaults decode bus).2) from
        Prod.ext hnone rfl]
      obtain ⟨hrest, hfiles⟩ := ih (u.run noFaults decode bus).2
      refine ⟨hrest, ?_⟩
      rw [hfiles, hfile]
      rfl

/-- **A register ends as its own updates leave it.** -/
theorem applyAll_at (us : List (Update A V)) (file : A → V) (a : A) :
    applyAll us file a = (us.filter (fun u => u.addr = a)).foldl Update.settle (file a) := by
  unfold applyAll
  induction us generalizing file with
  | nil => rfl
  | cons u us ih =>
      rw [List.foldl_cons, ih]
      by_cases h : u.addr = a
      · rw [List.filter_cons_of_pos (by simpa using h), List.foldl_cons]
        subst h
        unfold Update.apply
        rw [Function.update_self]
      · rw [List.filter_cons_of_neg (by simpa using h)]
        unfold Update.apply
        rw [Function.update_of_ne (Ne.symm h)]

end Registers
