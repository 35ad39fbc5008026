/-
When a statistic is collected whole or not at all.

The function asks the lock's result whether the module has collected anything, and a lock
reports success with a 0.  So with a lock the statistic is thrown away, and without one it is
kept whatever the module said.  What it returns, and what it does to the lock, is right.

And the time stamp is written before anything is known, so a session with a lock is never
left as it was but by the clock's not having moved.
-/
import Mpu6050.Client.Statistic

namespace Mpu6050.Client

variable {Time Counters : Type}

/-- The module's `collect` was called and returned `true`. -/
def Succeeded (steps : List CollectStep) : Prop := .collect (some true) ∈ steps

/--
All or nothing: `true` only if the module collected, `data_out` kept exactly then and the
session's statistic left alone if not, and as many releases as the lock was acquired.
-/
structure AllOrNothing (current : RuntimeStatistic Time Counters)
    (c : Collected Time Counters) : Prop where
  value : c.value = true → Succeeded c.steps
  kept : Succeeded c.steps → c.currentStatistic = c.dataOut
  left : ¬Succeeded c.steps → c.currentStatistic = current
  released : c.steps.count (.release true) + c.steps.count (.release false)
    = c.steps.count (.acquire true)

/--
What the call meets leaves nothing to go wrong: it ends before the module is asked, or there
is no lock and the module has collected.  Otherwise what should be in the session already
is, by chance: `data_out` holds the statistic that is there, or the clock's reading is all
that is new.
-/
def NothingToLose (calls : CollectCalls Time Counters)
    (current : RuntimeStatistic Time Counters) : Prop :=
  calls.find = false ∨ calls.writer = false ∨
    match calls.lock with
    | none => calls.returned = some true ∨ calls.dataOut = current
    | some (false, _) => True
    | some (true, _) =>
      { current with timeStamp := calls.now }
        = if calls.returned = some true then calls.dataOut else current

/-! ### What a call comes to -/

section

variable {calls : CollectCalls Time Counters} {dataOut current : RuntimeStatistic Time Counters}

/-- Without the module, or without its lock, nothing is done. -/
theorem collect_none (h : calls.find = false ∨ calls.writer = false) :
    collect calls dataOut current
      = { value := false, dataOut, currentStatistic := current, steps := [] } := by
  unfold collect
  refine if_pos ?_
  rcases h with h | h <;> simp [h]

theorem collect_unacquired (hfind : calls.find = true) (hwriter : calls.writer = true)
    {released : Bool} (hlock : calls.lock = some (false, released)) :
    collect calls dataOut current
      = { value := false, dataOut, currentStatistic := current, steps := [.acquire false] } := by
  simp [collect, acquireLock, aceResult, hfind, hwriter, hlock]

/-- Without a lock, what the module left is kept. -/
theorem collect_unlocked (hfind : calls.find = true) (hwriter : calls.writer = true)
    (hlock : calls.lock = none) :
    collect calls dataOut current
      = { value := calls.returned.getD false
          dataOut := calls.dataOut
          currentStatistic := calls.dataOut
          steps := [.collect calls.returned] } := by
  simp [collect, acquireLock, releaseLock, hfind, hwriter, hlock]

/-- With it, only the time stamp is new. -/
theorem collect_locked (hfind : calls.find = true) (hwriter : calls.writer = true)
    {released : Bool} (hlock : calls.lock = some (true, released)) :
    collect calls dataOut current
      = { value := calls.returned.getD false
          dataOut := calls.dataOut
          currentStatistic := { current with timeStamp := calls.now }
          steps := [.acquire true, .collect calls.returned, .release released] } := by
  simp [collect, acquireLock, releaseLock, aceResult, hfind, hwriter, hlock]

/-- A call that ends early is nothing at all. -/
theorem allOrNothing_early {steps : List CollectStep}
    (hsteps : steps = [] ∨ steps = [.acquire false]) :
    AllOrNothing current { value := false, dataOut, currentStatistic := current, steps } := by
  have hsucceeded : ¬Succeeded steps := by
    rcases hsteps with rfl | rfl <;> simp [Succeeded]
  refine ⟨nofun, fun h => absurd h hsucceeded, fun _ => rfl, ?_⟩
  rcases hsteps with rfl | rfl <;> rfl

end

theorem getD_false_eq_true {returned : Option Bool} :
    returned.getD false = true ↔ returned = some true := by
  rcases returned with _ | _ | _ <;> simp

theorem succeeded_locked_iff {returned : Option Bool} {released : Bool} :
    Succeeded [.acquire true, .collect returned, .release released] ↔ returned = some true := by
  simp [Succeeded, eq_comm]

theorem succeeded_unlocked_iff {returned : Option Bool} :
    Succeeded [.collect returned] ↔ returned = some true := by
  simp [Succeeded, eq_comm]

/-- A call that asks the module does right by the lock, and is whole exactly if the session
ends with what it should. -/
theorem allOrNothing_asked_iff {current kept dataOut : RuntimeStatistic Time Counters}
    {returned : Option Bool} {steps : List CollectStep}
    (hsucceeded : Succeeded steps ↔ returned = some true)
    (hreleased : steps.count (.release true) + steps.count (.release false)
      = steps.count (.acquire true)) :
    AllOrNothing current
        { value := returned.getD false, dataOut, currentStatistic := kept, steps }
      ↔ kept = if returned = some true then dataOut else current := by
  by_cases htrue : returned = some true
  · rw [if_pos htrue]
    refine ⟨fun h => h.kept (hsucceeded.mpr htrue), fun h => ⟨?_, ?_, ?_, hreleased⟩⟩
    · exact fun _ => hsucceeded.mpr htrue
    · exact fun _ => h
    · exact fun hnot => absurd (hsucceeded.mpr htrue) hnot
  · rw [if_neg htrue]
    have hnot : ¬Succeeded steps := fun hs => htrue (hsucceeded.mp hs)
    refine ⟨fun h => h.left hnot, fun h => ⟨?_, ?_, ?_, hreleased⟩⟩
    · exact fun hvalue => absurd (getD_false_eq_true.mp hvalue) htrue
    · exact fun hs => absurd hs hnot
    · exact fun _ => h

/--
**Collecting is all or nothing exactly if there was nothing to lose:** without the module or
its lock, or without a lock and with the module's consent, or by chance.
-/
theorem collect_allOrNothing_iff (calls : CollectCalls Time Counters)
    (dataOut current : RuntimeStatistic Time Counters) :
    AllOrNothing current (collect calls dataOut current) ↔ NothingToLose calls current := by
  unfold NothingToLose
  cases hfind : calls.find with
  | false =>
      rw [collect_none (Or.inl hfind)]
      exact iff_of_true (allOrNothing_early (Or.inl rfl)) (Or.inl rfl)
  | true =>
      cases hwriter : calls.writer with
      | false =>
          rw [collect_none (Or.inr hwriter)]
          exact iff_of_true (allOrNothing_early (Or.inl rfl)) (Or.inr (Or.inl rfl))
      | true =>
          rw [or_iff_right (by simp), or_iff_right (by simp)]
          rcases hlock : calls.lock with _ | ⟨_ | _, released⟩
          · rw [collect_unlocked hfind hwriter hlock,
              allOrNothing_asked_iff succeeded_unlocked_iff (by simp)]
            by_cases htrue : calls.returned = some true
            · simp [htrue]
            · simp [htrue]
          · rw [collect_unacquired hfind hwriter hlock]
            exact iff_of_true (allOrNothing_early (Or.inr rfl)) trivial
          · rw [collect_locked hfind hwriter hlock,
              allOrNothing_asked_iff succeeded_locked_iff (by cases released <;> simp)]

/-- A statistic collected under the lock and thrown away; one not collected, and kept. -/
theorem collect_lost :
    (∃ calls : CollectCalls Nat Nat, calls.lock = some (true, true) ∧
      calls.returned = some true ∧
      ∃ current, ¬AllOrNothing current (collect calls current current)) ∧
    ∃ calls : CollectCalls Nat Nat, calls.lock = none ∧ calls.returned = none ∧
      ∃ current, ¬AllOrNothing current (collect calls current current) := by
  refine ⟨⟨⟨true, true, some (true, true), 1, some true, ⟨1, 7⟩⟩, rfl, rfl, ⟨0, 0⟩, fun h => ?_⟩,
    ⟨⟨true, true, none, 1, none, ⟨1, 7⟩⟩, rfl, rfl, ⟨0, 0⟩, fun h => ?_⟩⟩
  · cases h.kept (by simp [Succeeded, collect, acquireLock, aceResult])
  · cases h.left (by simp [Succeeded, collect, acquireLock, releaseLock])

end Mpu6050.Client
