/-
Data that is counted by its references.

Each piece of data has a count, and whoever refers to it raises the count by one and lowers it
again when done.  What a raise did, the lowering undoes, whatever else has been raised and
lowered in between.
-/
import Mathlib.Logic.Function.Basic
import Mathlib.Data.List.Basic

namespace Counts

variable {D : Type} [DecidableEq D]

/-- One more reference. -/
def retain (d : D) (count : D → Nat) : D → Nat := Function.update count d (count d + 1)

/-- One less. -/
def release (d : D) (count : D → Nat) : D → Nat := Function.update count d (count d - 1)

/-- The counts with a reference more for each of a list. -/
def Retained (ds : List D) (count count' : D → Nat) : Prop := ∀ d, count' d = count d + ds.count d

theorem release_retain (d : D) (count : D → Nat) : release d (retain d count) = count := by
  unfold release retain
  rw [Function.update_idem, Function.update_self, Nat.add_sub_cancel, Function.update_eq_self]

theorem retained_nil (count : D → Nat) : Retained [] count count := fun _ => rfl

theorem retained_cons {d : D} {ds : List D} {count count' : D → Nat} :
    Retained (d :: ds) count count' ↔ Retained ds (retain d count) count' := by
  refine forall_congr' fun x => ?_
  unfold retain
  by_cases h : x = d
  · rw [h, Function.update_self, List.count_cons_self, Nat.add_assoc, Nat.add_comm 1]
  · rw [Function.update_of_ne h, List.count_cons_of_ne (Ne.symm h)]

end Counts
