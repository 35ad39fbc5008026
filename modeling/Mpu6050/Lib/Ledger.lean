/-
A ledger of resources, each with a life of its own.

A program opens resources one after another and numbers them as it goes; whatever it does to
one is entered in a log under its number.  A resource has lived if it was opened first, closed
last, and neither in between.  `Settled` says that all resources opened so far have lived and
that nothing was ever done to any other: none is left open, none is closed twice, and none is
used before it is opened or after it is closed.

Work that opens a resource and closes it again keeps the ledger settled, and so does work
that opens none.
-/
import Mathlib.Data.List.Basic

namespace Ledger

variable {σ : Type}

/-- What opens a resource, and what closes it. -/
structure Bracket (σ : Type) where
  opens : σ → Bool
  closes : σ → Bool

variable {ends : Bracket σ}

/-- What was done to a resource, from its opening to its closing. -/
inductive Life (ends : Bracket σ) : List σ → Prop
  | lived {first last : σ} {between : List σ} (hfirst : ends.opens first = true)
      (hlast : ends.closes last = true)
      (hbetween : ∀ u ∈ between, ends.opens u = false ∧ ends.closes u = false) :
      Life ends (first :: between ++ [last])

/-- What was done to one resource. -/
def usesOf (log : List (Nat × σ)) (b : Nat) : List σ :=
  (log.filter fun p => p.1 = b).map Prod.snd

/-- The resources numbered up to `n` have lived, and nothing was done to any other. -/
structure Settled (ends : Bracket σ) (n : Nat) (log : List (Nat × σ)) : Prop where
  lived : ∀ b < n, Life ends (usesOf log b)
  unused : ∀ b, n ≤ b → usesOf log b = []

theorem usesOf_append (log log' : List (Nat × σ)) (b : Nat) :
    usesOf (log ++ log') b = usesOf log b ++ usesOf log' b := by
  unfold usesOf
  rw [List.filter_append, List.map_append]

theorem usesOf_entered (n : Nat) (uses : List σ) (b : Nat) :
    usesOf (uses.map fun u => (n, u)) b = if n = b then uses else [] := by
  unfold usesOf
  rw [List.filter_map, List.map_map]
  by_cases h : n = b
  · simp [h, Function.comp_def]
  · simp [h, Function.comp_def]

theorem mem_usesOf {log : List (Nat × σ)} {b : Nat} {u : σ} : u ∈ usesOf log b ↔ (b, u) ∈ log := by
  simp [usesOf]

theorem settled_nil (ends : Bracket σ) : Settled ends 0 [] :=
  ⟨fun b hb => absurd hb (Nat.not_lt_zero b), fun _ _ => rfl⟩

/-- **Opening a resource, and living its life to the end, keeps the ledger settled.** -/
theorem Settled.enter {n : Nat} {log : List (Nat × σ)} {uses : List σ}
    (h : Settled ends n log) (hlife : Life ends uses) :
    Settled ends (n + 1) (log ++ uses.map fun u => (n, u)) := by
  constructor
  · intro b hb
    rw [usesOf_append, usesOf_entered]
    by_cases hnew : n = b
    · rw [if_pos hnew, h.unused b (by omega), List.nil_append]
      exact hlife
    · rw [if_neg hnew, List.append_nil]
      exact h.lived b (by omega)
  · intro b hb
    rw [usesOf_append, usesOf_entered, if_neg (by omega), List.append_nil]
    exact h.unused b (by omega)

/-- A resource that is in the log has been opened. -/
theorem Settled.lt_of_mem {n : Nat} {log : List (Nat × σ)} (h : Settled ends n log) {b : Nat}
    {u : σ} (hmem : (b, u) ∈ log) : b < n := by
  by_contra hge
  have hnone := h.unused b (Nat.not_lt.mp hge)
  rw [← mem_usesOf, hnone] at hmem
  cases hmem

end Ledger
