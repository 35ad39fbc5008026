/-
A machine that takes one step after another, and may get stuck.

`Settles step s t` says that from `s` the machine comes to rest in `t`: after some number
of steps it is there, and stays.  A step more or less does not change where it settles,
so a run is followed step by step (`settles_step`); what every step keeps still holds
where the machine settles (`Settles.invariant`), which is how it is shown never to.
-/
import Mathlib.Logic.Basic

namespace Steps

variable {S X : Type}

/-- So many steps, if the machine does not get stuck on the way. -/
def iter (step : S → Except X S) : Nat → S → Except X S
  | 0, s => .ok s
  | n + 1, s => step s >>= iter step n

/-- The machine comes to rest in a state. -/
def Settles (step : S → Except X S) (s t : S) : Prop :=
  ∃ n, ∀ m, n ≤ m → iter step m s = .ok t

variable {step : S → Except X S} {s s' t t' : S}

theorem iter_succ (h : step s = .ok s') (n : Nat) : iter step (n + 1) s = iter step n s' := by
  show (step s >>= iter step n) = _
  rw [h]
  rfl

theorem iter_error {x : X} (h : step s = .error x) : iter step 1 s = .error x := by
  show (step s >>= iter step 0) = _
  rw [h]
  rfl

/-- A machine that is never stuck where something holds, and keeps it, gets any number of steps. -/
theorem iter_ok {P : S → Prop} (hstep : ∀ s, P s → ∃ s', step s = .ok s' ∧ P s') (n : Nat)
    (hs : P s) : ∃ t, iter step n s = .ok t ∧ P t := by
  induction n generalizing s with
  | zero => exact ⟨s, rfl, hs⟩
  | succ n ih =>
      obtain ⟨s', hs', hP⟩ := hstep s hs
      obtain ⟨t, ht, hPt⟩ := ih hP
      exact ⟨t, (iter_succ hs' n).trans ht, hPt⟩

/-- **Where a machine settles is where it settles after its next step.** -/
theorem settles_step (h : step s = .ok s') : Settles step s t ↔ Settles step s' t := by
  constructor
  · intro ⟨n, hn⟩
    refine ⟨n, fun m hm => ?_⟩
    rw [← iter_succ h]
    exact hn (m + 1) (by omega)
  · intro ⟨n, hn⟩
    refine ⟨n + 1, fun m hm => ?_⟩
    obtain ⟨m, rfl⟩ := Nat.exists_eq_succ_of_ne_zero (show m ≠ 0 by omega)
    rw [Nat.succ_eq_add_one, iter_succ h]
    exact hn m (by omega)

/-- A machine that stays where it is has settled. -/
theorem settles_self (h : step s = .ok s) : Settles step s s := by
  refine ⟨0, fun m _ => ?_⟩
  induction m with
  | zero => rfl
  | succ m ih => rw [iter_succ h, ih (Nat.zero_le m)]

/-- **What every step keeps holds where the machine settles.** -/
theorem Settles.invariant {P : S → Prop} (hkeep : ∀ s s', P s → step s = .ok s' → P s')
    (hs : P s) (h : Settles step s t) : P t := by
  obtain ⟨n, hn⟩ := h
  have hrun : ∀ n s, P s → iter step n s = .ok t → P t := by
    intro n
    induction n with
    | zero =>
        intro s hs hrun
        cases hrun
        exact hs
    | succ n ih =>
        intro s hs hrun
        cases hstep : step s with
        | error x =>
            rw [show iter step (n + 1) s = step s >>= iter step n from rfl, hstep] at hrun
            cases hrun
        | ok s' =>
            rw [iter_succ hstep] at hrun
            exact ih s' (hkeep s s' hs hstep) hrun
  exact hrun n s hs (hn n (Nat.le_refl n))

theorem Settles.of_step {P : S → Prop} (hstep : ∀ s, P s → ∃ s', step s = .ok s' ∧ P s')
    (hs : P s) (h : Settles step s t) : P t := by
  refine h.invariant (P := P) (fun s s' hs hs' => ?_) hs
  obtain ⟨s'', hs'', hP⟩ := hstep s hs
  rw [hs'] at hs''
  cases hs''
  exact hP

/-! ### One machine followed by another -/

section

variable {T Y : Type} {step' : T → Except Y T} {b b' : T} {R : S → T → Prop}

/-- What follows a machine step by step follows it for any number of steps. -/
theorem iter_follows
    (hstep : ∀ s b b', R s b → step' b = .ok b' → ∃ s', step s = .ok s' ∧ R s' b')
    (n : Nat) (hs : R s b) (hrun : iter step' n b = .ok b') :
    ∃ s', iter step n s = .ok s' ∧ R s' b' := by
  induction n generalizing s b with
  | zero =>
      cases hrun
      exact ⟨s, rfl, hs⟩
  | succ n ih =>
      cases hb : step' b with
      | error y =>
          rw [show iter step' (n + 1) b = step' b >>= iter step' n from rfl, hb] at hrun
          cases hrun
      | ok c =>
          obtain ⟨s', hs', hR⟩ := hstep s b c hs hb
          rw [iter_succ hb] at hrun
          obtain ⟨t, ht, hRt⟩ := ih hR hrun
          exact ⟨t, (iter_succ hs' n).trans ht, hRt⟩

/-- **A machine that follows another settles where that one does**, if it rests there. -/
theorem Settles.follows
    (hstep : ∀ s b b', R s b → step' b = .ok b' → ∃ s', step s = .ok s' ∧ R s' b')
    (hrest : ∀ s, R s b' → step s = .ok s) (hs : R s b) (h : Settles step' b b') :
    ∃ t, Settles step s t ∧ R t b' := by
  obtain ⟨n, hn⟩ := h
  obtain ⟨t, ht, hR⟩ := iter_follows hstep n hs (hn n (Nat.le_refl n))
  refine ⟨t, ?_, hR⟩
  have hfrom : ∀ n s, iter step n s = .ok t → Settles step s t := by
    intro n
    induction n with
    | zero =>
        intro s hiter
        cases hiter
        exact settles_self (hrest _ hR)
    | succ n ih =>
        intro s hiter
        cases hs : step s with
        | error x =>
            rw [show iter step (n + 1) s = step s >>= iter step n from rfl, hs] at hiter
            cases hiter
        | ok s' =>
            rw [iter_succ hs] at hiter
            exact (settles_step hs).mpr (ih s' hiter)
  exact hfrom n s ht

end

end Steps
