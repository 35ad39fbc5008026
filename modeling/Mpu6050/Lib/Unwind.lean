/-
Resources taken one after another, and the labels that give them back.

What a program holds is an account: a list, the latest first, or `none` once something
was released that was not held.  An account that is `none` stays so, which is what makes
one bad release on the way visible at the end.  Releases that undo the acquisitions in
reverse order are read off by `release_cons_self`; a resource nothing gives back is
followed through other releases by `Keeps`, and one look at the end shows the leak.
Accounts of several owners are one account by `join`.

`orGoto` is the C idiom `err = f (..); if (err) goto label;` around such an account.
-/
import Mathlib.Data.List.Basic

namespace Unwind

/-- The resources held, or `none` after a release of something that was not held. -/
abbrev Account (R : Type) := Option (List R)

variable {R S : Type} [DecidableEq R] {r r' : R} {a : Account R}

/-- Taking a resource. -/
def acquire (r : R) (a : Account R) : Account R := a.map (r :: ·)

/-- Giving a resource back. -/
def release (r : R) (a : Account R) : Account R :=
  a.bind fun held => if r ∈ held then some (held.erase r) else none

/-- Two accounts as one. -/
def join (a b : Account R) : Account R := a.bind fun held => b.map (held ++ ·)

/-! ### One release -/

omit [DecidableEq R] in
@[simp] theorem acquire_some (held : List R) : acquire r (some held) = some (r :: held) := rfl

@[simp] theorem release_none : release r (none : Account R) = none := rfl

@[simp] theorem release_cons_self (held : List R) : release r (some (r :: held)) = some held := by
  simp [release]

theorem release_of_not_mem {held : List R} (h : r ∉ held) : release r (some held) = none := by
  simp [release, h]

omit [DecidableEq R] in
/-- Two accounts are even together exactly if each is. -/
theorem join_eq_nil {b : Account R} : join a b = some [] ↔ a = some [] ∧ b = some [] := by
  cases a with
  | none => simp [join]
  | some held => cases b with
    | none => simp [join]
    | some held' => simp [join]

/-! ### A resource nothing gives back -/

/-- The resource is among those held, if the account is still good. -/
def Keeps (r : R) (a : Account R) : Prop := ∀ held, a = some held → r ∈ held

omit [DecidableEq R] in
theorem keeps_none : Keeps r (none : Account R) := by
  intro held h
  cases h

omit [DecidableEq R] in
theorem keeps_some {held : List R} (h : r ∈ held) : Keeps r (some held) := by
  rintro _ ⟨⟩
  exact h

/-- Releasing something else keeps it. -/
theorem Keeps.release (h : Keeps r a) (hne : r ≠ r') : Keeps r (release r' a) := by
  intro held hheld
  unfold Unwind.release at hheld
  obtain ⟨before, hbefore, hif⟩ := Option.bind_eq_some_iff.mp hheld
  split at hif
  · cases hif
    exact (List.mem_erase_of_ne hne).mpr (h before hbefore)
  · cases hif

omit [DecidableEq R] in
/-- What is kept is leaked. -/
theorem Keeps.ne_nil (h : Keeps r a) : a ≠ some [] := by
  intro hnil
  exact absurd (h [] hnil) (List.not_mem_nil)

/-! ### Resources of one kind only -/

/-- Whatever is held is of the kind `P`. -/
def Within (P : R → Prop) (a : Account R) : Prop := ∀ held, a = some held → ∀ r ∈ held, P r

variable {P : R → Prop}

omit [DecidableEq R] in
theorem Within.acquire (h : Within P a) (hr : P r) : Within P (acquire r a) := by
  intro held hheld
  obtain ⟨before, hbefore, rfl⟩ := Option.map_eq_some_iff.mp hheld
  exact List.forall_mem_cons.mpr ⟨hr, h before hbefore⟩

theorem Within.release (h : Within P a) : Within P (release r a) := by
  intro held hheld
  obtain ⟨before, hbefore, hif⟩ := Option.bind_eq_some_iff.mp hheld
  split at hif
  · cases hif
    exact fun r' hr' => h before hbefore r' (List.mem_of_mem_erase hr')
  · cases hif

/-- A resource of another kind is not held, and cannot be released. -/
theorem Within.release_eq_none (h : Within P a) (hr : ¬P r) : Unwind.release r a = none := by
  cases a with
  | none => rfl
  | some held => exact release_of_not_mem fun hmem => hr (h held rfl r hmem)

/-! ### `if (err) goto label;` -/

/-- Go on with `next` if the call returned 0, and to the label with its error if not. -/
def orGoto (result : Option (Int × S)) (label : S → S) (next : S → Option (Int × S)) :
    Option (Int × S) :=
  result.bind fun (err, s) => if err ≠ 0 then some (err, label s) else next s

variable {result : Option (Int × S)} {label : S → S} {next : S → Option (Int × S)}

theorem orGoto_zero {s : S} (h : result = some (0, s)) : orGoto result label next = next s := by
  subst h
  rfl

theorem orGoto_err {err : Int} {s : S} (h : result = some (err, s)) (herr : err ≠ 0) :
    orGoto result label next = some (err, label s) := by
  subst h
  exact if_pos herr

theorem orGoto_none (h : result = none) : orGoto result label next = none := by
  subst h
  rfl

/-- What returns 0 in the end has returned 0 here. -/
theorem orGoto_eq_zero {s' : S} (h : orGoto result label next = some (0, s')) :
    ∃ s, result = some (0, s) ∧ next s = some (0, s') := by
  unfold orGoto at h
  obtain ⟨⟨err, s⟩, hresult, hif⟩ := Option.bind_eq_some_iff.mp h
  by_cases herr : err = 0
  · subst herr
    exact ⟨s, hresult, hif⟩
  · have hfail : some (err, label s) = some (0, s') := (if_pos herr).symm.trans hif
    cases hfail
    exact absurd rfl herr

end Unwind
