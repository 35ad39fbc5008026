/-
A ring of `N` cells written in turn keeps the last `N` entries of a log.

The ring is a function from `Fin N` and the position written last, which starts at
the sentinel `-1` and is advanced and wrapped before each write.  The log is the
list of everything ever written.  `Holds` relates the two: the position is the one
the length of the log says, each of the last `N` entries stands in the cell of its
own number modulo `N`, and a cell whose turn has not come yet is blank.

What an entry and its cell have in common is a parameter, so that a ring whose
cells carry more, or less, than the log can be related all the same.  Three
operations keep the relation: the empty ring, one more write, and a change made to
every cell and every entry at once.
-/
import Mathlib.Logic.Function.Basic
import Mathlib.Tactic.NormNum

namespace RingLog

variable {α β : Type} {N : Nat}

/-- The position written last once `n` entries have been written; `-1` before any. -/
def newest (N n : Nat) : Int :=
  if n = 0 then -1 else ((n - 1) % N : Nat)

/-- The position the next write goes to: one further, and from the end back to 0. -/
def advance (N : Nat) (pos : Int) : Int :=
  if pos + 1 = N then 0 else pos + 1

/-- The ring holds the last `N` entries of the log, and blanks where none was written. -/
structure Holds (N : Nat) (rel : α → β → Prop) (blank : β → Prop) (log : List α) (pos : Int)
    (cell : Fin N → β) : Prop where
  /-- The position is the one of the newest entry. -/
  pos_eq : pos = newest N log.length
  /-- Each of the last `N` entries stands in its own cell. -/
  recent : ∀ (j : Nat) (a : α) (i : Fin N), log[j]? = some a → log.length ≤ j + N →
    i.val = j % N → rel a (cell i)
  /-- A cell whose turn has not come is blank. -/
  blank : ∀ i : Fin N, log.length ≤ i.val → blank (cell i)

/-! ### Positions -/

theorem newest_lt (hN : 0 < N) (n : Nat) : -1 ≤ newest N n ∧ newest N n < N := by
  unfold newest
  have hmod : (n - 1) % N < N := Nat.mod_lt _ hN
  split <;> omega

/-- Advancing from the newest of `n` entries gives the cell of entry number `n`. -/
theorem advance_newest (hN : 0 < N) (n : Nat) : advance N (newest N n) = (n % N : Nat) := by
  unfold advance newest
  rcases Nat.eq_zero_or_pos n with hz | hpos
  · subst hz
    have hne : ¬((-1 : Int) + 1 = N) := by omega
    rw [if_pos rfl, if_neg hne]
    simp
  · rw [if_neg (Nat.ne_of_gt hpos)]
    have hmod : n % N = ((n - 1) % N + 1) % N := by
      rw [Nat.mod_add_mod, Nat.sub_add_cancel hpos]
    have hlt : (n - 1) % N < N := Nat.mod_lt _ hN
    by_cases hend : (n - 1) % N + 1 = N
    · rw [if_pos (by omega), hmod, hend, Nat.mod_self]
      rfl
    · have hval : n % N = (n - 1) % N + 1 := by rw [hmod, Nat.mod_eq_of_lt (by omega)]
      rw [if_neg (by omega), hval]
      rfl

/-- Two entries less than `N` apart stand in different cells. -/
theorem mod_ne_of_close {j n : Nat} (hlt : j < n) (hclose : n < j + N) : j % N ≠ n % N := by
  intro h
  have hzero : (n - j) % N = 0 := Nat.sub_mod_eq_zero_of_mod_eq h.symm
  rw [Nat.mod_eq_of_lt (by omega)] at hzero
  omega

/-! ### The operations that keep the relation -/

variable {rel : α → β → Prop} {blank : β → Prop} {log : List α} {pos : Int} {cell : Fin N → β}

/-- The ring starts blank, with the position at the sentinel. -/
theorem Holds.nil (h : ∀ i, blank (cell i)) : Holds N rel blank [] (-1) cell :=
  ⟨rfl, by intro j a i hj; simp at hj, fun i _ => h i⟩

/-- **One more write.**  It overwrites the entry that has just become too old. -/
theorem Holds.push (h : Holds N rel blank log pos cell) {a : α} {b : β} {i : Fin N}
    (hi : (i.val : Int) = advance N pos) (hab : rel a b) :
    Holds N rel blank (log ++ [a]) (advance N pos) (Function.update cell i b) := by
  have hN : 0 < N := i.pos
  have hival : i.val = log.length % N := by
    have := advance_newest hN log.length
    rw [← h.pos_eq] at this
    omega
  refine ⟨?_, ?_, ?_⟩
  · rw [h.pos_eq, advance_newest hN]
    simp [newest]
  · intro j a' i' hj hlen hi'
    rw [List.length_append, List.length_singleton] at hlen
    rcases Nat.lt_or_ge j log.length with hlt | hge
    · -- an entry that is still young enough does not share the new one's cell
      have hne : i' ≠ i := by
        intro hc
        have := mod_ne_of_close (N := N) hlt (by omega)
        rw [hc, hival] at hi'
        exact this hi'.symm
      rw [Function.update_of_ne hne]
      rw [List.getElem?_append_left hlt] at hj
      exact h.recent j a' i' hj (by omega) hi'
    · rw [List.getElem?_append_right hge] at hj
      obtain ⟨hzero, ha⟩ : j - log.length = 0 ∧ a = a' := by
        cases hk : j - log.length with
        | zero => rw [hk] at hj; simpa using hj
        | succ k => rw [hk] at hj; simp at hj
      have heq : i' = i := Fin.ext (by rw [hi', hival, show j = log.length by omega])
      rw [heq, Function.update_self, ← ha]
      exact hab
  · intro i' hlen
    rw [List.length_append, List.length_singleton] at hlen
    have hne : i' ≠ i := by
      intro hc
      have := Nat.mod_le log.length N
      rw [hc, hival] at hlen
      omega
    rw [Function.update_of_ne hne]
    exact h.blank i' (by omega)

/-- A change made to every entry and every cell at once. -/
theorem Holds.map (h : Holds N rel blank log pos cell) (f : α → α) (g : β → β)
    (hrel : ∀ a b, rel a b → rel (f a) (g b)) (hblank : ∀ b, blank b → blank (g b)) :
    Holds N rel blank (log.map f) pos (fun i => g (cell i)) := by
  refine ⟨by rw [List.length_map]; exact h.pos_eq, ?_, ?_⟩
  · intro j a i hj hlen hi
    rw [List.getElem?_map, Option.map_eq_some_iff] at hj
    obtain ⟨a', ha', rfl⟩ := hj
    rw [List.length_map] at hlen
    exact hrel _ _ (h.recent j a' i ha' hlen hi)
  · intro i hlen
    rw [List.length_map] at hlen
    exact hblank _ (h.blank i hlen)

end RingLog
