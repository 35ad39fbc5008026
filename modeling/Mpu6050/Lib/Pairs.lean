/-
Items, and notices of them, kept apart.

Items arrive one after another and are numbered as they do.  Each is put on a stack and a
notice of it at the end of a queue; whoever takes the next notice takes the next item along
with it.  The notices come in the order of arrival and the items last in first out, so what is
taken together belongs together for as long as an item is taken while it is the only one, and
no longer: with two of them there, the first notice is of the item underneath.
-/
import Mathlib.Data.List.Range

namespace Pairs

variable {M : Type}

/-- The notices and the items that are there, and what was taken: a notice and an item each
time.  A notice is the number of its item. -/
structure Box (M : Type) where
  arrived : Nat
  notices : List Nat
  items : List (Nat × M)
  taken : List (Nat × Nat × M)

def Box.empty : Box M := { arrived := 0, notices := [], items := [], taken := [] }

/-- An item arrives. -/
def Box.put (m : M) (b : Box M) : Box M :=
  { b with
    arrived := b.arrived + 1
    notices := b.notices ++ [b.arrived]
    items := (b.arrived, m) :: b.items }

/-- The next notice is taken, and the next item. -/
def Box.take (b : Box M) : Box M :=
  match b.notices, b.items with
  | notice :: notices, item :: items =>
    { b with notices, items, taken := b.taken ++ [(notice, item)] }
  | _, _ => b

/-- Every notice was taken with the item it is of. -/
def Box.Paired (b : Box M) : Prop := ∀ p ∈ b.taken, p.2.1 = p.1

/-- The items were taken in the order in which they arrived, from the first on, each once. -/
def Box.InOrder (b : Box M) : Prop :=
  (b.taken.map fun p => p.2.1) = List.range b.taken.length

/-- Every arrival has one notice, and the notices are taken in order; there are as many items
as notices. -/
structure Box.Kept (b : Box M) : Prop where
  notices : b.taken.map Prod.fst ++ b.notices = List.range b.arrived
  items : b.items.length = b.notices.length

/-- The items are those of the notices, the last on top. -/
def Box.Stacked (b : Box M) : Prop := b.items.map Prod.fst = b.notices.reverse

/-! ### What is taken, and what stays -/

theorem take_cons {b : Box M} {notice : Nat} {notices : List Nat} {item : Nat × M}
    {items : List (Nat × M)} (hnotices : b.notices = notice :: notices)
    (hitems : b.items = item :: items) :
    b.take = { b with notices, items, taken := b.taken ++ [(notice, item)] } := by
  unfold Box.take
  rw [hnotices, hitems]

theorem take_nil {b : Box M} (hnotices : b.notices = []) : b.take = b := by
  unfold Box.take
  rw [hnotices]

/-- With as many items as notices, there is one of each or none of either. -/
theorem Box.Kept.nil_or_cons {b : Box M} (h : b.Kept) :
    (b.notices = [] ∧ b.items = []) ∨ ∃ notice notices item items,
      b.notices = notice :: notices ∧ b.items = item :: items := by
  have hlength := h.items
  cases hnotices : b.notices with
  | nil =>
      rw [hnotices] at hlength
      exact Or.inl ⟨rfl, List.eq_nil_of_length_eq_zero hlength⟩
  | cons notice notices =>
      cases hitems : b.items with
      | nil =>
          rw [hnotices, hitems] at hlength
          cases hlength
      | cons item items => exact Or.inr ⟨notice, notices, item, items, rfl, rfl⟩

theorem kept_empty : (Box.empty : Box M).Kept := ⟨rfl, rfl⟩

theorem Box.Kept.put {b : Box M} (h : b.Kept) (m : M) : (b.put m).Kept := by
  constructor
  · calc b.taken.map Prod.fst ++ (b.notices ++ [b.arrived])
        = List.range b.arrived ++ [b.arrived] := by rw [← List.append_assoc, h.notices]
      _ = List.range (b.arrived + 1) := List.range_succ.symm
  · simpa [Box.put] using h.items

theorem Box.Kept.take {b : Box M} (h : b.Kept) : b.take.Kept := by
  rcases h.nil_or_cons with ⟨hnone, -⟩ | ⟨notice, notices, item, items, hnotices, hitems⟩
  · rw [take_nil hnone]
    exact h
  · rw [take_cons hnotices hitems]
    constructor
    · simpa [hnotices] using h.notices
    · simpa [hnotices, hitems] using h.items

/-! ### While they are paired -/

theorem paired_empty : (Box.empty : Box M).Paired := nofun

theorem stacked_empty : (Box.empty : Box M).Stacked := rfl

theorem Box.Stacked.put {b : Box M} (h : b.Stacked) (m : M) : (b.put m).Stacked := by
  simpa [Box.Stacked, Box.put] using h

/-- What was taken stays taken. -/
theorem Box.Kept.paired_of_take {b : Box M} (h : b.Kept) (hpaired : b.take.Paired) :
    b.Paired := by
  rcases h.nil_or_cons with ⟨hnone, -⟩ | ⟨notice, notices, item, items, hnotices, hitems⟩
  · rwa [take_nil hnone] at hpaired
  · rw [take_cons hnotices hitems] at hpaired
    exact fun p hp => hpaired p (List.mem_append_left _ hp)

/-- **An item taken while it is the only one is taken with its notice.** -/
theorem Box.Kept.take_alone {b : Box M} (h : b.Kept) (hstacked : b.Stacked)
    (hpaired : b.Paired) (halone : b.items.length ≤ 1) : b.take.Stacked ∧ b.take.Paired := by
  rcases h.nil_or_cons with ⟨hnone, -⟩ | ⟨notice, notices, item, items, hnotices, hitems⟩
  · rw [take_nil hnone]
    exact ⟨hstacked, hpaired⟩
  · have hlength := h.items
    rw [hnotices, hitems, List.length_cons, List.length_cons] at hlength
    rw [hitems, List.length_cons] at halone
    obtain rfl : items = [] := List.eq_nil_of_length_eq_zero (by omega)
    obtain rfl : notices = [] :=
      List.eq_nil_of_length_eq_zero (Nat.succ.inj hlength).symm
    have hitem : item.1 = notice := by simpa [Box.Stacked, hnotices, hitems] using hstacked
    rw [take_cons hnotices hitems]
    refine ⟨rfl, fun p hp => ?_⟩
    rcases List.mem_append.mp hp with hold | hnew
    · exact hpaired p hold
    · rw [List.mem_singleton.mp hnew]
      exact hitem

/-- **An item that was taken with its notice was the only one.** -/
theorem Box.Kept.alone_of_paired {b : Box M} (h : b.Kept) (hstacked : b.Stacked)
    (hpaired : b.take.Paired) : b.items.length ≤ 1 := by
  rcases h.nil_or_cons with ⟨-, hnone⟩ | ⟨notice, notices, item, items, hnotices, hitems⟩
  · simp [hnone]
  · have hitem : item.1 = notice := by
      rw [take_cons hnotices hitems] at hpaired
      exact hpaired (notice, item) (List.mem_append_right _ (List.mem_singleton_self _))
    have hdistinct : (notice :: notices).Nodup := by
      have hrange : (List.range b.arrived).Nodup := List.nodup_range
      rw [← h.notices, hnotices] at hrange
      exact (List.nodup_append.mp hrange).2.1
    -- the item on top is the last one that came
    have htop : item.1 :: items.map Prod.fst = (notice :: notices).reverse := by
      rw [← hnotices, ← hstacked, hitems, List.map_cons]
    rcases List.eq_nil_or_concat notices with rfl | ⟨before, last, rfl⟩
    · rw [h.items, hnotices]
      exact Nat.le_refl 1
    · have hlast : item.1 = last := by
        simp only [List.concat_eq_append, List.reverse_cons, List.reverse_append] at htop
        exact (List.cons.inj htop).1
      refine absurd ?_ (List.nodup_cons.mp hdistinct).1
      rw [← hitem, hlast]
      simp

/-- **In order is paired**: the notices are taken in order. -/
theorem Box.Kept.inOrder_iff {b : Box M} (h : b.Kept) : b.InOrder ↔ b.Paired := by
  have hlength := congrArg List.length h.notices
  rw [List.length_append, List.length_map, List.length_range] at hlength
  have hnotices : b.taken.map Prod.fst = List.range b.taken.length :=
    calc b.taken.map Prod.fst
        = (b.taken.map Prod.fst ++ b.notices).take b.taken.length :=
          (List.take_left' (List.length_map _)).symm
      _ = List.range b.taken.length := by
          rw [h.notices, List.take_range, Nat.min_eq_left (by omega)]
  unfold Box.InOrder Box.Paired
  rw [← hnotices]
  exact List.map_inj_left

end Pairs
