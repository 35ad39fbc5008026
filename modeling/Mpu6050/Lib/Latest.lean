/-
A value that is only ever looked at.

A producer records values one after another; a consumer, whenever it polls, emits the
newest and does not take it away.  `Feed` keeps both histories, each emitted value with
its place among the recorded ones, so that the same value recorded twice counts as two.

Nothing keeps a consumer from finding the same value again.  `once_iff` says that this is
all that can go wrong: the emitted are the recorded, in their order and each at most once,
unless a poll finds what a poll has found before.
-/
import Mpu6050.Lib.Runs

namespace Latest

open Runs

/-- A value is recorded, or the newest is looked at. -/
inductive Event
  | record
  | poll
deriving DecidableEq

/-- What was recorded, and what was emitted, each with its place among the recorded. -/
structure Feed (α : Type) where
  recorded : List α
  emitted : List (α × Nat)

variable {α : Type}

/-- The newest value, with its place. -/
def Feed.newest (s : Feed α) : Option (α × Nat) := s.recorded.zipIdx.getLast?

/-- Any value may be recorded; a poll emits the newest, if there is one. -/
inductive Step (s : Feed α) : Event → Feed α → Prop
  | record (a : α) : Step s .record { s with recorded := s.recorded ++ [a] }
  | poll : Step s .poll { s with emitted := s.emitted ++ s.newest.toList }

/-- Nothing yet. -/
def Feed.empty : Feed α := { recorded := [], emitted := [] }

/-- Recorded values are emitted in order, each at most once. -/
def Feed.Once (s : Feed α) : Prop := s.emitted.Sublist s.recorded.zipIdx

/-- The newest value has been polled. -/
def Polled (es : List Event) : Prop :=
  ∃ before after, es = before ++ .poll :: after ∧ (.record ∈ before ∧ .record ∉ after)

/-- A value has been polled that had been polled before. -/
def Repolled (es : List Event) : Prop :=
  ∃ before after, es = before ++ .poll :: after ∧ Polled before

/-! ### One more event -/

theorem not_repolled_nil : ¬Repolled [] := by
  rintro ⟨before, after, heq, -⟩
  simp at heq

theorem polled_record (es : List Event) : ¬Polled (es ++ [.record]) := by
  unfold Polled
  rw [split_snoc]
  rintro (⟨before, after, -, -, hafter⟩ | ⟨hpoll, -⟩)
  · exact hafter (by simp)
  · cases hpoll

theorem polled_poll (es : List Event) : Polled (es ++ [.poll]) ↔ Polled es ∨ .record ∈ es := by
  unfold Polled
  rw [split_snoc]
  simp

theorem repolled_record (es : List Event) : Repolled (es ++ [.record]) ↔ Repolled es := by
  unfold Repolled
  rw [split_snoc]
  simp

theorem repolled_poll (es : List Event) :
    Repolled (es ++ [.poll]) ↔ Repolled es ∨ Polled es := by
  unfold Repolled
  rw [split_snoc]
  simp

theorem Polled.recorded {es : List Event} (h : Polled es) : .record ∈ es := by
  obtain ⟨before, after, rfl, hbefore, -⟩ := h
  exact List.mem_append_left _ hbefore

/-! ### A list that ends in something new -/

theorem sublist_concat_of_notMem {l l' : List α} {x : α} (h : x ∉ l) :
    l.Sublist (l' ++ [x]) ↔ l.Sublist l' := by
  constructor
  · refine List.Sublist.of_sublist_append_left fun a ha hx => ?_
    rw [List.mem_singleton.mp hx] at ha
    exact h ha
  · exact fun hsub => hsub.trans (List.sublist_append_left _ _)

theorem concat_sublist_concat {l l' : List α} {x : α} (h : x ∉ l') :
    (l ++ [x]).Sublist (l' ++ [x]) ↔ l.Sublist (l' ++ [x]) ∧ x ∉ l := by
  rw [List.append_sublist_append_right]
  constructor
  · intro hsub
    exact ⟨hsub.trans (List.sublist_append_left _ _), fun hx => h (hsub.mem hx)⟩
  · intro ⟨hsub, hx⟩
    exact (sublist_concat_of_notMem hx).mp hsub

/-! ### Histories -/

theorem zipIdx_snoc (l : List α) (a : α) :
    (l ++ [a]).zipIdx = l.zipIdx ++ [(a, l.length)] := by
  rw [List.zipIdx_append]
  simp

theorem notMem_zipIdx {l : List α} {a : α} {n : Nat} (h : l.length ≤ n) :
    (a, n) ∉ l.zipIdx := by
  intro hmem
  have := List.snd_lt_of_mem_zipIdx hmem
  simp at this
  omega

/-- What the histories of the two say of each other. -/
structure Accounted (es : List Event) (s : Feed α) : Prop where
  recorded : s.recorded = [] ↔ .record ∉ es
  placed : ∀ p ∈ s.emitted, p.2 < s.recorded.length
  polled : ∀ p ∈ s.newest, p ∈ s.emitted ↔ Polled es
  once : s.Once ↔ ¬Repolled es

theorem accounted_record {es : List Event} {s : Feed α} (h : Accounted es s) (a : α) :
    Accounted (es ++ [.record]) { s with recorded := s.recorded ++ [a] } := by
  have hnew : (a, s.recorded.length) ∉ s.emitted := by
    intro hmem
    exact Nat.lt_irrefl _ (h.placed _ hmem)
  refine ⟨by simp, ?_, ?_, ?_⟩
  · intro p hp
    have := h.placed p hp
    rw [List.length_append]
    omega
  · intro p hp
    simp only [Feed.newest, zipIdx_snoc, List.getLast?_concat, Option.mem_some_iff] at hp
    rw [← hp]
    exact iff_of_false hnew (polled_record es)
  · unfold Feed.Once
    rw [repolled_record, zipIdx_snoc, sublist_concat_of_notMem hnew]
    exact h.once

/-- While nothing has been recorded, a poll emits nothing. -/
theorem accounted_poll_none {es : List Event} {s : Feed α} (h : Accounted es s)
    (hnil : s.recorded = []) : Accounted (es ++ [.poll]) s := by
  have hnone := h.recorded.mp hnil
  refine ⟨?_, h.placed, ?_, ?_⟩
  · rw [List.mem_append, not_or]
    exact ⟨fun _ => ⟨hnone, by simp⟩, fun _ => hnil⟩
  · intro p hp
    rw [Feed.newest, hnil] at hp
    cases hp
  · rw [repolled_poll, or_iff_left fun hpolled => hnone hpolled.recorded]
    exact h.once

/-- Otherwise it emits the newest, which is new exactly if it has not been polled. -/
theorem accounted_poll_some {es : List Event} {s : Feed α} (h : Accounted es s) {l : List α}
    {a : α} (hlast : s.recorded = l ++ [a]) :
    Accounted (es ++ [.poll]) { s with emitted := s.emitted ++ [(a, l.length)] } := by
  have hnewest : s.newest = some (a, l.length) := by
    rw [Feed.newest, hlast, zipIdx_snoc, List.getLast?_concat]
  have hne : s.recorded ≠ [] := by
    rw [hlast]
    simp
  have hsome : Event.record ∈ es := Decidable.byContradiction fun hc => hne (h.recorded.mpr hc)
  refine ⟨?_, ?_, ?_, ?_⟩
  · exact iff_of_false hne fun hc => hc (List.mem_append_left _ hsome)
  · intro p hp
    rcases List.mem_append.mp hp with hold | hnew
    · exact h.placed p hold
    · rw [List.mem_singleton.mp hnew, hlast, List.length_append, List.length_singleton]
      exact Nat.lt_succ_self _
  · intro p hp
    obtain rfl : p = (a, l.length) := Option.some.inj (hp.symm.trans hnewest)
    rw [polled_poll]
    exact iff_of_true (by simp) (Or.inr hsome)
  · rw [repolled_poll, not_or, ← h.once, ← h.polled _ hnewest]
    unfold Feed.Once
    rw [hlast, zipIdx_snoc]
    exact concat_sublist_concat (notMem_zipIdx (Nat.le_refl _))

theorem accounted_step {es : List Event} {s s' : Feed α} {e : Event} (h : Accounted es s)
    (hstep : Step s e s') : Accounted (es ++ [e]) s' := by
  cases hstep with
  | record a => exact accounted_record h a
  | poll =>
      rcases List.eq_nil_or_concat s.recorded with hnil | ⟨l, a, hlast⟩
      · rw [show s.newest = none by rw [Feed.newest, hnil]; rfl, Option.toList_none,
          List.append_nil]
        exact accounted_poll_none h hnil
      · rw [List.concat_eq_append] at hlast
        rw [show s.newest = some (a, l.length) by
          rw [Feed.newest, hlast, zipIdx_snoc, List.getLast?_concat], Option.toList_some]
        exact accounted_poll_some h hlast

/-- **Everything is emitted once, in order, unless something is polled twice.** -/
theorem once_iff {es : List Event} {s : Feed α} (h : Run Step Feed.empty es s) :
    s.Once ↔ ¬Repolled es := by
  have hinit : Accounted [] (Feed.empty : Feed α) := by
    refine ⟨by simp [Feed.empty], ?_, ?_, ?_⟩
    · intro p hp
      cases hp
    · intro p hp
      cases hp
    · exact iff_of_true (List.nil_sublist _) not_repolled_nil
  exact (h.invariant hinit fun _ _ _ _ => accounted_step).once

end Latest
