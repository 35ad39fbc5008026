/-
What it is to read a file.

A read method is asked for some bytes from an offset on and returns what it has of them;
whoever reads a file calls it again and again, each time from where the last call ended.
However the read is split, the chunks put together should be the part asked for.  A method
that looks at neither of its arguments returns the same text again with every call
(`chunks_const`), and what comes of it is a part of that text only for a single chunk
(`repeated_eq_part_iff`).
-/
import Mathlib.Data.List.Basic

namespace Files

variable {α : Type}

/-- A read method: what it returns for an offset and a count. -/
abbrev ReadMethod (α : Type) := Nat → Nat → List α

/-- The part of a text that a call asks for. -/
def part (text : List α) (offset count : Nat) : List α := (text.drop offset).take count

/-- A read in consecutive chunks of the sizes listed, each from where the last one ended. -/
def chunks (read : ReadMethod α) : Nat → List Nat → List α
  | _, [] => []
  | offset, count :: counts =>
      read offset count ++ chunks read (offset + (read offset count).length) counts

/-- How many bytes the chunks are asked for together. -/
def total : List Nat → Nat
  | [] => 0
  | count :: counts => count + total counts

/-- A method that looks at neither argument repeats itself. -/
theorem chunks_const {read : ReadMethod α} {line : List α}
    (h : ∀ offset count, read offset count = line) (offset : Nat) (counts : List Nat) :
    chunks read offset counts = (List.replicate counts.length line).flatten := by
  induction counts generalizing offset with
  | nil => rfl
  | cons count counts ih =>
      unfold chunks
      rw [ih, h, List.length_cons, List.replicate_succ, List.flatten_cons]

/-- A whole text is the part asked for only from its start and for all its length. -/
theorem eq_part_iff {text : List α} (hne : text ≠ []) {offset count : Nat} :
    text = part text offset count ↔ offset = 0 ∧ text.length ≤ count := by
  have hpos : 0 < text.length := List.length_pos_of_ne_nil hne
  constructor
  · intro h
    have hlength := congrArg List.length h
    unfold part at hlength
    rw [List.length_take, List.length_drop] at hlength
    omega
  · intro ⟨hzero, hcount⟩
    unfold part
    rw [hzero, List.drop_zero, List.take_of_length_le hcount]

/-- A part holds nothing only if nothing is asked for, or nothing is left. -/
theorem part_eq_nil_iff {text : List α} {offset count : Nat} :
    part text offset count = [] ↔ text.length ≤ offset ∨ count = 0 := by
  unfold part
  rw [List.take_eq_nil_iff, List.drop_eq_nil_iff]
  exact or_comm

/-- Repeating a text gives it once only if there is one repetition, or none is asked for. -/
theorem repeated_eq_part_iff {text : List α} (hne : text ≠ []) {counts : List Nat} :
    (List.replicate counts.length text).flatten = part text 0 (total counts)
      ↔ counts = [] ∨ ∃ count, counts = [count] ∧ text.length ≤ count := by
  have hpos : 0 < text.length := List.length_pos_of_ne_nil hne
  rcases counts with _ | ⟨count, _ | ⟨next, counts⟩⟩
  · exact iff_of_true (by simp [part, total]) (Or.inl rfl)
  · rw [show (List.replicate [count].length text).flatten = text from by simp, eq_part_iff hne]
    simp [total]
  · -- two copies are longer than any part
    refine iff_of_false (fun h => ?_) (by simp)
    have hlength := congrArg List.length h
    simp only [List.length_cons, List.replicate_succ, List.flatten_cons,
      List.length_append] at hlength
    have hpart : (part text 0 (total (count :: next :: counts))).length ≤ text.length := by
      unfold part
      rw [List.length_take, List.drop_zero]
      exact Nat.min_le_right _ _
    omega

end Files
