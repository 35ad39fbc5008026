/-
Integers written in decimal, and read back from a line of text.

What a program prints is a list of characters, and says what it is meant to say if a reader who
knows only the notation gets the numbers out of it again: digits, a minus in front, a separator
between two of them, and a newline at the end.  `readLine` is that reader.  It refuses what is
not such a line, so a result it gives is about the whole text.

`readLine_line` is what a writer is checked by: each number by itself, and the separator.
-/
import Mathlib.Data.List.Basic

namespace Decimal

/-- The number some digits write, if there are any and they are digits. -/
def readNat (cs : List Char) : Option Nat :=
  if !cs.isEmpty && cs.all Char.isDigit then some (Nat.ofDigitChars 10 cs 0) else none

/-- The integer they write, with a minus in front or without. -/
def readInt : List Char → Option Int
  | '-' :: cs => (readNat cs).map fun n => -(n : Int)
  | cs => (readNat cs).map fun n => (n : Int)

/-- The integers of a text, with a separator between two of them. -/
def readInts (sep : Char) (text : List Char) : Option (List Int) :=
  (text.splitOn sep).mapM readInt

/-- The integers of a line. -/
def readLine (sep : Char) (text : List Char) : Option (List Int) :=
  if text.getLast? = some '\n' then readInts sep text.dropLast else none

/-! ### One number -/

theorem isDigit_of_mem_toDigits {n : Nat} {c : Char} (h : c ∈ Nat.toDigits 10 n) :
    c.isDigit = true :=
  Nat.isDigit_of_mem_toDigits (by decide) (by decide) h

theorem readNat_toDigits (n : Nat) : readNat (Nat.toDigits 10 n) = some n := by
  have hempty : (Nat.toDigits 10 n).isEmpty = false :=
    List.isEmpty_eq_false_iff.mpr Nat.toDigits_ne_nil
  have hdigits : (Nat.toDigits 10 n).all Char.isDigit = true :=
    List.all_eq_true.mpr fun c => isDigit_of_mem_toDigits
  unfold readNat
  rw [hempty, hdigits, Bool.not_false, Bool.and_true, if_pos rfl, Nat.ofDigitChars_ten_toDigits]

/-- Digits alone are a number that is not negative. -/
theorem readInt_toDigits (n : Nat) : readInt (Nat.toDigits 10 n) = some (n : Int) := by
  have hminus : ∀ cs, Nat.toDigits 10 n ≠ '-' :: cs := by
    intro cs h
    have hdigit : ('-').isDigit = true :=
      isDigit_of_mem_toDigits (n := n) (by rw [h]; exact List.mem_cons_self)
    exact absurd hdigit (by decide)
  unfold readInt
  split
  next cs h => exact absurd h (hminus cs)
  next => rw [readNat_toDigits]; rfl

theorem readInt_minus (n : Nat) : readInt ('-' :: Nat.toDigits 10 n) = some (-(n : Int)) := by
  show (readNat (Nat.toDigits 10 n)).map (fun n => -(n : Int)) = some (-(n : Int))
  rw [readNat_toDigits]
  rfl

/-! ### A line of them -/

variable {sep : Char} {xs : List Int} {write : Int → List Char}

theorem mapM_readInt (h : ∀ x ∈ xs, readInt (write x) = some x) :
    (xs.map write).mapM readInt = some xs := by
  induction xs with
  | nil => rfl
  | cons x xs ih =>
      rw [List.map_cons, List.mapM_cons, h x List.mem_cons_self,
        ih fun y hy => h y (List.mem_cons_of_mem x hy)]
      rfl

theorem readInts_intercalate (hne : xs ≠ []) (hread : ∀ x ∈ xs, readInt (write x) = some x)
    (hsep : ∀ x ∈ xs, sep ∉ write x) :
    readInts sep ([sep].intercalate (xs.map write)) = some xs := by
  have hfields : ∀ field ∈ xs.map write, sep ∉ field := by
    intro field hfield
    obtain ⟨x, hx, rfl⟩ := List.mem_map.mp hfield
    exact hsep x hx
  unfold readInts
  rw [List.splitOn_intercalate sep hfields (by simpa using hne)]
  exact mapM_readInt hread

/-- **A line of numbers, each of which is read back and does not contain the separator, is read
back.** -/
theorem readLine_line (hne : xs ≠ []) (hread : ∀ x ∈ xs, readInt (write x) = some x)
    (hsep : ∀ x ∈ xs, sep ∉ write x) :
    readLine sep ([sep].intercalate (xs.map write) ++ ['\n']) = some xs := by
  unfold readLine
  rw [if_pos List.getLast?_concat, List.dropLast_concat]
  exact readInts_intercalate hne hread hsep

end Decimal
