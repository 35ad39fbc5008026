/-
Numbers taken out of a stream that is given one text after another.

A `std::stringstream` keeps its state when it is given a new text: once it has come to the end of
one, or has found no number there, nothing more can be taken out of it before the state is cleared.
Where nobody does, the texts that come after such a one count for nothing (`settled_append`);
and a number written out in decimal digits is one (`settles_toDigits`).
-/
import Mathlib.Data.List.TakeWhile

namespace Streams

/-- What is left of the text, and the bits `eofbit` and `failbit`. -/
structure Stream where
  text : List Char
  eof : Bool
  fail : Bool

/-- A stream just made. -/
def empty : Stream := { text := [], eof := false, fail := false }

/-- `good ()` -/
def Stream.good (s : Stream) : Bool := !s.eof && !s.fail

/-- `str (text)`, which leaves the state as it is. -/
def Stream.str (s : Stream) (text : List Char) : Stream := { s with text }

/-- `isspace` -/
def isSpace (c : Char) : Bool := c = ' ' || (9 ≤ c.toNat && c.toNat ≤ 13)

/-- Whether a minus stands in front, and what stands behind the sign. -/
def sign : List Char → Bool × List Char
  | '-' :: cs => (true, cs)
  | '+' :: cs => (false, cs)
  | cs => (false, cs)

/-- The number of the digits, and whether there is none, or none as small as `max`. -/
def convert (max : Nat) (negative : Bool) (digits : List Char) : Nat × Bool :=
  if digits = [] then (0, true)
  else
    let n := Nat.ofDigitChars 10 digits 0
    if max < n then (max, true)
    else (if negative then (max + 1 - n) % (max + 1) else n, false)

/--
`operator>>` for a variable of an unsigned type, whose greatest value is `max`: the stream, and
the variable afterwards.  It is written to as soon as there is anything but white space.
-/
def Stream.extract (max : Nat) (s : Stream) (v : Nat) : Stream × Nat :=
  if !s.good then ({ s with fail := true }, v)
  else
    match s.text.dropWhile isSpace with
    | [] => ({ text := [], eof := true, fail := true }, v)
    | c :: cs =>
      let (negative, digits) := sign (c :: cs)
      let rest := digits.dropWhile Char.isDigit
      let (n, fail) := convert max negative (digits.takeWhile Char.isDigit)
      ({ text := rest, eof := rest = [], fail }, n)

/-- One text after another is given to the stream, and a number taken out each time. -/
def Stream.extractAll (max : Nat) (s : Stream) (v : Nat) : List (List Char) → Stream × Nat
  | [] => (s, v)
  | text :: texts =>
    let (s, v) := (s.str text).extract max v
    s.extractAll max v texts

/-! ### What counts -/

/-- What a text makes of the variable. -/
def number (max : Nat) (text : List Char) (v : Nat) : Nat := ((empty.str text).extract max v).2

/-- Nothing comes after the number in the text, or there is no such number. -/
def Settles (max : Nat) (text : List Char) : Prop :=
  ((empty.str text).extract max 0).1.good = false

instance (max : Nat) (text : List Char) : Decidable (Settles max text) :=
  inferInstanceAs (Decidable (_ = _))

/-- What is made of the variable by the texts up to the first that settles it. -/
def settled (max v : Nat) : List (List Char) → Nat
  | [] => v
  | text :: texts =>
    if Settles max text then number max text v else settled max (number max text v) texts

variable {max v : Nat}

/-- A good stream has only its text. -/
theorem str_of_good {s : Stream} (h : s.good = true) (text : List Char) :
    s.str text = empty.str text := by
  obtain ⟨heof, hfail⟩ : s.eof = false ∧ s.fail = false := by simpa [Stream.good] using h
  unfold Stream.str empty
  rw [heof, hfail]

/-- The state does not depend on the variable. -/
theorem extract_state (s : Stream) (v w : Nat) : (s.extract max v).1 = (s.extract max w).1 := by
  unfold Stream.extract
  split
  · rfl
  · split <;> rfl

theorem extract_of_not_good {s : Stream} (h : s.good = false) (text : List Char) (v : Nat) :
    (s.str text).extract max v = ({ s.str text with fail := true }, v) := by
  have hbad : (s.str text).good = false := h
  unfold Stream.extract
  rw [hbad]
  rfl

/-- A stream that is not good takes nothing from any text. -/
theorem extractAll_of_not_good {s : Stream} (h : s.good = false) (texts : List (List Char))
    (v : Nat) : (s.extractAll max v texts).2 = v := by
  induction texts generalizing s with
  | nil => rfl
  | cons text texts ih =>
      rw [Stream.extractAll, extract_of_not_good h]
      exact ih (by simp [Stream.good])

/-- A good one takes what the texts settle on. -/
theorem extractAll_of_good {s : Stream} (h : s.good = true) (texts : List (List Char)) (v : Nat) :
    (s.extractAll max v texts).2 = settled max v texts := by
  induction texts generalizing s v with
  | nil => rfl
  | cons text texts ih =>
      rw [Stream.extractAll, str_of_good h, settled]
      have hstate : ((empty.str text).extract max 0).1 = ((empty.str text).extract max v).1 :=
        extract_state _ _ _
      by_cases hsettles : Settles max text
      · rw [if_pos hsettles]
        exact extractAll_of_not_good (hstate ▸ hsettles) texts _
      · rw [if_neg hsettles]
        have hgood : ((empty.str text).extract max v).1.good = true := by
          rw [← hstate]
          exact eq_true_of_ne_false hsettles
        exact ih hgood _

/-- What comes after a text that settles the variable counts for nothing. -/
theorem settled_append {text : List Char} (h : Settles max text) (before after : List (List Char))
    (v : Nat) : settled max v (before ++ text :: after) = settled max v (before ++ [text]) := by
  induction before generalizing v with
  | nil => simp only [List.nil_append, settled, if_pos h]
  | cons t before ih =>
      simp only [List.cons_append, settled]
      by_cases ht : Settles max t
      · rw [if_pos ht, if_pos ht]
      · rw [if_neg ht, if_neg ht, ih]

/-- Up to there each writes over what the others have written. -/
theorem settled_concat {before : List (List Char)} (h : ∀ t ∈ before, ¬Settles max t)
    (text : List Char) (v : Nat) :
    settled max v (before ++ [text]) = number max text (settled max v before) := by
  induction before generalizing v with
  | nil =>
      simp only [List.nil_append, settled]
      split <;> rfl
  | cons t before ih =>
      have ht := h t (List.mem_cons_self ..)
      simp only [List.cons_append, settled, if_neg ht]
      exact ih (fun t ht => h t (List.mem_cons_of_mem _ ht)) _

/-! ### Decimal digits -/

theorem isSpace_of_isDigit {c : Char} (h : c.isDigit = true) : isSpace c = false := by
  have hrange : 48 ≤ c.toNat ∧ c.toNat ≤ 57 := by
    simpa [Char.isDigit, UInt32.le_iff_toNat_le] using h
  have hne : c ≠ ' ' := by
    rintro rfl
    exact absurd h (by decide)
  simp [isSpace, hne]
  omega

theorem sign_of_isDigit {c : Char} (h : c.isDigit = true) (cs : List Char) :
    sign (c :: cs) = (false, c :: cs) := by
  unfold sign
  split
  · next heq =>
      cases heq
      exact absurd h (by decide)
  · next heq =>
      cases heq
      exact absurd h (by decide)
  · rfl

/-- A text of digits, taken as a whole. -/
theorem extract_digits {digits : List Char} (hne : digits ≠ [])
    (h : ∀ c ∈ digits, c.isDigit = true) (v : Nat) :
    (empty.str digits).extract max v =
      ({ text := [], eof := true, fail := (convert max false digits).2 },
        (convert max false digits).1) := by
  obtain ⟨c, cs, rfl⟩ := List.exists_cons_of_ne_nil hne
  have hc := h c (List.mem_cons_self ..)
  have hspace : (c :: cs).dropWhile isSpace = c :: cs := by
    rw [List.dropWhile_cons_of_neg]
    simp [isSpace_of_isDigit hc]
  have hrest : (c :: cs).dropWhile Char.isDigit = [] := List.dropWhile_eq_nil_iff.mpr h
  have htake : (c :: cs).takeWhile Char.isDigit = c :: cs := List.takeWhile_eq_self_iff.mpr h
  show (match (c :: cs).dropWhile isSpace with
    | [] => _
    | c :: cs => _) = _
  simp only [hspace, sign_of_isDigit hc, hrest, htake, decide_true]

theorem isDigit_toDigits (n : Nat) : ∀ c ∈ Nat.toDigits 10 n, c.isDigit = true :=
  fun _ => Nat.isDigit_of_mem_toDigits (by decide) (by decide)

theorem settles_toDigits (n : Nat) : Settles max (Nat.toDigits 10 n) := by
  unfold Settles
  rw [extract_digits Nat.toDigits_ne_nil (isDigit_toDigits n)]
  rfl

/-- **What was written is read.** -/
theorem number_toDigits {n : Nat} (h : n ≤ max) (v : Nat) :
    number max (Nat.toDigits 10 n) v = n := by
  unfold number
  rw [extract_digits Nat.toDigits_ne_nil (isDigit_toDigits n)]
  unfold convert
  rw [if_neg Nat.toDigits_ne_nil, Nat.ofDigitChars_ten_toDigits, if_neg (by omega)]
  rfl

/-- The first number written out counts, whatever is written after it. -/
theorem settled_toDigits {before : List (List Char)} (h : ∀ t ∈ before, ¬Settles max t) {n : Nat}
    (hn : n ≤ max) (after : List (List Char)) (v : Nat) :
    settled max v (before ++ Nat.toDigits 10 n :: after) = n := by
  rw [settled_append (settles_toDigits n), settled_concat h, number_toDigits hn]

end Streams
