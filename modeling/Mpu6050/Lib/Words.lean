/-
16-bit words, as C code takes them apart.

A word on the wire is two bytes.  Code that reads it with a native load and swaps it,
or puts it through a mask and a subtraction to "invert the two's complement", says in
`int` arithmetic what is a plain fact about the two bytes.  The lemmas here say which
fact: each half of a word, the sign bit, and the integer a word stands for.
-/
import Mathlib.Tactic.NormNum

namespace Words

/-- The integer two bytes stand for, the high one first, in two's complement. -/
def bigEndian (hi lo : BitVec 8) : Int :=
  if hi.toNat < 128 then 256 * hi.toNat + lo.toNat else 256 * hi.toNat + lo.toNat - 65536

/-! ### The two halves of a word -/

theorem setWidth_append_low (hi lo : BitVec 8) : (hi ++ lo).setWidth 8 = lo := by
  apply BitVec.eq_of_getLsbD_eq
  intro i hlt
  rw [BitVec.getLsbD_setWidth, BitVec.getLsbD_append]
  simp [hlt]

theorem setWidth_append_high (hi lo : BitVec 8) : ((hi ++ lo) >>> 8).setWidth 8 = hi := by
  apply BitVec.eq_of_getLsbD_eq
  intro i hlt
  rw [BitVec.getLsbD_setWidth, BitVec.getLsbD_ushiftRight, BitVec.getLsbD_append]
  simp [hlt]

/-- A word is the same as its swap exactly if its halves are. -/
theorem append_comm_iff (hi lo : BitVec 8) : (hi ++ lo : BitVec 16) = lo ++ hi ↔ hi = lo := by
  constructor
  · intro h
    have := congrArg (BitVec.setWidth 8) h
    rw [setWidth_append_low, setWidth_append_low] at this
    exact this.symm
  · rintro rfl
    rfl

/-- A word read as a signed integer. -/
theorem toInt_append (hi lo : BitVec 8) : (hi ++ lo : BitVec 16).toInt = bigEndian hi lo := by
  have hnat : (hi ++ lo : BitVec 16).toNat = 256 * hi.toNat + lo.toNat := by
    rw [BitVec.toNat_append, Nat.shiftLeft_eq, Nat.mul_comm,
      ← Nat.two_pow_add_eq_or_of_lt lo.isLt]
  have hlo : lo.toNat < 256 := lo.isLt
  rw [BitVec.toInt_eq_toNat_cond, hnat]
  unfold bigEndian
  split <;> split <;> omega

/-- Only two zero bytes stand for zero. -/
theorem bigEndian_eq_zero_iff (hi lo : BitVec 8) : bigEndian hi lo = 0 ↔ hi = 0 ∧ lo = 0 := by
  have hhi : hi.toNat < 256 := hi.isLt
  have hlo : lo.toNat < 256 := lo.isLt
  have hzero : (0 : BitVec 8).toNat = 0 := rfl
  rw [BitVec.toNat_eq, BitVec.toNat_eq, hzero]
  unfold bigEndian
  split <;> omega

/-! ### Masks in `int` arithmetic -/

theorem getLsbD_lowByte : ∀ i < 32, (0x00FF : BitVec 32).getLsbD i = decide (i < 8) := by decide

theorem getLsbD_highByte :
    ∀ i < 32, (0xFF00 : BitVec 32).getLsbD i = decide (8 ≤ i ∧ i < 16) := by decide

theorem getLsbD_magnitude : ∀ i < 32, (0x7FFF : BitVec 32).getLsbD i = decide (i < 15) := by decide

theorem getLsbD_sign : ∀ i < 32, (0x8000 : BitVec 32).getLsbD i = decide (i = 15) := by decide

theorem getLsbD_signs : ∀ i < 32, (0xFFFF8000 : BitVec 32).getLsbD i = decide (15 ≤ i) := by
  decide

/-- Taking the sign bit off a magnitude sets it and every bit above. -/
theorem magnitude_sub_sign (p : BitVec 32) :
    (p &&& 0x7FFF) - 0x8000 = (p &&& 0x7FFF) ||| 0xFFFF8000 := by
  have hdisjoint : (p &&& 0x7FFF) &&& 0xFFFF8000 = 0 := by
    rw [BitVec.and_assoc, show (0x7FFF &&& 0xFFFF8000 : BitVec 32) = 0#32 by decide,
      BitVec.and_zero]
    rfl
  rw [← BitVec.add_eq_or_of_and_eq_zero _ _ hdisjoint, BitVec.sub_eq_add_neg]
  rfl

/-- The test of the sign bit in `int` finds the sign bit of the word. -/
theorem sign_of_test {x : BitVec 16} (h : x.signExtend 32 &&& 0x8000 ≠ 0) :
    x.getLsbD 15 = true := by
  by_contra hbit
  refine h (BitVec.eq_of_getLsbD_eq fun i hi => ?_)
  rw [BitVec.getLsbD_and, getLsbD_sign i hi, BitVec.getLsbD_signExtend]
  by_cases h15 : i = 15
  · subst h15
    simpa using hbit
  · simp [h15]

/-- A word with its sign bit set is its magnitude less the sign bit. -/
theorem setWidth_magnitude_sub_sign {x : BitVec 16} (h : x.getLsbD 15 = true) :
    ((x.signExtend 32 &&& 0x7FFF) - 0x8000).setWidth 16 = x := by
  rw [magnitude_sub_sign]
  apply BitVec.eq_of_getLsbD_eq
  intro i hi
  rw [BitVec.getLsbD_setWidth, BitVec.getLsbD_or, BitVec.getLsbD_and,
    getLsbD_magnitude i (by omega), getLsbD_signs i (by omega), BitVec.getLsbD_signExtend]
  by_cases hlow : i < 15
  · simp [hi, hlow, show i < 32 by omega]
  · have hi15 : i = 15 := by omega
    subst hi15
    simp [h]

/-- A word promoted and narrowed again. -/
theorem setWidth_signExtend (x : BitVec 16) : (x.signExtend 32).setWidth 16 = x := by
  apply BitVec.eq_of_getLsbD_eq
  intro i hi
  rw [BitVec.getLsbD_setWidth, BitVec.getLsbD_signExtend]
  simp [hi, show i < 32 by omega]

/-- The halves of a word exchanged by masks and shifts. -/
theorem setWidth_swap (hi lo : BitVec 8) :
    (((hi ++ lo : BitVec 16).signExtend 32 &&& 0x00FF) <<< 8 |||
      ((hi ++ lo : BitVec 16).signExtend 32 &&& 0xFF00) >>> 8).setWidth 16
      = (lo ++ hi : BitVec 16) := by
  apply BitVec.eq_of_getLsbD_eq
  intro i hlt
  rw [BitVec.getLsbD_setWidth, BitVec.getLsbD_or, BitVec.getLsbD_shiftLeft,
    BitVec.getLsbD_ushiftRight, BitVec.getLsbD_and, BitVec.getLsbD_and,
    getLsbD_lowByte _ (by omega), getLsbD_highByte _ (by omega), BitVec.getLsbD_signExtend,
    BitVec.getLsbD_signExtend, BitVec.getLsbD_append, BitVec.getLsbD_append,
    BitVec.getLsbD_append]
  by_cases h : i < 8
  · simp [h, hlt, show 8 + i < 32 by omega, show 8 + i < 16 by omega]
  · simp [h, hlt, show i - 8 < 8 by omega, show i < 32 by omega, show i - 8 < 16 by omega,
      show i - 8 < 32 by omega, show ¬8 + i < 16 by omega]

end Words
