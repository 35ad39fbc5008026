/-
What initialisation does to the bits that are not its own.

The steps that set a field by mask leave the rest of the register alone, with two
exceptions.  A bit tested by `reg &= (0x01 << n)` is all that is left of the register in
the variable, so the write that follows clears every other bit, or sets them all but
one to zero: `Overwritten` says in which registers that happens.  And a range written one
bit too high reaches the bit above its field.

Both show only on what was there before.  Initialisation keeps to its own fields exactly
when no overwritten register has a foreign bit set, and each range register holds its
range already or has the bit above it set.
-/
import Mpu6050.Proofs.DeviceInit

namespace Mpu6050

open Registers

/-- Adjacent bits of a register. -/
structure Field where
  addr : U8
  low : Nat
  length : Nat

/-- The bits of a field. -/
def Field.Has (f : Field) (a : U8) (i : Nat) : Prop :=
  f.addr = a ∧ f.low ≤ i ∧ i < f.low + f.length

/-- `SLEEP`, `CLKSEL`, `TEMP_DIS`, `DLPF_CFG`, `SMPLRT_DIV`, `FS_SEL` and `AFS_SEL` -/
def commonFields : List Field :=
  [⟨raPwrMgmt1, 6, 1⟩, ⟨raPwrMgmt1, 0, 3⟩, ⟨raPwrMgmt1, 3, 1⟩, ⟨raConfig, 0, 3⟩,
    ⟨raSmplrtDiv, 0, 8⟩, ⟨raGyroConfig, 3, 2⟩, ⟨raAccelConfig, 3, 2⟩]

/-- The five sensor bits of `FIFO_EN`, `FIFO_OFLOW` of `INT_ENABLE`, `FIFO_EN` of `USER_CTRL` -/
def fifoFields : List Field := [⟨raFifoEn, 3, 5⟩, ⟨raIntEnable, 4, 1⟩, ⟨raUserCtrl, 6, 1⟩]

/-- `INT_LEVEL`, `INT_OPEN`, `LATCH_INT_EN` and `INT_RD_CLEAR` of `INT_PIN_CFG`, `WAIT_FOR_ES`
of `I2C_MST_CTRL` and `DATA_RDY` of `INT_ENABLE` -/
def irqFields : List Field := [⟨raIntPinCfg, 4, 4⟩, ⟨raI2cMstCtrl, 6, 1⟩, ⟨raIntEnable, 0, 1⟩]

/-- The bits initialisation is meant to set. -/
def Own (nofifo noirq : Int) (a : U8) (i : Nat) : Prop :=
  ∃ f ∈ commonFields ++ (if nofifo = 0 then fifoFields else [])
    ++ (if noirq = 0 then irqFields else []), f.Has a i

/-- The registers a step writes as a whole, by what they held. -/
def Overwritten (nofifo noirq : Int) (file : RegisterFile) (a : U8) : Prop :=
  a = raPwrMgmt1 ∧ (file a).getLsbD 6 = true ∨
  a = raIntEnable ∧ (nofifo = 0 ∧ (file a).getLsbD 4 = true ∨
    noirq = 0 ∧ (file a).getLsbD 0 = false) ∨
  a = raIntPinCfg ∧ noirq = 0 ∨
  a = raI2cMstCtrl ∧ noirq = 0 ∧ (file a).getLsbD 6 = true

/-- The register files on which initialisation keeps to its own fields. -/
structure Unclobbered (nofifo noirq : Int) (file : RegisterFile) : Prop where
  overwritten : ∀ a, Overwritten nofifo noirq file a →
    ∀ i < 8, ¬Own nofifo noirq a i → (file a).getLsbD i = false
  ranges : ∀ a, a = raGyroConfig ∨ a = raAccelConfig →
    rangeSel (file a) = 3 ∨ (file a).getLsbD 5 = true

/-- Initialisation, every transfer succeeding, leaves the foreign bits of a register alone. -/
def Framed (nofifo noirq : Int) (chip : Chip) (a : U8) : Prop :=
  ∀ i < 8, ¬Own nofifo noirq a i →
    ((deviceInit nofifo noirq noFaults chip).2.file a).getLsbD i = (chip.file a).getLsbD i

/-! ### The fields, register by register -/

theorem own_iff (nofifo noirq : Int) (a : U8) (i : Nat) :
    Own nofifo noirq a i ↔ (∃ f ∈ commonFields, f.Has a i) ∨
      (nofifo = 0 ∧ ∃ f ∈ fifoFields, f.Has a i) ∨ (noirq = 0 ∧ ∃ f ∈ irqFields, f.Has a i) := by
  unfold Own
  by_cases hfifo : nofifo = 0 <;> by_cases hirq : noirq = 0 <;>
    simp [hfifo, hirq, or_and_right, exists_or]

/-- Which bits of a register are foreign, worked out from the lists of fields. -/
theorem own_pwrMgmt1 (nofifo noirq : Int) (i : Nat) :
    Own nofifo noirq raPwrMgmt1 i ↔ i < 4 ∨ i = 6 := by
  simp [own_iff, commonFields, fifoFields, irqFields, Field.Has]
  omega

theorem own_config (nofifo noirq : Int) (i : Nat) : Own nofifo noirq raConfig i ↔ i < 3 := by
  simp [own_iff, commonFields, fifoFields, irqFields, Field.Has]

theorem own_smplrtDiv (nofifo noirq : Int) (i : Nat) :
    Own nofifo noirq raSmplrtDiv i ↔ i < 8 := by
  simp [own_iff, commonFields, fifoFields, irqFields, Field.Has]

theorem own_range (nofifo noirq : Int) {a : U8} (h : a = raGyroConfig ∨ a = raAccelConfig)
    (i : Nat) : Own nofifo noirq a i ↔ 3 ≤ i ∧ i < 5 := by
  rcases h with rfl | rfl <;>
    simp [own_iff, commonFields, fifoFields, irqFields, Field.Has]

theorem own_fifoEn (nofifo noirq : Int) (i : Nat) :
    Own nofifo noirq raFifoEn i ↔ nofifo = 0 ∧ 3 ≤ i ∧ i < 8 := by
  simp [own_iff, commonFields, fifoFields, irqFields, Field.Has]

theorem own_intEnable (nofifo noirq : Int) (i : Nat) :
    Own nofifo noirq raIntEnable i ↔ nofifo = 0 ∧ i = 4 ∨ noirq = 0 ∧ i = 0 := by
  simp [own_iff, commonFields, fifoFields, irqFields, Field.Has]
  omega

theorem own_userCtrl (nofifo noirq : Int) (i : Nat) :
    Own nofifo noirq raUserCtrl i ↔ nofifo = 0 ∧ i = 6 := by
  simp [own_iff, commonFields, fifoFields, irqFields, Field.Has]
  omega

theorem own_intPinCfg (nofifo noirq : Int) (i : Nat) :
    Own nofifo noirq raIntPinCfg i ↔ noirq = 0 ∧ 4 ≤ i ∧ i < 8 := by
  simp [own_iff, commonFields, fifoFields, irqFields, Field.Has]

/-! ### Registers written as a whole -/

/-- A register that is either left alone in its foreign bits or cleared there. -/
theorem framed_iff_of_cleared {nofifo noirq : Int} {chip : Chip} {a : U8} {cleared : Prop}
    (hcleared : cleared → ∀ i < 8, ¬Own nofifo noirq a i →
      ((deviceInit nofifo noirq noFaults chip).2.file a).getLsbD i = false)
    (hkept : ¬cleared → Framed nofifo noirq chip a) :
    Framed nofifo noirq chip a ↔
      (cleared → ∀ i < 8, ¬Own nofifo noirq a i → (chip.file a).getLsbD i = false) := by
  constructor
  · intro h hc i hi hown
    rw [← h i hi hown]
    exact hcleared hc i hi hown
  · intro h
    by_cases hc : cleared
    · intro i hi hown
      rw [hcleared hc i hi hown, h hc i hi hown]
    · exact hkept hc

theorem framed_pwrMgmt1 (nofifo noirq : Int) (chip : Chip) :
    Framed nofifo noirq chip raPwrMgmt1 ↔
      ((chip.file raPwrMgmt1).getLsbD 6 = true →
        ∀ i < 8, ¬Own nofifo noirq raPwrMgmt1 i → (chip.file raPwrMgmt1).getLsbD i = false) := by
  have hfinal : ∀ i < 8, ¬Own nofifo noirq raPwrMgmt1 i →
      ((deviceInit nofifo noirq noFaults chip).2.file raPwrMgmt1).getLsbD i
        = ((clearAlone 6 (chip.file raPwrMgmt1)).getD (chip.file raPwrMgmt1)).getLsbD i := by
    intro i hi hown
    rw [own_pwrMgmt1] at hown
    rw [deviceInit_at, stepsAt_pwrMgmt1, getLsbD_settle_pwrMgmt1 _ hi, if_neg (by omega)]
  refine framed_iff_of_cleared ?_ ?_
  · intro hsleep i hi hown
    rw [hfinal i hi hown, clearAlone_eq (by omega), if_pos hsleep]
    exact BitVec.getLsbD_zero
  · intro hawake i hi hown
    rw [hfinal i hi hown, clearAlone_eq (by omega), if_neg hawake, Option.getD_none]

/-- A register of one of the two optional blocks, or of none. -/
theorem stepsAt_optional (nofifo noirq : Int) {a : U8}
    (hcommon : commonSteps.filter (fun u => u.addr = a) = []) :
    stepsAt nofifo noirq a
      = (if nofifo = 0 then fifoSteps.filter (fun u => u.addr = a) else [])
        ++ (if noirq = 0 then irqSteps.filter (fun u => u.addr = a) else []) := by
  rw [stepsAt_eq, hcommon, List.nil_append]

theorem settle_disableFifoOverflow (v : U8) :
    disableFifoOverflow.settle v = if v.getLsbD 4 then 0 else v := by
  show (clearAlone 4 v).getD v = _
  rw [clearAlone_eq (by omega)]
  split <;> rfl

theorem settle_enableDataReady (v : U8) :
    enableDataReady.settle v = if v.getLsbD 0 then v else 1 := by
  show (setAlone 0 v).getD v = _
  rw [setAlone_eq (by omega)]
  split <;> rfl

/-- The interrupt register: rewritten as a whole, or not at all. -/
theorem deviceInit_intEnable (nofifo noirq : Int) (chip : Chip) :
    (deviceInit nofifo noirq noFaults chip).2.file raIntEnable
      = if nofifo = 0 ∧ (chip.file raIntEnable).getLsbD 4 = true ∨
          noirq = 0 ∧ (chip.file raIntEnable).getLsbD 0 = false
        then if noirq = 0 then 1 else 0
        else chip.file raIntEnable := by
  have hfifo : (if nofifo = 0 then [disableFifoOverflow] else []).foldl Update.settle
        (chip.file raIntEnable)
      = if nofifo = 0 ∧ (chip.file raIntEnable).getLsbD 4 = true then 0
        else chip.file raIntEnable := by
    by_cases h : nofifo = 0
    · simp [h, settle_disableFifoOverflow]
    · simp [h]
  have hirq : ∀ v : U8, (if noirq = 0 then [enableDataReady] else []).foldl Update.settle v
      = if noirq = 0 ∧ v.getLsbD 0 = false then 1 else v := by
    intro v
    by_cases h : noirq = 0
    · simp only [h, settle_enableDataReady, if_true, List.foldl_cons, List.foldl_nil, true_and]
      cases v.getLsbD 0 <;> rfl
    · simp [h]
  rw [deviceInit_at, stepsAt_optional nofifo noirq rfl, List.foldl_append]
  show (if noirq = 0 then [enableDataReady] else []).foldl Update.settle
    ((if nofifo = 0 then [disableFifoOverflow] else []).foldl Update.settle _) = _
  rw [hfifo, hirq]
  by_cases hover : nofifo = 0 ∧ (chip.file raIntEnable).getLsbD 4 = true
  · rw [if_pos hover, if_pos (Or.inl hover)]
    simp
  · rw [if_neg hover]
    by_cases hready : noirq = 0 ∧ (chip.file raIntEnable).getLsbD 0 = false
    · rw [if_pos hready, if_pos (Or.inr hready), if_pos hready.1]
    · rw [if_neg hready, if_neg fun h => h.elim hover hready]

theorem framed_intEnable (nofifo noirq : Int) (chip : Chip) :
    Framed nofifo noirq chip raIntEnable ↔
      (nofifo = 0 ∧ (chip.file raIntEnable).getLsbD 4 = true ∨
          noirq = 0 ∧ (chip.file raIntEnable).getLsbD 0 = false →
        ∀ i < 8, ¬Own nofifo noirq raIntEnable i → (chip.file raIntEnable).getLsbD i = false) := by
  refine framed_iff_of_cleared ?_ ?_
  · intro hcleared i _ hown
    rw [own_intEnable] at hown
    rw [deviceInit_intEnable, if_pos hcleared]
    split
    · rename_i hirq
      have hi : i ≠ 0 := fun hzero => hown (Or.inr ⟨hirq, hzero⟩)
      simp [BitVec.getLsbD_one, hi]
    · exact BitVec.getLsbD_zero
  · intro hkept i _ _
    rw [deviceInit_intEnable, if_neg hkept]

theorem framed_intPinCfg (nofifo noirq : Int) (chip : Chip) :
    Framed nofifo noirq chip raIntPinCfg ↔
      (noirq = 0 →
        ∀ i < 8, ¬Own nofifo noirq raIntPinCfg i → (chip.file raIntPinCfg).getLsbD i = false) := by
  have hfinal : (deviceInit nofifo noirq noFaults chip).2.file raIntPinCfg
      = (if noirq = 0 then [configureInterrupt] else []).foldl Update.settle
          (chip.file raIntPinCfg) := by
    rw [deviceInit_at, stepsAt_optional nofifo noirq rfl,
      show fifoSteps.filter (fun u => u.addr = raIntPinCfg) = [] from rfl, ite_self,
      List.nil_append]
    rfl
  refine framed_iff_of_cleared ?_ ?_
  · intro hirq i hi hown
    have hlow : ∀ i < 4, (0x10#8).getLsbD i = false := by decide
    rw [own_intPinCfg] at hown
    rw [hfinal, if_pos hirq, List.foldl_cons, List.foldl_nil, settle_intPinCfg]
    exact hlow i (by omega)
  · intro hirq i _ _
    rw [hfinal, if_neg hirq]
    rfl

theorem framed_i2cMstCtrl (nofifo noirq : Int) (chip : Chip) :
    Framed nofifo noirq chip raI2cMstCtrl ↔
      (noirq = 0 ∧ (chip.file raI2cMstCtrl).getLsbD 6 = true →
        ∀ i < 8, ¬Own nofifo noirq raI2cMstCtrl i →
          (chip.file raI2cMstCtrl).getLsbD i = false) := by
  have hfinal : (deviceInit nofifo noirq noFaults chip).2.file raI2cMstCtrl
      = if noirq = 0 ∧ (chip.file raI2cMstCtrl).getLsbD 6 = true then 0
        else chip.file raI2cMstCtrl := by
    rw [deviceInit_at, stepsAt_optional nofifo noirq rfl,
      show fifoSteps.filter (fun u => u.addr = raI2cMstCtrl) = [] from rfl, ite_self,
      List.nil_append]
    by_cases hirq : noirq = 0
    · rw [if_pos hirq]
      show (clearAlone 6 _).getD _ = _
      rw [clearAlone_eq (by omega)]
      by_cases hwait : (chip.file raI2cMstCtrl).getLsbD 6 = true
      · rw [if_pos hwait, if_pos ⟨hirq, hwait⟩]
        rfl
      · rw [if_neg hwait, if_neg fun h => hwait h.2]
        rfl
    · rw [if_neg hirq, if_neg fun h => hirq h.1]
      rfl
  refine framed_iff_of_cleared ?_ ?_
  · intro hcleared i _ _
    rw [hfinal, if_pos hcleared]
    exact BitVec.getLsbD_zero
  · intro hkept i _ _
    rw [hfinal, if_neg hkept]

/-! ### The range registers -/

/-- A range step sets bits 5:4 unless the field holds the range. -/
theorem setRange_getD : ∀ v : U8,
    (setRange 4 2 0x03 v).getD v = if rangeSel v = 3 then v else v ||| 0x30 := by
  decide +kernel

theorem framed_range (nofifo noirq : Int) (chip : Chip) {a : U8}
    (ha : a = raGyroConfig ∨ a = raAccelConfig) :
    Framed nofifo noirq chip a ↔ rangeSel (chip.file a) = 3 ∨ (chip.file a).getLsbD 5 = true := by
  have hfinal : (deviceInit nofifo noirq noFaults chip).2.file a
      = if rangeSel (chip.file a) = 3 then chip.file a else chip.file a ||| 0x30 := by
    rw [deviceInit_at, ← setRange_getD]
    rcases ha with rfl | rfl
    · rw [stepsAt_common nofifo noirq rfl rfl]
      rfl
    · rw [stepsAt_common nofifo noirq rfl rfl]
      rfl
  have hmask : ∀ i < 8, BitVec.getLsbD (0x30 : U8) i = decide (i = 4 ∨ i = 5) := by decide
  unfold Framed
  rw [hfinal]
  by_cases hrange : rangeSel (chip.file a) = 3
  · rw [if_pos hrange]
    exact iff_of_true (fun _ _ _ => rfl) (Or.inl hrange)
  · rw [if_neg hrange]
    constructor
    · intro h
      have h5 := h 5 (by omega) (by rw [own_range _ _ ha]; omega)
      rw [BitVec.getLsbD_or, hmask 5 (by omega)] at h5
      exact Or.inr (by simpa using h5.symm)
    · intro hor i hi hown
      rw [own_range _ _ ha] at hown
      rw [BitVec.getLsbD_or, hmask i hi]
      by_cases h5 : i = 5
      · rw [h5, hor.resolve_left hrange]
        rfl
      · simp [show ¬(i = 4 ∨ i = 5) by omega]

/-! ### Registers whose foreign bits are safe -/

theorem framed_config (nofifo noirq : Int) (chip : Chip) :
    Framed nofifo noirq chip raConfig := by
  intro i hi hown
  rw [own_config] at hown
  rw [deviceInit_at, stepsAt_common nofifo noirq rfl rfl]
  have hfield := setLowField_getLsbD (fun j (_ : 3 ≤ j) => BitVec.getLsbD_zero)
    (chip.file raConfig) hi
  exact hfield.trans (if_neg hown)

theorem framed_smplrtDiv (nofifo noirq : Int) (chip : Chip) :
    Framed nofifo noirq chip raSmplrtDiv := by
  intro i hi hown
  rw [own_smplrtDiv] at hown
  exact absurd hi hown

theorem framed_fifoEn (nofifo noirq : Int) (chip : Chip) :
    Framed nofifo noirq chip raFifoEn := by
  intro i hi hown
  have hlow : ∀ i < 3, (bit 7 ||| bit 6 ||| bit 5 ||| bit 4 ||| bit 3).getLsbD i = false := by
    decide
  rw [own_fifoEn] at hown
  rw [deviceInit_at, stepsAt_optional nofifo noirq rfl,
    show irqSteps.filter (fun u => u.addr = raFifoEn) = [] from rfl, ite_self, List.append_nil]
  by_cases hfifo : nofifo = 0
  · rw [if_pos hfifo]
    exact settle_or_getLsbD configureFifo_change _ hi (hlow i (by omega))
  · rw [if_neg hfifo]
    rfl

theorem framed_userCtrl (nofifo noirq : Int) (chip : Chip) :
    Framed nofifo noirq chip raUserCtrl := by
  intro i hi hown
  rw [own_userCtrl] at hown
  rw [deviceInit_at, stepsAt_optional nofifo noirq rfl,
    show irqSteps.filter (fun u => u.addr = raUserCtrl) = [] from rfl, ite_self, List.append_nil]
  by_cases hfifo : nofifo = 0
  · rw [if_pos hfifo]
    have hne : i ≠ 6 := fun h => hown ⟨hfifo, h⟩
    exact settle_or_getLsbD (setBit_change (show 6 < 8 by omega)) _ hi
      (by rw [getLsbD_bit]; simp [hne])
  · rw [if_neg hfifo]
    rfl

/-- The registers initialisation touches. -/
def initRegisters : List U8 :=
  [raPwrMgmt1, raConfig, raSmplrtDiv, raGyroConfig, raAccelConfig, raFifoEn, raIntEnable,
    raUserCtrl, raIntPinCfg, raI2cMstCtrl]

theorem allSteps_addr : ∀ u ∈ allSteps, u.addr ∈ initRegisters := by
  decide

theorem framed_other (nofifo noirq : Int) (chip : Chip) {a : U8} (ha : a ∉ initRegisters) :
    Framed nofifo noirq chip a := by
  intro i _ _
  have hnil : stepsAt nofifo noirq a = [] := by
    refine List.filter_eq_nil_iff.mpr fun u hu haddr => ha ?_
    rw [← of_decide_eq_true haddr]
    exact allSteps_addr u ((initSteps_sublist nofifo noirq).subset hu)
  rw [deviceInit_at, hnil]
  rfl

/--
**Initialisation leaves every foreign bit alone exactly when no register it overwrites has
one set, and each range register holds its range or has the bit above it set.**
-/
theorem deviceInit_frame_iff (nofifo noirq : Int) (chip : Chip) :
    (∀ a i, i < 8 → ¬Own nofifo noirq a i →
        ((deviceInit nofifo noirq noFaults chip).2.file a).getLsbD i = (chip.file a).getLsbD i)
      ↔ Unclobbered nofifo noirq chip.file := by
  constructor
  · intro h
    refine ⟨?_, fun a ha => (framed_range nofifo noirq chip ha).mp (h a)⟩
    rintro a (⟨rfl, hsleep⟩ | ⟨rfl, hint⟩ | ⟨rfl, hirq⟩ | ⟨rfl, hwait⟩)
    · exact (framed_pwrMgmt1 nofifo noirq chip).mp (h _) hsleep
    · exact (framed_intEnable nofifo noirq chip).mp (h _) hint
    · exact (framed_intPinCfg nofifo noirq chip).mp (h _) hirq
    · exact (framed_i2cMstCtrl nofifo noirq chip).mp (h _) hwait
  · intro h a
    by_cases ha : a ∈ initRegisters
    · simp only [initRegisters, List.mem_cons, List.not_mem_nil, or_false] at ha
      rcases ha with rfl | rfl | rfl | rfl | rfl | rfl | rfl | rfl | rfl | rfl
      · exact (framed_pwrMgmt1 nofifo noirq chip).mpr fun hsleep =>
          h.overwritten _ (Or.inl ⟨rfl, hsleep⟩)
      · exact framed_config nofifo noirq chip
      · exact framed_smplrtDiv nofifo noirq chip
      · exact (framed_range nofifo noirq chip (Or.inl rfl)).mpr (h.ranges _ (Or.inl rfl))
      · exact (framed_range nofifo noirq chip (Or.inr rfl)).mpr (h.ranges _ (Or.inr rfl))
      · exact framed_fifoEn nofifo noirq chip
      · exact (framed_intEnable nofifo noirq chip).mpr fun hint =>
          h.overwritten _ (Or.inr (Or.inl ⟨rfl, hint⟩))
      · exact framed_userCtrl nofifo noirq chip
      · exact (framed_intPinCfg nofifo noirq chip).mpr fun hirq =>
          h.overwritten _ (Or.inr (Or.inr (Or.inl ⟨rfl, hirq⟩)))
      · exact (framed_i2cMstCtrl nofifo noirq chip).mpr fun hwait =>
          h.overwritten _ (Or.inr (Or.inr (Or.inr ⟨rfl, hwait⟩)))
    · exact framed_other nofifo noirq chip ha

/-- A chip asleep with its cycle bit set. -/
def cycling : Chip := { file := fun a => if a = raPwrMgmt1 then 0x60 else 0, log := [] }

/-- Waking it up clears the cycle bit, which is none of initialisation's. -/
theorem cycling_clobbered :
    ¬(∀ a i, i < 8 → ¬Own 1 1 a i →
      ((deviceInit 1 1 noFaults cycling).2.file a).getLsbD i = (cycling.file a).getLsbD i) := by
  intro h
  have hcycle : ((deviceInit 1 1 noFaults cycling).2.file raPwrMgmt1).getLsbD 5
      = (cycling.file raPwrMgmt1).getLsbD 5 :=
    h raPwrMgmt1 5 (by omega) (by rw [own_pwrMgmt1]; omega)
  revert hcycle
  decide

end Mpu6050
