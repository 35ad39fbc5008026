/-
Initialisation, from every register file.

Without a failing transfer `i2c_mpu6050_device_init` is a function on register files, and
each register ends as its own steps leave it.  Ten registers are touched, each by one
step except `PWR_MGMT_1` with three and `INT_ENABLE` with two, so the questions about
the outcome are questions about single bytes, and a byte has 256 values.

The configuration meant is reached in every field but three.  `TEMP_DIS` is tested on
the register with that bit taken out, so the step that should clear it never writes; it
ends clear only if it was, or if the first step found the chip asleep and wrote back
a register with nothing in it.  And the two range fields are set one bit too high, so
that their lower bit stays what it was.
-/
import Mpu6050.Driver.Device

namespace Mpu6050

open Registers

/-- `FS_SEL` of `GYRO_CONFIG` and `AFS_SEL` of `ACCEL_CONFIG`: bits 4:3. -/
def rangeSel (reg : U8) : BitVec 2 := reg.extractLsb 4 3

/-- The configuration initialisation is meant to reach. -/
structure Configured (nofifo noirq : Int) (file : RegisterFile) : Prop where
  sleep : (file raPwrMgmt1).getLsbD 6 = false
  clksel : (file raPwrMgmt1).extractLsb 2 0 = 1
  dlpfCfg : (file raConfig).extractLsb 2 0 = 0
  smplrtDiv : file raSmplrtDiv = 0
  tempDis : (file raPwrMgmt1).getLsbD 3 = false
  fsSel : rangeSel (file raGyroConfig) = 3
  afsSel : rangeSel (file raAccelConfig) = 3
  /-- the `TEMP`, `XG`, `YG`, `ZG` and `ACCEL` bits -/
  fifoEn : nofifo = 0 → (file raFifoEn).extractLsb 7 3 = 0b11111
  fifoOflow : nofifo = 0 → (file raIntEnable).getLsbD 4 = false
  userFifoEn : nofifo = 0 → (file raUserCtrl).getLsbD 6 = true
  intLevel : noirq = 0 → (file raIntPinCfg).getLsbD 7 = false
  intOpen : noirq = 0 → (file raIntPinCfg).getLsbD 6 = false
  latchIntEn : noirq = 0 → (file raIntPinCfg).getLsbD 5 = false
  intRdClear : noirq = 0 → (file raIntPinCfg).getLsbD 4 = true
  waitForEs : noirq = 0 → (file raI2cMstCtrl).getLsbD 6 = false
  dataRdy : noirq = 0 → (file raIntEnable).getLsbD 0 = true

/-! ### Initialisation as a function on register files -/

/-- **With every transfer succeeding, initialisation returns 0 and applies its steps.** -/
theorem deviceInit_noFaults (nofifo noirq : Int) (chip : Chip) :
    (deviceInit nofifo noirq noFaults chip).1 = 0 ∧
      (deviceInit nofifo noirq noFaults chip).2.file
        = applyAll (initSteps nofifo noirq) chip.file := by
  have hdecode : ∀ v, readByteData (.ok v) = v := fun _ => rfl
  obtain ⟨hnone, hfile⟩ := runAll_noFaults hdecode (initSteps nofifo noirq) chip
  unfold deviceInit
  rw [show runAll noFaults readByteData (initSteps nofifo noirq) chip
    = (none, (runAll noFaults readByteData (initSteps nofifo noirq) chip).2) from
      Prod.ext hnone rfl]
  exact ⟨rfl, hfile⟩

/-- The steps that touch a register. -/
def stepsAt (nofifo noirq : Int) (a : U8) : List (Update U8 U8) :=
  (initSteps nofifo noirq).filter (fun u => u.addr = a)

theorem deviceInit_at (nofifo noirq : Int) (chip : Chip) (a : U8) :
    (deviceInit nofifo noirq noFaults chip).2.file a
      = (stepsAt nofifo noirq a).foldl Update.settle (chip.file a) := by
  rw [(deviceInit_noFaults nofifo noirq chip).2, applyAll_at]
  rfl

/-- Which steps touch a register is decided by the two parameters being zero or not. -/
theorem stepsAt_eq (nofifo noirq : Int) (a : U8) :
    stepsAt nofifo noirq a
      = commonSteps.filter (fun u => u.addr = a)
        ++ (if nofifo = 0 then fifoSteps.filter (fun u => u.addr = a) else [])
        ++ (if noirq = 0 then irqSteps.filter (fun u => u.addr = a) else []) := by
  unfold stepsAt initSteps
  rw [List.filter_append, List.filter_append]
  split <;> split <;> simp

/-- A register outside the blocks under `nofifo` and `noirq` sees only the common steps. -/
theorem stepsAt_common (nofifo noirq : Int) {a : U8}
    (hfifo : fifoSteps.filter (fun u => u.addr = a) = [])
    (hirq : irqSteps.filter (fun u => u.addr = a) = []) :
    stepsAt nofifo noirq a = commonSteps.filter (fun u => u.addr = a) := by
  rw [stepsAt_eq, hfifo, hirq]
  simp

/-- Every step of initialisation. -/
def allSteps : List (Update U8 U8) := commonSteps ++ fifoSteps ++ irqSteps

theorem initSteps_sublist (nofifo noirq : Int) : (initSteps nofifo noirq).Sublist allSteps := by
  unfold initSteps allSteps
  refine ((List.Sublist.refl _).append ?_).append ?_
  · split
    · exact List.Sublist.refl _
    · exact List.nil_sublist _
  · split
    · exact List.Sublist.refl _
    · exact List.nil_sublist _

/-! ### What each shape of step does -/

theorem getLsbD_promote (reg : U8) (i : Nat) : (promote reg).getLsbD i = reg.getLsbD i := by
  unfold promote
  rw [BitVec.getLsbD_setWidth]
  by_cases h : i < 32
  · simp [h]
  · rw [BitVec.getLsbD_of_ge reg i (by omega)]
    simp

theorem getLsbD_narrow (value : BitVec 32) (i : Nat) :
    (narrow value).getLsbD i = (decide (i < 8) && value.getLsbD i) :=
  BitVec.getLsbD_setWidth ..

theorem getLsbD_bit (n i : Nat) : (bit n).getLsbD i = (decide (i < 32) && decide (i = n)) := by
  unfold bit
  rw [BitVec.getLsbD_shiftLeft, BitVec.getLsbD_one]
  by_cases h : i < n
  · simp [h, Nat.ne_of_lt h]
  · have heq : i - n = 0 ↔ i = n := by omega
    simp [h, heq]

/-- Masking with a bit leaves a byte, so storing it to a `u8` loses nothing. -/
theorem promote_narrow_and (reg : U8) (mask : BitVec 32) :
    promote (narrow (promote reg &&& mask)) = promote reg &&& mask := by
  apply BitVec.eq_of_getLsbD_eq
  intro i _
  rw [getLsbD_promote, getLsbD_narrow, BitVec.getLsbD_and, getLsbD_promote]
  by_cases h : i < 8
  · simp [h]
  · rw [BitVec.getLsbD_of_ge reg i (by omega)]
    simp

/-- The test of a bit by mask and shift. -/
theorem mask_shift_eq {n : Nat} (hn : n < 32) (reg : U8) :
    (promote reg &&& bit n) >>> n = if reg.getLsbD n then 1 else 0 := by
  apply BitVec.eq_of_getLsbD_eq
  intro i hi
  rw [BitVec.getLsbD_ushiftRight, BitVec.getLsbD_and, getLsbD_promote, getLsbD_bit]
  by_cases hzero : i = 0
  · subst hzero
    by_cases h : reg.getLsbD n = true <;> simp [h, hn]
  · by_cases h : reg.getLsbD n = true <;> simp [h, hzero]

theorem and_or_self (x y : BitVec 32) : x &&& y ||| y = y := by
  apply BitVec.eq_of_getLsbD_eq
  intro i _
  simp

/-- A bit tested alone and cleared takes the whole register with it. -/
theorem clearAlone_eq {n : Nat} (hn : n < 8) (reg : U8) :
    clearAlone n reg = if reg.getLsbD n then some 0 else none := by
  unfold clearAlone
  simp only [promote_narrow_and, mask_shift_eq (show n < 32 by omega), BitVec.and_assoc,
    BitVec.and_not_self]
  by_cases h : reg.getLsbD n = true
  · rw [if_pos h, if_pos h]
    simp [narrow]
  · rw [if_neg h, if_neg h]
    rfl

theorem setAlone_eq {n : Nat} (hn : n < 8) (reg : U8) :
    setAlone n reg = if reg.getLsbD n then none else some (narrow (bit n)) := by
  unfold setAlone
  simp only [promote_narrow_and, mask_shift_eq (show n < 32 by omega), and_or_self]
  by_cases h : reg.getLsbD n = true
  · rw [if_pos h, if_pos h]
    rfl
  · rw [if_neg h, if_neg h]
    rfl

theorem setBit_eq {n : Nat} (hn : n < 8) (reg : U8) :
    setBit n reg = if reg.getLsbD n then none else some (narrow (promote reg ||| bit n)) := by
  unfold setBit
  simp only [mask_shift_eq (show n < 32 by omega)]
  by_cases h : reg.getLsbD n = true
  · rw [if_pos h, if_pos h]
    rfl
  · rw [if_neg h, if_neg h]
    rfl

theorem clearAlone_clears {n : Nat} (hn : n < 8) (reg : U8) :
    ((clearAlone n reg).getD reg).getLsbD n = false := by
  rw [clearAlone_eq hn]
  by_cases h : reg.getLsbD n = true
  · rw [if_pos h]
    exact BitVec.getLsbD_zero
  · rw [if_neg h]
    simpa using h

theorem setAlone_sets {n : Nat} (hn : n < 8) (reg : U8) :
    ((setAlone n reg).getD reg).getLsbD n = true := by
  rw [setAlone_eq hn]
  by_cases h : reg.getLsbD n = true
  · rw [if_pos h]
    exact h
  · rw [if_neg h, Option.getD_some, getLsbD_narrow, getLsbD_bit]
    simp [hn, show n < 32 by omega]

theorem setBit_sets {n : Nat} (hn : n < 8) (reg : U8) :
    ((setBit n reg).getD reg).getLsbD n = true := by
  rw [setBit_eq hn]
  by_cases h : reg.getLsbD n = true
  · rw [if_pos h]
    exact h
  · rw [if_neg h, Option.getD_some, getLsbD_narrow, BitVec.getLsbD_or, getLsbD_bit]
    simp [hn, show n < 32 by omega]

/-- What is left of a register that is tested alone and cleared is nothing, written or not. -/
theorem clearAlone_getD_mask {n : Nat} (hn : n < 8) (reg : U8) :
    (clearAlone n reg).getD (narrow (promote reg &&& bit n)) = 0 := by
  rw [clearAlone_eq hn]
  by_cases h : reg.getLsbD n = true
  · rw [if_pos h]
    rfl
  · rw [if_neg h]
    apply BitVec.eq_of_getLsbD_eq
    intro i _
    rw [Option.getD_none, getLsbD_narrow, BitVec.getLsbD_and, getLsbD_promote, getLsbD_bit]
    by_cases hi : i = n
    · subst hi
      simp [h]
    · simp [hi]

/-- `0xFF << length` has the eight bits from `length` on. -/
theorem getLsbD_fieldMask (length : Nat) {i : Nat} (hi : i < 8) :
    (0xFF#32 <<< length).getLsbD i = decide (length ≤ i) := by
  have hbyte : ∀ k < 8, (0xFF#32).getLsbD k = true := by decide
  rw [BitVec.getLsbD_shiftLeft]
  by_cases h : i < length
  · simp [h]
  · simp [h, hbyte (i - length) (by omega), show i < 32 by omega, show length ≤ i by omega]

/-- A field in the lowest bits ends as its setting, and the bits above as they were. -/
theorem setLowField_getLsbD {length : Nat} {setting : BitVec 32}
    (hsetting : ∀ i, length ≤ i → setting.getLsbD i = false) (reg : U8) {i : Nat} (hi : i < 8) :
    ((setLowField length setting reg).getD reg).getLsbD i
      = if i < length then setting.getLsbD i else reg.getLsbD i := by
  unfold setLowField
  by_cases hvalue : promote reg &&& ~~~(0xFF#32 <<< length) = setting
  · -- the field holds the setting already, and nothing is written
    rw [if_neg (not_not.mpr hvalue), Option.getD_none, ← hvalue, BitVec.getLsbD_and,
      BitVec.getLsbD_not, getLsbD_promote, getLsbD_fieldMask length hi]
    by_cases h : i < length
    · simp [h, show i < 32 by omega]
    · simp [h]
  · rw [if_pos hvalue, Option.getD_some, promote_narrow_and, getLsbD_narrow, BitVec.getLsbD_or,
      BitVec.getLsbD_and, getLsbD_promote, getLsbD_fieldMask length hi]
    by_cases h : i < length
    · simp only [h, hi, if_true, decide_true, Bool.true_and, Nat.not_le.mpr h, decide_false,
        Bool.and_false, Bool.false_or]
    · simp only [h, hi, if_false, decide_true, Bool.true_and, Nat.not_lt.mp h, Bool.and_true,
        hsetting i (Nat.not_lt.mp h), Bool.or_false]

theorem setRange_change (sel length : Nat) (range : BitVec 32) (v : U8) :
    setRange sel length range v = none ∨
      setRange sel length range v = some (narrow (promote v ||| range <<< sel)) := by
  unfold setRange
  simp only
  split
  · exact Or.inr rfl
  · exact Or.inl rfl

theorem setBit_change {n : Nat} (hn : n < 8) (v : U8) :
    setBit n v = none ∨ setBit n v = some (narrow (promote v ||| bit n)) := by
  rw [setBit_eq hn]
  split
  · exact Or.inl rfl
  · exact Or.inr rfl

theorem configureFifo_change (v : U8) :
    configureFifo.change v = none ∨ configureFifo.change v
      = some (narrow (promote v ||| (bit 7 ||| bit 6 ||| bit 5 ||| bit 4 ||| bit 3))) := by
  unfold configureFifo
  simp only
  split
  · exact Or.inr rfl
  · exact Or.inl rfl

/-- A step that sets bits by a mask leaves the bits outside the mask. -/
theorem settle_or_getLsbD {u : Update U8 U8} {mask : BitVec 32}
    (h : ∀ v, u.change v = none ∨ u.change v = some (narrow (promote v ||| mask))) (v : U8)
    {i : Nat} (hi : i < 8) (hmask : mask.getLsbD i = false) :
    (u.settle v).getLsbD i = v.getLsbD i := by
  unfold Update.settle
  rcases h v with hv | hv
  · rw [hv]
    rfl
  · rw [hv, Option.getD_some, getLsbD_narrow, BitVec.getLsbD_or, getLsbD_promote, hmask]
    simp [hi]

/-- The thermometer step tests a bit it has just masked out, so it never writes. -/
theorem enableThermometer_change (reg : U8) : enableThermometer.change reg = none := by
  refine if_neg fun h => ?_
  have hbit := congrArg (fun value : BitVec 32 => value.getLsbD 0) h
  simp only [BitVec.getLsbD_ushiftRight, BitVec.getLsbD_and, BitVec.getLsbD_not,
    getLsbD_bit] at hbit
  simp at hbit

/-! ### What each register ends as -/

theorem stepsAt_pwrMgmt1 (nofifo noirq : Int) :
    stepsAt nofifo noirq raPwrMgmt1 = [disableSleepMode, setClocksource, enableThermometer] :=
  stepsAt_common nofifo noirq rfl rfl

/-- The clock source from bit 2 down, and above it what leaving sleep mode left. -/
theorem getLsbD_settle_pwrMgmt1 (v : U8) {i : Nat} (hi : i < 8) :
    ([disableSleepMode, setClocksource, enableThermometer].foldl Update.settle v).getLsbD i
      = if i < 3 then (1#32).getLsbD i else ((clearAlone 6 v).getD v).getLsbD i := by
  show (((enableThermometer.change _).getD _)).getLsbD i = _
  rw [enableThermometer_change]
  refine setLowField_getLsbD (fun j hj => ?_) _ hi
  show (1#32).getLsbD j = false
  rw [BitVec.getLsbD_one]
  simp
  omega

theorem settle_pwrMgmt1 (v : U8) :
    let w := [disableSleepMode, setClocksource, enableThermometer].foldl Update.settle v
    w.getLsbD 6 = false ∧ w.extractLsb 2 0 = 1 ∧
      (w.getLsbD 3 = false ↔ v.getLsbD 6 = true ∨ v.getLsbD 3 = false) := by
  intro w
  have hw : ∀ i < 8, w.getLsbD i = if i < 3 then (1#32).getLsbD i
      else ((clearAlone 6 v).getD v).getLsbD i := fun _ hi => getLsbD_settle_pwrMgmt1 v hi
  refine ⟨?_, ?_, ?_⟩
  · rw [hw 6 (by omega), if_neg (by omega)]
    exact clearAlone_clears (by omega) v
  · apply BitVec.eq_of_getLsbD_eq
    intro i hi
    rw [BitVec.getLsbD_extractLsb]
    have hlt : i < 3 := hi
    simp [hlt, hw i (by omega)]
  · rw [hw 3 (by omega), if_neg (by omega), clearAlone_eq (by omega)]
    by_cases h : v.getLsbD 6 = true
    · rw [if_pos h]
      exact ⟨fun _ => Or.inl h, fun _ => BitVec.getLsbD_zero⟩
    · rw [if_neg h]
      exact ⟨Or.inr, fun hor => hor.resolve_left h⟩

theorem settle_config (v : U8) : (setLowPassFilter.settle v).extractLsb 2 0 = 0 := by
  apply BitVec.eq_of_getLsbD_eq
  intro i hi
  have hlt : i < 3 := hi
  have hfield : (setLowPassFilter.settle v).getLsbD i = if i < 3 then (0#32).getLsbD i
      else v.getLsbD i :=
    setLowField_getLsbD (fun _ _ => BitVec.getLsbD_zero) v (by omega)
  rw [BitVec.getLsbD_extractLsb, Nat.zero_add, hfield, if_pos hlt]
  simp

theorem settle_smplrtDiv (v : U8) : setSampleRateDivider.settle v = 0 := by
  show (if promote v ≠ 0 then some 0 else none).getD v = 0
  by_cases h : promote v = 0
  · rw [if_neg (not_not.mpr h)]
    apply BitVec.eq_of_getLsbD_eq
    intro i _
    rw [Option.getD_none, ← getLsbD_promote, h]
    simp
  · rw [if_pos h]
    rfl

/-- The range steps set bits 5:4 where the field is bits 4:3. -/
theorem settle_range : ∀ v : U8,
    rangeSel ((setRange 4 2 0x03 v).getD v) = if v.getLsbD 3 then 3 else 2 := by
  decide +kernel

theorem settle_fifoEn : ∀ v : U8, (configureFifo.settle v).extractLsb 7 3 = 0b11111 := by
  decide +kernel

theorem settle_intPinCfg (v : U8) : configureInterrupt.settle v = 0x10 := by
  show (setAlone 4 _).getD _ = _
  rw [clearAlone_getD_mask (by omega)]
  rfl

/-- The data-ready step, which may or may not write, keeps the overflow interrupt off. -/
theorem settle_intEnable (v : U8) :
    ([disableFifoOverflow, enableDataReady].foldl Update.settle v).getLsbD 4 = false := by
  show ((setAlone 0 _).getD ((clearAlone 4 v).getD v)).getLsbD 4 = false
  have hclear := clearAlone_clears (show 4 < 8 by omega) v
  rw [setAlone_eq (by omega)]
  split
  · exact hclear
  · rw [Option.getD_some, getLsbD_narrow, getLsbD_bit]
    rfl

/-- **The range fields end as 3 or as 2, by the bit that was there before.** -/
theorem deviceInit_rangeSel (nofifo noirq : Int) (chip : Chip) :
    rangeSel ((deviceInit nofifo noirq noFaults chip).2.file raGyroConfig)
        = (if (chip.file raGyroConfig).getLsbD 3 then 3 else 2) ∧
      rangeSel ((deviceInit nofifo noirq noFaults chip).2.file raAccelConfig)
        = (if (chip.file raAccelConfig).getLsbD 3 then 3 else 2) := by
  rw [deviceInit_at, deviceInit_at, stepsAt_common nofifo noirq rfl rfl,
    stepsAt_common nofifo noirq rfl rfl]
  exact ⟨settle_range _, settle_range _⟩

/-- The power management register: awake, clocked by the gyroscope, and with the
thermometer on only if it was or if the chip was asleep. -/
theorem deviceInit_pwrMgmt1 (nofifo noirq : Int) (chip : Chip) :
    let reg := (deviceInit nofifo noirq noFaults chip).2.file raPwrMgmt1
    reg.getLsbD 6 = false ∧ reg.extractLsb 2 0 = 1 ∧
      (reg.getLsbD 3 = false ↔
        (chip.file raPwrMgmt1).getLsbD 6 = true ∨ (chip.file raPwrMgmt1).getLsbD 3 = false) := by
  intro reg
  have hreg : reg = [disableSleepMode, setClocksource, enableThermometer].foldl Update.settle
      (chip.file raPwrMgmt1) := by
    rw [← stepsAt_pwrMgmt1 nofifo noirq]
    exact deviceInit_at nofifo noirq chip raPwrMgmt1
  rw [hreg]
  exact settle_pwrMgmt1 _

theorem deviceInit_config (nofifo noirq : Int) (chip : Chip) :
    ((deviceInit nofifo noirq noFaults chip).2.file raConfig).extractLsb 2 0 = 0 := by
  rw [deviceInit_at, stepsAt_common nofifo noirq rfl rfl]
  exact settle_config _

theorem deviceInit_smplrtDiv (nofifo noirq : Int) (chip : Chip) :
    (deviceInit nofifo noirq noFaults chip).2.file raSmplrtDiv = 0 := by
  rw [deviceInit_at, stepsAt_common nofifo noirq rfl rfl]
  exact settle_smplrtDiv _

/-- The registers set up under `nofifo == 0`. -/
theorem deviceInit_fifo (noirq : Int) (chip : Chip) :
    let file := (deviceInit 0 noirq noFaults chip).2.file
    (file raFifoEn).extractLsb 7 3 = 0b11111 ∧ (file raIntEnable).getLsbD 4 = false ∧
      (file raUserCtrl).getLsbD 6 = true := by
  intro file
  refine ⟨?_, ?_, ?_⟩
  · show ((deviceInit 0 noirq noFaults chip).2.file raFifoEn).extractLsb 7 3 = _
    rw [deviceInit_at, stepsAt_eq, if_pos rfl]
    split <;> exact settle_fifoEn _
  · show ((deviceInit 0 noirq noFaults chip).2.file raIntEnable).getLsbD 4 = _
    rw [deviceInit_at, stepsAt_eq, if_pos rfl]
    -- with interrupts the register is written once more, by the data-ready step
    split
    · exact settle_intEnable _
    · exact clearAlone_clears (by omega) _
  · show ((deviceInit 0 noirq noFaults chip).2.file raUserCtrl).getLsbD 6 = _
    rw [deviceInit_at, stepsAt_eq, if_pos rfl]
    split <;> exact setBit_sets (by omega) _

/-- The registers set up under `noirq == 0`. -/
theorem deviceInit_irq (nofifo : Int) (chip : Chip) :
    let file := (deviceInit nofifo 0 noFaults chip).2.file
    file raIntPinCfg = 0x10 ∧ (file raI2cMstCtrl).getLsbD 6 = false ∧
      (file raIntEnable).getLsbD 0 = true := by
  intro file
  refine ⟨?_, ?_, ?_⟩
  · show (deviceInit nofifo 0 noFaults chip).2.file raIntPinCfg = _
    rw [deviceInit_at, stepsAt_eq, if_pos (rfl : (0 : Int) = 0)]
    split <;> exact settle_intPinCfg _
  · show ((deviceInit nofifo 0 noFaults chip).2.file raI2cMstCtrl).getLsbD 6 = _
    rw [deviceInit_at, stepsAt_eq, if_pos (rfl : (0 : Int) = 0)]
    split <;> exact clearAlone_clears (by omega) _
  · show ((deviceInit nofifo 0 noFaults chip).2.file raIntEnable).getLsbD 0 = _
    rw [deviceInit_at, stepsAt_eq, if_pos (rfl : (0 : Int) = 0)]
    split <;> exact setAlone_sets (by omega) _

/-! ### The configuration -/

/-- A range field ends as 3 exactly if its lower bit was set. -/
theorem ite_range_eq (b : Bool) : (if b then (3 : BitVec 2) else 2) = 3 ↔ b = true := by
  cases b <;> decide

/--
**The intended configuration is reached exactly from here:** the chip is asleep or its
thermometer is on, and the lower bits of both range fields are set.
-/
theorem deviceInit_configured_iff (nofifo noirq : Int) (chip : Chip) :
    ((deviceInit nofifo noirq noFaults chip).1 = 0 ∧
      Configured nofifo noirq (deviceInit nofifo noirq noFaults chip).2.file)
    ↔ ((chip.file raPwrMgmt1).getLsbD 6 = true ∨ (chip.file raPwrMgmt1).getLsbD 3 = false) ∧
      (chip.file raGyroConfig).getLsbD 3 = true ∧ (chip.file raAccelConfig).getLsbD 3 = true := by
  obtain ⟨hgyro, haccel⟩ := deviceInit_rangeSel nofifo noirq chip
  obtain ⟨hsleep, hclksel, htemp⟩ := deviceInit_pwrMgmt1 nofifo noirq chip
  constructor
  · rintro ⟨-, hconf⟩
    refine ⟨htemp.mp hconf.tempDis, ?_, ?_⟩
    · exact (ite_range_eq _).mp (hgyro.symm.trans hconf.fsSel)
    · exact (ite_range_eq _).mp (haccel.symm.trans hconf.afsSel)
  · rintro ⟨hpwr, hg, ha⟩
    refine ⟨(deviceInit_noFaults nofifo noirq chip).1, ?_⟩
    have hpins : noirq = 0 →
        (deviceInit nofifo noirq noFaults chip).2.file raIntPinCfg = 0x10 := by
      rintro rfl
      exact (deviceInit_irq nofifo chip).1
    exact
      { sleep := hsleep
        clksel := hclksel
        dlpfCfg := deviceInit_config nofifo noirq chip
        smplrtDiv := deviceInit_smplrtDiv nofifo noirq chip
        tempDis := htemp.mpr hpwr
        fsSel := hgyro.trans ((ite_range_eq _).mpr hg)
        afsSel := haccel.trans ((ite_range_eq _).mpr ha)
        fifoEn := by rintro rfl; exact (deviceInit_fifo noirq chip).1
        fifoOflow := by rintro rfl; exact (deviceInit_fifo noirq chip).2.1
        userFifoEn := by rintro rfl; exact (deviceInit_fifo noirq chip).2.2
        intLevel := fun h => by rw [hpins h]; rfl
        intOpen := fun h => by rw [hpins h]; rfl
        latchIntEn := fun h => by rw [hpins h]; rfl
        intRdClear := fun h => by rw [hpins h]; rfl
        waitForEs := by rintro rfl; exact (deviceInit_irq nofifo chip).2.1
        dataRdy := by rintro rfl; exact (deviceInit_irq nofifo chip).2.2 }

/-- The registers after power-on: asleep, everything else clear. -/
def powerOn : Chip := { file := fun a => if a = raPwrMgmt1 then 0x40 else 0, log := [] }

/-- From power-on the ranges programmed are +-1000 °/s and +-8 g. -/
theorem powerOn_not_configured :
    ¬((deviceInit 1 1 noFaults powerOn).1 = 0 ∧
      Configured 1 1 (deviceInit 1 1 noFaults powerOn).2.file) := by
  rintro ⟨-, hconf⟩
  have hgyro := (deviceInit_rangeSel 1 1 powerOn).1
  rw [hconf.fsSel] at hgyro
  revert hgyro
  decide

end Mpu6050
