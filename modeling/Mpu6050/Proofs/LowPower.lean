/-
Low power mode, from whatever the reset leaves.

Five steps follow the reset, over two registers, and three of them miss.  The wake-up
frequency is only ever or-ed in, so `LP_WAKE_CTRL` stays what it was.  Whether a gyroscope
axis is in standby is asked of bit 0 each time, the shift binding tighter than the mask.
And the step that enables cycling writes back a register in which that one bit is all there
is, so the thermometer that was just disabled is on again; the step that should leave sleep
mode writes the bit it has found.

What is left is that the mode is entered exactly if the chip was in it, or as good as.
-/
import Mpu6050.Proofs.DeviceInit

namespace Mpu6050

open Registers

/-- The state that low power mode is. -/
structure LowPower (file : RegisterFile) : Prop where
  lpWakeCtrl : (file raPwrMgmt2).extractLsb 7 6 = 0
  tempDis : (file raPwrMgmt1).getLsbD 3 = true
  stbyXg : (file raPwrMgmt2).getLsbD 2 = true
  stbyYg : (file raPwrMgmt2).getLsbD 1 = true
  stbyZg : (file raPwrMgmt2).getLsbD 0 = true
  cycle : (file raPwrMgmt1).getLsbD 5 = true
  sleep : (file raPwrMgmt1).getLsbD 6 = false

/-- Registers from which the steps get there: in `PWR_MGMT_1` nothing is left to do, and in
`PWR_MGMT_2` nothing but the gyroscope, if the z axis is on or the other two are not. -/
structure LowPowerReady (file : RegisterFile) : Prop where
  cycling : (file raPwrMgmt1).getLsbD 3 = true ∧ (file raPwrMgmt1).getLsbD 5 = true ∧
    (file raPwrMgmt1).getLsbD 6 = false
  lpWakeCtrl : (file raPwrMgmt2).extractLsb 7 6 = 0
  standby : (file raPwrMgmt2).getLsbD 0 = false ∨
    (file raPwrMgmt2).getLsbD 2 = true ∧ (file raPwrMgmt2).getLsbD 1 = true

/-! ### Low power mode as a function on register files -/

/-- **With every transfer succeeding, low power mode returns 0 and applies its steps to what
the chip presents after the reset.** -/
theorem deviceLowPowerMode_noFaults (onReset : RegisterFile → RegisterFile) (nofifo : Int)
    (chip : Chip) :
    (deviceLowPowerMode onReset nofifo noFaults chip).1 = 0 ∧
      (deviceLowPowerMode onReset nofifo noFaults chip).2.file
        = applyAll lowPowerSteps (onReset (resetDevice.apply chip.file)) := by
  have hreset : (deviceReset onReset nofifo 0 1 noFaults chip).file
      = onReset (resetDevice.apply chip.file) := rfl
  have hdecode : ∀ v, readByteData (.ok v) = v := fun _ => rfl
  obtain ⟨hnone, hfile⟩ := runAll_noFaults hdecode lowPowerSteps
    (deviceReset onReset nofifo 0 1 noFaults chip)
  unfold deviceLowPowerMode
  rw [show runAll noFaults readByteData lowPowerSteps _
    = (none, (runAll noFaults readByteData lowPowerSteps
      (deviceReset onReset nofifo 0 1 noFaults chip)).2) from Prod.ext hnone rfl]
  rw [hreset] at hfile
  exact ⟨rfl, hfile⟩

theorem lowPower_pwrMgmt1 (file : RegisterFile) :
    applyAll lowPowerSteps file raPwrMgmt1
      = leaveSleepMode.settle (enableCycleMode.settle
        (disableThermometer.settle (file raPwrMgmt1))) :=
  applyAll_at lowPowerSteps file raPwrMgmt1

theorem lowPower_pwrMgmt2 (file : RegisterFile) :
    applyAll lowPowerSteps file raPwrMgmt2
      = disableGyroscope.settle (configureCycleMode.settle (file raPwrMgmt2)) :=
  applyAll_at lowPowerSteps file raPwrMgmt2

/-! ### The steps on `PWR_MGMT_1` -/

theorem disableThermometer_change (v : U8) :
    disableThermometer.change v = none ∨
      disableThermometer.change v = some (narrow (promote v ||| bit 3)) := by
  unfold disableThermometer
  simp only
  split
  · exact Or.inr rfl
  · exact Or.inl rfl

/-- The thermometer is left alone if any bit above its own is set. -/
theorem disableThermometer_settle {v : U8} {n : Nat} (hn : 3 < n) (hlt : n < 8)
    (h : v.getLsbD n = true) : disableThermometer.settle v = v := by
  have hvalue : ¬(promote v &&& ~~~(bit 3)) >>> 3 = 0 := by
    intro hzero
    have hbit := congrArg (fun value : BitVec 32 => value.getLsbD (n - 3)) hzero
    rw [BitVec.getLsbD_ushiftRight, show 3 + (n - 3) = n by omega, BitVec.getLsbD_and,
      BitVec.getLsbD_not, getLsbD_promote, getLsbD_bit, h] at hbit
    simp [show n < 32 by omega, show n ≠ 3 by omega] at hbit
  unfold Update.settle
  rw [show disableThermometer.change v = none from if_neg hvalue, Option.getD_none]

theorem enableCycleMode_settle (v : U8) :
    enableCycleMode.settle v = if v.getLsbD 5 then v else narrow (bit 5) := by
  show (setAlone 5 v).getD v = _
  rw [setAlone_eq (by omega)]
  split <;> rfl

/-- The step that should clear the bit is passed over if it is clear, and keeps it if not. -/
theorem leaveSleepMode_settle (v : U8) :
    leaveSleepMode.settle v = if v.getLsbD 6 then narrow (bit 6) else v := by
  show (if promote (narrow (promote v &&& bit 6)) >>> 6 ≠ 0
    then some (narrow (promote (narrow (promote v &&& bit 6)) ||| bit 6)) else none).getD v = _
  rw [promote_narrow_and, mask_shift_eq (by omega), and_or_self]
  by_cases h : v.getLsbD 6 = true
  · rw [if_pos h, if_pos h]
    rfl
  · rw [if_neg h, if_neg h]
    rfl

/-- `PWR_MGMT_1` ends as it should exactly if it was so before. -/
theorem settle_cycling_iff (v : U8) :
    let w := leaveSleepMode.settle (enableCycleMode.settle (disableThermometer.settle v))
    w.getLsbD 3 = true ∧ w.getLsbD 5 = true ∧ w.getLsbD 6 = false
      ↔ v.getLsbD 3 = true ∧ v.getLsbD 5 = true ∧ v.getLsbD 6 = false := by
  intro w
  by_cases hcycle : v.getLsbD 5 = true
  · have hw : w = if v.getLsbD 6 then narrow (bit 6) else v := by
      rw [← leaveSleepMode_settle]
      show leaveSleepMode.settle _ = _
      rw [disableThermometer_settle (by omega) (by omega) hcycle, enableCycleMode_settle,
        if_pos hcycle]
    rw [hw]
    by_cases hsleep : v.getLsbD 6 = true
    · rw [if_pos hsleep]
      refine iff_of_false (by decide) fun h => ?_
      rw [h.2.2] at hsleep
      cases hsleep
    · rw [if_neg hsleep]
  · -- cycling is enabled, and everything else in the register is gone
    have hkeep : (disableThermometer.settle v).getLsbD 5 = v.getLsbD 5 :=
      settle_or_getLsbD disableThermometer_change v (by omega) (by decide)
    have hw : w = narrow (bit 5) := by
      show leaveSleepMode.settle (enableCycleMode.settle _) = _
      rw [enableCycleMode_settle, if_neg (by rw [hkeep]; exact hcycle)]
      decide
    rw [hw]
    exact iff_of_false (by decide) fun h => hcycle h.2.1

/-! ### The steps on `PWR_MGMT_2` -/

/-- The frequency that is meant is 0, and or-ing it in changes nothing. -/
theorem configureCycleMode_settle (v : U8) : configureCycleMode.settle v = v := by
  have hor : narrow (promote v ||| wakeFreq1p25 <<< (7 - 1)) = v := by
    apply BitVec.eq_of_getLsbD_eq
    intro i hi
    rw [getLsbD_narrow, BitVec.getLsbD_or, getLsbD_promote]
    simp [hi]
  show (if promote v >>> (7 - 1) ≠ wakeFreq1p25
    then some (narrow (promote v ||| wakeFreq1p25 <<< (7 - 1))) else none).getD v = v
  rw [hor]
  split <;> rfl

/-- The test for an axis looks at bit 0, whichever axis it is. -/
theorem setStandby_eq {n : Nat} (hn : n < 8) (reg : U8) :
    setStandby n reg = if reg.getLsbD 0 then reg else narrow (promote reg ||| bit n) := by
  have hone : (0x01#32 <<< n) >>> n = bit 0 := by
    apply BitVec.eq_of_getLsbD_eq
    intro i hi
    rw [BitVec.getLsbD_ushiftRight, getLsbD_bit]
    show (bit n).getLsbD (n + i) = _
    rw [getLsbD_bit]
    by_cases hzero : i = 0
    · simp [hzero, show n < 32 by omega]
    · simp [hzero]
  have hvalue := mask_shift_eq (show 0 < 32 by omega) reg
  rw [BitVec.ushiftRight_zero] at hvalue
  unfold setStandby
  simp only [hone, hvalue]
  by_cases h : reg.getLsbD 0 = true
  · rw [if_pos h, if_pos h]
    exact if_neg (by decide)
  · rw [if_neg h, if_neg h]
    exact if_pos rfl

theorem setStandby_getLsbD {n : Nat} (hn : n < 8) (reg : U8) {i : Nat} (hi : i < 8) :
    (setStandby n reg).getLsbD i
      = (reg.getLsbD i || (!reg.getLsbD 0 && decide (i = n))) := by
  rw [setStandby_eq hn]
  cases h : reg.getLsbD 0 with
  | true => rw [if_pos rfl, Bool.not_true, Bool.false_and, Bool.or_false]
  | false =>
      rw [if_neg (by decide), getLsbD_narrow, BitVec.getLsbD_or, getLsbD_promote, getLsbD_bit]
      simp [hi, show i < 32 by omega]

/-- The three tests see the same bit, so all axes are put in standby or none is. -/
theorem disableGyroscope_getLsbD (v : U8) {i : Nat} (hi : i < 8) :
    (disableGyroscope.settle v).getLsbD i
      = (v.getLsbD i || (!v.getLsbD 0 && decide (i < 3))) := by
  have hx : (setStandby 2 v).getLsbD 0 = v.getLsbD 0 := by
    rw [setStandby_getLsbD (by omega) _ (by omega)]
    simp
  have hy : (setStandby 1 (setStandby 2 v)).getLsbD 0 = v.getLsbD 0 := by
    rw [setStandby_getLsbD (by omega) _ (by omega), hx]
    simp
  show (setStandby 0 (setStandby 1 (setStandby 2 v))).getLsbD i = _
  rw [setStandby_getLsbD (by omega) _ hi, hy, setStandby_getLsbD (by omega) _ hi, hx,
    setStandby_getLsbD (by omega) _ hi]
  have hcases : decide (i < 3) = (decide (i = 2) || decide (i = 1) || decide (i = 0)) := by
    rw [← Bool.decide_or, ← Bool.decide_or]
    exact decide_eq_decide.mpr (by omega)
  rw [hcases]
  cases v.getLsbD 0 <;> simp [Bool.or_assoc]

theorem settle_standby_iff (v : U8) :
    let w := disableGyroscope.settle (configureCycleMode.settle v)
    w.getLsbD 2 = true ∧ w.getLsbD 1 = true ∧ w.getLsbD 0 = true
      ↔ v.getLsbD 0 = false ∨ v.getLsbD 2 = true ∧ v.getLsbD 1 = true := by
  intro w
  have hw : ∀ i < 8, w.getLsbD i = (v.getLsbD i || (!v.getLsbD 0 && decide (i < 3))) := by
    intro i hi
    show (disableGyroscope.settle (configureCycleMode.settle v)).getLsbD i = _
    rw [configureCycleMode_settle, disableGyroscope_getLsbD v hi]
  rw [hw 2 (by omega), hw 1 (by omega), hw 0 (by omega)]
  cases v.getLsbD 0 <;> simp

/-- The two bits of the wake-up frequency are outside what the gyroscope step sets. -/
theorem settle_lpWakeCtrl (v : U8) :
    (disableGyroscope.settle (configureCycleMode.settle v)).extractLsb 7 6
      = v.extractLsb 7 6 := by
  apply BitVec.eq_of_getLsbD_eq
  intro i hi
  have hlt : i < 2 := hi
  rw [configureCycleMode_settle, BitVec.getLsbD_extractLsb, BitVec.getLsbD_extractLsb,
    disableGyroscope_getLsbD v (by omega)]
  simp [show ¬6 + i < 3 by omega]

/-! ### The mode -/

/--
**Low power mode is entered exactly from here:** after the reset the chip cycles with its
thermometer off and does not sleep, the wake-up frequency is the one meant, and the z axis
is on or the other two axes are in standby.
-/
theorem deviceLowPowerMode_entered_iff (onReset : RegisterFile → RegisterFile) (nofifo : Int)
    (chip : Chip) :
    ((deviceLowPowerMode onReset nofifo noFaults chip).1 = 0 ∧
      LowPower (deviceLowPowerMode onReset nofifo noFaults chip).2.file)
    ↔ LowPowerReady (onReset (resetDevice.apply chip.file)) := by
  obtain ⟨hzero, hfile⟩ := deviceLowPowerMode_noFaults onReset nofifo chip
  generalize onReset (resetDevice.apply chip.file) = file at hfile
  have hcycling := settle_cycling_iff (file raPwrMgmt1)
  have hstandby := settle_standby_iff (file raPwrMgmt2)
  have hwake := settle_lpWakeCtrl (file raPwrMgmt2)
  rw [← lowPower_pwrMgmt1] at hcycling
  rw [← lowPower_pwrMgmt2] at hstandby hwake
  rw [hfile]
  constructor
  · rintro ⟨-, h⟩
    exact
      { cycling := hcycling.mp ⟨h.tempDis, h.cycle, h.sleep⟩
        lpWakeCtrl := hwake.symm.trans h.lpWakeCtrl
        standby := hstandby.mp ⟨h.stbyXg, h.stbyYg, h.stbyZg⟩ }
  · intro h
    obtain ⟨htemp, hcycle, hsleep⟩ := hcycling.mpr h.cycling
    obtain ⟨hx, hy, hz⟩ := hstandby.mpr h.standby
    exact ⟨hzero, hwake.trans h.lpWakeCtrl, htemp, hx, hy, hz, hcycle, hsleep⟩

/-- A reset that is carried out leaves the chip asleep, and low power mode leaves the
thermometer on. -/
theorem powerOn_not_lowPower :
    (deviceLowPowerMode (fun _ => powerOn.file) 0 noFaults powerOn).1 = 0 ∧
      ((deviceLowPowerMode (fun _ => powerOn.file) 0 noFaults powerOn).2.file
        raPwrMgmt1).getLsbD 3 = false ∧
      ¬LowPower (deviceLowPowerMode (fun _ => powerOn.file) 0 noFaults powerOn).2.file := by
  obtain ⟨hzero, hfile⟩ := deviceLowPowerMode_noFaults (fun _ => powerOn.file) 0 powerOn
  have htemp : ((deviceLowPowerMode (fun _ => powerOn.file) 0 noFaults powerOn).2.file
      raPwrMgmt1).getLsbD 3 = false := by
    rw [hfile, lowPower_pwrMgmt1]
    decide
  refine ⟨hzero, htemp, fun h => ?_⟩
  rw [h.tempDis] at htemp
  cases htemp

end Mpu6050
