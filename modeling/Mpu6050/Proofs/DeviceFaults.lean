/-
Programming the chip when the bus fails.

`i2c_mpu6050_device_init` and `i2c_mpu6050_device_low_power_mode` check every write and no
read.  A read that fails is narrowed to a `u8`, taken for the contents of the register, and
written back if the step finds something to change, so an error is reported only if the
first transfer to fail is a write.  In low power mode it must be a later write than the
reset's, since `i2c_mpu6050_device_reset` returns nothing.

Retrying is sound.  Each step finds nothing to do after itself, and none of the steps that
share a register undoes an earlier one, so carrying all of them out after any prefix of
them comes to the same as carrying them out once.
-/
import Mpu6050.Lib.Faults
import Mpu6050.Proofs.DeviceInit

namespace Mpu6050

open Registers

/-! ### What is reported -/

/-- What a function of the driver returns for the outcome of its transfers. -/
def errnoValue : Option Errno → Int
  | none => 0
  | some e => e.val

theorem errnoValue_eq_zero {outcome : Option Errno} : errnoValue outcome = 0 ↔ outcome = none := by
  cases outcome with
  | none => exact iff_of_true rfl rfl
  | some e =>
      refine iff_of_false (fun h => ?_) nofun
      have hneg := e.property.2
      have hzero : e.val = 0 := h
      omega

theorem errnoValue_eq_error {outcome : Option Errno} {e : Errno} :
    errnoValue outcome = e.val ↔ outcome = some e := by
  cases outcome with
  | none =>
      refine iff_of_false (fun h => ?_) nofun
      have hneg := e.property.2
      have hzero : (0 : Int) = e.val := h
      omega
  | some e' => exact ⟨fun h => congrArg some (Subtype.ext h), fun h => congrArg errnoValue h⟩

/--
A function that programs the chip has swallowed no error: it returned 0 only if every
transfer it made succeeded, it stopped at a transfer that failed and returned its error,
and it wrote no register after a read of it that failed.
-/
structure ErrorsReported (chip : Chip) (result : Int × Chip) : Prop where
  success : result.1 = 0 → ∀ t ∈ made chip result.2, t.error = none
  stops : ∀ before t after e, made chip result.2 = before ++ t :: after → t.error = some e →
    after = [] ∧ result.1 = e.val
  unused : ∀ before after a e b v outcome,
    made chip result.2 ≠ before ++ .read a (.error e) :: .write b v outcome :: after

theorem errorsReported_iff (chip : Chip) (outcome : Option Errno) (chip' : Chip) :
    ErrorsReported chip (errnoValue outcome, chip') ↔ Reported outcome (made chip chip') := by
  constructor
  · intro h
    refine ⟨fun hnone => h.success (errnoValue_eq_zero.mpr hnone), ?_, h.unused⟩
    intro before t after e heq herr
    obtain ⟨hlast, hvalue⟩ := h.stops before t after e heq herr
    exact ⟨hlast, errnoValue_eq_error.mp hvalue⟩
  · intro h
    refine ⟨fun hzero => h.success (errnoValue_eq_zero.mp hzero), ?_, h.unused⟩
    intro before t after e heq herr
    obtain ⟨hlast, houtcome⟩ := h.stops before t after e heq herr
    exact ⟨hlast, errnoValue_eq_error.mpr houtcome⟩

theorem readByteData_ok (v : U8) : readByteData (.ok v) = v := rfl

theorem deviceInit_eq (nofifo noirq : Int) (faults : Faults Errno) (chip : Chip) :
    deviceInit nofifo noirq faults chip
      = (errnoValue (runAll faults readByteData (initSteps nofifo noirq) chip).1,
        (runAll faults readByteData (initSteps nofifo noirq) chip).2) := by
  unfold deviceInit
  rcases runAll faults readByteData (initSteps nofifo noirq) chip with ⟨_ | e, chip'⟩ <;> rfl

/-- Initialisation reports its errors exactly when no read is the first transfer to fail. -/
theorem deviceInit_errorsReported (nofifo noirq : Int) (faults : Faults Errno) (chip : Chip) :
    ErrorsReported chip (deviceInit nofifo noirq faults chip)
      ↔ NoReadFailsFirst faults chip.log.length (plan (initSteps nofifo noirq) chip.file) := by
  rw [deviceInit_eq, errorsReported_iff]
  exact reported_iff readByteData_ok faults (initSteps nofifo noirq) chip

/-! ### Low power mode -/

theorem deviceLowPowerMode_eq (onReset : RegisterFile → RegisterFile) (nofifo : Int)
    (faults : Faults Errno) (chip : Chip) :
    deviceLowPowerMode onReset nofifo faults chip
      = (errnoValue (runAll faults readByteData lowPowerSteps
          (deviceReset onReset nofifo 0 1 faults chip)).1,
        (runAll faults readByteData lowPowerSteps
          (deviceReset onReset nofifo 0 1 faults chip)).2) := by
  unfold deviceLowPowerMode
  rcases runAll faults readByteData lowPowerSteps (deviceReset onReset nofifo 0 1 faults chip)
    with ⟨_ | e, chip'⟩ <;> rfl

/-- The transfers low power mode makes as long as none fails: the reset's three, then its own. -/
def lowPowerPlan (onReset : RegisterFile → RegisterFile) (file : RegisterFile) : List Direction :=
  .read :: .write :: .read :: plan lowPowerSteps (onReset (resetDevice.apply file))

section Reset

variable (onReset : RegisterFile → RegisterFile) (nofifo : Int) {faults : Faults Errno}
  {chip : Chip}

/-- The chip once the reset bit is written. -/
def resetChip (onReset : RegisterFile → RegisterFile) (chip : Chip) : Chip :=
  { file := onReset (resetDevice.apply chip.file)
    log := chip.log ++ [.read raPwrMgmt1 (.ok (chip.file raPwrMgmt1)),
      .write raPwrMgmt1 (resetDevice.settle (chip.file raPwrMgmt1)) none] }

/-- The first two transfers of a reset. -/
theorem resetDevice_run (hread : faults chip.log.length = none) :
    resetDevice.run faults readByteData chip
      = (chip.readBack raPwrMgmt1).write faults raPwrMgmt1
        (resetDevice.settle (chip.file raPwrMgmt1)) :=
  resetDevice.run_change readByteData_ok hread rfl

theorem readBack_length : (chip.readBack raPwrMgmt1).log.length = chip.log.length + 1 := by
  simp [Bus.readBack]

/-- A reset whose read fails writes something nevertheless. -/
theorem deviceReset_read_error {e : Errno} (hread : faults chip.log.length = some e) :
    ∃ ts, (deviceReset onReset nofifo 0 1 faults chip).log
      = chip.log ++ .read raPwrMgmt1 (.error e) :: ts := by
  obtain ⟨ts, hts⟩ := resetDevice.run_log faults readByteData chip
  rw [show resetDevice.addr = raPwrMgmt1 from rfl, Bus.read_error _ hread] at hts
  unfold deviceReset writeReset
  rw [if_pos rfl]
  rcases hrun : resetDevice.run faults readByteData chip with ⟨_ | e', chip'⟩
  · rw [hrun] at hts
    simp only
    rw [if_pos (by decide)]
    obtain ⟨rest, hrest⟩ : ∃ rest, (Bus.read faults
        { chip' with file := onReset chip'.file } raPwrMgmt1).2.log = chip'.log ++ rest := ⟨_, rfl⟩
    refine ⟨ts ++ rest, ?_⟩
    rw [hrest, ← List.cons_append, ← List.append_assoc]
    exact congrArg (· ++ rest) hts
  · rw [hrun] at hts
    exact ⟨ts, hts⟩

/-- A reset whose write fails gives up, and returns nothing. -/
theorem deviceReset_write_error {e : Errno} (hread : faults chip.log.length = none)
    (hwrite : faults (chip.log.length + 1) = some e) :
    (deviceReset onReset nofifo 0 1 faults chip).log
      = chip.log ++ [.read raPwrMgmt1 (.ok (chip.file raPwrMgmt1)),
        .write raPwrMgmt1 (resetDevice.settle (chip.file raPwrMgmt1)) (some e)] := by
  unfold deviceReset writeReset
  rw [if_pos rfl, resetDevice_run hread,
    Bus.write_error _ _ (by rw [readBack_length]; exact hwrite)]
  exact List.append_assoc ..

/-- A reset whose write succeeds reads the register once more. -/
theorem deviceReset_written (hread : faults chip.log.length = none)
    (hwrite : faults (chip.log.length + 1) = none) :
    deviceReset onReset nofifo 0 1 faults chip
      = ((resetChip onReset chip).read faults raPwrMgmt1).2 := by
  have hchip : resetChip onReset chip
      = { (chip.readBack raPwrMgmt1).written raPwrMgmt1
            (resetDevice.settle (chip.file raPwrMgmt1)) with
          file := onReset (resetDevice.apply chip.file) } := by
    unfold resetChip Bus.written Bus.readBack
    rw [List.append_assoc]
    rfl
  unfold deviceReset writeReset
  rw [if_pos rfl, resetDevice_run hread, Bus.write_ok _ _ (by rw [readBack_length]; exact hwrite),
    hchip]
  rfl

/-- What low power mode does after the reset comes on top of what the reset has done. -/
theorem lowPower_made {ts : List (Transfer U8 U8 Errno)}
    (hlog : (deviceReset onReset nofifo 0 1 faults chip).log = chip.log ++ ts) :
    ∃ rest, rest ≠ [] ∧ rest = made (deviceReset onReset nofifo 0 1 faults chip)
        (deviceLowPowerMode onReset nofifo faults chip).2 ∧
      made chip (deviceLowPowerMode onReset nofifo faults chip).2 = ts ++ rest := by
  rw [deviceLowPowerMode_eq]
  refine ⟨_, ?_, rfl, made_runAll_append hlog⟩
  obtain ⟨rest, hrest⟩ := runAll_log_cons faults readByteData configureCycleMode
    lowPowerSteps.tail (deviceReset onReset nofifo 0 1 faults chip)
  rw [show configureCycleMode :: lowPowerSteps.tail = lowPowerSteps from rfl] at hrest
  simp only [made_eq hrest]
  exact List.cons_ne_nil _ _

/-- A transfer of the reset that fails is never the last one. -/
theorem not_errorsReported_of_reset (before : List (Transfer U8 U8 Errno))
    {after : List (Transfer U8 U8 Errno)} {t : Transfer U8 U8 Errno} {e : Errno}
    (ht : t.error = some e)
    (hlog : (deviceReset onReset nofifo 0 1 faults chip).log
      = chip.log ++ (before ++ t :: after)) :
    ¬ErrorsReported chip (deviceLowPowerMode onReset nofifo faults chip) := by
  obtain ⟨rest, hne, -, heq⟩ := lowPower_made onReset nofifo hlog
  rw [deviceLowPowerMode_eq] at heq ⊢
  rw [errorsReported_iff, heq, List.append_assoc, List.cons_append]
  exact not_reported_of_more before ht (by simp [hne])

/-- After a reset that succeeds, low power mode reports the errors of its own steps. -/
theorem errorsReported_of_reset {before : List (Transfer U8 U8 Errno)}
    (hbefore : ∀ t ∈ before, t.error = none)
    (hlog : (deviceReset onReset nofifo 0 1 faults chip).log = chip.log ++ before) :
    ErrorsReported chip (deviceLowPowerMode onReset nofifo faults chip)
      ↔ NoReadFailsFirst faults (deviceReset onReset nofifo 0 1 faults chip).log.length
        (plan lowPowerSteps (deviceReset onReset nofifo 0 1 faults chip).file) := by
  obtain ⟨rest, -, hrest, heq⟩ := lowPower_made onReset nofifo hlog
  rw [deviceLowPowerMode_eq] at heq hrest ⊢
  rw [errorsReported_iff, heq, reported_append hbefore, hrest]
  exact reported_iff readByteData_ok faults lowPowerSteps _

/-- Low power mode reports its errors exactly when no read is the first transfer to fail, and
the reset's write is not either. -/
theorem deviceLowPowerMode_errorsReported :
    ErrorsReported chip (deviceLowPowerMode onReset nofifo faults chip)
      ↔ NoReadFailsFirst faults chip.log.length (lowPowerPlan onReset chip.file) ∧
        (faults chip.log.length = none → faults (chip.log.length + 1) = none) := by
  unfold lowPowerPlan
  rw [noReadFailsFirst_read, noReadFailsFirst_write, noReadFailsFirst_read]
  cases hread : faults chip.log.length with
  | some e =>
      obtain ⟨ts, hts⟩ := deviceReset_read_error onReset nofifo hread
      exact iff_of_false (not_errorsReported_of_reset onReset nofifo [] rfl hts)
        (fun h => nomatch h.1.1)
  | none =>
      cases hwrite : faults (chip.log.length + 1) with
      | some e =>
          have hlog := deviceReset_write_error onReset nofifo hread hwrite
          exact iff_of_false (not_errorsReported_of_reset onReset nofifo [_] rfl hlog)
            (fun h => nomatch h.2 rfl)
      | none =>
          have hreset := deviceReset_written onReset nofifo hread hwrite
          have hlength : (resetChip onReset chip).log.length = chip.log.length + 2 := by
            simp [resetChip]
          have hlog := (congrArg Bus.log hreset).trans ((Bus.read_log _ _ _).trans
            (List.append_assoc ..))
          cases hlast : faults (chip.log.length + 2) with
          | some e =>
              rw [← hlength] at hlast
              rw [Bus.read_error _ hlast] at hlog
              exact iff_of_false (not_errorsReported_of_reset onReset nofifo [_, _] rfl hlog)
                (fun h => nomatch (h.1.2 rfl).1)
          | none =>
              rw [← hlength] at hlast
              rw [Bus.read_ok _ hlast] at hlog hreset
              rw [errorsReported_of_reset onReset nofifo (by simp [Transfer.error]) hlog, hreset]
              have hthree : ((resetChip onReset chip).readBack raPwrMgmt1).log.length
                  = chip.log.length + 1 + 1 + 1 := by
                simp [Bus.readBack, hlength]
              rw [hthree]
              exact ⟨fun h => ⟨⟨rfl, fun _ => ⟨rfl, h⟩⟩, fun _ => rfl⟩, fun h => (h.1.2 rfl).2⟩

end Reset

/--
**Initialisation reports its errors exactly when the first transfer to fail is not a read,
and low power mode when in addition it is not the reset's write.**
-/
theorem device_errorsReported_iff (onReset : RegisterFile → RegisterFile) (nofifo noirq : Int)
    (faults : Faults Errno) (chip : Chip) :
    (ErrorsReported chip (deviceInit nofifo noirq faults chip)
        ↔ NoReadFailsFirst faults chip.log.length (plan (initSteps nofifo noirq) chip.file)) ∧
      (ErrorsReported chip (deviceLowPowerMode onReset nofifo faults chip)
        ↔ NoReadFailsFirst faults chip.log.length (lowPowerPlan onReset chip.file) ∧
          (faults chip.log.length = none → faults (chip.log.length + 1) = none)) :=
  ⟨deviceInit_errorsReported nofifo noirq faults chip,
    deviceLowPowerMode_errorsReported onReset nofifo⟩

/-- The schedule in which one transfer fails. -/
def failsAt (k : Nat) (e : Errno) : Faults Errno := fun n => if n = k then some e else none

/-- A chip whose first read fails is programmed all the same, and a failed reset is passed over. -/
theorem powerOn_errors_swallowed :
    ¬ErrorsReported powerOn (deviceInit 0 0 (failsAt 0 eio) powerOn) ∧
      ¬ErrorsReported powerOn (deviceLowPowerMode id 0 (failsAt 1 eio) powerOn) := by
  constructor
  · rw [deviceInit_errorsReported]
    intro h
    cases (noReadFailsFirst_read.mp h).1
  · rw [deviceLowPowerMode_errorsReported]
    intro h
    cases h.2 rfl

/-! ### Retrying -/

/-- A step that sets bits, if it writes at all, has nothing to do a second time. -/
theorem settle_or_idempotent {u : Update U8 U8} {mask : BitVec 32}
    (h : ∀ v, u.change v = none ∨ u.change v = some (narrow (promote v ||| mask))) (v : U8) :
    u.settle (u.settle v) = u.settle v := by
  have hset : ∀ v, u.settle v = v ∨ u.settle v = narrow (promote v ||| mask) := by
    intro v
    unfold Update.settle
    rcases h v with hv | hv
    · rw [hv]
      exact Or.inl rfl
    · rw [hv]
      exact Or.inr rfl
  have htwice : narrow (promote (narrow (promote v ||| mask)) ||| mask)
      = narrow (promote v ||| mask) := by
    apply BitVec.eq_of_getLsbD_eq
    intro i hi
    simp only [getLsbD_narrow, BitVec.getLsbD_or, getLsbD_promote, hi, decide_true, Bool.true_and,
      Bool.or_assoc, Bool.or_self]
  rcases hset v with hv | hv
  · rw [hv, hv]
  · rw [hv]
    rcases hset (narrow (promote v ||| mask)) with hw | hw
    · exact hw
    · rw [hw, htwice]

theorem clearAlone_settled_iff {n : Nat} (hn : n < 8) (a v : U8) :
    (Update.mk a (clearAlone n)).settle v = v ↔ v.getLsbD n = false := by
  show (clearAlone n v).getD v = v ↔ _
  rw [clearAlone_eq hn]
  by_cases h : v.getLsbD n = true
  · rw [if_pos h, Option.getD_some]
    refine iff_of_false (fun hzero => ?_) (by simp [h])
    rw [← hzero] at h
    simp at h
  · rw [if_neg h]
    exact iff_of_true rfl (by simpa using h)

theorem clearAlone_idempotent {n : Nat} (hn : n < 8) (a v : U8) :
    (Update.mk a (clearAlone n)).settle ((Update.mk a (clearAlone n)).settle v)
      = (Update.mk a (clearAlone n)).settle v :=
  (clearAlone_settled_iff hn a _).mpr (clearAlone_clears hn v)

theorem setAlone_idempotent {n : Nat} (hn : n < 8) (a v : U8) :
    (Update.mk a (setAlone n)).settle ((Update.mk a (setAlone n)).settle v)
      = (Update.mk a (setAlone n)).settle v := by
  show (setAlone n ((setAlone n v).getD v)).getD ((setAlone n v).getD v) = (setAlone n v).getD v
  rw [setAlone_eq hn ((setAlone n v).getD v), if_pos (setAlone_sets hn v)]
  rfl

theorem setLowField_idempotent {length : Nat} {setting : BitVec 32}
    (hsetting : ∀ i, length ≤ i → setting.getLsbD i = false) (a v : U8) :
    (Update.mk a (setLowField length setting)).settle
        ((Update.mk a (setLowField length setting)).settle v)
      = (Update.mk a (setLowField length setting)).settle v := by
  apply BitVec.eq_of_getLsbD_eq
  intro i hi
  have hfield := fun v => setLowField_getLsbD hsetting v hi
  show ((setLowField length setting ((setLowField length setting v).getD v)).getD
      ((setLowField length setting v).getD v)).getLsbD i
    = ((setLowField length setting v).getD v).getLsbD i
  rw [hfield ((setLowField length setting v).getD v), hfield v]
  split
  · rfl
  · rfl

theorem enableThermometer_settle (v : U8) : enableThermometer.settle v = v := by
  unfold Update.settle
  rw [enableThermometer_change, Option.getD_none]

theorem clksel_setting (i : Nat) (hi : 3 ≤ i) : (0x01#32).getLsbD i = false := by
  rw [BitVec.getLsbD_one]
  simp
  omega

theorem allSteps_idempotent : ∀ u ∈ allSteps, ∀ v, u.settle (u.settle v) = u.settle v := by
  simp only [allSteps, commonSteps, fifoSteps, irqSteps, List.cons_append, List.nil_append,
    List.forall_mem_cons]
  refine ⟨clearAlone_idempotent (by omega) _, setLowField_idempotent clksel_setting _,
    setLowField_idempotent (fun _ _ => BitVec.getLsbD_zero) _, ?_, ?_,
    settle_or_idempotent (setRange_change 4 2 _), settle_or_idempotent (setRange_change 4 2 _),
    settle_or_idempotent configureFifo_change, clearAlone_idempotent (by omega) _,
    settle_or_idempotent (setBit_change (by omega)), ?_, clearAlone_idempotent (by omega) _,
    setAlone_idempotent (by omega) _, nofun⟩
  · intro v
    rw [settle_smplrtDiv, settle_smplrtDiv]
  · intro v
    rw [enableThermometer_settle, enableThermometer_settle]
  · intro v
    rw [settle_intPinCfg, settle_intPinCfg]

/-- A bit that was clear stays clear under a step that leaves it so. -/
theorem clearAlone_keep {n : Nat} (hn : n < 8) (a : U8) {w : Update U8 U8}
    (hw : ∀ v, v.getLsbD n = false → (w.settle v).getLsbD n = false) (v : U8)
    (hv : (Update.mk a (clearAlone n)).settle v = v) :
    (Update.mk a (clearAlone n)).settle (w.settle v) = w.settle v :=
  (clearAlone_settled_iff hn a _).mpr (hw v ((clearAlone_settled_iff hn a v).mp hv))

theorem setClocksource_sleep (v : U8) (hv : v.getLsbD 6 = false) :
    (setClocksource.settle v).getLsbD 6 = false :=
  (setLowField_getLsbD clksel_setting v (show 6 < 8 by omega)).trans hv

theorem enableDataReady_overflow (v : U8) (hv : v.getLsbD 4 = false) :
    (enableDataReady.settle v).getLsbD 4 = false := by
  show ((setAlone 0 v).getD v).getLsbD 4 = false
  rw [setAlone_eq (by omega)]
  split
  · exact hv
  · rw [Option.getD_some, getLsbD_narrow, getLsbD_bit]
    rfl

/-- The steps of a register do not undo one another. -/
theorem allSteps_keep : allSteps.Pairwise fun u w => u.addr = w.addr →
    ∀ v, u.settle v = v → u.settle (w.settle v) = w.settle v := by
  have hclock := clearAlone_keep (show 6 < 8 by omega) raPwrMgmt1 setClocksource_sleep
  have hready := clearAlone_keep (show 4 < 8 by omega) raIntEnable enableDataReady_overflow
  have htherm : ∀ u : Update U8 U8, ∀ v, u.settle v = v →
      u.settle (enableThermometer.settle v) = enableThermometer.settle v := by
    intro u v hv
    rw [enableThermometer_settle, hv]
  -- two registers are touched by more than one step
  simp [allSteps, commonSteps, fifoSteps, irqSteps, disableSleepMode, setClocksource,
    setLowPassFilter, setSampleRateDivider, enableThermometer, setGyroscopeRange,
    setAccelerometerRange, configureFifo, disableFifoOverflow, enableFifo, configureInterrupt,
    disableWaitForEs, enableDataReady]
  exact ⟨⟨hclock, htherm disableSleepMode⟩, htherm setClocksource, hready⟩

/-- Whatever the parameters are, the steps of initialisation can be retried. -/
theorem initSteps_retryable (nofifo noirq : Int) : Retryable (initSteps nofifo noirq) :=
  Retryable.sublist ⟨allSteps_idempotent, allSteps_keep⟩ (initSteps_sublist nofifo noirq)

/--
**Initialisation can be retried.**  After a run whose reads succeeded, whichever write it
stopped at, a run without faults leaves the registers one such run would have left; and a
second run without faults changes nothing.
-/
theorem deviceInit_retry (nofifo noirq : Int) (faults : Faults Errno) (chip : Chip)
    (hreads : ∀ t ∈ made chip (deviceInit nofifo noirq faults chip).2, ¬t.IsFailedRead) :
    (deviceInit nofifo noirq noFaults (deviceInit nofifo noirq faults chip).2).2.file
        = (deviceInit nofifo noirq noFaults chip).2.file ∧
      (deviceInit nofifo noirq noFaults (deviceInit nofifo noirq noFaults chip).2).2.file
        = (deviceInit nofifo noirq noFaults chip).2.file := by
  have hretry := initSteps_retryable nofifo noirq
  constructor
  · rw [deviceInit_eq nofifo noirq faults] at hreads ⊢
    obtain ⟨p, hp, hfile⟩ := runAll_prefix readByteData_ok faults _ chip hreads
    rw [(deviceInit_noFaults ..).2, (deviceInit_noFaults ..).2, hfile, applyAll_retry hretry hp]
  · rw [(deviceInit_noFaults ..).2, (deviceInit_noFaults ..).2,
      applyAll_retry hretry (List.prefix_refl _)]

/-- From power-on, stopped at the very first write. -/
theorem deviceInit_retry_powerOn :
    (deviceInit 0 0 (failsAt 1 eio) powerOn).1 = -5 ∧
      (deviceInit 0 0 noFaults (deviceInit 0 0 (failsAt 1 eio) powerOn).2).2.file
        = (deviceInit 0 0 noFaults powerOn).2.file := by
  refine ⟨rfl, (deviceInit_retry 0 0 (failsAt 1 eio) powerOn ?_).1⟩
  intro t ht
  rw [show made powerOn (deviceInit 0 0 (failsAt 1 eio) powerOn).2
    = [.read raPwrMgmt1 (.ok 0x40), .write raPwrMgmt1 0 (some eio)] from rfl] at ht
  rcases List.mem_cons.mp ht with rfl | ht
  · exact id
  · rw [List.mem_singleton.mp ht]
    exact id

end Mpu6050
