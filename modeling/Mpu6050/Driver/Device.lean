/-
`olimex_mod_mpu6050_device.c`: the registers of the chip, and what initialisation, reset
and low power mode do to them.

Every step of `i2c_mpu6050_device_init` reads one register into a `u8`, computes in
`int`, and writes the register back or leaves it.  A step is therefore an
`Registers.Update`, and its `change` is the C arithmetic: `promote` to `int`, mask and
shift there, `narrow` back.  The result of a read is narrowed before anything looks at
it, so a negative error becomes a register value like any other.
-/
import Mpu6050.Driver.Types
import Mpu6050.Lib.Registers

namespace Mpu6050

open Registers

/-- The registers of the chip, by address. -/
abbrev RegisterFile := U8 → U8

abbrev raSmplrtDiv : U8 := 0x19
abbrev raConfig : U8 := 0x1A
abbrev raGyroConfig : U8 := 0x1B
abbrev raAccelConfig : U8 := 0x1C
abbrev raFifoEn : U8 := 0x23
abbrev raI2cMstCtrl : U8 := 0x24
abbrev raIntPinCfg : U8 := 0x37
abbrev raIntEnable : U8 := 0x38
abbrev raUserCtrl : U8 := 0x6A
abbrev raPwrMgmt1 : U8 := 0x6B
abbrev raPwrMgmt2 : U8 := 0x6C

/-- `KO_OLIMEX_MOD_MPU6050_DEVICE_GYRO_SENSITIVITY`: `MPU6050_GYRO_FS_2000` -/
abbrev deviceGyroSensitivity : BitVec 32 := 0x03

/-- `KO_OLIMEX_MOD_MPU6050_DEVICE_ACCEL_SENSITIVITY`: `MPU6050_ACCEL_FS_16` -/
abbrev deviceAccelSensitivity : BitVec 32 := 0x03

/-- A `u8` as an `int`. -/
def promote (reg : U8) : BitVec 32 := reg.setWidth 32

/-- An `int` stored to a `u8`. -/
def narrow (value : BitVec 32) : U8 := value.setWidth 8

/-- `(0x01 << n)`, an `int`. -/
def bit (n : Nat) : BitVec 32 := 0x01#32 <<< n

/-- `reg = i2c_smbus_read_byte_data (..)`: an error is narrowed like a byte. -/
def readByteData : Except Errno U8 → U8
  | .ok reg => reg
  | .error e => narrow (BitVec.ofInt 32 e.val)

/-! ### The shapes a step can have -/

/-- `value = ((reg &= (0x01 << n)) >> n); if (value) reg &= ~(0x01 << n);`
The assignment in the condition has already cleared every other bit. -/
def clearAlone (n : Nat) (reg : U8) : Option U8 :=
  let reg := narrow (promote reg &&& bit n)
  let value := promote reg >>> n
  if value ≠ 0 then some (narrow (promote reg &&& ~~~(bit n))) else none

/-- `value = ((reg &= (0x01 << n)) >> n); if (value == 0) reg |= (0x01 << n);` -/
def setAlone (n : Nat) (reg : U8) : Option U8 :=
  let reg := narrow (promote reg &&& bit n)
  let value := promote reg >>> n
  if value = 0 then some (narrow (promote reg ||| bit n)) else none

/-- `value = ((reg & (0x01 << n)) >> n); if (value == 0) reg |= (0x01 << n);` -/
def setBit (n : Nat) (reg : U8) : Option U8 :=
  let value := (promote reg &&& bit n) >>> n
  if value = 0 then some (narrow (promote reg ||| bit n)) else none

/-- `value = (reg & ~(0xFF << length)); if (value != setting) ..`, a field in the lowest bits. -/
def setLowField (length : Nat) (setting : BitVec 32) (reg : U8) : Option U8 :=
  let value := promote reg &&& ~~~(0xFF#32 <<< length)
  if value ≠ setting then
    let reg := narrow (promote reg &&& 0xFF#32 <<< length)
    some (narrow (promote reg ||| setting))
  else none

/-- `value = (reg >> (sel - 1)) & ~(0xFF << length); if (value != range) reg |= (range << sel);` -/
def setRange (sel length : Nat) (range : BitVec 32) (reg : U8) : Option U8 :=
  let value := promote reg >>> (sel - 1) &&& ~~~(0xFF#32 <<< length)
  if value ≠ range then some (narrow (promote reg ||| range <<< sel)) else none

/-! ### The steps of `i2c_mpu6050_device_init` -/

/-- step0: disable sleep mode -/
def disableSleepMode : Update U8 U8 := ⟨raPwrMgmt1, clearAlone 6⟩

/-- step1: set clocksource -/
def setClocksource : Update U8 U8 := ⟨raPwrMgmt1, setLowField 3 0x01⟩

/-- step2a: set dynamic low-pass filter -/
def setLowPassFilter : Update U8 U8 := ⟨raConfig, setLowField 3 0x00⟩

/-- step2b: set sample rate divider -/
def setSampleRateDivider : Update U8 U8 :=
  ⟨raSmplrtDiv, fun reg => if promote reg ≠ 0 then some 0 else none⟩

/-- step3a: enable thermometer.  The test is made on the register without `TEMP_DIS`. -/
def enableThermometer : Update U8 U8 :=
  ⟨raPwrMgmt1, fun reg =>
    let value := (promote reg &&& ~~~(bit 3)) >>> 3
    if value = 1 then some (narrow (promote reg &&& ~~~(bit 3))) else none⟩

/-- step3b: set gyroscope range -/
def setGyroscopeRange : Update U8 U8 := ⟨raGyroConfig, setRange 4 2 deviceGyroSensitivity⟩

/-- step3c: set accelerometer range -/
def setAccelerometerRange : Update U8 U8 := ⟨raAccelConfig, setRange 4 2 deviceAccelSensitivity⟩

/-- step4a: configure FIFO -/
def configureFifo : Update U8 U8 :=
  ⟨raFifoEn, fun reg =>
    let value := (promote reg &&& bit 7) >>> 7
    let value := value &&& (promote reg &&& bit 6) >>> 6
    let value := value &&& (promote reg &&& bit 5) >>> 5
    let value := value &&& (promote reg &&& bit 4) >>> 4
    let value := value &&& (promote reg &&& bit 3) >>> 3
    if value = 0 then
      some (narrow (promote reg ||| (bit 7 ||| bit 6 ||| bit 5 ||| bit 4 |||
        bit 3)))
    else none⟩

/-- step4b: disable FIFO overflow interrupt -/
def disableFifoOverflow : Update U8 U8 := ⟨raIntEnable, clearAlone 4⟩

/-- step4c: enable FIFO -/
def enableFifo : Update U8 U8 := ⟨raUserCtrl, setBit 6⟩

/-- step5a: configure (data ready-) interrupt(s).  Each test keeps only its own bit of what
the one before left. -/
def configureInterrupt : Update U8 U8 :=
  ⟨raIntPinCfg, fun reg =>
    let reg := (clearAlone 7 reg).getD (narrow (promote reg &&& bit 7))
    let reg := (clearAlone 6 reg).getD (narrow (promote reg &&& bit 6))
    let reg := (clearAlone 5 reg).getD (narrow (promote reg &&& bit 5))
    some ((setAlone 4 reg).getD (narrow (promote reg &&& bit 4)))⟩

/-- step5b: disable waiting for external data -/
def disableWaitForEs : Update U8 U8 := ⟨raI2cMstCtrl, clearAlone 6⟩

/-- step5c: enable (data ready-) interrupt(s) -/
def enableDataReady : Update U8 U8 := ⟨raIntEnable, setAlone 0⟩

/-- The steps made whatever the parameters are. -/
def commonSteps : List (Update U8 U8) :=
  [disableSleepMode, setClocksource, setLowPassFilter, setSampleRateDivider, enableThermometer,
    setGyroscopeRange, setAccelerometerRange]

/-- The steps under `nofifo == 0`. -/
def fifoSteps : List (Update U8 U8) := [configureFifo, disableFifoOverflow, enableFifo]

/-- The steps under `noirq == 0`. -/
def irqSteps : List (Update U8 U8) := [configureInterrupt, disableWaitForEs, enableDataReady]

/-- The steps of `i2c_mpu6050_device_init`. -/
def initSteps (nofifo noirq : Int) : List (Update U8 U8) :=
  commonSteps ++ (if nofifo = 0 then fifoSteps else []) ++ (if noirq = 0 then irqSteps else [])

/-- The chip behind the bus. -/
abbrev Chip := Bus U8 U8 Errno

/-- `i2c_mpu6050_device_init`: its value, and the chip afterwards. -/
def deviceInit (nofifo noirq : Int) (faults : Faults Errno) (chip : Chip) : Int × Chip :=
  match runAll faults readByteData (initSteps nofifo noirq) chip with
  | (some e, chip) => (e.val, chip)
  | (none, chip) => (0, chip)

/-! ### Reset -/

/-- `reg |= (0x01 << MPU6050_PWR1_DEVICE_RESET_BIT)` -/
def resetDevice : Update U8 U8 := ⟨raPwrMgmt1, fun reg => some (narrow (promote reg ||| bit 7))⟩

/-- `reg |= (0x01 << MPU6050_USERCTRL_SIG_COND_RESET_BIT)` -/
def resetSignalPaths : Update U8 U8 :=
  ⟨raUserCtrl, fun reg => some (narrow (promote reg ||| bit 0))⟩

/-- Disable the FIFO, then reset it. -/
def resetFifo : Update U8 U8 :=
  ⟨raUserCtrl, fun reg =>
    let reg := narrow (promote reg &&& ~~~(bit 6))
    some (narrow (promote reg ||| bit 2))⟩

/-- A reset bit written: the chip answers by `onReset`, unless the write failed. -/
def writeReset (onReset : RegisterFile → RegisterFile) (faults : Faults Errno)
    (u : Update U8 U8) (chip : Chip) : Option Errno × Chip :=
  match u.run faults readByteData chip with
  | (some e, chip) => (some e, chip)
  | (none, chip) => (none, { chip with file := onReset chip.file })

/--
`i2c_mpu6050_device_reset`, which returns nothing.  What is read after the delay decides
only about a warning.
-/
def deviceReset (onReset : RegisterFile → RegisterFile) (nofifo dataOnly wait : Int)
    (faults : Faults Errno) (chip : Chip) : Chip :=
  if dataOnly = 0 then
    match writeReset onReset faults resetDevice chip with
    | (some _, chip) => chip
    | (none, chip) => if wait ≠ 0 then (chip.read faults raPwrMgmt1).2 else chip
  else
    match writeReset onReset faults resetSignalPaths chip with
    | (some _, chip) => chip
    | (none, chip) =>
        if nofifo = 0 then (writeReset onReset faults resetFifo chip).2 else chip

/-! ### Low power mode -/

/-- `MPU6050_WAKE_FREQ_1P25` -/
abbrev wakeFreq1p25 : BitVec 32 := 0x0

/-- step1a: configure cycle mode -/
def configureCycleMode : Update U8 U8 :=
  ⟨raPwrMgmt2, fun reg =>
    let value := promote reg >>> (7 - 1)
    if value ≠ wakeFreq1p25 then some (narrow (promote reg ||| wakeFreq1p25 <<< (7 - 1)))
    else none⟩

/-- step1b: disable thermometer -/
def disableThermometer : Update U8 U8 :=
  ⟨raPwrMgmt1, fun reg =>
    let value := (promote reg &&& ~~~(bit 3)) >>> 3
    if value = 0 then some (narrow (promote reg ||| bit 3)) else none⟩

/-- `value = (reg & (0x01 << n) >> n); if (value == 0) reg |= (0x01 << n);`
The shift binds tighter than the mask. -/
def setStandby (n : Nat) (reg : U8) : U8 :=
  let value := promote reg &&& ((0x01#32 <<< n) >>> n)
  if value = 0 then narrow (promote reg ||| bit n) else reg

/-- step1c: disable gyroscope -/
def disableGyroscope : Update U8 U8 :=
  ⟨raPwrMgmt2, fun reg => some (setStandby 0 (setStandby 1 (setStandby 2 reg)))⟩

/-- step2: enable cycle mode -/
def enableCycleMode : Update U8 U8 := ⟨raPwrMgmt1, setAlone 5⟩

/-- step3: disable sleep mode.  The bit is set again where it was to be cleared. -/
def leaveSleepMode : Update U8 U8 :=
  ⟨raPwrMgmt1, fun reg =>
    let reg := narrow (promote reg &&& bit 6)
    let value := promote reg >>> 6
    if value ≠ 0 then some (narrow (promote reg ||| bit 6)) else none⟩

/-- The steps of `i2c_mpu6050_device_low_power_mode` after the reset. -/
def lowPowerSteps : List (Update U8 U8) :=
  [configureCycleMode, disableThermometer, disableGyroscope, enableCycleMode, leaveSleepMode]

/-- `i2c_mpu6050_device_low_power_mode`: its value, and the chip afterwards. -/
def deviceLowPowerMode (onReset : RegisterFile → RegisterFile) (nofifo : Int)
    (faults : Faults Errno) (chip : Chip) : Int × Chip :=
  match runAll faults readByteData lowPowerSteps
      (deviceReset onReset nofifo 0 1 faults chip) with
  | (some e, chip) => (e.val, chip)
  | (none, chip) => (0, chip)

end Mpu6050
