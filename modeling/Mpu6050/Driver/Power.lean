/-
The chip over the life of the device: what each callback of the driver does to it.

`i2c_mpu6050_probe` pings the chip and programs it, and resets it again if something after
that fails; `i2c_mpu6050_remove` and `i2c_mpu6050_shutdown` reset it; of the power management
callbacks two do anything, `i2c_mpu6050_pm_suspend`, which resets it, and
`i2c_mpu6050_pm_resume`, which programs it.

The results of the other kernel calls a probe makes are given (`Outcomes`); those two it is
told by the chip are worked out.  A `NULL` handle ends the run of an error path or of a
remove before the reset, so whether it got there is given as well.
-/
import Mpu6050.Driver.Device
import Mpu6050.Driver.Main

namespace Mpu6050

open Registers

abbrev raWhoAmI : U8 := 0x75

/-- `MPU6050_ADDRESS_AD0_LOW` -/
abbrev addressAd0Low : BitVec 32 := 0x68

/-- `-ENODEV` -/
def enodev : Errno := ⟨-19, by decide⟩

/-- `value = ((reg & ~(0xFF << (MPU6050_WHO_AM_I_BIT + 1))) & (0xFF << 1));` -/
def whoAmI (reg : U8) : BitVec 32 := (promote reg &&& ~~~(0xFF#32 <<< 7)) &&& (0xFF#32 <<< 1)

/-- `i2c_mpu6050_device_ping`: its value, and the chip afterwards. -/
def devicePing (faults : Faults Errno) (chip : Chip) : Int × Chip :=
  let (result, chip) := chip.read faults raWhoAmI
  let reg := readByteData result
  (if whoAmI reg = addressAd0Low then 0 else enodev.val, chip)

/-- `i2c_mpu6050_device_fini` -/
def deviceFini (onReset : RegisterFile → RegisterFile) (nofifo : Int) (faults : Faults Errno)
    (chip : Chip) : Chip :=
  deviceReset onReset nofifo 0 0 faults chip

/-- The calls of `i2c_mpu6050_probe` before `i2c_mpu6050_device_ping` have succeeded. -/
def reachesPing (o : Outcomes) : Bool :=
  o.checkFunctionality && o.gpioLedIsValid && o.kzallocClientData
    && decide (o.scriptParserFetch = 0) && o.gpioRequestLed && decide (o.sysfsCreateBinFile = 0)

/-- What a probe learns of the chip, it learns from the chip. -/
def probeOutcomes (p : Params) (o : Outcomes) (faults : Faults Errno) (chip : Chip) : Outcomes :=
  let (ping, pinged) := devicePing faults chip
  { o with devicePing := ping, deviceInit := (deviceInit p.nofifo p.noirq faults pinged).1 }

/--
`i2c_mpu6050_probe` as the chip sees it: what it returns, and the chip afterwards.  The label
a failed ping or initialisation goes to is below the reset.
-/
def probeChip (onReset : RegisterFile → RegisterFile) (p : Params) (o : Outcomes)
    (finiReached : Bool) (faults : Faults Errno) (chip : Chip) : Option Int × Chip :=
  let result := (probe p (probeOutcomes p o faults chip)).map Prod.fst
  if reachesPing o = false then (result, chip)
  else
    let (ping, pinged) := devicePing faults chip
    if ping ≠ 0 then (result, pinged)
    else
      let (err, programmed) := deviceInit p.nofifo p.noirq faults pinged
      if err ≠ 0 then (result, programmed)
      else
        match result with
        | none => (none, programmed)
        | some err =>
            if err = 0 then (some 0, programmed)
            else if finiReached then
              (some err, deviceFini onReset p.nofifo faults programmed)
            else (none, programmed)

/-- The callbacks that reach the chip, with what the parameters are when they are called. -/
inductive PowerCall
  | probe (p : Params) (o : Outcomes) (finiReached : Bool)
  | remove (p : Params) (finiReached : Bool)
  | shutdown (p : Params)
  | suspend (p : Params)
  | resume (p : Params)

/-- The parameters a callback finds. -/
def PowerCall.params : PowerCall → Params
  | .probe p _ _ => p
  | .remove p _ => p
  | .shutdown p => p
  | .suspend p => p
  | .resume p => p

/-- The callbacks that program the chip. -/
def PowerCall.Programs : PowerCall → Prop
  | .probe _ _ _ => True
  | .resume _ => True
  | _ => False

/-- A callback: its value, unless it never returns, and the chip afterwards.  `shutdown`
returns nothing, which is written 0. -/
def powerCall (onReset : RegisterFile → RegisterFile) (faults : Faults Errno) :
    PowerCall → Chip → Option Int × Chip
  | .probe p o finiReached, chip => probeChip onReset p o finiReached faults chip
  | .remove p finiReached, chip =>
      if finiReached then (some 0, deviceFini onReset p.nofifo faults chip) else (none, chip)
  | .shutdown p, chip => (some 0, deviceReset onReset p.nofifo 0 0 faults chip)
  | .suspend p, chip => (some 0, deviceReset onReset p.nofifo 0 1 faults chip)
  | .resume p, chip =>
      let (err, chip) := deviceInit p.nofifo p.noirq faults chip
      (some err, chip)

/-- One callback after another. -/
def PowerStep (onReset : RegisterFile → RegisterFile) (faults : Faults Errno) (chip : Chip)
    (call : PowerCall) (chip' : Chip) : Prop :=
  chip' = (powerCall onReset faults call chip).2

/-- A chip that has just been powered up, or reset. -/
def freshChip (base : RegisterFile) : Chip := { file := base, log := [] }

end Mpu6050
