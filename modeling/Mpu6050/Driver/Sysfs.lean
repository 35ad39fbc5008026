/-
`i2c_mpu6050_reg_store`: a register written through sysfs.

The first two bytes of the buffer are the register and the value.  They are taken out of it
by `sscanf`, which scans text: at a NUL it finds the end of its input, makes no conversion
and leaves the variable as it was.

The LED that is switched on for as long as the transfer takes is left out.
-/
import Mpu6050.Driver.Device

namespace Mpu6050

open Registers

/-- `sscanf (str, "%c", &c)`: the number of conversions made, and `c` afterwards. -/
def sscanfChar (c : U8) : List U8 → Int × U8
  | [] => (0, c)
  | b :: _ => if b = 0 then (0, c) else (1, b)

/-- `i2c_smbus_write_byte_data`: 0, or a negative error. -/
def smbusWriteByteData (faults : Faults Errno) (reg value : U8) (chip : Chip) : Int × Chip :=
  match chip.write faults reg value with
  | (none, chip) => (0, chip)
  | (some e, chip) => (e.val, chip)

/--
`i2c_mpu6050_reg_store`: its value, and the chip afterwards.  `dev` and `buf` are `none` for
a null pointer; what `dev_get_drvdata` finds for the device's parent is the chip's data, or an
error.  `count_in` is the length of the buffer.
-/
def regStore (faults : Faults Errno) (dev : Option (Except Errno Unit)) (buf : Option (List U8))
    (chip : Chip) : Int × Chip :=
  match dev, buf with
  | none, _ => (einval, chip)
  | some _, none => (einval, chip)
  | some drvdata, some buf =>
    if buf.length < 2 then (einval, chip)
    else
      match drvdata with
      | .error e => (e.val, chip)
      | .ok () =>
        let (err, reg) := sscanfChar 0 buf
        if err ≠ 1 then (err, chip)
        else
          let (err, value) := sscanfChar 0 (buf.drop 1)
          if err ≠ 1 then (err, chip)
          else
            let (bytesWritten, chip) := smbusWriteByteData faults reg value chip
            if bytesWritten ≠ 1 then (eio, chip)
            else (buf.length, chip)

end Mpu6050
