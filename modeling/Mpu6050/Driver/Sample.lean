/-
A dataset decoded: the kernel's `i2c_mpu6050_device_extract_data`.

The chip sends seven big-endian 16-bit words, one after another.  The driver reads
each with a native load, swaps it, and then "inverts the two's complement
representation", an assignment computed in `int` and narrowed back to `s16`.  The
temperature is loaded and left as it is.
-/
import Mpu6050.Driver.Types

namespace Mpu6050

/-- Seven values, one for each word of a dataset, in the order of the words. -/
structure Sample (α : Type) where
  accelX : α
  accelY : α
  accelZ : α
  temp : α
  gyroX : α
  gyroY : α
  gyroZ : α
deriving DecidableEq

/-- The same function of every value. -/
def Sample.map {α β : Type} (f : α → β) (s : Sample α) : Sample β :=
  { accelX := f s.accelX, accelY := f s.accelY, accelZ := f s.accelZ, temp := f s.temp,
    gyroX := f s.gyroX, gyroY := f s.gyroY, gyroZ := f s.gyroZ }

/-- A numeral for a word means the same wherever this module is imported. -/
instance neZeroSeven : @NeZero Nat Zero.ofOfNat0 7 := ⟨Nat.succ_ne_zero 6⟩

/-- The first byte of word `k`. -/
theorem wordFirst_lt (k : Fin 7) : 2 * k.val < ringbufferDataSize := by
  show 2 * k.val < 14
  omega

/-- The second byte of word `k`. -/
theorem wordSecond_lt (k : Fin 7) : 2 * k.val + 1 < ringbufferDataSize := by
  show 2 * k.val + 1 < 14
  omega

/-- `*(s16*)reg_p`, `reg_p` being word `k` of the data, on a little-endian CPU. -/
def loadS16 (data : Data) (k : Fin 7) : BitVec 16 :=
  data ⟨2 * k.val + 1, wordSecond_lt k⟩ ++ data ⟨2 * k.val, wordFirst_lt k⟩

/-- `(x & 0x8000) ? ((x & 0x7FFF) - 0x8000) : x`, computed in `int` and narrowed to `s16`. -/
def invertTwosComplement (x : BitVec 16) : BitVec 16 :=
  let promoted : BitVec 32 := x.signExtend 32
  let value : BitVec 32 :=
    if promoted &&& 0x8000 ≠ 0 then (promoted &&& 0x7FFF) - 0x8000 else promoted
  value.setWidth 16

/-- `i2c_mpu6050_device_extract_data` -/
def deviceExtractData (data : Data) : Sample (BitVec 16) where
  accelX := invertTwosComplement (be16ToCpus (loadS16 data 0))
  accelY := invertTwosComplement (be16ToCpus (loadS16 data 1))
  accelZ := invertTwosComplement (be16ToCpus (loadS16 data 2))
  temp := loadS16 data 3
  gyroX := invertTwosComplement (be16ToCpus (loadS16 data 4))
  gyroY := invertTwosComplement (be16ToCpus (loadS16 data 5))
  gyroZ := invertTwosComplement (be16ToCpus (loadS16 data 6))

end Mpu6050
