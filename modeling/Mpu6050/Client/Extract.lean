/-
A dataset decoded again: `extract_data` of the user-space programs.

The client gets the bytes of a slot in a datagram and decodes them by itself.  It loads
seven `short int`s, exchanges their bytes with `ACE_SWAP_WORD`, inverts the two's
complement representation of six of them, and divides by fixed factors.  The divisions
are exact here, the results rational.
-/
import Mathlib.Data.Rat.Defs
import Mpu6050.Driver.Sample

namespace Mpu6050.Client

/-- `OLIMEX_MOD_MPU6050_ACCELEROMETER_LSB_FACTOR_2`, LSB/g -/
def accelerometerLsbFactor2 : ℚ := 16384

/-- `OLIMEX_MOD_MPU6050_THERMOMETER_LSB_FACTOR` -/
def thermometerLsbFactor : ℚ := 340

/-- `OLIMEX_MOD_MPU6050_THERMOMETER_OFFSET` -/
def thermometerOffset : ℚ := 36.53

/-- `OLIMEX_MOD_MPU6050_GYROSCOPE_LSB_FACTOR_250`, LSB/(°/s) -/
def gyroscopeLsbFactor250 : ℚ := 131

/-- `ACE_SWAP_WORD (L)`: `(((L) & 0x00FF) << 8) | (((L) & 0xFF00) >> 8)` -/
def aceSwapWord (l : BitVec 32) : BitVec 32 := (l &&& 0x00FF) <<< 8 ||| (l &&& 0xFF00) >>> 8

/-- `ACE_SWAP_WORD (*data_p)`, `data_p` at word `k`, assigned to a `short int`. -/
def loadWord (data : Data) (k : Fin 7) : BitVec 16 :=
  (aceSwapWord ((loadS16 data k).signExtend 32)).setWidth 16

/-- The integers `extract_data` works with before it scales them. -/
def decoded (data : Data) : Sample (BitVec 16) where
  accelX := invertTwosComplement (loadWord data 0)
  accelY := invertTwosComplement (loadWord data 1)
  accelZ := invertTwosComplement (loadWord data 2)
  temp := loadWord data 3
  gyroX := invertTwosComplement (loadWord data 4)
  gyroY := invertTwosComplement (loadWord data 5)
  gyroZ := invertTwosComplement (loadWord data 6)

/-- `extract_data` -/
def extractData (data : Data) : Sample ℚ :=
  let s := (decoded data).map BitVec.toInt
  { accelX := s.accelX / accelerometerLsbFactor2
    accelY := s.accelY / accelerometerLsbFactor2
    accelZ := s.accelZ / accelerometerLsbFactor2
    temp := s.temp / thermometerLsbFactor + thermometerOffset
    gyroX := s.gyroX / gyroscopeLsbFactor250
    gyroY := s.gyroY / gyroscopeLsbFactor250
    gyroZ := s.gyroZ / gyroscopeLsbFactor250 }

end Mpu6050.Client
