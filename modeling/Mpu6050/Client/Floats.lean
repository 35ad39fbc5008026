/-
The numbers of the client, whatever they are rounded to.

`extract_data` and what comes after it compute with `float`.  How that rounds is the machine's
affair: here the operations are given (`Floats`), and nothing is assumed of them, so that what is
proved holds of single precision as it does of exact numbers.  With the latter
(`exactFloats`) the functions are those of `Client.Extract` and `Client.Queues`.
-/
import Mpu6050.Client.Curve

namespace Mpu6050.Client

/-- The operations on `float`: a conversion, the constants of the program, and arithmetic. -/
structure Floats (F : Type) where
  /-- of an `int`, or a `short int` -/
  ofInt : Int → F
  /-- as it is written in the program -/
  constant : ℚ → F
  add : F → F → F
  sub : F → F → F
  mul : F → F → F
  div : F → F → F
  neg : F → F

/-- Nothing is rounded. -/
def exactFloats : Floats ℚ where
  ofInt n := n
  constant x := x
  add := (· + ·)
  sub := (· - ·)
  mul := (· * ·)
  div := (· / ·)
  neg := (- ·)

/-- `struct SensorBias` -/
structure Bias (F : Type) where
  axBias : F
  ayBias : F
  azBias : F
  gxBias : F
  gyBias : F
  gzBias : F

/-- The bias in exact numbers. -/
def SensorBias.toBias (b : SensorBias) : Bias ℚ :=
  { axBias := b.axBias, ayBias := b.ayBias, azBias := b.azBias,
    gxBias := b.gxBias, gyBias := b.gyBias, gzBias := b.gzBias }

variable {F : Type} (fl : Floats F)

/-- `extract_data` -/
def Floats.extractData (data : Data) : Sample F :=
  let s := (decoded data).map fun word => fl.ofInt word.toInt
  { accelX := fl.div s.accelX (fl.constant accelerometerLsbFactor2)
    accelY := fl.div s.accelY (fl.constant accelerometerLsbFactor2)
    accelZ := fl.div s.accelZ (fl.constant accelerometerLsbFactor2)
    temp := fl.add (fl.div s.temp (fl.constant thermometerLsbFactor))
      (fl.constant thermometerOffset)
    gyroX := fl.div s.gyroX (fl.constant gyroscopeLsbFactor250)
    gyroY := fl.div s.gyroY (fl.constant gyroscopeLsbFactor250)
    gyroZ := fl.div s.gyroZ (fl.constant gyroscopeLsbFactor250) }

/-- What `memset` leaves of the bias. -/
def Floats.zeroBias : Bias F :=
  { axBias := fl.constant 0, ayBias := fl.constant 0, azBias := fl.constant 0,
    gxBias := fl.constant 0, gyBias := fl.constant 0, gzBias := fl.constant 0 }

/-- The bias that `calibrate_clicked_gtk_cb` makes of the values. -/
def Floats.restBias (values : Sample F) : Bias F :=
  { axBias := values.accelX
    ayBias := values.accelY
    azBias := fl.add values.accelZ (fl.constant 1)
    gxBias := values.gyroX
    gyBias := values.gyroY
    gzBias := values.gyroZ }

/-- Step 1b of `process_cb`. -/
def Floats.correct (bias : Bias F) (values : Sample F) : Sample F :=
  { accelX := fl.sub values.accelX bias.axBias
    accelY := fl.sub values.accelY bias.ayBias
    accelZ := fl.sub values.accelZ bias.azBias
    temp := values.temp
    gyroX := fl.sub values.gyroX bias.gxBias
    gyroY := fl.sub values.gyroY bias.gyBias
    gyroZ := fl.sub values.gyroZ bias.gzBias }

/-- Step 2b of `process_cb`: what is stored to `temperature`, and where. -/
def Floats.temperatureStores (temperatureIndex : Int) (t : F) : List (Int × F) :=
  [(temperatureIndex * 2, fl.ofInt temperatureIndex),
   (temperatureIndex * 2 + 1,
    fl.mul (fl.div (fl.add t (fl.constant thermometerOffset)) (fl.constant thermometerRange))
      (fl.constant curveMaximumY))]

end Mpu6050.Client
