/-
The rest of `process_cb`: the temperature curve.

The curve is an array of points, x and y in turn, and the number of the point that was stored
last.  That number starts at the sentinel -1; the lines that would advance it and take it back
to 0 are commented out, together with those that drew the curve.

C checks no bounds.  What is stored outside the array changes a member in front of it, and
which one is not followed here; the curve stays as it was.
-/
import Mpu6050.Client.Queues
import Mathlib.Logic.Function.Basic

namespace Mpu6050.Client

/-- `OLIMEX_MOD_MPU6050_TEMPERATURE_BUFFER_SIZE` -/
abbrev temperatureBufferSize : Nat := 1000

/-- `OLIMEX_MOD_MPU6050_THERMOMETER_RANGE`, -40°C to 85°C -/
def thermometerRange : ℚ := 125

/-- `OLIMEX_MOD_MPU6050_UI_WIDGET_CURVE_MAXIMUM_Y` -/
def curveMaximumY : ℚ := 100

/-- The two members of `struct Olimex_Mod_MPU6050_GTK_CBData` for the curve. -/
structure Curve where
  temperature : Fin (temperatureBufferSize * 2) → ℚ
  temperatureIndex : Int

/-- As the constructor and `memset` leave them. -/
def initialCurve : Curve := { temperature := fun _ => 0, temperatureIndex := -1 }

/-- `temperature[i] = value` -/
def Curve.store (c : Curve) (i : Int) (value : ℚ) : Curve :=
  if h : 0 ≤ i ∧ i < temperatureBufferSize * 2 then
    { c with temperature := Function.update c.temperature ⟨i.toNat, by omega⟩ value }
  else c

/-- Step 2b of `process_cb`: the curve, and the two places stored to. -/
def storeTemperature (t : ℚ) (c : Curve) : Curve × (Int × Int) :=
  let x := c.temperatureIndex * 2
  let c := c.store x c.temperatureIndex
  let y := c.temperatureIndex * 2 + 1
  let c := c.store y ((t + thermometerOffset) / thermometerRange * curveMaximumY)
  (c, (x, y))

/-- What a call of `process_cb` leaves, and the places it stored to. -/
structure Processed where
  cbData : CBData
  curve : Curve
  stored : Option (Int × Int)
  /-- It returned `TRUE`. -/
  continues : Bool

/-- `process_cb` to its end, with the result of its `sprintf`. -/
def processAll (result : Int) (cb : CBData) (curve : Curve) : Except Failure Processed := do
  let (cbData, tick) ← processEvent cb
  match tick with
  | .continue => pure { cbData, curve, stored := none, continues := true }
  | .stop => pure { cbData, curve, stored := none, continues := false }
  | .message m => do
    let values ← processMessage cbData m
    if result < 0 then pure { cbData, curve, stored := none, continues := false }
    else
      let (curve, places) := storeTemperature values.temp curve
      pure { cbData, curve, stored := some places, continues := true }

end Mpu6050.Client
