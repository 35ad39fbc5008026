/-
The camera, turned by the samples and moved by hand.

`process_cb` turns the camera by the angular rates of the message it took, one message
standing for `1 / OLIMEX_MOD_MPU6050_DATA_RATE` of a second; `motion_cb` turns, moves and zooms
it by how far the pointer has moved, by the buttons held; and `key_cb` puts it back.

The pointer's position is given as `motion_cb` takes it, cast to `int`.
-/
import Mpu6050.Client.Floats

namespace Mpu6050.Client

/-- `OLIMEX_MOD_MPU6050_DATA_RATE`, messages/s -/
def dataRate : Int := 100

/-- `OLIMEX_MOD_MPU6050_OPENGL_CAMERA_ROTATION_FACTOR` -/
def cameraRotationFactor : ℚ := 0.8

/-- `OLIMEX_MOD_MPU6050_OPENGL_CAMERA_TRANSLATION_FACTOR` -/
def cameraTranslationFactor : ℚ := 0.01

/-- `OLIMEX_MOD_MPU6050_OPENGL_CAMERA_ZOOM_FACTOR` -/
def cameraZoomFactor : ℚ := 0.03

/-- `OLIMEX_MOD_MPU6050_OPENGL_CAMERA_DEFAULT_ZOOM` -/
def cameraDefaultZoom : ℚ := 5

/-- `glm::vec3` -/
structure Vec3 (F : Type) where
  x : F
  y : F
  z : F
deriving DecidableEq

/-- `struct Camera` -/
structure Camera (F : Type) where
  zoom : F
  rotation : Vec3 F
  translation : Vec3 F
  last : Int × Int
deriving DecidableEq

variable {F : Type} (fl : Floats F)

/-- What `memset` leaves of a `glm::vec3`. -/
def Floats.zeroVec3 : Vec3 F := { x := fl.constant 0, y := fl.constant 0, z := fl.constant 0 }

/-- What `resetCamera` leaves. -/
def resetCamera : Camera F :=
  { zoom := fl.constant cameraDefaultZoom, rotation := fl.zeroVec3, translation := fl.zeroVec3,
    last := (0, 0) }

/-- `1.0F / static_cast<float> (OLIMEX_MOD_MPU6050_DATA_RATE)` -/
def Floats.period : F := fl.div (fl.constant 1) (fl.ofInt dataRate)

/-- The angles of step 2a of `process_cb`. -/
def Floats.angles (values : Sample F) : Vec3 F :=
  { x := fl.mul (fl.neg values.gyroX) fl.period
    y := fl.mul (fl.neg values.gyroY) fl.period
    z := fl.mul values.gyroZ fl.period }

/-- `cb_data_p->OpenGLCamera.rotation[..] += angle_..` -/
def Camera.turn (c : Camera F) (angle : Vec3 F) : Camera F :=
  { c with rotation :=
    { x := fl.add c.rotation.x angle.x
      y := fl.add c.rotation.y angle.y
      z := fl.add c.rotation.z angle.z } }

/-- `GdkEventMotion`, as far as `motion_cb` looks at it. -/
structure MotionEvent where
  isHint : Bool
  x : Int
  y : Int
  button1 : Bool
  button2 : Bool
  button3 : Bool

/-- `motion_cb` -/
def motion (event : MotionEvent) (c : Camera F) : Camera F :=
  if event.isHint then c
  else
    let diffX := event.x - c.last.1
    let diffY := event.y - c.last.2
    let c := { c with last := (event.x, event.y) }
    let c := if event.button1 then
        { c with rotation := { c.rotation with
          x := fl.add c.rotation.x (fl.mul (fl.constant cameraRotationFactor) (fl.ofInt diffY))
          y := fl.add c.rotation.y (fl.mul (fl.constant cameraRotationFactor) (fl.ofInt diffX)) } }
      else c
    let c := if event.button2 then
        { c with translation := { c.translation with
          x := fl.add c.translation.x
            (fl.mul (fl.constant cameraTranslationFactor) (fl.ofInt diffX))
          y := fl.sub c.translation.y
            (fl.mul (fl.constant cameraTranslationFactor) (fl.ofInt diffY)) } }
      else c
    if event.button3 then
      { c with zoom := fl.sub c.zoom (fl.mul (fl.constant cameraZoomFactor) (fl.ofInt diffX)) }
    else c

/-- `event_in->keyval`, as far as `key_cb` tells them apart. -/
inductive Key
  | left
  | right
  | r
  | other
deriving DecidableEq

/-- `key_cb` -/
def key (keyval : Key) (c : Camera F) : Camera F :=
  match keyval with
  | .r => resetCamera fl
  | _ => c

end Mpu6050.Client
