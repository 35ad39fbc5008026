/-
The client's two queues, and the functions that work on them.

`Olimex_Mod_MPU6050_EventHandler` is called by the network threads and puts in;
`process_cb`, on a timer of the user interface, takes out; `calibrate_clicked_gtk_cb`
looks, and `idle_finalize_ui_cb` throws away.  Each holds `UIState->lock` while it does,
so each is a function from one state to the next.  `process_cb` gives the lock back
before it decodes the message it took; what it does under the lock is `processEvent`.

What the functions show on the status bar is left out, and so is the drawing.
-/
import Mpu6050.Client.Message

namespace Mpu6050.Client

/-- `enum Olimex_Mod_MPU6050_Event`, without the bound. -/
inductive Event
  | invalid
  | connect
  | disconnect
  | message
  | sessionMessage
deriving DecidableEq

/-- `struct SensorBias` -/
structure SensorBias where
  axBias : ℚ
  ayBias : ℚ
  azBias : ℚ
  gxBias : ℚ
  gyBias : ℚ
  gzBias : ℚ

/-- `struct Olimex_Mod_MPU6050_GTK_CBData`: the mode, the bias and the queues. -/
structure CBData where
  clientMode : Bool
  clientSensorBias : SensorBias
  eventQueue : List Event
  messageQueue : List Message

/-- The statistic in `Olimex_Mod_MPU6050_SessionData` that the event handler writes. -/
structure SessionData where
  droppedFrames : Nat

/-- The event handler's members, and the data it shares with the user interface. -/
structure ClientState where
  consoleMode : Bool
  sessionData : Option SessionData
  cbData : CBData

/-! ### `Olimex_Mod_MPU6050_EventHandler` -/

/-- `eventQueue.push_back` -/
def CBData.pushEvent (cb : CBData) (e : Event) : CBData :=
  { cb with eventQueue := cb.eventQueue ++ [e] }

/-- `start` -/
def start (sessionData : SessionData) (s : ClientState) : ClientState :=
  { s with sessionData := some sessionData, cbData := s.cbData.pushEvent .connect }

/--
`notify` for a message, which `duplicate ()` copies or does not, and what is printed in
console mode.
-/
def notifyMessage (m : Message) (duplicated : Bool) (s : ClientState) :
    Except Failure (ClientState × Option (Sample ℚ)) :=
  match s.sessionData with
  | none => .error .assertion
  | some sessionData =>
    if s.consoleMode then m.extractData.map fun values => (s, some values)
    else if !duplicated then
      .ok ({ s with sessionData := some { droppedFrames := sessionData.droppedFrames + 1 } }, none)
    else
      let cb := s.cbData.pushEvent .message
      .ok ({ s with cbData := { cb with messageQueue := m :: cb.messageQueue } }, none)

/-- `notify` for a session message -/
def notifySessionMessage (s : ClientState) : ClientState :=
  { s with cbData := s.cbData.pushEvent .sessionMessage }

/-- `end` -/
def sessionEnd (s : ClientState) : ClientState :=
  { s with cbData := s.cbData.pushEvent .disconnect }

/-! ### The user interface -/

/-- What `process_cb` has to do once it has looked at the event queue. -/
inductive Tick
  /-- Nothing: there was no event, or it was not one of a message. -/
  | continue
  /-- Nothing ever again: the event was not a valid one. -/
  | stop
  | message (m : Message)

/-- `process_cb` while it holds the lock. -/
def processEvent (cb : CBData) : Except Failure (CBData × Tick) :=
  match cb.eventQueue with
  | [] => .ok (cb, .continue)
  | .connect :: events => .ok ({ cb with eventQueue := events }, .continue)
  | .disconnect :: events => .ok ({ cb with eventQueue := events }, .continue)
  | .sessionMessage :: events => .ok ({ cb with eventQueue := events }, .continue)
  | .message :: events =>
    match cb.messageQueue with
    | [] => .error .emptyQueue
    | m :: messages => .ok ({ cb with eventQueue := events, messageQueue := messages }, .message m)
  | .invalid :: events => .ok ({ cb with eventQueue := events }, .stop)

/-- The values less the bias, which is none of the temperature's. -/
def SensorBias.correct (bias : SensorBias) (values : Sample ℚ) : Sample ℚ :=
  { accelX := values.accelX - bias.axBias
    accelY := values.accelY - bias.ayBias
    accelZ := values.accelZ - bias.azBias
    temp := values.temp
    gyroX := values.gyroX - bias.gxBias
    gyroY := values.gyroY - bias.gyBias
    gyroZ := values.gyroZ - bias.gzBias }

/-- Steps 1a and 1b of `process_cb`: the message it took, decoded and corrected. -/
def processMessage (cb : CBData) (m : Message) : Except Failure (Sample ℚ) :=
  if m.size ≠ streamBufferSize then .error .assertion
  else m.extractData.map fun values =>
    if cb.clientMode then cb.clientSensorBias.correct values else values

/-- `process_cb`, up to the values it has to show, if it has any. -/
def processCb (cb : CBData) : Except Failure (CBData × Option (Sample ℚ)) := do
  let (cb, tick) ← processEvent cb
  match tick with
  | .message m => do
    let values ← processMessage cb m
    pure (cb, some values)
  | _ => pure (cb, none)

/-- What `memset` leaves of the bias. -/
def zeroBias : SensorBias :=
  { axBias := 0, ayBias := 0, azBias := 0, gxBias := 0, gyBias := 0, gzBias := 0 }

/-- The bias for a message that shows the device at rest, its z axis upwards. -/
def restBias (values : Sample ℚ) : SensorBias :=
  { axBias := values.accelX
    ayBias := values.accelY
    azBias := values.accelZ + 1
    gxBias := values.gyroX
    gyBias := values.gyroY
    gzBias := values.gyroZ }

/--
`calibrate_clicked_gtk_cb`, with the result of its `sprintf`, and whether it returned
`TRUE`.  It asks the one queue whether there is anything in the other.
-/
def calibrateClicked (result : Int) (cb : CBData) : Except Failure (CBData × Bool) :=
  if !cb.clientMode then .error .assertion
  else
    let cb := { cb with clientSensorBias := zeroBias }
    if cb.eventQueue = [] then .ok (cb, false)
    else
      match cb.messageQueue with
      | [] => .error .emptyQueue
      | m :: _ =>
        m.extractData.map fun values =>
          ({ cb with clientSensorBias := restBias values }, decide (0 ≤ result))

/-- `idle_finalize_ui_cb` -/
def idleFinalizeUi (cb : CBData) : CBData :=
  { cb with messageQueue := [] }

/-! ### The client in operation -/

/-- What takes `UIState->lock`, with what it is given from outside. -/
inductive Operation
  | start (sessionData : SessionData)
  | notifyMessage (m : Message) (duplicated : Bool)
  | notifySessionMessage
  | sessionEnd
  | processCb
  | calibrateClicked (result : Int)
  | idleFinalizeUi

/-- One operation, as far as it is one step under the lock. -/
def step (s : ClientState) : Operation → Except Failure ClientState
  | .start sessionData => .ok (start sessionData s)
  | .notifyMessage m duplicated => (notifyMessage m duplicated s).map Prod.fst
  | .notifySessionMessage => .ok (notifySessionMessage s)
  | .sessionEnd => .ok (sessionEnd s)
  | .processCb => (processEvent s.cbData).map fun p => { s with cbData := p.1 }
  | .calibrateClicked result =>
    (calibrateClicked result s.cbData).map fun p => { s with cbData := p.1 }
  | .idleFinalizeUi => .ok { s with cbData := idleFinalizeUi s.cbData }

/-- The step relation of the client.  What fails has no successor. -/
def Step (s : ClientState) (op : Operation) (s' : ClientState) : Prop :=
  step s op = .ok s'

/-- The client before its first session, whatever the bias is to begin with. -/
def initialState (consoleMode clientMode : Bool) (bias : SensorBias) : ClientState :=
  { consoleMode, sessionData := none
    cbData := { clientMode, clientSensorBias := bias, eventQueue := [], messageQueue := [] } }

end Mpu6050.Client
