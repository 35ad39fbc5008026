/-
The user interface in operation: what `process_cb` does, to its end.

The operations on the queues are those of `Client.Queues`, and what is added here is what they
leave out: the numbers as the program has them, the camera, the stores to the temperature
curve, and the release of the message.

A message shorter than a dataset is followed too.  `extract_data` reads 14 bytes from `rd_ptr ()`
on, and the data block has as many, whatever came in the datagram: what lies behind the payload
is left over from before, and is decoded like the rest.

All callbacks run in the thread of the user interface, so none comes between two parts of
another.  The stores before the start of `temperature` go to `OpenGLRefreshId` and
`OpenGLDoubleBuffered`, which none of these functions looks at.
-/
import Mpu6050.Client.Camera

namespace Mpu6050.Client

/-- The 14 bytes from `rd_ptr ()` on, as far as they are in the data block. -/
def Message.data (m : Message) : Except Failure Data :=
  if h : m.rdPtr + ringbufferDataSize ≤ m.dataBlock.length then
    .ok fun i => m.dataBlock.get ⟨m.rdPtr + i.val, by omega⟩
  else .error (.outside (m.dataBlock.length - m.rdPtr))

/-- The client, of which the mode and the queues are looked at here, the bias and the camera as
the program has them, and the place of the temperature curve, which nothing writes. -/
structure ViewState (F : Type) where
  client : ClientState
  bias : Bias F
  camera : Camera F
  temperatureIndex : Int

/-- What a call of `process_cb` leaves, and what it has done. -/
structure Ticked (F : Type) where
  cbData : CBData
  camera : Camera F
  /-- the values it has to show, if it has any -/
  shown : Option (Sample F)
  /-- what it stores to `temperature`, and where -/
  stored : List (Int × F)
  released : List Message
  /-- It returned `TRUE`. -/
  continues : Bool

variable {F : Type} (fl : Floats F)

/-- `process_cb` when it has no message to show. -/
def Ticked.idle (cbData : CBData) (camera : Camera F) (continues : Bool) : Ticked F :=
  { cbData, camera, shown := none, stored := [], released := [], continues }

/-- Steps 1a and 1b of `process_cb`: the values it has to show. -/
def Floats.values (clientMode : Bool) (bias : Bias F) (data : Data) : Sample F :=
  if clientMode then fl.correct bias (fl.extractData data) else fl.extractData data

/-- The rest of `process_cb`, with the result of its `sprintf`. -/
def showMessage (result : Int) (s : ViewState F) (cbData : CBData) (m : Message)
    (values : Sample F) : Ticked F :=
  if result < 0 then
    { cbData, camera := s.camera, shown := some values, stored := [], released := [m],
      continues := false }
  else
    { cbData, camera := s.camera.turn fl (fl.angles values), shown := some values,
      stored := fl.temperatureStores s.temperatureIndex values.temp, released := [m],
      continues := true }

/-- `process_cb` -/
def processTick (result : Int) (s : ViewState F) : Except Failure (Ticked F) := do
  let (cbData, tick) ← processEvent s.client.cbData
  match tick with
  | .continue => pure (.idle cbData s.camera true)
  | .stop => pure (.idle cbData s.camera false)
  | .message m =>
    if m.size ≠ streamBufferSize then .error .assertion
    else m.data.map fun data =>
      showMessage fl result s cbData m (fl.values cbData.clientMode s.bias data)

/-- `calibrate_clicked_gtk_cb`, as far as it leaves anything changed. -/
def calibrateView (s : ViewState F) : Except Failure (ViewState F) :=
  if !s.client.cbData.clientMode then .error .assertion
  else if s.client.cbData.eventQueue = [] then .ok { s with bias := fl.zeroBias }
  else
    match s.client.cbData.messageQueue with
    | [] => .error .emptyQueue
    | m :: _ => m.data.map fun data => { s with bias := fl.restBias (fl.extractData data) }

/-- `notify` for a message.  In console mode it is decoded and printed, and nothing changes. -/
def notifyView (m : Message) (duplicated : Bool) (s : ViewState F) :
    Except Failure (ViewState F) :=
  if s.client.consoleMode then
    if s.client.sessionData.isNone then .error .assertion else m.data.map fun _ => s
  else (step s.client (.notifyMessage m duplicated)).map fun client => { s with client }

/-- One operation that takes the lock, other than `process_cb`. -/
def operate (s : ViewState F) : Operation → Except Failure (ViewState F)
  | .notifyMessage m duplicated => notifyView m duplicated s
  | .calibrateClicked _ => calibrateView fl s
  | op => (step s.client op).map fun client => { s with client }

/-- What happens to the user interface. -/
inductive ViewEvent (F : Type)
  /-- an operation that takes the lock, other than `process_cb` -/
  | operation (op : Operation)
  /-- `process_cb`, what it had to show, and what it released -/
  | tick (result : Int) (shown : Option (Sample F)) (released : List Message)
  | motion (event : MotionEvent)
  | key (keyval : Key)

/-- The step relation of the user interface.  What fails has no successor. -/
inductive ViewStep : ViewState F → ViewEvent F → ViewState F → Prop
  | operation {s s' : ViewState F} {op : Operation} (hop : op ≠ .processCb)
      (hstep : operate fl s op = .ok s') : ViewStep s (.operation op) s'
  | tick {s : ViewState F} {result : Int} {ticked : Ticked F}
      (htick : processTick fl result s = .ok ticked) :
      ViewStep s (.tick result ticked.shown ticked.released)
        { s with client := { s.client with cbData := ticked.cbData }, camera := ticked.camera }
  | motion {s : ViewState F} (event : MotionEvent) :
      ViewStep s (.motion event) { s with camera := Client.motion fl event s.camera }
  | key {s : ViewState F} (keyval : Key) :
      ViewStep s (.key keyval) { s with camera := Client.key fl keyval s.camera }

/-- The client before its first session. -/
def initialView (consoleMode clientMode : Bool) (bias : Bias F) : ViewState F :=
  { client := initialState consoleMode clientMode zeroBias, bias, camera := resetCamera fl,
    temperatureIndex := -1 }

end Mpu6050.Client
