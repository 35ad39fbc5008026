/-
From the chip to the picture: the driver, the network and the client together.

The driver's operations run in any order under `sync_lock`, and what its server thread sends goes
to the network.  The network promises nothing: what was sent may arrive any number of times, in
any order, or not at all.  What arrives becomes a message of the client, one message for one
datagram, whose data block and pointers are the library's; and from there on it is for the
client's own operations.

`sock_sendmsg` takes its length as a `size_t`, so that a negative one is more than a datagram can
carry and nothing is sent.  One beyond the slot's data would send what lies behind it; the
register mode never has one, and those bytes are not followed here.
-/
import Mpu6050.Client.View
import Mpu6050.Driver.System

namespace Mpu6050.Client

/-- The payload of a message: what lies between its two pointers. -/
def Message.payload (m : Message) : List U8 := (m.dataBlock.drop m.rdPtr).take m.length

/-- The driver, everything it has sent, and the client. -/
structure LinkState (F : Type) where
  driver : DriverState
  sent : List (List U8)
  view : ViewState F

/-- What happens to them. -/
inductive LinkEvent (F : Type)
  | driver (op : Op)
  /-- a datagram arrives, and `duplicate ()` copies its message or does not -/
  | deliver (m : Message) (duplicated : Bool)
  | view (event : ViewEvent F)

end Mpu6050.Client

namespace Mpu6050

/-- The bytes of a datagram, if it can be sent. -/
def Datagram.payload (d : Datagram) : Option (List U8) :=
  if d.length < 0 then none else some ((List.ofFn d.buffer).take d.length.toNat)

/-- What an emission puts on the network. -/
def Emission.sent : Emission → Option (List U8)
  | .datagram d => d.payload
  | _ => none

end Mpu6050

namespace Mpu6050.Client

variable {F : Type} (fl : Floats F)

/-- An event other than the arrival of a message, which comes from the network. -/
def ViewEvent.IsLocal : ViewEvent F → Prop
  | .operation (.notifyMessage _ _) => False
  | _ => True

/-- The step relation of the three.  What is stuck, or fails, has no successor, but for a read
of the sysfs file before the first sample: that looks outside the ring, and changes nothing. -/
inductive LinkStep (nofifo : Int) : LinkState F → LinkEvent F → LinkState F → Prop
  | driver {s : LinkState F} {op : Op} {driver : DriverState} {emitted : List Emission}
      (hstep : opStep nofifo s.driver op = .ok (driver, emitted)) :
      LinkStep nofifo s (.driver op)
        { s with driver, sent := s.sent ++ emitted.filterMap Emission.sent }
  | stray {s : LinkState F} {offset : Int} {count : Nat}
      (hstart : s.driver.client.ringbufferpos = -1) :
      LinkStep nofifo s (.driver (.sysfsRead offset count)) s
  | deliver {s : LinkState F} {m : Message} {duplicated : Bool} {view : ViewState F}
      (hsent : m.payload ∈ s.sent) (hstep : notifyView m duplicated s.view = .ok view) :
      LinkStep nofifo s (.deliver m duplicated) { s with view }
  | view {s : LinkState F} {event : ViewEvent F} {view : ViewState F} (hlocal : event.IsLocal)
      (hstep : ViewStep fl s.view event view) : LinkStep nofifo s (.view event) { s with view }

/-- The driver just probed, nothing sent, and the client before its first session. -/
def initialLink (consoleMode clientMode : Bool) (bias : Bias F) : LinkState F :=
  { driver := probedState, sent := [], view := initialView fl consoleMode clientMode bias }

/-- The operations of the driver among the events. -/
def LinkEvent.op : LinkEvent F → Option Op
  | .driver op => some op
  | _ => none

def driverOps (es : List (LinkEvent F)) : List Op := es.filterMap LinkEvent.op

end Mpu6050.Client
