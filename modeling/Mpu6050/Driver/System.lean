/-
The driver in operation: the handler, the clear and the three consumers, in any
order, each whole under `sync_lock`.

`Op` lists the operations with what each is given from outside, and `opStep` is the
one step function of the system; everything proved about runs is proved from it.
The state is the shared data and, beside it, what the most recent run of the handler
read, so that a sample can be held against it.
-/
import Mpu6050.Driver.Consumers
import Mpu6050.Driver.Wq

namespace Mpu6050

/-- The operations that take `sync_lock`. -/
inductive Op
  | handler (work : ReadWork)
  | clear
  | sysfsRead (offset : Int) (count : Nat)
  | netlink (results : ForwardResults)
  | server (sk : Bool)

/-- A sample on its way out of the driver. -/
inductive Emission
  | datagram (d : Datagram)
  | message (attrs : List (NetlinkAttribute × BitVec 16))
  | line (text : List Char)

/-- The shared data, and what the most recent run of the handler read. -/
structure DriverState where
  client : ClientData
  transfers : Transfers

/-- The state `i2c_mpu6050_probe` sets up. -/
def probedState : DriverState :=
  { client := probedClientData, transfers := [] }

/-- The message of a buffer step, if it hands one out. -/
def BufferStep.emission : BufferStep → Option Emission
  | .multicast attrs => some (.message attrs)
  | _ => none

/-- One operation: the state it leaves, and the samples it emits. -/
def opStep (nofifo : Int) (s : DriverState) : Op → Except Stuck (DriverState × List Emission)
  | .handler work => do
    let (client, transfers) ← wqReadHandler nofifo work s.client
    pure ({ client, transfers }, [])
  | .clear => pure ({ s with client := ringbufferClear s.client }, [])
  | .sysfsRead offset count => do
    let (text, _) ← ringbufferRead offset count s.client
    pure (s, text.toList.map .line)
  | .netlink results => do
    let steps ← netlinkRun results s.client
    pure (s, steps.filterMap BufferStep.emission)
  | .server sk => do
    let datagram ← serverRun sk s.client
    pure (s, datagram.toList.map .datagram)

/-- The step relation of the system, for one value of `nofifo`. -/
def OpStep (nofifo : Int) (s : DriverState) (op : Op) (s' : DriverState) : Prop :=
  ∃ emitted, opStep nofifo s op = .ok (s', emitted)

end Mpu6050
