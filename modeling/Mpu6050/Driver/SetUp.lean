/-
The driver while it is being set up, on the memory of its ring.

The operations do not all become possible at once.  `i2c_mpu6050_probe` creates the
sysfs file before it has a work queue, starts the timer or requests the interrupt
before it starts the threads, and from each of these points on the operation may run
at any time, before `i2c_mpu6050_probe` goes on or long after.

Which index an operation uses is a question about what is in memory, overrun slots and
all, so the operations are those on the memory here: the handler is the machine of
`Driver.Layout`, and the consumers see the ring that the memory holds.
-/
import Mpu6050.Driver.Layout
import Mpu6050.Lib.Steps

namespace Mpu6050

open Memory Steps

/-- The initialisations of `i2c_mpu6050_probe` that let an operation run, in its order. -/
inductive Stage
  | allocated
  | sysfs
  | workqueue
  | trigger
  | netlink
  | server
deriving DecidableEq

/-- How many of them are done. -/
def Stage.rank : Stage → Nat
  | .allocated => 0
  | .sysfs => 1
  | .workqueue => 2
  | .trigger => 3
  | .netlink => 4
  | .server => 5

/-- The next one. -/
def Stage.next : Stage → Option Stage
  | .allocated => some .sysfs
  | .sysfs => some .workqueue
  | .workqueue => some .trigger
  | .trigger => some .netlink
  | .netlink => some .server
  | .server => none

/-- The operations that take `sync_lock`, each with what it is given from outside. -/
inductive MemoryOp
  | handler (nofifo : Int) (now : UInt64) (bus : BusAnswers)
  | clear
  | sysfsRead (offset : Int) (count : Nat)
  | netlink (results : ForwardResults)
  | server (sk : Bool)

/-- The operations that can run once a stage is reached. -/
def Stage.Allows (p : Params) (stage : Stage) : MemoryOp → Prop
  | .handler _ _ _ => Stage.trigger.rank ≤ stage.rank
  | .clear => Stage.sysfs.rank ≤ stage.rank
  | .sysfsRead _ _ => Stage.sysfs.rank ≤ stage.rank
  | .netlink _ => p.nonetlink = 0 ∧ Stage.netlink.rank ≤ stage.rank
  | .server _ => p.noserver = 0 ∧ Stage.server.rank ≤ stage.rank

/-- The operation comes to an access `ringbuffer[i]` with `i` outside the array. -/
def AccessesOutside (m : Bytes) : MemoryOp → Prop
  | .handler nofifo now bus =>
    (∃ i, wqStart nofifo now m = .error (.index i)) ∨
      ∃ s n i, wqStart nofifo now m = .ok s ∧ iter (wqStep nofifo bus) n s = .error (.index i)
  | .clear => False
  | .sysfsRead offset count => ∃ i, ringbufferRead offset count (clientAt m) = .error (.index i)
  | .netlink results => ∃ i, netlinkRun results (clientAt m) = .error (.index i)
  | .server sk => ∃ i, serverRun sk (clientAt m) = .error (.index i)

/-- An operation that returns, and the memory it leaves. -/
inductive MemoryStep (m : Bytes) : MemoryOp → Bytes → Prop
  | handler {nofifo : Int} {now : UInt64} {bus : BusAnswers} {s t : WqState} {exit : WqExit}
      (hstart : wqStart nofifo now m = .ok s) (hrun : Settles (wqStep nofifo bus) s t)
      (hlabel : t.label = .unlocked exit) : MemoryStep m (.handler nofifo now bus) t.memory
  | clear : MemoryStep m .clear (clearMemory m)
  | sysfsRead {offset : Int} {count : Nat} {r : Option (List Char) × Int}
      (h : ringbufferRead offset count (clientAt m) = .ok r) :
      MemoryStep m (.sysfsRead offset count) m
  | netlink {results : ForwardResults} {steps : List BufferStep}
      (h : netlinkRun results (clientAt m) = .ok steps) : MemoryStep m (.netlink results) m
  | server {sk : Bool} {datagram : Option Datagram}
      (h : serverRun sk (clientAt m) = .ok datagram) : MemoryStep m (.server sk) m

/-- The ring, and how far the driver's set-up has come. -/
structure StagedState where
  stage : Stage
  memory : Bytes

/-- The set-up going on, or an operation. -/
inductive StagedEvent
  | init
  | op (op : MemoryOp)

/-- The device data has just been allocated. -/
def allocatedState : StagedState :=
  { stage := .allocated, memory := probedMemory }

/--
The steps of the driver from there on.  An operation that accesses outside the ring
has no successor: nothing is promised after it.
-/
inductive StagedStep (p : Params) : StagedState → StagedEvent → StagedState → Prop
  | init {s : StagedState} {stage : Stage} (h : s.stage.next = some stage) :
      StagedStep p s .init { s with stage }
  | op {s : StagedState} {op : MemoryOp} {memory : Bytes} (hallows : s.stage.Allows p op)
      (hstep : MemoryStep s.memory op memory) : StagedStep p s (.op op) { s with memory }

end Mpu6050
