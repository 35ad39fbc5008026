/-
The operations of the driver, access by access.

`Driver.System` runs each operation whole, because each holds `sync_lock` while it works.
Here nothing runs whole: the operations are cut at every access they make to the ring and
its position, down to the single bytes of a slot's `data`, and any number of threads may be
anywhere in any of them.  `mutex_lock` and `mutex_unlock` are steps like the others, and an
access does not ask who has the lock.

What the kernel gives a step is `Given`: any clock value, and any answer of the bus.
-/
import Mpu6050.Driver.System
import Mpu6050.Lib.Sections

namespace Mpu6050

open Sections

/-- What a step is given if it asks: the time, the FIFO count, the answer to a block read. -/
structure Given where
  now : UInt64
  count : WordAnswer
  answer : BlockAnswer

/-- The next access of `i2c_mpu6050_wq_read_handler`. -/
inductive HandlerPc
  /-- `ringbufferpos++` -/
  | increment
  /-- from the end of the ring back to 0 -/
  | wrap
  | setUsed
  | setSize
  | setTimestamp
  /-- the count, which is not an access to the ring -/
  | fifoCount
  /-- the block read under `do_loop` -/
  | doLoop
  /-- the block read of the other branch -/
  | registers
  /-- a block read that has stored so much of what it brought -/
  | store (stored rest : List U8)
  /-- `size += err` -/
  | addSize (err : Int)
  /-- `size = i2c_smbus_read_i2c_block_data (..)` -/
  | assignSize (err : Int)
  | doDispatch
  | cleanUp
deriving DecidableEq

/-- The handler under way, with its local variable. -/
structure HandlerThread where
  pc : HandlerPc
  bytesToRead : Int
deriving DecidableEq

/-- The three that look at the sample, with what each is given from outside. -/
inductive Consumer
  | sysfsRead (offset : Int) (count : Nat)
  | netlink (results : ForwardResults)
  | server (sk : Bool)

/-- The next access of a consumer. -/
inductive ConsumerPc
  /-- `ringbufferpos == -1` -/
  | sentinel
  /-- `ringbuffer[ringbufferpos].used == 0` -/
  | testUsed
  /-- `ringbuffer[i].used == 0`, a second time -/
  | testAgain (i : Int)
  /-- the bytes of `ringbuffer[i].data`, so many of which have been read -/
  | load (i : Int) (bytes : List U8)
deriving DecidableEq

/-- Where a thread is. -/
inductive Place
  /-- in none of the operations -/
  | outside
  | handler (t : HandlerThread)
  /-- in the loop of `i2c_mpu6050_ringbuffer_clear` -/
  | clear (i : Nat)
  | consumer (c : Consumer) (pc : ConsumerPc)
  /-- at `mutex_unlock` -/
  | leaving

/-- A change to the slot at `ringbufferpos`. -/
def ClientData.atPos (cd : ClientData) (f : RingbufferEntry → RingbufferEntry) :
    Except Stuck ClientData := do
  let i ← ringbufferIndex cd.ringbufferpos
  pure (cd.setEntry i (f (cd.ringbuffer i)))

/-- One byte of a block read, stored. -/
def storeByte (n : Nat) (b : U8) (entry : RingbufferEntry) : Except Stuck RingbufferEntry :=
  if h : n < ringbufferDataSize then
    .ok { entry with data := Function.update entry.data ⟨n, h⟩ b }
  else .error (.store (n + 1))

/-- One access of `i2c_mpu6050_wq_read_handler`. -/
def handlerAccess (nofifo : Int) (given : Given) (cd : ClientData) (t : HandlerThread) :
    Except Stuck (ClientData × Place) :=
  match t.pc with
  | .increment =>
    .ok ({ cd with ringbufferpos := cd.ringbufferpos + 1 }, .handler { t with pc := .wrap })
  | .wrap =>
    .ok (if cd.ringbufferpos = ringbufferSize then { cd with ringbufferpos := 0 } else cd,
      .handler { t with pc := .setUsed })
  | .setUsed => do
    let cd ← cd.atPos fun entry => { entry with used := true }
    pure (cd, .handler { t with pc := .setSize })
  | .setSize => do
    let cd ← cd.atPos fun entry => { entry with size := 0 }
    pure (cd, .handler { t with pc := .setTimestamp })
  | .setTimestamp => do
    let cd ← cd.atPos fun entry => { entry with timestamp := given.now }
    pure (cd, .handler { t with pc := if nofifo = 0 then .fifoCount else .registers })
  | .fifoCount =>
    let bytesToRead := deviceFifoCount given.count
    let pc := if bytesToRead < 0 then .cleanUp else if bytesToRead = 0 then .cleanUp else .doLoop
    .ok (cd, .handler { pc, bytesToRead })
  | .doLoop => do
    let i ← ringbufferIndex cd.ringbufferpos
    if (cd.ringbuffer i).size < t.bytesToRead then
      match smbusReadI2cBlockData t.bytesToRead given.answer with
      | .fail _ => pure (cd, .handler { t with pc := .cleanUp })
      | .bytes bs => pure (cd, .handler { t with pc := .store [] bs })
    else pure (cd, .handler { t with pc := .doDispatch })
  | .registers =>
    match smbusReadI2cBlockData deviceBlockLength given.answer with
    | .fail e => .ok (cd, .handler { pc := .assignSize e.val, bytesToRead := deviceBlockLength })
    | .bytes bs => .ok (cd, .handler { pc := .store [] bs, bytesToRead := deviceBlockLength })
  | .store stored [] =>
    let pc := if nofifo = 0 then .addSize stored.length else .assignSize stored.length
    .ok (cd, .handler { t with pc })
  | .store stored (b :: rest) => do
    let i ← ringbufferIndex cd.ringbufferpos
    let entry ← storeByte stored.length b (cd.ringbuffer i)
    pure (cd.setEntry i entry, .handler { t with pc := .store (stored ++ [b]) rest })
  | .addSize err => do
    let cd ← cd.atPos fun entry => { entry with size := entry.size + err }
    pure (cd, .handler { t with pc := .doDispatch })
  | .assignSize err => do
    let cd ← cd.atPos fun entry => { entry with size := err }
    pure (cd, .handler { t with pc := .doDispatch })
  | .doDispatch => do
    let i ← ringbufferIndex cd.ringbufferpos
    if nofifo = 0 ∧ (cd.ringbuffer i).size < t.bytesToRead then
      pure (cd, .handler { t with pc := .doLoop })
    else pure (cd, .leaving)
  | .cleanUp => do
    let cd ← cd.atPos cleanUp
    pure (cd, .leaving)

/-- One round of the loop of `i2c_mpu6050_ringbuffer_clear`. -/
def clearAccess (cd : ClientData) (i : Nat) : ClientData × Place :=
  if h : i < ringbufferSize then
    (cd.setEntry ⟨i, h⟩ { cd.ringbuffer ⟨i, h⟩ with used := false }, .clear (i + 1))
  else (cd, .leaving)

/-- What a consumer hands out of the data it has read. -/
def Consumer.emits (data : Data) (size : Int) : Consumer → List Emission
  | .sysfsRead _ _ => [.line (printedLine data)]
  | .netlink results => (netlinkForward results data).2.filterMap BufferStep.emission
  | .server sk => (serverSend sk data size).toList.map .datagram

/-- Where a consumer begins: the sysfs read does not look for the sentinel. -/
def Consumer.start : Consumer → ConsumerPc
  | .sysfsRead _ _ => .testUsed
  | .netlink _ | .server _ => .sentinel

/-- What follows a slot in use: the two threads test it again. -/
def Consumer.found (i : Int) : Consumer → ConsumerPc
  | .sysfsRead _ _ => .load i []
  | .netlink _ | .server _ => .testAgain i

/-- One access of a consumer, which changes nothing. -/
def consumerAccess (c : Consumer) (cd : ClientData) (pc : ConsumerPc) :
    Except Stuck (Place × List Emission) :=
  match pc with
  | .sentinel =>
    .ok (if cd.ringbufferpos = -1 then .leaving else .consumer c .testUsed, [])
  | .testUsed => do
    let i ← ringbufferIndex cd.ringbufferpos
    pure (if (cd.ringbuffer i).used = false then .leaving
      else .consumer c (c.found cd.ringbufferpos), [])
  | .testAgain i => do
    let k ← ringbufferIndex i
    pure (if (cd.ringbuffer k).used = false then .leaving else .consumer c (.load i []), [])
  | .load i bytes => do
    let k ← ringbufferIndex i
    if h : bytes.length < ringbufferDataSize then
      pure (.consumer c (.load i (bytes ++ [(cd.ringbuffer k).data ⟨bytes.length, h⟩])), [])
    else
      pure (.leaving, c.emits (fun j => (bytes[j.val]?).getD 0) (cd.ringbuffer k).size)

/-- `mutex_lock`, the first thing each operation does. -/
inductive Acquires : Place → Place → Prop
  | handler (bytesToRead : Int) : Acquires .outside (.handler { pc := .increment, bytesToRead })
  | clear : Acquires .outside (.clear 0)
  | consumer (c : Consumer) : Acquires .outside (.consumer c c.start)

/-- An access.  One outside the ring, or past the end of a slot, has no successor. -/
inductive Accesses (nofifo : Int) (cd : ClientData) :
    Place → List Emission → ClientData → Place → Prop
  | handler {t : HandlerThread} {given : Given} {cd' : ClientData} {place : Place}
      (h : handlerAccess nofifo given cd t = .ok (cd', place)) :
      Accesses nofifo cd (.handler t) [] cd' place
  | clear {i : Nat} : Accesses nofifo cd (.clear i) [] (clearAccess cd i).1 (clearAccess cd i).2
  | consumer {c : Consumer} {pc : ConsumerPc} {place : Place} {emitted : List Emission}
      (h : consumerAccess c cd pc = .ok (place, emitted)) :
      Accesses nofifo cd (.consumer c pc) emitted cd place

/-- `mutex_unlock`, the last. -/
inductive Releases : Place → Place → Prop
  | leaving : Releases .leaving .outside

/-- What a thread of the driver may do next. -/
def sectionProgram (nofifo : Int) : Program ClientData Place Emission :=
  { acquire := Acquires, access := Accesses nofifo, release := Releases }

/-- A thread is inside from `mutex_lock` to `mutex_unlock`. -/
def Place.Inside (place : Place) : Prop := place ≠ .outside

/-- The threads of the driver as `i2c_mpu6050_probe` sets them up: none is in an operation. -/
def probedThreads (T : Type) : State T ClientData Place :=
  { shared := probedClientData, lock := none, locals := fun _ => .outside }

/-- One step of one thread. -/
abbrev AccessStep (T : Type) [DecidableEq T] (nofifo : Int) :=
  Step (T := T) (sectionProgram nofifo)

end Mpu6050
