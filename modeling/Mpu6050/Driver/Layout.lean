/-
The ring as it lies in memory, and the work queue handler on it.

A block read that brings more than a slot's `data` holds does not stop there: it goes on
into what follows.  `struct i2c_mpu6050_wq_ringbuffer_entry_t` is 32 bytes long,

      0 .. 3     used
      4 .. 17    data
     18 .. 19    padding
     20 .. 23    size
     24 .. 31    timestamp

and `ringbufferpos` comes right after the 64 slots.  A block read stores 32 bytes at most,
so those past the 14 of `data` go over the padding, over `size` and `timestamp` of the same
slot and over `used` of the next one, or over `ringbufferpos` if there is no next one.

`clientAt` is the ring that a memory holds, and `wqStep` the body of
`i2c_mpu6050_wq_read_handler`, label by label, on that memory.  It looks up
`ringbuffer[ringbufferpos]` as often as the source does, since `ringbufferpos` itself may
have been stored over; only an index outside the array stops it.
-/
import Mpu6050.Driver.WqSteps
import Mpu6050.Driver.Consumers
import Mpu6050.Lib.Memory

namespace Mpu6050

open Memory

/-! ### Where the members are -/

/-- `&ringbuffer[i].used`, each slot being 32 bytes long -/
def usedAddr (i : Fin ringbufferSize) : Nat := 32 * i.val

/-- `ringbuffer[i].data` -/
def dataAddr (i : Fin ringbufferSize) : Nat := 32 * i.val + 4

/-- `&ringbuffer[i].size` -/
def sizeAddr (i : Fin ringbufferSize) : Nat := 32 * i.val + 20

/-- `&ringbuffer[i].timestamp` -/
def timestampAddr (i : Fin ringbufferSize) : Nat := 32 * i.val + 24

/-- `&ringbufferpos`, past the last slot -/
def ringbufferposAddr : Nat := 32 * ringbufferSize

/-- The addresses as numbers. -/
theorem addr_eq (i : Fin ringbufferSize) :
    i.val < 64 ∧ usedAddr i = 32 * i.val ∧ dataAddr i = 32 * i.val + 4 ∧
      sizeAddr i = 32 * i.val + 20 ∧ timestampAddr i = 32 * i.val + 24 ∧
      ringbufferposAddr = 2048 :=
  ⟨i.isLt, rfl, rfl, rfl, rfl, rfl⟩

/-- `ringbufferpos` -/
def ringbufferposAt (m : Bytes) : Int := loadInt m ringbufferposAddr

/-- `ringbuffer[i].used` -/
def usedAt (m : Bytes) (i : Fin ringbufferSize) : Int := loadInt m (usedAddr i)

/-- `ringbuffer[i].size` -/
def sizeAt (m : Bytes) (i : Fin ringbufferSize) : Int := loadInt m (sizeAddr i)

/-- `ringbuffer[i]` -/
def entryAt (m : Bytes) (i : Fin ringbufferSize) : RingbufferEntry where
  used := decide (usedAt m i ≠ 0)
  data j := m (dataAddr i + j.val)
  size := sizeAt m i
  timestamp := UInt64.ofNat (load m (timestampAddr i) 8)

/-- The ring that a memory holds. -/
def clientAt (m : Bytes) : ClientData where
  ringbuffer := entryAt m
  ringbufferpos := ringbufferposAt m

/-- What `i2c_mpu6050_probe` allocates and sets up. -/
def probedMemory : Bytes := storeInt (fun _ => 0) ringbufferposAddr (-1)

/-- The index in `ringbuffer[ringbufferpos]`. -/
def currentSlot (m : Bytes) : Except Stuck (Fin ringbufferSize) :=
  ringbufferIndex (ringbufferposAt m)

/-! ### The handler -/

/-- The handler under way, and the block reads it has made. -/
structure WqState where
  label : WqLabel
  memory : Bytes
  reads : Nat
  syncLock : Bool

/-- The slot as the handler resets it before it reads. -/
def resetSlot (now : UInt64) (m : Bytes) (i : Fin ringbufferSize) : Bytes :=
  let m := storeInt m (usedAddr i) 1
  let m := storeInt m (sizeAddr i) 0
  store m (timestampAddr i) (bytesOf 8 now.toNat)

/-- `i2c_mpu6050_wq_read_handler` from `mutex_lock` up to the test of `nofifo`. -/
def wqStart (nofifo : Int) (now : UInt64) (m : Bytes) : Except Stuck WqState := do
  let pos := nextPos (ringbufferposAt m)
  let i ← ringbufferIndex pos
  pure
    { label := if nofifo = 0 then .fifoCount else .registers
      memory := resetSlot now (storeInt m ringbufferposAddr pos) i
      reads := 0
      syncLock := true }

/-- `ringbuffer[ringbufferpos].size += err`, once the block has been stored. -/
def storeRead (m : Bytes) (bs : List U8) : Except Stuck Bytes := do
  let i ← currentSlot m
  let m := store m (dataAddr i) bs
  let j ← currentSlot m
  pure (storeInt m (sizeAddr j) (sizeAt m j + bs.length))

/-- `ringbuffer[ringbufferpos].size`, as the block read of the registers leaves it. -/
def storeRegisters (m : Bytes) : BlockAnswer → Except Stuck Bytes
  | .fail e => do
    let i ← currentSlot m
    pure (storeInt m (sizeAddr i) e.val)
  | .bytes bs => do
    let i ← currentSlot m
    let m := store m (dataAddr i) bs
    let j ← currentSlot m
    pure (storeInt m (sizeAddr j) bs.length)

/-- One step of `i2c_mpu6050_wq_read_handler`. -/
def wqStep (nofifo : Int) (bus : BusAnswers) (s : WqState) : Except Stuck WqState :=
  let bytesToRead := if nofifo = 0 then deviceFifoCount bus.count else deviceBlockLength
  match s.label with
  | .fifoCount =>
    if bytesToRead < 0 then .ok { s with label := .cleanUp }
    else if bytesToRead = 0 then .ok { s with label := .cleanUp }
    else .ok { s with label := .doLoop }
  | .doLoop => do
    let i ← currentSlot s.memory
    if sizeAt s.memory i < bytesToRead then
      match smbusReadI2cBlockData bytesToRead (bus.answers s.reads) with
      | .fail _ => .ok { s with label := .cleanUp, reads := s.reads + 1 }
      | .bytes bs => do
        let memory ← storeRead s.memory bs
        .ok { s with label := .doDispatch, memory, reads := s.reads + 1 }
    else .ok { s with label := .doDispatch }
  | .registers => do
    let answer := smbusReadI2cBlockData bytesToRead (bus.answers s.reads)
    let memory ← storeRegisters s.memory answer
    .ok { s with label := .doDispatch, memory, reads := s.reads + 1 }
  | .doDispatch =>
    if nofifo = 0 then do
      let i ← currentSlot s.memory
      if sizeAt s.memory i < bytesToRead then .ok { s with label := .doLoop }
      else .ok { s with label := .unlocked .doDispatch, syncLock := false }
    else .ok { s with label := .unlocked .doDispatch, syncLock := false }
  | .cleanUp => do
    let i ← currentSlot s.memory
    let memory := storeInt s.memory (usedAddr i) 0
    .ok { s with label := .unlocked .cleanUp, memory, syncLock := false }
  | .unlocked _ => .ok s

/-- `i2c_mpu6050_ringbuffer_clear`, slot by slot. -/
def clearMemory (m : Bytes) : Bytes :=
  (List.finRange ringbufferSize).foldl (fun m i => storeInt m (usedAddr i) 0) m

end Mpu6050
