/-
The data the driver's threads share, and the ways an operation can fail to return.

`olimex_mod_mpu6050_types.h` keeps one record per device; the part of it the
acquisition path and the consumers work on is the ring of samples and the position
written last, guarded by `sync_lock`.  Operations run whole under that lock, so
each is a function from one ring to the next.

Two things can keep such an operation from returning, and both are kept visible
here.  An access outside an array is undefined behaviour in C and nothing is
promised after it: `Stuck.index` is an access to `ringbuffer[i]` with `i` outside
the array, `Stuck.store` a block read that stored more bytes than a slot's `data`
holds.  What such a block goes over is known all the same, and `Driver.Layout` follows it
there.  And an operation may still be waiting for the bus, with the lock held, when
the answers listed are used up: `Stuck.pending`.
-/
import Mathlib.Logic.Function.Basic

namespace Mpu6050

/-- A byte, `u8`. -/
abbrev U8 := BitVec 8

/-- `KO_OLIMEX_MOD_MPU6050_DEVICE_BLOCK_LENGTH`: the bytes of one complete dataset. -/
abbrev deviceBlockLength : Nat := 14

/-- `KO_OLIMEX_MOD_MPU6050_RINGBUFFER_DATA_SIZE` -/
abbrev ringbufferDataSize : Nat := deviceBlockLength

/-- `KO_OLIMEX_MOD_MPU6050_RINGBUFFER_SIZE` -/
abbrev ringbufferSize : Nat := 64

/-- The error codes kernel functions return: `-MAX_ERRNO` up to -1. -/
abbrev Errno := {e : Int // -4095 ≤ e ∧ e < 0}

/-- `-EIO` -/
def eio : Errno := ⟨-5, by decide⟩

/-- `-EINVAL` -/
def einval : Errno := ⟨-22, by decide⟩

/-- `-ENOMEM` -/
def enomem : Errno := ⟨-12, by decide⟩

/-- `-ENOSYS` -/
def enosys : Errno := ⟨-38, by decide⟩

/-- The module parameters, all of them writable at run time. -/
structure Params where
  noirq : Int
  nofifo : Int
  nonetlink : Int
  noserver : Int
  /-- `in_aton (peer)` -/
  peer : BitVec 32
  port : Int
deriving DecidableEq

/-- The parameters the module comes with. -/
def defaultParams : Params :=
  { noirq := 0, nofifo := 0, nonetlink := 0, noserver := 1, peer := 0, port := 10001 }

/-- Polling the registers, with neither thread. -/
def pollingParams : Params :=
  { noirq := 1, nofifo := 1, nonetlink := 1, noserver := 1, peer := 0, port := 10001 }

/-- `be16_to_cpus` on a little-endian CPU. -/
def be16ToCpus (x : BitVec 16) : BitVec 16 :=
  (x.setWidth 8 ++ (x >>> 8).setWidth 8 : BitVec 16)

/-- Why an operation has not returned. -/
inductive Stuck
  /-- `ringbuffer[i]` was accessed with `i` outside the array. -/
  | index (i : Int)
  /-- A block read stored `n` bytes, more than a slot's `data` holds. -/
  | store (n : Nat)
  /-- The bus has not answered yet; `sync_lock` is still held. -/
  | pending
deriving DecidableEq, Repr

/-- The `data` member of a slot. -/
abbrev Data := Fin ringbufferDataSize → U8

/-- `struct i2c_mpu6050_wq_ringbuffer_entry_t` -/
structure RingbufferEntry where
  used : Bool
  data : Data
  size : Int
  timestamp : UInt64

/-- The members of `struct i2c_mpu6050_client_data_t` that `sync_lock` guards. -/
structure ClientData where
  ringbuffer : Fin ringbufferSize → RingbufferEntry
  ringbufferpos : Int

/-- What `kzalloc` leaves in a slot. -/
def zeroEntry : RingbufferEntry :=
  { used := false, data := fun _ => 0, size := 0, timestamp := 0 }

/-- The ring `i2c_mpu6050_probe` sets up: zeroed slots, and no position yet. -/
def probedClientData : ClientData :=
  { ringbuffer := fun _ => zeroEntry, ringbufferpos := -1 }

/-- The array bound of `ringbuffer[i]`. -/
def ringbufferIndex (i : Int) : Except Stuck (Fin ringbufferSize) :=
  if h : 0 ≤ i ∧ i < ringbufferSize then .ok ⟨i.toNat, by omega⟩ else .error (.index i)

/-- Writing one slot. -/
def ClientData.setEntry (cd : ClientData) (i : Fin ringbufferSize) (e : RingbufferEntry) :
    ClientData :=
  { cd with ringbuffer := Function.update cd.ringbuffer i e }

end Mpu6050
