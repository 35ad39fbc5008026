/-
The work queue handler, `olimex_mod_mpu6050_wq.c`: one read of the device into the
ring.

The bus is a parameter.  A run of the handler is given the result of the FIFO-count
read and the answers to its block reads, in the order in which they are made; what
`i2c_smbus_read_i2c_block_data` makes of an answer is the kernel's documented
behaviour, that the requested length is taken as a `u8` and clamped to 32 and that
no more bytes than that are stored.  A run that wants more answers than are listed
is `pending`, so a run is a function by recursion on the list, and an endless one is
pending on every prefix of its answers.

Beside the new ring the handler's model returns what its successful block reads
delivered.  The source has no such value; it is there so that a sample can be
compared with the transfers it was read by.
-/
import Mpu6050.Driver.Types

namespace Mpu6050

/-- What the bus answers to a block read: an error, or the bytes of the chip. -/
inductive BlockAnswer
  | fail (e : Errno)
  | bytes (bs : List U8)
deriving DecidableEq

/-- What the bus answers to a word read: an error, or the word. -/
inductive WordAnswer
  | fail (e : Errno)
  | word (w : BitVec 16)
deriving DecidableEq

/-- The `s32` that `i2c_smbus_read_word_data` returns. -/
def WordAnswer.result : WordAnswer → BitVec 32
  | .fail e => BitVec.ofInt 32 e.val
  | .word w => w.setWidth 32

/-- The `s32` that `i2c_smbus_read_i2c_block_data` returns. -/
def BlockAnswer.result : BlockAnswer → Int
  | .fail e => e.val
  | .bytes bs => bs.length

/--
`i2c_mpu6050_device_fifo_count`.  The pointer is advanced by one half-word before the
swap, so on a little-endian CPU it is the upper half of the `s32` that is swapped.
-/
def deviceFifoCount (answer : WordAnswer) : Int :=
  let bytesRead := answer.result
  let upper := be16ToCpus ((bytesRead >>> 16).setWidth 16)
  (upper ++ bytesRead.setWidth 16 : BitVec 32).toInt

/-- The length a block read really asks for: narrowed to `u8`, clamped to 32. -/
def blockLength (length : Int) : Nat :=
  min (BitVec.ofInt 8 length).toNat 32

/-- `i2c_smbus_read_i2c_block_data`: an error, or at most `blockLength length` bytes. -/
def smbusReadI2cBlockData (length : Int) : BlockAnswer → BlockAnswer
  | .fail e => .fail e
  | .bytes bs => .bytes (bs.take (blockLength length))

/-- Storing the bytes of a block read from `values[0]` on, `values` being a slot's `data`.  What
a longer block goes over is not part of the slot's `data`, and is not followed here. -/
def storeBlock (data : Data) (bs : List U8) : Except Stuck Data :=
  if bs.length ≤ ringbufferDataSize then .ok fun i => (bs[i.val]?).getD (data i)
  else .error (.store bs.length)

/-- What one run of the handler is given from outside. -/
structure ReadWork where
  /-- `ktime_to_ns(ktime_get_real())` -/
  now : UInt64
  /-- The answer to the FIFO-count read. -/
  count : WordAnswer
  /-- The answers to the block reads, in order. -/
  answers : List BlockAnswer
deriving DecidableEq

/-- What the successful block reads of a run delivered, in order. -/
abbrev Transfers := List (List U8)

/-- `clean_up`: the slot is given back. -/
def cleanUp (entry : RingbufferEntry) : RingbufferEntry :=
  { entry with used := false }

/--
`do_loop`.  The body of the `while` leaves by `goto do_dispatch` after one read, and
`do_dispatch` jumps back while the slot holds less than the count, so the two tests
are one.
-/
def doLoop (bytesToRead : Int) :
    List BlockAnswer → RingbufferEntry → Transfers → Except Stuck (RingbufferEntry × Transfers)
  | answers, entry, transfers =>
    if entry.size < bytesToRead then
      match answers with
      | [] => .error .pending
      | answer :: rest =>
        match smbusReadI2cBlockData bytesToRead answer with
        | .fail _ => .ok (cleanUp entry, transfers)
        | .bytes bs =>
          match storeBlock entry.data bs with
          | .error stuck => .error stuck
          | .ok data =>
            doLoop bytesToRead rest { entry with data, size := entry.size + bs.length }
              (transfers ++ [bs])
    else .ok (entry, transfers)

/-- The `nofifo == 0` branch of the handler. -/
def readFifo (work : ReadWork) (entry : RingbufferEntry) :
    Except Stuck (RingbufferEntry × Transfers) :=
  let bytesToRead := deviceFifoCount work.count
  if bytesToRead < 0 then .ok (cleanUp entry, [])
  else if bytesToRead = 0 then .ok (cleanUp entry, [])
  else doLoop bytesToRead work.answers entry []

/-- The other branch: one complete set of data, whatever becomes of the read. -/
def readRegisters (work : ReadWork) (entry : RingbufferEntry) :
    Except Stuck (RingbufferEntry × Transfers) :=
  match work.answers with
  | [] => .error .pending
  | answer :: _ =>
    match smbusReadI2cBlockData deviceBlockLength answer with
    | .fail e => .ok ({ entry with size := e.val }, [])
    | .bytes bs =>
      match storeBlock entry.data bs with
      | .error stuck => .error stuck
      | .ok data => .ok ({ entry with data, size := bs.length }, [bs])

/-- `ringbufferpos++`, wrapped. -/
def nextPos (pos : Int) : Int :=
  if pos + 1 = ringbufferSize then 0 else pos + 1

/-- The slot as the handler resets it before it reads. -/
def claimEntry (work : ReadWork) (entry : RingbufferEntry) : RingbufferEntry :=
  { entry with used := true, size := 0, timestamp := work.now }

/-- `i2c_mpu6050_wq_read_handler` -/
def wqReadHandler (nofifo : Int) (work : ReadWork) (cd : ClientData) :
    Except Stuck (ClientData × Transfers) := do
  let pos := nextPos cd.ringbufferpos
  let i ← ringbufferIndex pos
  let entry := claimEntry work (cd.ringbuffer i)
  let (entry, transfers) ←
    if nofifo = 0 then readFifo work entry else readRegisters work entry
  pure ({ cd.setEntry i entry with ringbufferpos := pos }, transfers)

end Mpu6050
