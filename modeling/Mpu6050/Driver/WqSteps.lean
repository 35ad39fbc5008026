/-
The work queue handler, label by label, on the slot it works on.

`wqReadHandler` is given the answers of the bus as a list and says what a run that returns
has done.  Whether a run returns at all, and with `sync_lock` released, is a question about
an endless supply of answers, so here the body of `i2c_mpu6050_wq_read_handler` is a
machine with the labels of the source.  `do_loop` makes one read and jumps to
`do_dispatch`, which jumps back while the slot holds less than the count; `clean_up` and
the end of `do_dispatch` are the two exits.

A block that does not fit the slot stops this machine; the one of `Driver.Layout` goes on.
-/
import Mpu6050.Driver.Wq

namespace Mpu6050

/-- The two exits. -/
inductive WqExit
  | doDispatch
  | cleanUp
deriving DecidableEq

/-- Where the handler is. -/
inductive WqLabel
  /-- about to read the FIFO count -/
  | fifoCount
  /-- about to read the registers -/
  | registers
  | doLoop
  | doDispatch
  | cleanUp
  /-- past `mutex_unlock` -/
  | unlocked (exit : WqExit)
deriving DecidableEq

/-- The handler under way: the slot it works on, and the block reads it has made. -/
structure HandlerState where
  label : WqLabel
  entry : RingbufferEntry
  reads : Nat
  syncLock : Bool

/-- The bus, from the count on. -/
structure BusAnswers where
  count : WordAnswer
  answers : Nat → BlockAnswer

/-- The handler once it has taken `sync_lock` and reset the next slot. -/
def handlerStart (nofifo : Int) (now : UInt64) (entry : RingbufferEntry) : HandlerState :=
  { label := if nofifo = 0 then .fifoCount else .registers
    entry := { entry with used := true, size := 0, timestamp := now }
    reads := 0
    syncLock := true }

/-- One step of `i2c_mpu6050_wq_read_handler`. -/
def handlerStep (nofifo : Int) (bus : BusAnswers) (s : HandlerState) :
    Except Stuck HandlerState :=
  let bytesToRead := if nofifo = 0 then deviceFifoCount bus.count else deviceBlockLength
  match s.label with
  | .fifoCount =>
    if bytesToRead < 0 then .ok { s with label := .cleanUp }
    else if bytesToRead = 0 then .ok { s with label := .cleanUp }
    else .ok { s with label := .doLoop }
  | .doLoop =>
    if s.entry.size < bytesToRead then
      match smbusReadI2cBlockData bytesToRead (bus.answers s.reads) with
      | .fail _ => .ok { s with label := .cleanUp, reads := s.reads + 1 }
      | .bytes bs =>
        match storeBlock s.entry.data bs with
        | .error stuck => .error stuck
        | .ok data =>
          .ok { s with
            label := .doDispatch
            entry := { s.entry with data, size := s.entry.size + bs.length }
            reads := s.reads + 1 }
    else .ok { s with label := .doDispatch }
  | .registers =>
    match smbusReadI2cBlockData bytesToRead (bus.answers s.reads) with
    | .fail e =>
      .ok { s with
        label := .doDispatch, entry := { s.entry with size := e.val }, reads := s.reads + 1 }
    | .bytes bs =>
      match storeBlock s.entry.data bs with
      | .error stuck => .error stuck
      | .ok data =>
        .ok { s with
          label := .doDispatch
          entry := { s.entry with data, size := bs.length }
          reads := s.reads + 1 }
  | .doDispatch =>
    if nofifo = 0 ∧ s.entry.size < bytesToRead then .ok { s with label := .doLoop }
    else .ok { s with label := .unlocked .doDispatch, syncLock := false }
  | .cleanUp =>
    .ok { s with label := .unlocked .cleanUp, entry := cleanUp s.entry, syncLock := false }
  | .unlocked _ => .ok s

end Mpu6050
