/-
The handler as a machine, on the slot it works on.

`FifoMove` is what one step can do in FIFO mode.  The machine of the labels and
`wqReadHandler` agree: `settles_of_readEntry` says that the machine settles as
`wqReadHandler` returns, given enough of the answers.
-/
import Mpu6050.Driver.WqSteps
import Mpu6050.Lib.Steps
import Mpu6050.Proofs.Handler

namespace Mpu6050

open Steps

/-- The answers from number `i` on, `n` of them. -/
def streamFrom (answers : Nat → BlockAnswer) : Nat → Nat → List BlockAnswer
  | _, 0 => []
  | i, n + 1 => answers i :: streamFrom answers (i + 1) n

/-! ### The handler as a machine -/

section

variable {bus : BusAnswers} {s : HandlerState}

/-- The FIFO count read sends the handler to `clean_up` or into the loop. -/
theorem handlerStep_fifoCount (h : s.label = .fifoCount) :
    handlerStep 0 bus s = .ok { s with
      label := if deviceFifoCount bus.count ≤ 0 then .cleanUp else .doLoop } := by
  unfold handlerStep
  simp only [h, if_true]
  by_cases hneg : deviceFifoCount bus.count < 0
  · rw [if_pos hneg, if_pos (by omega)]
  · rw [if_neg hneg]
    by_cases hzero : deviceFifoCount bus.count = 0
    · rw [if_pos hzero, if_pos (by omega)]
    · rw [if_neg hzero, if_neg (by omega)]

/-- The end of the `while`. -/
theorem handlerStep_leave (h : s.label = .doLoop)
    (hdone : ¬s.entry.size < deviceFifoCount bus.count) :
    handlerStep 0 bus s = .ok { s with label := .doDispatch } := by
  unfold handlerStep
  simp only [h, if_true]
  rw [if_neg hdone]

theorem handlerStep_unlocked {nofifo : Int} {exit : WqExit} (h : s.label = .unlocked exit) :
    handlerStep nofifo bus s = .ok s := by
  unfold handlerStep
  simp only [h]

/-- `clean_up` gives the slot back and the lock up. -/
theorem handlerStep_cleanUp {nofifo : Int} (h : s.label = .cleanUp) :
    handlerStep nofifo bus s = .ok { s with
      label := .unlocked .cleanUp, entry := cleanUp s.entry, syncLock := false } := by
  unfold handlerStep
  rw [h]

/-- `do_dispatch` with nothing left to read gives the lock up. -/
theorem handlerStep_done (h : s.label = .doDispatch)
    (hdone : ¬s.entry.size < deviceFifoCount bus.count) :
    handlerStep 0 bus s = .ok { s with label := .unlocked .doDispatch, syncLock := false } := by
  unfold handlerStep
  simp only [h]
  rw [if_neg fun hc => hdone hc.2]

/-- `do_dispatch` jumps back. -/
theorem handlerStep_again (h : s.label = .doDispatch)
    (hlt : s.entry.size < deviceFifoCount bus.count) :
    handlerStep 0 bus s = .ok { s with label := .doLoop } := by
  unfold handlerStep
  simp only [h]
  rw [if_pos ⟨trivial, hlt⟩]

theorem handlerStep_fail {e : Errno} (h : s.label = .doLoop)
    (hlt : s.entry.size < deviceFifoCount bus.count)
    (hread : smbusReadI2cBlockData (deviceFifoCount bus.count) (bus.answers s.reads) = .fail e) :
    handlerStep 0 bus s = .ok { s with label := .cleanUp, reads := s.reads + 1 } := by
  unfold handlerStep
  simp only [h, if_true]
  rw [if_pos hlt, hread]

theorem handlerStep_bytes {bs : List U8} (h : s.label = .doLoop)
    (hlt : s.entry.size < deviceFifoCount bus.count)
    (hread : smbusReadI2cBlockData (deviceFifoCount bus.count) (bus.answers s.reads) = .bytes bs)
    (hshort : bs.length ≤ ringbufferDataSize) :
    handlerStep 0 bus s = .ok { s with
      label := .doDispatch, entry := fillEntry s.entry bs, reads := s.reads + 1 } := by
  unfold handlerStep
  simp only [h, if_true]
  rw [if_pos hlt, hread]
  simp only [storeBlock_ok hshort]
  rfl

theorem handlerStep_overflow {bs : List U8} (h : s.label = .doLoop)
    (hlt : s.entry.size < deviceFifoCount bus.count)
    (hread : smbusReadI2cBlockData (deviceFifoCount bus.count) (bus.answers s.reads) = .bytes bs)
    (hlong : ¬bs.length ≤ ringbufferDataSize) :
    handlerStep 0 bus s = .error (.store bs.length) := by
  unfold handlerStep
  simp only [h, if_true]
  rw [if_pos hlt, hread]
  simp only [storeBlock_error hlong]

/-- The moves of the handler in FIFO mode, whose result `handlerStep` computes. -/
inductive FifoMove (bus : BusAnswers) (s : HandlerState) : HandlerState → Prop
  | empty (h : s.label = .fifoCount) (hcount : deviceFifoCount bus.count ≤ 0) :
      FifoMove bus s { s with label := .cleanUp }
  | enter (h : s.label = .fifoCount) (hcount : 0 < deviceFifoCount bus.count) :
      FifoMove bus s { s with label := .doLoop }
  | fail {e : Errno} (h : s.label = .doLoop) (hlt : s.entry.size < deviceFifoCount bus.count)
      (hread : smbusReadI2cBlockData (deviceFifoCount bus.count) (bus.answers s.reads) = .fail e) :
      FifoMove bus s { s with label := .cleanUp, reads := s.reads + 1 }
  | bytes {bs : List U8} (h : s.label = .doLoop)
      (hlt : s.entry.size < deviceFifoCount bus.count)
      (hread : smbusReadI2cBlockData (deviceFifoCount bus.count) (bus.answers s.reads)
        = .bytes bs) (hshort : bs.length ≤ ringbufferDataSize) :
      FifoMove bus s { s with
        label := .doDispatch, entry := fillEntry s.entry bs, reads := s.reads + 1 }
  | leave (h : s.label = .doLoop) (hdone : ¬s.entry.size < deviceFifoCount bus.count) :
      FifoMove bus s { s with label := .doDispatch }
  | again (h : s.label = .doDispatch) (hlt : s.entry.size < deviceFifoCount bus.count) :
      FifoMove bus s { s with label := .doLoop }
  | done (h : s.label = .doDispatch) (hdone : ¬s.entry.size < deviceFifoCount bus.count) :
      FifoMove bus s { s with label := .unlocked .doDispatch, syncLock := false }
  | cleanUp (h : s.label = .cleanUp) :
      FifoMove bus s { s with
        label := .unlocked .cleanUp, entry := cleanUp s.entry, syncLock := false }
  | rest {exit : WqExit} (h : s.label = .unlocked exit) : FifoMove bus s s

/-- **What one step can do** in FIFO mode. -/
theorem fifoMove_of_step {s' : HandlerState} (hmode : s.label ≠ .registers)
    (hstep : handlerStep 0 bus s = .ok s') : FifoMove bus s s' := by
  cases hlabel : s.label with
  | registers => exact absurd hlabel hmode
  | fifoCount =>
      rw [handlerStep_fifoCount hlabel] at hstep
      by_cases hcount : deviceFifoCount bus.count ≤ 0
      · rw [if_pos hcount] at hstep
        cases hstep
        exact .empty hlabel hcount
      · rw [if_neg hcount] at hstep
        cases hstep
        exact .enter hlabel (by omega)
  | doLoop =>
      by_cases hlt : s.entry.size < deviceFifoCount bus.count
      · cases hread : smbusReadI2cBlockData (deviceFifoCount bus.count) (bus.answers s.reads) with
        | fail e =>
            rw [handlerStep_fail hlabel hlt hread] at hstep
            cases hstep
            exact .fail hlabel hlt hread
        | bytes bs =>
            by_cases hshort : bs.length ≤ ringbufferDataSize
            · rw [handlerStep_bytes hlabel hlt hread hshort] at hstep
              cases hstep
              exact .bytes hlabel hlt hread hshort
            · rw [handlerStep_overflow hlabel hlt hread hshort] at hstep
              cases hstep
      · rw [handlerStep_leave hlabel hlt] at hstep
        cases hstep
        exact .leave hlabel hlt
  | doDispatch =>
      by_cases hlt : s.entry.size < deviceFifoCount bus.count
      · rw [handlerStep_again hlabel hlt] at hstep
        cases hstep
        exact .again hlabel hlt
      · rw [handlerStep_done hlabel hlt] at hstep
        cases hstep
        exact .done hlabel hlt
  | cleanUp =>
      rw [handlerStep_cleanUp hlabel] at hstep
      cases hstep
      exact .cleanUp hlabel
  | unlocked exit =>
      rw [handlerStep_unlocked hlabel] at hstep
      cases hstep
      exact .rest hlabel

/-! ### Round the loop -/

/-- **Where the loop returns, the machine settles**, with the same slot and the lock released. -/
theorem settles_of_doLoop {n : Nat} {entry' : RingbufferEntry} {ts ts' : Transfers}
    (hlabel : s.label = .doDispatch)
    (hrun : doLoop (deviceFifoCount bus.count) (streamFrom bus.answers s.reads n) s.entry ts
      = .ok (entry', ts')) :
    ∃ exit reads, Settles (handlerStep 0 bus) s
      { label := .unlocked exit, entry := entry', reads, syncLock := false } := by
  induction n generalizing s ts with
  | zero =>
      by_cases hlt : s.entry.size < deviceFifoCount bus.count
      · rw [streamFrom, doLoop_nil hlt] at hrun
        cases hrun
      · rw [doLoop_done hlt] at hrun
        cases hrun
        exact ⟨_, _, (settles_step (handlerStep_done hlabel hlt)).mpr (settles_self rfl)⟩
  | succ n ih =>
      by_cases hlt : s.entry.size < deviceFifoCount bus.count
      · rw [streamFrom] at hrun
        have hagain := handlerStep_again hlabel hlt
        cases hread : smbusReadI2cBlockData (deviceFifoCount bus.count) (bus.answers s.reads) with
        | fail e =>
            rw [doLoop_fail hlt hread] at hrun
            cases hrun
            have hfail := handlerStep_fail (s := { s with label := .doLoop }) rfl hlt hread
            exact ⟨_, _, (settles_step hagain).mpr ((settles_step hfail).mpr
              ((settles_step (handlerStep_cleanUp rfl)).mpr (settles_self rfl)))⟩
        | bytes bs =>
            by_cases hshort : bs.length ≤ ringbufferDataSize
            · rw [doLoop_bytes hlt hread hshort] at hrun
              have hbytes :=
                handlerStep_bytes (s := { s with label := .doLoop }) rfl hlt hread hshort
              obtain ⟨exit, reads, hsettles⟩ := ih (s := { s with
                label := .doDispatch
                entry := fillEntry s.entry bs
                reads := s.reads + 1 }) rfl hrun
              exact ⟨exit, reads, (settles_step hagain).mpr ((settles_step hbytes).mpr hsettles)⟩
            · rw [doLoop_overflow hlt hread hshort] at hrun
              cases hrun
      · rw [doLoop_done hlt] at hrun
        cases hrun
        exact ⟨_, _, (settles_step (handlerStep_done hlabel hlt)).mpr (settles_self rfl)⟩

end

/-! ### A whole run -/

/-- What `wqReadHandler` is given of the bus: the count, and so many of the answers. -/
def BusAnswers.work (bus : BusAnswers) (now : UInt64) (n : Nat) : ReadWork :=
  { now, count := bus.count, answers := streamFrom bus.answers 0 n }

/-- The loop entered for the first time is the loop entered from `do_dispatch`. -/
theorem settles_doLoop_iff {bus : BusAnswers} {now : UInt64} {entry : RingbufferEntry}
    {t : HandlerState} (hcount : ¬deviceFifoCount bus.count ≤ 0) :
    Settles (handlerStep 0 bus) (handlerStart 0 now entry) t ↔
      Settles (handlerStep 0 bus) { handlerStart 0 now entry with label := .doDispatch } t := by
  have hlt : ({ handlerStart 0 now entry with label := .doDispatch } : HandlerState).entry.size
      < deviceFifoCount bus.count := Int.lt_of_not_ge hcount
  have hagain := handlerStep_again rfl hlt
  rw [settles_step (handlerStep_fifoCount rfl), settles_step hagain, if_neg hcount]

/-- **The machine settles where `wqReadHandler` returns**, given enough of the answers. -/
theorem settles_of_readEntry {bus : BusAnswers} {now : UInt64} {n : Nat}
    {entry entry' : RingbufferEntry} {ts : Transfers}
    (hrun : readEntry 0 (bus.work now n) entry = .ok (entry', ts)) :
    ∃ exit reads, Settles (handlerStep 0 bus) (handlerStart 0 now entry)
      { label := .unlocked exit, entry := entry', reads, syncLock := false } := by
  rw [readEntry, if_pos rfl, readFifo_eq] at hrun
  by_cases hcount : deviceFifoCount (bus.work now n).count ≤ 0
  · rw [if_pos hcount] at hrun
    cases hrun
    have hfirst : handlerStep 0 bus (handlerStart 0 now entry) = _ := handlerStep_fifoCount rfl
    rw [if_pos (show deviceFifoCount bus.count ≤ 0 from hcount)] at hfirst
    exact ⟨_, _, (settles_step hfirst).mpr
      ((settles_step (handlerStep_cleanUp rfl)).mpr (settles_self rfl))⟩
  · rw [if_neg hcount] at hrun
    have hloop : doLoop (deviceFifoCount bus.count) (streamFrom bus.answers 0 n)
        (handlerStart 0 now entry).entry [] = .ok (entry', ts) := hrun
    obtain ⟨exit, reads, hsettles⟩ :=
      settles_of_doLoop (s := { handlerStart 0 now entry with label := .doDispatch }) rfl hloop
    exact ⟨exit, reads, (settles_doLoop_iff hcount).mpr hsettles⟩

end Mpu6050
