/-
Why the operations may be taken whole.

Every statement about the driver in operation runs its operations one after another.  The
code does not: the handler, the clear and the consumers run in threads of their own, and
each is many accesses.  They are whole because of `sync_lock`, and `interleaving_whole`
proves it of the accesses themselves: in any interleaving of any number of threads, what the
ring holds whenever the lock is free, and what has been handed out by then, is what some run
of whole operations gives.

The general half is `Sections.serializable`.  What is left is one section at a time.
`SectionAt` says what the ring is, access by access, in terms of the operation under way; for
the handler that is how much of `readEntry` is still to be done, whatever the bus is going to
answer (`Answered`), so that the loop is followed without an induction of its own.
-/
import Mpu6050.Driver.Locking
import Mpu6050.Proofs.Consumers

namespace Mpu6050

open Runs Sections

/-! ### What is left of the handler's read -/

/-- With the answers given so far, the read of a slot comes to `f` of the answers to come. -/
def Answered (nofifo : Int) (old : RingbufferEntry)
    (f : List BlockAnswer → Except Stuck (RingbufferEntry × Transfers)) : Prop :=
  ∃ now count answers, ∀ rest, readEntry nofifo { now, count, answers := answers ++ rest } old
    = f rest

/-- A block that has been read, and what the handler does with it. -/
def afterBlock (nofifo bytesToRead : Int) (entry : RingbufferEntry) (ts : Transfers) (bs : List U8)
    (rest : List BlockAnswer) (data : Data) : Except Stuck (RingbufferEntry × Transfers) :=
  if nofifo = 0 then
    doLoop bytesToRead rest { entry with data, size := entry.size + bs.length } (ts ++ [bs])
  else .ok ({ entry with data, size := bs.length }, [bs])

/-- The slot the handler works on, from what it was and where the handler is. -/
inductive EntryAt (nofifo : Int) (old : RingbufferEntry) :
    RingbufferEntry → HandlerThread → Prop
  | setSize {n : Int} : EntryAt nofifo old { old with used := true } ⟨.setSize, n⟩
  | setTimestamp {n : Int} :
      EntryAt nofifo old { old with used := true, size := 0 } ⟨.setTimestamp, n⟩
  | fifoCount {n : Int} {now : UInt64} (hmode : nofifo = 0) :
      EntryAt nofifo old { old with used := true, size := 0, timestamp := now } ⟨.fifoCount, n⟩
  | registers {n : Int} {now : UInt64} (hmode : nofifo ≠ 0) :
      EntryAt nofifo old { old with used := true, size := 0, timestamp := now } ⟨.registers, n⟩
  | doLoop {n : Int} {entry : RingbufferEntry} {ts : Transfers} (hmode : nofifo = 0)
      (h : Answered nofifo old fun rest => doLoop n rest entry ts) :
      EntryAt nofifo old entry ⟨.doLoop, n⟩
  | store {n : Int} {entry : RingbufferEntry} {ts : Transfers} {data : Data}
      {stored rest : List U8} (hfits : stored.length ≤ ringbufferDataSize)
      (hdata : entry.data = fun i => (stored[i.val]?).getD (data i))
      (h : Answered nofifo old fun answers => storeBlock data (stored ++ rest) >>=
        afterBlock nofifo n entry ts (stored ++ rest) answers) :
      EntryAt nofifo old entry ⟨.store stored rest, n⟩
  | addSize {n err : Int} {entry : RingbufferEntry} {ts : Transfers} (hmode : nofifo = 0)
      (h : Answered nofifo old fun rest =>
        Mpu6050.doLoop n rest { entry with size := entry.size + err } ts) :
      EntryAt nofifo old entry ⟨.addSize err, n⟩
  | assignSize {n err : Int} {entry : RingbufferEntry} {ts : Transfers} (hmode : nofifo ≠ 0)
      (h : Answered nofifo old fun _ => .ok ({ entry with size := err }, ts)) :
      EntryAt nofifo old entry ⟨.assignSize err, n⟩
  | doDispatch {n : Int} {entry : RingbufferEntry} {ts : Transfers}
      (h : Answered nofifo old fun rest =>
        if nofifo = 0 then Mpu6050.doLoop n rest entry ts else .ok (entry, ts)) :
      EntryAt nofifo old entry ⟨.doDispatch, n⟩
  | cleanUp {n : Int} {entry : RingbufferEntry} {ts : Transfers}
      (h : Answered nofifo old fun _ => .ok (Mpu6050.cleanUp entry, ts)) :
      EntryAt nofifo old entry ⟨.cleanUp, n⟩

/-- The position has moved on to slot `k`, which holds `entry`; the rest is as it was. -/
structure InSlot (cd₀ : ClientData) (k : Fin ringbufferSize) (cd : ClientData)
    (entry : RingbufferEntry) : Prop where
  index : ringbufferIndex (nextPos cd₀.ringbufferpos) = .ok k
  eq : cd = { cd₀.setEntry k entry with ringbufferpos := nextPos cd₀.ringbufferpos }

/-- The ring, from what it was and where the handler is. -/
inductive HandlerAt (nofifo : Int) (cd₀ : ClientData) : ClientData → HandlerThread → Prop
  | increment {n : Int} : HandlerAt nofifo cd₀ cd₀ ⟨.increment, n⟩
  | wrap {n : Int} :
      HandlerAt nofifo cd₀ { cd₀ with ringbufferpos := cd₀.ringbufferpos + 1 } ⟨.wrap, n⟩
  | setUsed {n : Int} :
      HandlerAt nofifo cd₀ { cd₀ with ringbufferpos := nextPos cd₀.ringbufferpos } ⟨.setUsed, n⟩
  | inSlot {cd : ClientData} {k : Fin ringbufferSize} {entry : RingbufferEntry}
      {t : HandlerThread} (hslot : InSlot cd₀ k cd entry)
      (hentry : EntryAt nofifo (cd₀.ringbuffer k) entry t) : HandlerAt nofifo cd₀ cd t

/-- The slot a thread has found, and how far it has read it. -/
inductive ConsumerAt (cd : ClientData) (c : Consumer) : ConsumerPc → Prop
  | sentinel (h : c.start = .sentinel) : ConsumerAt cd c .sentinel
  | testUsed (h : c.start = .sentinel → cd.ringbufferpos ≠ -1) : ConsumerAt cd c .testUsed
  | testAgain (h : c.start = .sentinel → cd.ringbufferpos ≠ -1) {k : Fin ringbufferSize}
      (hk : ringbufferIndex cd.ringbufferpos = .ok k) (hused : (cd.ringbuffer k).used = true) :
      ConsumerAt cd c (.testAgain cd.ringbufferpos)
  | load (h : c.start = .sentinel → cd.ringbufferpos ≠ -1) {k : Fin ringbufferSize}
      (hk : ringbufferIndex cd.ringbufferpos = .ok k) (hused : (cd.ringbuffer k).used = true)
      {bytes : List U8} (hbytes : bytes = (List.ofFn (cd.ringbuffer k).data).take bytes.length) :
      ConsumerAt cd c (.load cd.ringbufferpos bytes)

/-- The ring that is clear up to a slot. -/
def clearedTo (cd : ClientData) (i : Nat) : ClientData :=
  { cd with ringbuffer := fun k =>
      if k.val < i then { cd.ringbuffer k with used := false } else cd.ringbuffer k }

/-- A whole operation, whatever the last run of the handler has read. -/
def Does (nofifo : Int) (cd : ClientData) (op : Op) (emitted : List Emission) (cd' : ClientData) :
    Prop :=
  ∀ transfers, ∃ transfers',
    opStep nofifo { client := cd, transfers } op
      = .ok ({ client := cd', transfers := transfers' }, emitted)

/-- What a section that began with `cd₀` has handed out and made of the ring, from where it is. -/
inductive SectionAt (nofifo : Int) (cd₀ : ClientData) : List Emission → ClientData → Place → Prop
  | handler {cd : ClientData} {t : HandlerThread} (h : HandlerAt nofifo cd₀ cd t) :
      SectionAt nofifo cd₀ [] cd (.handler t)
  | clear (i : Nat) (hi : i ≤ ringbufferSize) :
      SectionAt nofifo cd₀ [] (clearedTo cd₀ i) (.clear i)
  | consumer {c : Consumer} {pc : ConsumerPc} (h : ConsumerAt cd₀ c pc) :
      SectionAt nofifo cd₀ [] cd₀ (.consumer c pc)
  | leaving {op : Op} {emitted : List Emission} {cd : ClientData}
      (h : Does nofifo cd₀ op emitted cd) : SectionAt nofifo cd₀ emitted cd .leaving

/-! ### The handler -/

section

variable {nofifo : Int} {cd₀ cd cd' : ClientData} {k i : Fin ringbufferSize}
  {entry old : RingbufferEntry}

theorem InSlot.at (h : InSlot cd₀ k cd entry) (hi : ringbufferIndex cd.ringbufferpos = .ok i) :
    i = k ∧ cd.ringbuffer i = entry := by
  obtain ⟨hindex, rfl⟩ := h
  rw [show ringbufferIndex (nextPos cd₀.ringbufferpos) = .ok i from hi] at hindex
  cases hindex
  exact ⟨rfl, Function.update_self ..⟩

/-- A change to the slot at the position is one to the slot the handler works on. -/
theorem InSlot.setEntry (h : InSlot cd₀ k cd entry) (entry' : RingbufferEntry) :
    InSlot cd₀ k (cd.setEntry k entry') entry' := by
  obtain ⟨hindex, rfl⟩ := h
  refine ⟨hindex, ?_⟩
  unfold ClientData.setEntry
  rw [Function.update_idem]

theorem InSlot.atPos (h : InSlot cd₀ k cd entry) {f : RingbufferEntry → RingbufferEntry}
    (hf : cd.atPos f = .ok cd') : InSlot cd₀ k cd' (f entry) := by
  obtain ⟨i, hi, hpure⟩ := bind_ok.mp hf
  obtain ⟨rfl, hentry⟩ := h.at hi
  cases hpure
  rw [hentry]
  exact h.setEntry _

/-- The read is over, and with it the operation. -/
theorem InSlot.does (h : InSlot cd₀ k cd entry) {ts : Transfers}
    (hread : Answered nofifo (cd₀.ringbuffer k) fun _ => .ok (entry, ts)) :
    ∃ op, Does nofifo cd₀ op [] cd := by
  obtain ⟨now, count, answers, hread⟩ := hread
  have hread := hread []
  rw [List.append_nil] at hread
  refine ⟨.handler { now, count, answers }, fun transfers => ⟨ts, ?_⟩⟩
  obtain ⟨hindex, rfl⟩ := h
  have hrun : wqReadHandler nofifo { now, count, answers } cd₀ = .ok
      ({ cd₀.setEntry k entry with ringbufferpos := nextPos cd₀.ringbufferpos }, ts) := by
    unfold readEntry at hread
    by_cases hmode : nofifo = 0
    · rw [if_pos hmode] at hread
      simp only [wqReadHandler, hindex, if_pos hmode]
      exact bind_ok.mpr ⟨k, rfl, bind_ok.mpr ⟨_, hread, rfl⟩⟩
    · rw [if_neg hmode] at hread
      simp only [wqReadHandler, hindex, if_neg hmode]
      exact bind_ok.mpr ⟨k, rfl, bind_ok.mpr ⟨_, hread, rfl⟩⟩
  exact bind_ok.mpr ⟨_, hrun, rfl⟩

/-- One more answer, whatever it is. -/
theorem Answered.give {f g : List BlockAnswer → Except Stuck (RingbufferEntry × Transfers)}
    (h : Answered nofifo old f) (answer : BlockAnswer) (hg : ∀ rest, f (answer :: rest) = g rest) :
    Answered nofifo old g := by
  obtain ⟨now, count, answers, hread⟩ := h
  refine ⟨now, count, answers ++ [answer], fun rest => ?_⟩
  rw [List.append_assoc, List.singleton_append, hread, hg]

theorem Answered.congr {f g : List BlockAnswer → Except Stuck (RingbufferEntry × Transfers)}
    (h : Answered nofifo old f) (hg : ∀ rest, f rest = g rest) : Answered nofifo old g := by
  obtain ⟨now, count, answers, hread⟩ := h
  exact ⟨now, count, answers, fun rest => (hread rest).trans (hg rest)⟩

/-- The count decides where the read begins. -/
theorem entryAt_counted {now : UInt64} {n : Int} (count : WordAnswer) (hmode : nofifo = 0)
    (hn : n = deviceFifoCount count) :
    EntryAt nofifo old { old with used := true, size := 0, timestamp := now }
      ⟨if n < 0 then .cleanUp else if n = 0 then .cleanUp else .doLoop, n⟩ := by
  subst hn
  have hread : ∀ rest, readEntry nofifo { now, count, answers := [] ++ rest } old
      = if deviceFifoCount count ≤ 0
        then .ok (cleanUp { old with used := true, size := 0, timestamp := now }, [])
        else doLoop (deviceFifoCount count) rest
          { old with used := true, size := 0, timestamp := now } [] := by
    intro rest
    unfold readEntry
    rw [if_pos hmode, readFifo_eq]
    rfl
  by_cases hcount : deviceFifoCount count ≤ 0
  · have hpc : (if deviceFifoCount count < 0 then HandlerPc.cleanUp
        else if deviceFifoCount count = 0 then .cleanUp else .doLoop) = .cleanUp := by
      split
      · rfl
      · rw [if_pos (by omega)]
    rw [hpc]
    exact .cleanUp ⟨now, count, [], fun rest => by rw [hread, if_pos hcount]⟩
  · rw [if_neg (by omega), if_neg (by omega)]
    exact .doLoop hmode ⟨now, count, [], fun rest => by rw [hread, if_neg hcount]⟩

/-- A block read of the loop, made because the slot holds less than the count. -/
theorem entryAt_doLoop {n : Int} {ts : Transfers} (answer : BlockAnswer) (hmode : nofifo = 0)
    (h : Answered nofifo old fun rest => doLoop n rest entry ts) (hlt : entry.size < n) :
    (∀ e, smbusReadI2cBlockData n answer = .fail e → EntryAt nofifo old entry ⟨.cleanUp, n⟩) ∧
    (∀ bs, smbusReadI2cBlockData n answer = .bytes bs →
      EntryAt nofifo old entry ⟨.store [] bs, n⟩) := by
  constructor
  · intro e hread
    exact .cleanUp (h.give answer fun rest => doLoop_fail hlt hread)
  · intro bs hread
    refine @EntryAt.store _ _ _ _ ts entry.data _ _ (Nat.zero_le _) rfl
      (h.give answer fun rest => ?_)
    rw [doLoop]
    simp only [if_pos hlt, hread, List.nil_append]
    cases storeBlock entry.data bs with
    | error stuck => rfl
    | ok data => exact (if_pos hmode).symm

/-- The block read of the other branch. -/
theorem entryAt_registers {now : UInt64} (answer : BlockAnswer) (hmode : nofifo ≠ 0)
    (hentry : entry = { old with used := true, size := 0, timestamp := now }) :
    (∀ e, smbusReadI2cBlockData deviceBlockLength answer = .fail e →
      EntryAt nofifo old entry ⟨.assignSize e.val, deviceBlockLength⟩) ∧
    (∀ bs, smbusReadI2cBlockData deviceBlockLength answer = .bytes bs →
      EntryAt nofifo old entry ⟨.store [] bs, deviceBlockLength⟩) := by
  subst hentry
  have hread : ∀ rest, readEntry nofifo { now, count := .fail eio, answers := [answer] ++ rest } old
      = readRegisters { now, count := .fail eio, answers := answer :: rest }
          { old with used := true, size := 0, timestamp := now } := fun rest => if_neg hmode
  constructor
  · intro e hfail
    refine @EntryAt.assignSize _ _ _ _ _ [] hmode ⟨now, .fail eio, [answer], fun rest => ?_⟩
    rw [hread]
    simp only [readRegisters, hfail]
  · intro bs hbytes
    refine @EntryAt.store _ _ _ _ [] old.data _ _ (Nat.zero_le _) rfl
      ⟨now, .fail eio, [answer], fun rest => ?_⟩
    rw [hread]
    simp only [readRegisters, hbytes, List.nil_append]
    cases storeBlock old.data bs with
    | error stuck => rfl
    | ok data => exact (if_neg hmode).symm

/-- A block that is stored whole. -/
theorem entryAt_stored {n : Int} {ts : Transfers} {data : Data} {stored : List U8}
    (hfits : stored.length ≤ ringbufferDataSize)
    (hdata : entry.data = fun i => (stored[i.val]?).getD (data i))
    (h : Answered nofifo old fun answers => storeBlock data (stored ++ []) >>=
      afterBlock nofifo n entry ts (stored ++ []) answers) :
    EntryAt nofifo old entry
      ⟨if nofifo = 0 then .addSize stored.length else .assignSize stored.length, n⟩ := by
  have hafter : Answered nofifo old fun answers =>
      afterBlock nofifo n entry ts stored answers entry.data := by
    refine h.congr fun rest => ?_
    rw [List.append_nil, storeBlock_ok hfits, hdata]
    rfl
  by_cases hmode : nofifo = 0
  · rw [if_pos hmode]
    exact .addSize hmode (hafter.congr fun rest => if_pos hmode)
  · rw [if_neg hmode]
    exact .assignSize hmode (hafter.congr fun rest => if_neg hmode)

theorem storeByte_ok {n : Nat} (b : U8) (h : n < ringbufferDataSize) : storeByte n b entry
    = .ok { entry with data := Function.update entry.data ⟨n, h⟩ b } := dif_pos h

/-- One more byte of a block. -/
theorem entryAt_storeByte {n : Int} {ts : Transfers} {data : Data} {stored rest : List U8} {b : U8}
    {entry' : RingbufferEntry} (hdata : entry.data = fun i => (stored[i.val]?).getD (data i))
    (h : Answered nofifo old fun answers => storeBlock data (stored ++ b :: rest) >>=
      afterBlock nofifo n entry ts (stored ++ b :: rest) answers)
    (hstore : storeByte stored.length b entry = .ok entry') :
    EntryAt nofifo old entry' ⟨.store (stored ++ [b]) rest, n⟩ := by
  by_cases hlt : stored.length < ringbufferDataSize
  · rw [storeByte_ok b hlt] at hstore
    cases hstore
    refine @EntryAt.store _ _ _ _ ts data _ _ ?_ ?_ ?_
    · rw [List.length_append]
      exact hlt
    · funext i
      show Function.update entry.data ⟨stored.length, hlt⟩ b i = _
      by_cases hi : i = ⟨stored.length, hlt⟩
      · rw [hi, Function.update_self]
        simp
      · have hne : i.val ≠ stored.length := fun hc => hi (Fin.ext hc)
        rw [Function.update_of_ne hi, hdata]
        show (stored[i.val]?).getD (data i) = _
        rcases Nat.lt_or_ge i.val stored.length with hlow | hhigh
        · rw [List.getElem?_append_left hlow]
        · rw [List.getElem?_eq_none hhigh, List.getElem?_eq_none (by simp; omega)]
    · rw [List.append_assoc]
      exact h
  · rw [storeByte, dif_neg hlt] at hstore
    cases hstore

/-- The position moves on, before there is a slot to speak of. -/
theorem inSlot_setUsed
    (h : ClientData.atPos { cd₀ with ringbufferpos := nextPos cd₀.ringbufferpos }
      (fun entry => { entry with used := true }) = .ok cd) :
    ∃ k, InSlot cd₀ k cd { cd₀.ringbuffer k with used := true } := by
  obtain ⟨k, hk, hpure⟩ := bind_ok.mp h
  cases hpure
  exact ⟨k, hk, rfl⟩

/-- At the end of `do_dispatch` there is nothing left to read. -/
theorem readEnds {n : Int} {rest : List BlockAnswer} {ts : Transfers}
    (h : ¬(nofifo = 0 ∧ entry.size < n)) :
    (if nofifo = 0 then doLoop n rest entry ts else .ok (entry, ts)) = .ok (entry, ts) := by
  by_cases hmode : nofifo = 0
  · rw [if_pos hmode]
    exact doLoop_done fun hlt => h ⟨hmode, hlt⟩
  · rw [if_neg hmode]

/-- **An access of the handler goes on with the read, or ends it.** -/
theorem handlerAt_access {t : HandlerThread} {given : Given} {place : Place}
    (h : HandlerAt nofifo cd₀ cd t) (hstep : handlerAccess nofifo given cd t = .ok (cd', place)) :
    SectionAt nofifo cd₀ [] cd' place := by
  cases h with
  | increment =>
      cases hstep
      exact .handler .wrap
  | @wrap n =>
      cases hstep
      have hpos : (if cd₀.ringbufferpos + 1 = ringbufferSize
            then { cd₀ with ringbufferpos := 0 }
            else { cd₀ with ringbufferpos := cd₀.ringbufferpos + 1 } : ClientData)
          = { cd₀ with ringbufferpos := nextPos cd₀.ringbufferpos } := by
        unfold nextPos
        split <;> rfl
      exact .handler (hpos ▸ .setUsed)
  | setUsed =>
      obtain ⟨cd', hcd, hpure⟩ := bind_ok.mp hstep
      cases hpure
      obtain ⟨k, hslot⟩ := inSlot_setUsed hcd
      exact .handler (.inSlot hslot .setSize)
  | @inSlot _ k entry _ hslot hentry =>
      cases hentry with
      | setSize =>
          obtain ⟨cd', hcd, hpure⟩ := bind_ok.mp hstep
          cases hpure
          exact .handler (.inSlot (hslot.atPos hcd) .setTimestamp)
      | setTimestamp =>
          obtain ⟨cd', hcd, hpure⟩ := bind_ok.mp hstep
          cases hpure
          by_cases hmode : nofifo = 0
          · rw [if_pos hmode]
            exact .handler (.inSlot (hslot.atPos hcd) (.fifoCount hmode))
          · rw [if_neg hmode]
            exact .handler (.inSlot (hslot.atPos hcd) (.registers hmode))
      | fifoCount hmode =>
          cases hstep
          exact .handler (.inSlot hslot (entryAt_counted given.count hmode rfl))
      | @doLoop n _ _ hmode hread =>
          obtain ⟨i, hi, hrest⟩ := bind_ok.mp hstep
          rw [(hslot.at hi).2] at hrest
          by_cases hlt : entry.size < n
          · obtain ⟨hfail, hbytes⟩ := entryAt_doLoop given.answer hmode hread hlt
            rw [if_pos hlt] at hrest
            cases hanswer : smbusReadI2cBlockData n given.answer with
            | fail e =>
                simp only [hanswer] at hrest
                cases hrest
                exact .handler (.inSlot hslot (hfail e hanswer))
            | bytes bs =>
                simp only [hanswer] at hrest
                cases hrest
                exact .handler (.inSlot hslot (hbytes bs hanswer))
          · rw [if_neg hlt] at hrest
            cases hrest
            exact .handler
              (.inSlot hslot (.doDispatch (hread.congr fun rest => (if_pos hmode).symm)))
      | @registers _ now hmode =>
          have hentry : { cd₀.ringbuffer k with used := true, size := 0, timestamp := now }
              = { cd₀.ringbuffer k with used := true, size := 0, timestamp := now } := rfl
          obtain ⟨hfail, hbytes⟩ := entryAt_registers given.answer hmode hentry
          simp only [handlerAccess] at hstep
          cases hanswer : smbusReadI2cBlockData deviceBlockLength given.answer with
          | fail e =>
              simp only [hanswer] at hstep
              cases hstep
              exact .handler (.inSlot hslot (hfail e hanswer))
          | bytes bs =>
              simp only [hanswer] at hstep
              cases hstep
              exact .handler (.inSlot hslot (hbytes bs hanswer))
      | @store n _ ts data stored rest hfits hdata hread =>
          cases rest with
          | nil =>
              cases hstep
              exact .handler (.inSlot hslot (entryAt_stored hfits hdata hread))
          | cons b rest =>
              obtain ⟨i, hi, hrest⟩ := bind_ok.mp hstep
              obtain ⟨entry', hstore, hpure⟩ := bind_ok.mp hrest
              obtain ⟨rfl, hentry⟩ := hslot.at hi
              cases hpure
              rw [hentry] at hstore
              exact .handler (.inSlot (hslot.setEntry entry')
                (entryAt_storeByte hdata hread hstore))
      | addSize hmode hread =>
          obtain ⟨cd', hcd, hpure⟩ := bind_ok.mp hstep
          cases hpure
          exact .handler (.inSlot (hslot.atPos hcd)
            (.doDispatch (hread.congr fun rest => (if_pos hmode).symm)))
      | assignSize hmode hread =>
          obtain ⟨cd', hcd, hpure⟩ := bind_ok.mp hstep
          cases hpure
          exact .handler (.inSlot (hslot.atPos hcd)
            (.doDispatch (hread.congr fun rest => (if_neg hmode).symm)))
      | @doDispatch n _ _ hread =>
          obtain ⟨i, hi, hrest⟩ := bind_ok.mp hstep
          rw [(hslot.at hi).2] at hrest
          by_cases hagain : nofifo = 0 ∧ entry.size < n
          · rw [if_pos hagain] at hrest
            cases hrest
            exact .handler (.inSlot hslot
              (.doLoop hagain.1 (hread.congr fun rest => if_pos hagain.1)))
          · rw [if_neg hagain] at hrest
            cases hrest
            obtain ⟨op, hop⟩ := hslot.does (hread.congr fun rest => readEnds hagain)
            exact .leaving hop
      | cleanUp hread =>
          obtain ⟨cd', hcd, hpure⟩ := bind_ok.mp hstep
          cases hpure
          obtain ⟨op, hop⟩ := (hslot.atPos hcd).does hread
          exact .leaving hop

end

/-! ### The clear -/

theorem clientData_eq {cd cd' : ClientData} (hring : cd.ringbuffer = cd'.ringbuffer)
    (hpos : cd.ringbufferpos = cd'.ringbufferpos) : cd = cd' := by
  cases cd
  cases cd'
  simp only at hring hpos
  rw [hring, hpos]

theorem clearedTo_at (cd : ClientData) (i : Nat) (k : Fin ringbufferSize) :
    (clearedTo cd i).ringbuffer k
      = if k.val < i then cleanUp (cd.ringbuffer k) else cd.ringbuffer k := rfl

theorem clearedTo_succ (cd : ClientData) (i : Fin ringbufferSize) :
    (clearedTo cd i.val).setEntry i (cleanUp ((clearedTo cd i.val).ringbuffer i))
      = clearedTo cd (i.val + 1) := by
  refine clientData_eq (funext fun k => ?_) rfl
  show Function.update (clearedTo cd i.val).ringbuffer i _ k = _
  by_cases hk : k = i
  · rw [hk, Function.update_self, clearedTo_at, clearedTo_at, if_neg (Nat.lt_irrefl _),
      if_pos (Nat.lt_succ_self _)]
  · have hne : k.val ≠ i.val := fun hc => hk (Fin.ext hc)
    rw [Function.update_of_ne hk, clearedTo_at, clearedTo_at]
    by_cases hlt : k.val < i.val
    · rw [if_pos hlt, if_pos (by omega)]
    · rw [if_neg hlt, if_neg (by omega)]

theorem clearedTo_end (cd : ClientData) {i : Nat} (h : ¬i < ringbufferSize) :
    clearedTo cd i = ringbufferClear cd := by
  refine clientData_eq (funext fun k => ?_) rfl
  rw [clearedTo_at, if_pos (by have := k.isLt; omega)]
  rfl

theorem sectionAt_clear {nofifo : Int} {cd₀ : ClientData} (i : Nat) :
    SectionAt nofifo cd₀ [] (clearAccess (clearedTo cd₀ i) i).1
      (clearAccess (clearedTo cd₀ i) i).2 := by
  unfold clearAccess
  by_cases hlt : i < ringbufferSize
  · rw [dif_pos hlt]
    have hnext := clearedTo_succ cd₀ ⟨i, hlt⟩
    exact hnext ▸ .clear (i + 1) hlt
  · rw [dif_neg hlt]
    refine @SectionAt.leaving _ _ .clear _ _ fun transfers => ⟨transfers, ?_⟩
    show opStep nofifo _ .clear = .ok ({ client := clearedTo cd₀ i, transfers }, [])
    rw [clearedTo_end cd₀ hlt]
    rfl

/-! ### The consumers -/

/-- The operation a consumer is. -/
def Consumer.op : Consumer → Op
  | .sysfsRead offset count => .sysfsRead offset count
  | .netlink results => .netlink results
  | .server sk => .server sk

section

variable {nofifo : Int} {cd : ClientData} {c : Consumer} {k : Fin ringbufferSize}

/-- At the sentinel the threads hand out nothing. -/
theorem Consumer.does_sentinel (h : c.start = .sentinel) (hpos : cd.ringbufferpos = -1) :
    Does nofifo cd c.op [] cd := by
  intro transfers
  refine ⟨transfers, ?_⟩
  cases c with
  | sysfsRead offset count => cases h
  | netlink results => exact bind_ok.mpr ⟨[], if_pos hpos, rfl⟩
  | server sk => exact bind_ok.mpr ⟨none, if_pos hpos, rfl⟩

/-- A slot that is not in use is passed over. -/
theorem Consumer.does_unused (h : c.start = .sentinel → cd.ringbufferpos ≠ -1)
    (hk : ringbufferIndex cd.ringbufferpos = .ok k) (hused : (cd.ringbuffer k).used = false) :
    Does nofifo cd c.op [] cd := by
  intro transfers
  refine ⟨transfers, ?_⟩
  cases c with
  | sysfsRead offset count =>
      have hread : ringbufferRead offset count cd = .ok (none, 0) :=
        bind_ok.mpr ⟨k, hk, if_pos hused⟩
      exact bind_ok.mpr ⟨_, hread, rfl⟩
  | netlink results =>
      have hrun : netlinkRun results cd = .ok [] := by
        rw [netlinkRun, if_neg (h rfl)]
        exact bind_ok.mpr ⟨k, hk, if_pos hused⟩
      exact bind_ok.mpr ⟨_, hrun, rfl⟩
  | server sk =>
      have hrun : serverRun sk cd = .ok none := by
        rw [serverRun, if_neg (h rfl)]
        exact bind_ok.mpr ⟨k, hk, if_pos hused⟩
      exact bind_ok.mpr ⟨_, hrun, rfl⟩

/-- A slot in use is handed out. -/
theorem Consumer.does_used (h : c.start = .sentinel → cd.ringbufferpos ≠ -1)
    (hk : ringbufferIndex cd.ringbufferpos = .ok k) (hused : (cd.ringbuffer k).used = true) :
    Does nofifo cd c.op (c.emits (cd.ringbuffer k).data (cd.ringbuffer k).size) cd := by
  have hne : ¬(cd.ringbuffer k).used = false := by simp [hused]
  intro transfers
  refine ⟨transfers, ?_⟩
  cases c with
  | sysfsRead offset count =>
      have hread : ringbufferRead offset count cd
          = .ok (some (printedLine (cd.ringbuffer k).data),
              (printedLine (cd.ringbuffer k).data).length) :=
        bind_ok.mpr ⟨k, hk, if_neg hne⟩
      exact bind_ok.mpr ⟨_, hread, rfl⟩
  | netlink results =>
      have hrun :
          netlinkRun results cd = .ok (netlinkForward results (cd.ringbuffer k).data).2 := by
        rw [netlinkRun, if_neg (h rfl)]
        exact bind_ok.mpr ⟨k, hk, if_neg hne⟩
      exact bind_ok.mpr ⟨_, hrun, rfl⟩
  | server sk =>
      have hrun : serverRun sk cd
          = .ok (serverSend sk (cd.ringbuffer k).data (cd.ringbuffer k).size) := by
        rw [serverRun, if_neg (h rfl)]
        exact bind_ok.mpr ⟨k, hk, if_neg hne⟩
      exact bind_ok.mpr ⟨_, hrun, rfl⟩

/-- One more byte, as long as there is one. -/
theorem take_ofFn_succ {data : Data} {bytes : List U8} (h : bytes.length < ringbufferDataSize)
    (hbytes : bytes = (List.ofFn data).take bytes.length) :
    bytes ++ [data ⟨bytes.length, h⟩]
      = (List.ofFn data).take (bytes ++ [data ⟨bytes.length, h⟩]).length := by
  have hlt : bytes.length < (List.ofFn data).length := by rw [List.length_ofFn]; exact h
  rw [List.length_append, List.length_singleton, List.take_succ_eq_append_getElem hlt, ← hbytes,
    List.getElem_ofFn]

/-- All of them are the data. -/
theorem load_all {data : Data} {bytes : List U8} (h : ¬bytes.length < ringbufferDataSize)
    (hbytes : bytes = (List.ofFn data).take bytes.length) :
    (fun j : Fin ringbufferDataSize => (bytes[j.val]?).getD 0) = data := by
  have hall : bytes = List.ofFn data := by
    rw [hbytes, List.take_of_length_le]
    rw [List.length_ofFn]
    exact Nat.not_lt.mp h
  funext j
  rw [hall, List.getElem?_ofFn]
  simp

/-- **An access of a consumer goes on with the slot it has found, or ends there.** -/
theorem consumerAt_access {pc : ConsumerPc} {place : Place} {emitted : List Emission}
    (h : ConsumerAt cd c pc) (hstep : consumerAccess c cd pc = .ok (place, emitted)) :
    SectionAt nofifo cd emitted cd place := by
  cases h with
  | sentinel hstart =>
      cases hstep
      by_cases hpos : cd.ringbufferpos = -1
      · rw [if_pos hpos]
        exact .leaving (c.does_sentinel hstart hpos)
      · rw [if_neg hpos]
        exact .consumer (.testUsed fun _ => hpos)
  | testUsed hguard =>
      obtain ⟨k, hk, hpure⟩ := bind_ok.mp hstep
      cases hpure
      cases hused : (cd.ringbuffer k).used with
      | false => exact .leaving (c.does_unused hguard hk hused)
      | true =>
          show SectionAt nofifo cd [] cd (.consumer c (c.found cd.ringbufferpos))
          cases c with
          | sysfsRead offset count => exact .consumer (.load hguard hk hused rfl)
          | netlink results => exact .consumer (.testAgain hguard hk hused)
          | server sk => exact .consumer (.testAgain hguard hk hused)
  | testAgain hguard hk hused =>
      obtain ⟨k', hk', hpure⟩ := bind_ok.mp hstep
      rw [hk] at hk'
      cases hk'
      cases hpure
      rw [if_neg (by simp [hused])]
      exact .consumer (.load hguard hk hused rfl)
  | @load hguard k hk hused bytes hbytes =>
      obtain ⟨k', hk', hrest⟩ := bind_ok.mp hstep
      rw [hk] at hk'
      cases hk'
      by_cases hlt : bytes.length < ringbufferDataSize
      · rw [dif_pos hlt] at hrest
        cases hrest
        exact .consumer (.load hguard hk hused (take_ofFn_succ hlt hbytes))
      · rw [dif_neg hlt] at hrest
        cases hrest
        rw [load_all hlt hbytes]
        exact .leaving (c.does_used hguard hk hused)

end

/-! ### A whole section -/

section

variable {nofifo : Int} {cd₀ cd cd' : ClientData} {emitted new : List Emission}
  {place place' : Place}

theorem sectionAt_acquire (h : Acquires place place') : SectionAt nofifo cd₀ [] cd₀ place' := by
  cases h with
  | handler n => exact .handler .increment
  | clear => exact .clear 0 (Nat.zero_le _)
  | consumer c =>
      cases c with
      | sysfsRead offset count => exact .consumer (.testUsed nofun)
      | netlink results => exact .consumer (.sentinel rfl)
      | server sk => exact .consumer (.sentinel rfl)

/-- **Every access goes on with the operation that the section is.** -/
theorem sectionAt_access (h : SectionAt nofifo cd₀ emitted cd place)
    (hstep : Accesses nofifo cd place new cd' place') :
    SectionAt nofifo cd₀ (emitted ++ new) cd' place' := by
  cases hstep with
  | handler haccess =>
      cases h with
      | handler hat => exact handlerAt_access hat haccess
  | clear =>
      cases h with
      | clear i _ => exact sectionAt_clear _
  | consumer haccess =>
      cases h with
      | consumer hat => exact consumerAt_access hat haccess

theorem sectionAt_entered (h : Entered (sectionProgram nofifo) cd₀ emitted cd place) :
    SectionAt nofifo cd₀ emitted cd place := by
  induction h with
  | acquire hacquire => exact sectionAt_acquire hacquire
  | access _ hstep ih => exact sectionAt_access ih hstep

/-- **A section, from `mutex_lock` to `mutex_unlock`, is one operation.** -/
theorem whole_does {T : Type} {t : T}
    (h : Whole (sectionProgram nofifo) cd₀ (t, emitted) cd) :
    ∃ op, Does nofifo cd₀ op emitted cd := by
  obtain ⟨place, place', hentered, hrelease⟩ := h
  cases hrelease
  cases sectionAt_entered hentered with
  | leaving hop => exact ⟨_, hop⟩

end

/-! ### Any interleaving -/

theorem handlerAccess_inside {nofifo : Int} {given : Given} {cd cd' : ClientData}
    {t : HandlerThread} {place : Place}
    (h : handlerAccess nofifo given cd t = .ok (cd', place)) : place.Inside := by
  obtain ⟨pc, n⟩ := t
  cases pc with
  | increment | wrap | fifoCount => cases h; exact nofun
  | setUsed | setSize | setTimestamp | addSize | assignSize | cleanUp =>
      obtain ⟨_, -, hpure⟩ := bind_ok.mp h
      cases hpure
      exact nofun
  | doLoop =>
      obtain ⟨i, -, hrest⟩ := bind_ok.mp h
      split at hrest
      · split at hrest <;> cases hrest <;> exact nofun
      · cases hrest
        exact nofun
  | registers =>
      simp only [handlerAccess] at h
      split at h <;> cases h <;> exact nofun
  | store stored rest =>
      cases rest with
      | nil => cases h; exact nofun
      | cons b rest =>
          obtain ⟨i, -, hrest⟩ := bind_ok.mp h
          obtain ⟨entry, -, hpure⟩ := bind_ok.mp hrest
          cases hpure
          exact nofun
  | doDispatch =>
      obtain ⟨i, -, hrest⟩ := bind_ok.mp h
      split at hrest <;> cases hrest <;> exact nofun

theorem consumerAccess_inside {c : Consumer} {cd : ClientData} {pc : ConsumerPc} {place : Place}
    {emitted : List Emission} (h : consumerAccess c cd pc = .ok (place, emitted)) :
    place.Inside := by
  cases pc with
  | sentinel =>
      cases h
      split <;> exact nofun
  | testUsed | testAgain =>
      obtain ⟨k, -, hpure⟩ := bind_ok.mp h
      cases hpure
      split <;> exact nofun
  | load =>
      obtain ⟨k, -, hrest⟩ := bind_ok.mp h
      split at hrest <;> cases hrest <;> exact nofun

/-- The driver works on the ring between `mutex_lock` and `mutex_unlock`, and nowhere else. -/
theorem disciplined_sectionProgram (nofifo : Int) :
    Disciplined (sectionProgram nofifo) Place.Inside := by
  refine ⟨?_, ?_, ?_⟩
  · intro place place' h
    cases h <;> exact nofun
  · intro cd place emitted cd' place' h
    cases h with
    | handler haccess => exact ⟨nofun, handlerAccess_inside haccess⟩
    | @clear i =>
        refine ⟨nofun, ?_⟩
        unfold clearAccess
        split <;> exact nofun
    | consumer haccess => exact ⟨nofun, consumerAccess_inside haccess⟩
  · intro place place' h
    cases h
    exact ⟨nofun, fun h => h rfl⟩

/-- One whole operation, and what it hands out. -/
def OpEmits (nofifo : Int) (s : DriverState) (e : Op × List Emission) (s' : DriverState) : Prop :=
  opStep nofifo s e.1 = .ok (s', e.2)

/-- Whole sections are operations of the driver, one for one. -/
theorem whole_ops {T : Type} {nofifo : Int} {whole : List (T × List Emission)} {cd : ClientData}
    (h : Run (Whole (sectionProgram nofifo)) probedClientData whole cd) :
    ∃ ops driver, Run (OpEmits nofifo) probedState ops driver ∧ driver.client = cd ∧
      ops.map Prod.snd = whole.map Prod.snd := by
  induction h with
  | nil => exact ⟨[], probedState, .nil, rfl, rfl⟩
  | @snoc whole cd cd' e _ hwhole ih =>
      obtain ⟨ops, driver, hrun, rfl, hout⟩ := ih
      obtain ⟨op, hdoes⟩ := whole_does hwhole
      obtain ⟨transfers, hstep⟩ := hdoes driver.transfers
      refine ⟨ops ++ [(op, e.2)], { client := cd', transfers }, hrun.snoc hstep, rfl, ?_⟩
      rw [List.map_append, List.map_append, hout]
      rfl

/-- What a run of operations has left, and what the thread that has the lock makes of it. -/
structure WholeOps {T : Type} (nofifo : Int) (es : List (Event T Emission))
    (s : State T ClientData Place) (ops : List (Op × List Emission)) (driver : DriverState) :
    Prop where
  run : Run (OpEmits nofifo) probedState ops driver
  length : ops.length = (es.filterMap Event.released).length
  free : s.lock = none → s.shared = driver.client ∧ es.flatMap Event.out = ops.flatMap Prod.snd
  held : ∀ t, s.lock = some t → ∃ emitted,
    Entered (sectionProgram nofifo) driver.client emitted s.shared (s.locals t) ∧
      es.flatMap Event.out = ops.flatMap Prod.snd ++ emitted

section

variable {T : Type} [DecidableEq T] {nofifo : Int} {es : List (Event T Emission)}
  {s : State T ClientData Place}

/-- Only the thread that has the lock is in an operation. -/
theorem exclusive_of_run (hrun : Run (AccessStep T nofifo) (probedThreads T) es s) :
    Exclusive Place.Inside s :=
  (serializable (disciplined_sectionProgram nofifo) rfl (fun _ h => h rfl) hrun).1

theorem wholeOps_of_run (hrun : Run (AccessStep T nofifo) (probedThreads T) es s) :
    ∃ ops driver, WholeOps nofifo es s ops driver := by
  obtain ⟨-, whole, cd, hserial⟩ :=
    serializable (disciplined_sectionProgram nofifo) rfl (fun t h => h rfl) hrun
  obtain ⟨ops, driver, hops, rfl, hout⟩ := whole_ops hserial.run
  have hflat : ops.flatMap Prod.snd = whole.flatMap Prod.snd := by
    rw [List.flatMap_def, List.flatMap_def, hout]
  refine ⟨ops, driver, hops, ?_, ?_, ?_⟩
  · rw [← hserial.order, List.length_map, ← List.length_map Prod.snd, hout, List.length_map]
  · rw [hflat]
    exact hserial.free
  · rw [hflat]
    exact hserial.held

end

/--
**The operations are whole.**  However the accesses of any number of threads interleave, only
the thread that has `sync_lock` is in an operation; and there is a run of whole operations,
one for each that is over, that hands out what these have handed out and leaves the ring as it
is, or as the operation under way has found it.  A run ends where an access would leave its
array: nothing is said of what comes after that.
-/
theorem interleaving_whole {T : Type} [DecidableEq T] (nofifo : Int) (es : List (Event T Emission))
    (s : State T ClientData Place) (hrun : Run (AccessStep T nofifo) (probedThreads T) es s) :
    (∀ t, s.locals t ≠ .outside ↔ s.lock = some t) ∧
      ∃ ops driver, WholeOps nofifo es s ops driver :=
  ⟨exclusive_of_run hrun, wholeOps_of_run hrun⟩

/-- What a handler is given whose count fails. -/
def failedCount : Given := { now := 1, count := .fail eio, answer := .fail eio }

/-- The UDP thread finds the sentinel; the handler takes the lock from it and fails. -/
theorem interleaving_whole_failed : ∃ es s,
    Run (AccessStep Bool 0) (probedThreads Bool) es s ∧ es.length = 12 ∧ s.lock = none ∧
      s.shared.ringbufferpos = 0 ∧
      ∃ ops driver, Run (OpEmits 0) probedState ops driver ∧ ops.length = 2 ∧
        s.shared = driver.client := by
  have hstart : Run (AccessStep Bool 0) (probedThreads Bool) [] _ := Run.nil
  have hlock := hstart.snoc (.acquire (t := true) rfl (.consumer (.server true)))
  have hsentinel := hlock.snoc (.access (t := true) (.consumer rfl))
  have hunlock := hsentinel.snoc (.release (t := true) .leaving)
  have hgiven : ∀ {cd cd' t place}, handlerAccess 0 failedCount cd t = .ok (cd', place) →
      Accesses 0 cd (.handler t) [] cd' place := fun h => .handler h
  have htaken := hunlock.snoc (.acquire (t := false) rfl (.handler 0))
  have hincrement := htaken.snoc (.access (t := false) (hgiven rfl))
  have hwrap := hincrement.snoc (.access (t := false) (hgiven rfl))
  have hused := hwrap.snoc (.access (t := false) (hgiven rfl))
  have hsize := hused.snoc (.access (t := false) (hgiven rfl))
  have htime := hsize.snoc (.access (t := false) (hgiven rfl))
  have hcount := htime.snoc (.access (t := false) (hgiven rfl))
  have hcleanUp := hcount.snoc (.access (t := false) (hgiven rfl))
  have hrun := hcleanUp.snoc (.release (t := false) .leaving)
  obtain ⟨-, ops, driver, hops⟩ := interleaving_whole 0 _ _ hrun
  exact ⟨_, _, hrun, rfl, rfl, rfl, ops, driver, hops.run, hops.length, (hops.free rfl).1⟩

end Mpu6050
