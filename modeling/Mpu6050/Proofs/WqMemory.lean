/-
The handler on the ring's memory, step by step.

`WqMove` is what one step can do in FIFO mode.  Whether the loop goes on is decided by the
sizes (`Sizes.Short`, `Sizes.Reached`), and a step makes of them what `Sizes.read` says.

As long as every block fits its slot, nothing is stored beyond `data` and the machine of
one slot, `handlerStep`, says all there is to say: `followsSlot_step` carries its steps over
to the memory, and `wqReadHandler_inMemory` the runs of `wqReadHandler`.
-/
import Mpu6050.Proofs.Layout
import Mpu6050.Proofs.HandlerSteps

namespace Mpu6050

open Memory Steps

/-! ### What the loop tests -/

/-- The slot that `ringbufferpos` names holds less than the count. -/
def Sizes.Short (count : Int) (z : Sizes) : Prop :=
  ∃ i, ringbufferIndex z.pos = .ok i ∧ z.size i < count

/-- It holds the count. -/
def Sizes.Reached (count : Int) (z : Sizes) : Prop :=
  ∃ i, ringbufferIndex z.pos = .ok i ∧ count ≤ z.size i

theorem Sizes.not_short {count : Int} {z : Sizes} (h : z.Reached count) : ¬z.Short count := by
  rintro ⟨i, hi, hlt⟩
  obtain ⟨j, hj, hle⟩ := h
  rw [hi] at hj
  cases hj
  omega

theorem short_iff_slot {m : Bytes} {count : Int} : (sizesAt m).Short count ↔
    ∃ i, currentSlot m = .ok i ∧ sizeAt m i < count := Iff.rfl

theorem reached_iff_slot {m : Bytes} {count : Int} : (sizesAt m).Reached count ↔
    ∃ i, currentSlot m = .ok i ∧ ¬sizeAt m i < count := by
  simp only [Int.not_lt]
  exact Iff.rfl

section

variable {bus : BusAnswers} {s : WqState}

/-! ### The steps in FIFO mode -/

theorem wqStep_fifoCount (bus : BusAnswers) (h : s.label = .fifoCount) :
    wqStep 0 bus s = .ok { s with
      label := if deviceFifoCount bus.count ≤ 0 then .cleanUp else .doLoop } := by
  unfold wqStep
  simp only [h, if_true]
  by_cases hneg : deviceFifoCount bus.count < 0
  · rw [if_pos hneg, if_pos (by omega)]
  · rw [if_neg hneg]
    by_cases hzero : deviceFifoCount bus.count = 0
    · rw [if_pos hzero, if_pos (by omega)]
    · rw [if_neg hzero, if_neg (by omega)]

theorem wqStep_leave (h : s.label = .doLoop)
    (hdone : (sizesAt s.memory).Reached (deviceFifoCount bus.count)) :
    wqStep 0 bus s = .ok { s with label := .doDispatch } := by
  obtain ⟨i, hi, hle⟩ := reached_iff_slot.mp hdone
  unfold wqStep
  simp only [h, if_true, hi, ok_bind]
  rw [if_neg hle]

theorem wqStep_fail {e : Errno} (h : s.label = .doLoop)
    (hlt : (sizesAt s.memory).Short (deviceFifoCount bus.count))
    (hread : smbusReadI2cBlockData (deviceFifoCount bus.count) (bus.answers s.reads) = .fail e) :
    wqStep 0 bus s = .ok { s with label := .cleanUp, reads := s.reads + 1 } := by
  obtain ⟨i, hi, hlt⟩ := short_iff_slot.mp hlt
  unfold wqStep
  simp only [h, if_true, hi, ok_bind]
  rw [if_pos hlt, hread]

theorem wqStep_bytes {bs : List U8} (h : s.label = .doLoop)
    (hlt : (sizesAt s.memory).Short (deviceFifoCount bus.count))
    (hread : smbusReadI2cBlockData (deviceFifoCount bus.count) (bus.answers s.reads)
      = .bytes bs) :
    wqStep 0 bus s = (storeRead s.memory bs).map fun memory =>
      { s with label := .doDispatch, memory, reads := s.reads + 1 } := by
  obtain ⟨i, hi, hlt⟩ := short_iff_slot.mp hlt
  unfold wqStep
  simp only [h, if_true, hi, ok_bind]
  rw [if_pos hlt, hread]
  rfl

theorem wqStep_again (h : s.label = .doDispatch)
    (hlt : (sizesAt s.memory).Short (deviceFifoCount bus.count)) :
    wqStep 0 bus s = .ok { s with label := .doLoop } := by
  obtain ⟨i, hi, hlt⟩ := short_iff_slot.mp hlt
  unfold wqStep
  simp only [h, if_true, hi, ok_bind]
  rw [if_pos hlt]

theorem wqStep_done (h : s.label = .doDispatch)
    (hdone : (sizesAt s.memory).Reached (deviceFifoCount bus.count)) :
    wqStep 0 bus s = .ok { s with label := .unlocked .doDispatch, syncLock := false } := by
  obtain ⟨i, hi, hle⟩ := reached_iff_slot.mp hdone
  unfold wqStep
  simp only [h, if_true, hi, ok_bind]
  rw [if_neg hle]

theorem wqStep_cleanUp {nofifo : Int} {i : Fin ringbufferSize} (h : s.label = .cleanUp)
    (hi : currentSlot s.memory = .ok i) :
    wqStep nofifo bus s = .ok { s with
      label := .unlocked .cleanUp
      memory := storeInt s.memory (usedAddr i) 0
      syncLock := false } := by
  unfold wqStep
  simp only [h, hi, ok_bind]

theorem wqStep_unlocked {nofifo : Int} {exit : WqExit} (h : s.label = .unlocked exit) :
    wqStep nofifo bus s = .ok s := by
  unfold wqStep
  simp only [h]

/-- Without a slot to look at, every label but the first and the last is stuck. -/
theorem wqStep_lost {i : Int} (hi : currentSlot s.memory = .error (.index i))
    (h : s.label = .doLoop ∨ s.label = .doDispatch ∨ s.label = .cleanUp) :
    wqStep 0 bus s = .error (.index i) := by
  unfold wqStep
  rcases h with h | h | h <;> simp only [h, hi, error_bind, if_true]

/-- A slot is named, or it is not. -/
theorem currentSlot_cases (m : Bytes) :
    (∃ i, currentSlot m = .ok i) ∨ currentSlot m = .error (.index (ringbufferposAt m)) := by
  unfold currentSlot ringbufferIndex
  split
  · exact Or.inl ⟨_, rfl⟩
  · exact Or.inr rfl

/-- With a slot named, it holds the count or less. -/
theorem short_or_reached {i : Fin ringbufferSize} (hi : currentSlot s.memory = .ok i)
    (count : Int) : (sizesAt s.memory).Short count ∨ (sizesAt s.memory).Reached count := by
  by_cases hlt : sizeAt s.memory i < count
  · exact Or.inl (short_iff_slot.mpr ⟨i, hi, hlt⟩)
  · exact Or.inr (reached_iff_slot.mpr ⟨i, hi, hlt⟩)

/-- The moves of the handler in FIFO mode. -/
inductive WqMove (bus : BusAnswers) (s : WqState) : WqState → Prop
  | empty (h : s.label = .fifoCount) (hcount : deviceFifoCount bus.count ≤ 0) :
      WqMove bus s { s with label := .cleanUp }
  | enter (h : s.label = .fifoCount) (hcount : 0 < deviceFifoCount bus.count) :
      WqMove bus s { s with label := .doLoop }
  | fail {e : Errno} (h : s.label = .doLoop)
      (hlt : (sizesAt s.memory).Short (deviceFifoCount bus.count))
      (hread : smbusReadI2cBlockData (deviceFifoCount bus.count) (bus.answers s.reads) = .fail e) :
      WqMove bus s { s with label := .cleanUp, reads := s.reads + 1 }
  | bytes {bs : List U8} {memory : Bytes} (h : s.label = .doLoop)
      (hlt : (sizesAt s.memory).Short (deviceFifoCount bus.count))
      (hread : smbusReadI2cBlockData (deviceFifoCount bus.count) (bus.answers s.reads)
        = .bytes bs) (hstore : storeRead s.memory bs = .ok memory) :
      WqMove bus s { s with label := .doDispatch, memory, reads := s.reads + 1 }
  | leave (h : s.label = .doLoop)
      (hdone : (sizesAt s.memory).Reached (deviceFifoCount bus.count)) :
      WqMove bus s { s with label := .doDispatch }
  | again (h : s.label = .doDispatch)
      (hlt : (sizesAt s.memory).Short (deviceFifoCount bus.count)) :
      WqMove bus s { s with label := .doLoop }
  | done (h : s.label = .doDispatch)
      (hdone : (sizesAt s.memory).Reached (deviceFifoCount bus.count)) :
      WqMove bus s { s with label := .unlocked .doDispatch, syncLock := false }
  | cleanUp {i : Fin ringbufferSize} (h : s.label = .cleanUp)
      (hi : currentSlot s.memory = .ok i) :
      WqMove bus s { s with
        label := .unlocked .cleanUp, memory := storeInt s.memory (usedAddr i) 0, syncLock := false }
  | rest {exit : WqExit} (h : s.label = .unlocked exit) : WqMove bus s s

/-- **What one step can do** in FIFO mode. -/
theorem wqMove_of_step {s' : WqState} (hmode : s.label ≠ .registers)
    (hstep : wqStep 0 bus s = .ok s') : WqMove bus s s' := by
  have hslot : s.label = .doLoop ∨ s.label = .doDispatch ∨ s.label = .cleanUp →
      ∃ i, currentSlot s.memory = .ok i := by
    intro h
    rcases currentSlot_cases s.memory with hi | hi
    · exact hi
    · rw [wqStep_lost hi h] at hstep
      cases hstep
  cases hlabel : s.label with
  | registers => exact absurd hlabel hmode
  | fifoCount =>
      rw [wqStep_fifoCount bus hlabel] at hstep
      by_cases hcount : deviceFifoCount bus.count ≤ 0
      · rw [if_pos hcount] at hstep
        cases hstep
        exact .empty hlabel hcount
      · rw [if_neg hcount] at hstep
        cases hstep
        exact .enter hlabel (by omega)
  | doLoop =>
      obtain ⟨i, hi⟩ := hslot (Or.inl hlabel)
      rcases short_or_reached hi (deviceFifoCount bus.count) with hlt | hdone
      · cases hread : smbusReadI2cBlockData (deviceFifoCount bus.count) (bus.answers s.reads) with
        | fail e =>
            rw [wqStep_fail hlabel hlt hread] at hstep
            cases hstep
            exact .fail hlabel hlt hread
        | bytes bs =>
            rw [wqStep_bytes hlabel hlt hread] at hstep
            cases hstore : storeRead s.memory bs with
            | error stuck =>
                rw [hstore] at hstep
                cases hstep
            | ok memory =>
                rw [hstore] at hstep
                cases hstep
                exact .bytes hlabel hlt hread hstore
      · rw [wqStep_leave hlabel hdone] at hstep
        cases hstep
        exact .leave hlabel hdone
  | doDispatch =>
      obtain ⟨i, hi⟩ := hslot (Or.inr (Or.inl hlabel))
      rcases short_or_reached hi (deviceFifoCount bus.count) with hlt | hdone
      · rw [wqStep_again hlabel hlt] at hstep
        cases hstep
        exact .again hlabel hlt
      · rw [wqStep_done hlabel hdone] at hstep
        cases hstep
        exact .done hlabel hdone
  | cleanUp =>
      obtain ⟨i, hi⟩ := hslot (Or.inr (Or.inr hlabel))
      rw [wqStep_cleanUp hlabel hi] at hstep
      cases hstep
      exact .cleanUp hlabel hi
  | unlocked exit =>
      rw [wqStep_unlocked hlabel] at hstep
      cases hstep
      exact .rest hlabel

end

/-! ### As long as every block fits -/

/-- A block that fits its slot. -/
theorem storeRead_short {m : Bytes} {i : Fin ringbufferSize} {bs : List U8}
    (hi : currentSlot m = .ok i) (hshort : bs.length ≤ ringbufferDataSize)
    (hrange : -2147483648 ≤ sizeAt m i ∧ sizeAt m i + bs.length < 2147483648) :
    ∃ m', storeRead m bs = .ok m' ∧ OutsideSlot i m m' ∧
      entryAt m' i = fillEntry (entryAt m i) bs := by
  have haddr := addr_eq i
  have hblock : OutsideSlot i m (store m (dataAddr i) bs) := by
    replace hshort : bs.length ≤ 14 := hshort
    exact outsideSlot_store (by omega) (by omega)
  have hj : currentSlot (store m (dataAddr i) bs) = .ok i := by
    rw [currentSlot, hblock.ringbufferposAt]
    exact hi
  have hentry := entryAt_storeData m i hshort
  have hsize : sizeAt (store m (dataAddr i) bs) i = sizeAt m i := by
    rw [← entryAt_size, hentry, entryAt_size]
  have hadd : ∀ v, OutsideSlot i (store m (dataAddr i) bs)
      (storeInt (store m (dataAddr i) bs) (sizeAddr i) v) :=
    fun v => outsideSlot_storeInt (by omega) (by omega)
  refine ⟨_, storeRead_eq hi hj, hblock.trans (hadd _), ?_⟩
  rw [entryAt_storeSize, hentry, hsize, wrapInt_of_range (by omega) (by omega)]
  rfl

/-- The memory holds the ring with the slot in which the machine of one slot is at work. -/
structure FollowsSlot (cd : ClientData) (k : Fin ringbufferSize) (s : WqState)
    (h : HandlerState) : Prop where
  label : s.label = h.label
  reads : s.reads = h.reads
  syncLock : s.syncLock = h.syncLock
  client : clientAt s.memory = { cd.setEntry k h.entry with ringbufferpos := k.val }
  size : -4096 ≤ h.entry.size ∧ h.entry.size < 65600

section

variable {cd : ClientData} {k : Fin ringbufferSize} {s : WqState} {h h' : HandlerState}

theorem FollowsSlot.entry (hs : FollowsSlot cd k s h) : entryAt s.memory k = h.entry := by
  have hring := congrArg (ClientData.ringbuffer · k) hs.client
  exact hring.trans (Function.update_self ..)

theorem FollowsSlot.slot (hs : FollowsSlot cd k s h) : currentSlot s.memory = .ok k := by
  have hpos : ringbufferposAt s.memory = k.val := congrArg ClientData.ringbufferpos hs.client
  rw [currentSlot, hpos]
  exact ringbufferIndex_natCast k

theorem FollowsSlot.short_iff (hs : FollowsSlot cd k s h) {count : Int} :
    (sizesAt s.memory).Short count ↔ h.entry.size < count := by
  rw [← hs.entry, entryAt_size, short_iff_slot]
  constructor
  · rintro ⟨i, hi, hlt⟩
    rw [hs.slot] at hi
    cases hi
    exact hlt
  · exact fun hlt => ⟨k, hs.slot, hlt⟩

theorem FollowsSlot.reached (hs : FollowsSlot cd k s h) {count : Int}
    (hdone : ¬h.entry.size < count) : (sizesAt s.memory).Reached count :=
  (short_or_reached hs.slot count).resolve_left fun hc => hdone (hs.short_iff.mp hc)

/-- A store that keeps to the slot. -/
theorem FollowsSlot.set (hs : FollowsSlot cd k s h) {m : Bytes} {entry : RingbufferEntry}
    (hm : OutsideSlot k s.memory m) (hentry : entryAt m k = entry) :
    clientAt m = { cd.setEntry k entry with ringbufferpos := k.val } := by
  rw [clientAt_of_outsideSlot hm, hentry, hs.client]
  unfold ClientData.setEntry
  simp only [Function.update_idem]

/-- **A step of the machine of one slot is a step on the memory.** -/
theorem followsSlot_step {bus : BusAnswers} (hmode : h.label ≠ .registers)
    (hs : FollowsSlot cd k s h) (hstep : handlerStep 0 bus h = .ok h') :
    ∃ s', wqStep 0 bus s = .ok s' ∧ FollowsSlot cd k s' h' := by
  obtain ⟨hlabel, hreads, hlock, hclient, hsize⟩ := id hs
  have hcount : deviceFifoCount bus.count < 65536 := by
    cases bus.count with
    | fail e =>
        rw [deviceFifoCount_fail]
        have := e.property
        omega
    | word w =>
        rw [deviceFifoCount_word]
        have := w.isLt
        omega
  cases fifoMove_of_step hmode hstep with
  | empty hl hempty =>
      refine ⟨_, wqStep_fifoCount _ (hlabel.trans hl), ?_⟩
      rw [if_pos hempty]
      exact ⟨rfl, hreads, hlock, hclient, hsize⟩
  | enter hl hpos =>
      refine ⟨_, wqStep_fifoCount _ (hlabel.trans hl), ?_⟩
      rw [if_neg (by omega)]
      exact ⟨rfl, hreads, hlock, hclient, hsize⟩
  | fail hl hlt hread =>
      rw [← hreads] at hread
      exact ⟨_, wqStep_fail (hlabel.trans hl) (hs.short_iff.mpr hlt) hread, rfl,
        by rw [hreads], hlock, hclient, hsize⟩
  | @bytes bs hl hlt hread hshort =>
      rw [← hreads] at hread
      have hbs : bs.length ≤ 14 := hshort
      have hentry := hs.entry
      have hat : sizeAt s.memory k = h.entry.size := by rw [← entryAt_size, hentry]
      obtain ⟨m', hm', hout, hfill⟩ := storeRead_short hs.slot hshort (by omega)
      rw [hentry] at hfill
      have hset := hs.set hout hfill
      refine ⟨{ s with label := .doDispatch, memory := m', reads := s.reads + 1 }, ?_, rfl,
        by rw [hreads], hlock, hset, ?_⟩
      · rw [wqStep_bytes (hlabel.trans hl) (hs.short_iff.mpr hlt) hread, hm']
        rfl
      · show -4096 ≤ h.entry.size + (bs.length : Int) ∧ h.entry.size + (bs.length : Int) < 65600
        omega
  | leave hl hdone =>
      exact ⟨_, wqStep_leave (hlabel.trans hl) (hs.reached hdone), rfl, hreads, hlock, hclient,
        hsize⟩
  | again hl hlt =>
      exact ⟨_, wqStep_again (hlabel.trans hl) (hs.short_iff.mpr hlt), rfl, hreads, hlock, hclient,
        hsize⟩
  | done hl hdone =>
      exact ⟨_, wqStep_done (hlabel.trans hl) (hs.reached hdone), rfl, hreads, rfl, hclient, hsize⟩
  | cleanUp hl =>
      have hout : OutsideSlot k s.memory (storeInt s.memory (usedAddr k) 0) :=
        outsideSlot_storeInt (Nat.le_refl _) (by omega)
      have hunused : entryAt (storeInt s.memory (usedAddr k) 0) k = cleanUp h.entry := by
        rw [entryAt_storeUsed, hs.entry]
        rfl
      have hset := hs.set hout hunused
      exact ⟨_, wqStep_cleanUp (hlabel.trans hl) hs.slot, rfl, hreads, rfl, hset, hsize⟩
  | rest hl => exact ⟨s, wqStep_unlocked (hlabel.trans hl), hs⟩

end

/-! ### The registers -/

section

variable {nofifo : Int} {bus : BusAnswers} {s : WqState} {k : Fin ringbufferSize}

/-- What the block read of the registers makes of its slot. -/
def readRegistersEntry (entry : RingbufferEntry) : BlockAnswer → RingbufferEntry
  | .fail e => { entry with size := e.val }
  | .bytes bs =>
    { entry with data := fun i => (bs[i.val]?).getD (entry.data i), size := bs.length }

/-- It keeps to the slot: a read of the registers asks for no more than a slot holds. -/
theorem storeRegisters_ok {m : Bytes} {answer : BlockAnswer} (hk : currentSlot m = .ok k)
    (hread : smbusReadI2cBlockData deviceBlockLength answer = answer) :
    ∃ m', storeRegisters m answer = .ok m' ∧ OutsideSlot k m m' ∧
      entryAt m' k = readRegistersEntry (entryAt m k) answer := by
  have haddr := addr_eq k
  have hsize : ∀ m v, OutsideSlot k m (storeInt m (sizeAddr k) v) :=
    fun m v => outsideSlot_storeInt (by omega) (by omega)
  cases answer with
  | fail e =>
      have he := e.property
      refine ⟨storeInt m (sizeAddr k) e.val, ?_, hsize m e.val, ?_⟩
      · unfold storeRegisters
        simp only [hk, ok_bind]
        rfl
      · rw [entryAt_storeSize, wrapInt_of_range (by omega) (by omega)]
        rfl
  | bytes bs =>
      have hshort : bs.length ≤ 14 := length_le_blockLength hread
      have hblock : OutsideSlot k m (store m (dataAddr k) bs) :=
        outsideSlot_store (by omega) (by omega)
      have hk' : currentSlot (store m (dataAddr k) bs) = .ok k := by
        rw [currentSlot, hblock.ringbufferposAt]
        exact hk
      refine ⟨storeInt (store m (dataAddr k) bs) (sizeAddr k) bs.length, ?_,
        hblock.trans (hsize _ _), ?_⟩
      · unfold storeRegisters
        simp only [hk, ok_bind, hk']
        rfl
      · rw [entryAt_storeSize, entryAt_storeData m k hshort,
          wrapInt_of_range (by omega) (by omega)]
        rfl

theorem wqStep_registers {m' : Bytes} (hmode : nofifo ≠ 0) (h : s.label = .registers)
    (hstore : storeRegisters s.memory
      (smbusReadI2cBlockData deviceBlockLength (bus.answers s.reads)) = .ok m') :
    wqStep nofifo bus s
      = .ok { s with label := .doDispatch, memory := m', reads := s.reads + 1 } := by
  unfold wqStep
  simp only [h, if_neg hmode, hstore, ok_bind]

theorem wqStep_dispatched (hmode : nofifo ≠ 0) (h : s.label = .doDispatch) :
    wqStep nofifo bus s
      = .ok { s with label := .unlocked .doDispatch, syncLock := false } := by
  unfold wqStep
  simp only [h, if_neg hmode]

/-- A block read makes no more of what a block read has made. -/
theorem smbusRead_idem (length : Int) (answer : BlockAnswer) :
    smbusReadI2cBlockData length (smbusReadI2cBlockData length answer)
      = smbusReadI2cBlockData length answer := by
  cases answer with
  | fail e => rfl
  | bytes bs => simp [smbusReadI2cBlockData, List.take_take]

/-- **A run in register mode makes one read into its slot, and unlocks.** -/
theorem settles_registers (bus : BusAnswers) (hmode : nofifo ≠ 0) (h : s.label = .registers)
    (hk : currentSlot s.memory = .ok k) :
    ∃ t, Settles (wqStep nofifo bus) s t ∧ t.label = .unlocked .doDispatch ∧
      t.syncLock = false ∧ OutsideSlot k s.memory t.memory ∧
      entryAt t.memory k = readRegistersEntry (entryAt s.memory k)
        (smbusReadI2cBlockData deviceBlockLength (bus.answers s.reads)) := by
  obtain ⟨m', hstore, hout, hentry⟩ := storeRegisters_ok hk (smbusRead_idem _ _)
  exact ⟨_, (settles_step (wqStep_registers hmode h hstore)).mpr
    ((settles_step (wqStep_dispatched hmode rfl)).mpr (settles_self (wqStep_unlocked rfl))), rfl,
    rfl, hout, hentry⟩

end

/-! ### A whole run -/

theorem wqStart_ok {nofifo : Int} {now : UInt64} {m : Bytes} {k : Fin ringbufferSize}
    (hk : ringbufferIndex (nextPos (ringbufferposAt m)) = .ok k) :
    wqStart nofifo now m = .ok
      { label := if nofifo = 0 then .fifoCount else .registers
        memory := resetSlot now (storeInt m ringbufferposAddr (nextPos (ringbufferposAt m))) k
        reads := 0
        syncLock := true } := by
  unfold wqStart
  simp only [hk, ok_bind]
  rfl

/-- A run that finds a slot started from the sentinel or a slot. -/
theorem posInRange_of_nextPos {m : Bytes} {k : Fin ringbufferSize}
    (hk : ringbufferIndex (nextPos (ringbufferposAt m)) = .ok k) : PosInRange (clientAt m) := by
  have hval := ringbufferIndex_val hk
  have hlt : k.val < 64 := k.isLt
  have hsize := ringbufferSize_eq
  unfold nextPos at hval
  show -1 ≤ ringbufferposAt m ∧ ringbufferposAt m < ringbufferSize
  split at hval <;> omega

/-- The next slot, claimed. -/
structure Claimed (now : UInt64) (m : Bytes) (k : Fin ringbufferSize) (s : WqState) : Prop where
  reads : s.reads = 0
  syncLock : s.syncLock = true
  client : clientAt s.memory = { (clientAt m).setEntry k
    { entryAt m k with used := true, size := 0, timestamp := now } with ringbufferpos := k.val }
  used : ∀ j, j ≠ k → usedAt s.memory j = usedAt m j

theorem usedAt_congr {m m' : Bytes} {j : Fin ringbufferSize}
    (h : ∀ x, usedAddr j ≤ x → x < usedAddr j + 4 → m' x = m x) : usedAt m' j = usedAt m j := by
  unfold usedAt loadInt
  rw [load_congr h]

theorem OutsideSlot.usedAt {m m' : Bytes} {j k : Fin ringbufferSize} (h : OutsideSlot k m m')
    (hne : j ≠ k) : usedAt m' j = usedAt m j := by
  have hval := Fin.val_ne_of_ne hne
  have hj := addr_eq j
  have hk := addr_eq k
  exact usedAt_congr fun x hlo hhi => h x (by omega)

theorem wqStart_claims (nofifo : Int) (now : UInt64) {m : Bytes} {k : Fin ringbufferSize}
    (hk : ringbufferIndex (nextPos (ringbufferposAt m)) = .ok k) :
    ∃ s, wqStart nofifo now m = .ok s ∧
      s.label = (if nofifo = 0 then .fifoCount else .registers) ∧ Claimed now m k s := by
  have hval := ringbufferIndex_val hk
  have hlt : k.val < 64 := k.isLt
  have hring : entryAt (storeInt m ringbufferposAddr (nextPos (ringbufferposAt m)))
      = entryAt m := funext fun i => entryAt_storePos ..
  have hpos : clientAt (storeInt m ringbufferposAddr (nextPos (ringbufferposAt m)))
      = { clientAt m with ringbufferpos := k.val } := by
    unfold clientAt
    rw [hring, ringbufferposAt, loadInt_storeInt, ← hval, wrapInt_of_range (by omega) (by omega)]
  have hout := outsideSlot_resetSlot now
    (storeInt m ringbufferposAddr (nextPos (ringbufferposAt m))) k
  refine ⟨_, wqStart_ok hk, rfl, rfl, rfl, ?_, fun j hne => ?_⟩
  · rw [clientAt_of_outsideSlot hout, entryAt_resetSlot, hring, hpos]
    rfl
  · have hj := addr_eq j
    rw [hout.usedAt hne]
    exact usedAt_congr fun x hlo hhi => storeInt_of_disjoint (by omega)

theorem Claimed.slot {now : UInt64} {m : Bytes} {k : Fin ringbufferSize} {s : WqState}
    (h : Claimed now m k s) : currentSlot s.memory = .ok k := by
  have hpos : ringbufferposAt s.memory = k.val := congrArg ClientData.ringbufferpos h.client
  rw [currentSlot, hpos]
  exact ringbufferIndex_natCast k

theorem Claimed.entry {now : UInt64} {m : Bytes} {k : Fin ringbufferSize} {s : WqState}
    (h : Claimed now m k s) :
    entryAt s.memory k = { entryAt m k with used := true, size := 0, timestamp := now } := by
  have hring := congrArg (ClientData.ringbuffer · k) h.client
  exact hring.trans (Function.update_self ..)

/-- What follows in register mode. -/
theorem readRegisters_eq {work : ReadWork} {answer : BlockAnswer} {rest : List BlockAnswer}
    (hanswers : work.answers = answer :: rest) (entry : RingbufferEntry) :
    ∃ ts, readRegisters work entry = .ok (readRegistersEntry entry
      (smbusReadI2cBlockData deviceBlockLength answer), ts) := by
  unfold readRegisters
  rw [hanswers]
  cases hread : smbusReadI2cBlockData deviceBlockLength answer with
  | fail e => exact ⟨[], by simp only [hread, readRegistersEntry]⟩
  | bytes bs =>
      have hshort : bs.length ≤ 14 := length_le_blockLength hread
      exact ⟨[bs], by simp only [hread, storeBlock_ok hshort, readRegistersEntry]⟩

/--
**What `wqReadHandler` says of a run is what happens in memory.**  It says something of every
run whose blocks fit their slot.
-/
theorem wqReadHandler_inMemory {nofifo : Int} {bus : BusAnswers} {now : UInt64} {n : Nat}
    {m : Bytes} {cd' : ClientData} {ts : Transfers}
    (hrun : wqReadHandler nofifo (bus.work now n) (clientAt m) = .ok (cd', ts)) :
    ∃ s t exit, wqStart nofifo now m = .ok s ∧ Settles (wqStep nofifo bus) s t ∧
      t.label = .unlocked exit ∧ t.syncLock = false ∧ clientAt t.memory = cd' := by
  obtain ⟨k, hk, -⟩ := bind_ok.mp hrun
  replace hk : ringbufferIndex (nextPos (ringbufferposAt m)) = .ok k := hk
  obtain ⟨k', entry, hk', hread, rfl⟩ := wqReadHandler_ok (posInRange_of_nextPos hk) hrun
  obtain rfl : k' = k := Fin.ext (by
    have := ringbufferIndex_val hk
    have : (k'.val : Int) = nextPos (ringbufferposAt m) := hk'
    omega)
  obtain ⟨s, hstart, hlabel, hclaimed⟩ := wqStart_claims nofifo now hk
  by_cases hmode : nofifo = 0
  · subst hmode
    -- the machine of one slot settles, and the memory follows it
    obtain ⟨exit, reads, hsettles⟩ := settles_of_readEntry hread
    have hs : FollowsSlot (clientAt m) k' s (handlerStart 0 now (entryAt m k')) :=
      ⟨hlabel, hclaimed.reads, hclaimed.syncLock, hclaimed.client,
        by show (-4096 : Int) ≤ 0 ∧ (0 : Int) < 65600; omega⟩
    have hfollow : ∀ s b b', FollowsSlot (clientAt m) k' s b ∧ b.label ≠ .registers →
        handlerStep 0 bus b = .ok b' → ∃ s', wqStep 0 bus s = .ok s' ∧
          FollowsSlot (clientAt m) k' s' b' ∧ b'.label ≠ .registers := by
      intro s b b' hR hb
      obtain ⟨s', hs', hfollows⟩ := followsSlot_step hR.2 hR.1 hb
      exact ⟨s', hs', hfollows, by cases fifoMove_of_step hR.2 hb <;> simp_all⟩
    obtain ⟨t, hmemory, ht, -⟩ := hsettles.follows hfollow
      (fun s hR => wqStep_unlocked hR.1.label) ⟨hs, nofun⟩
    exact ⟨s, t, exit, hstart, hmemory, ht.label, ht.syncLock, ht.client⟩
  · rw [readEntry, if_neg hmode] at hread
    rw [if_neg hmode] at hlabel
    cases n with
    | zero => cases hread
    | succ n =>
        obtain ⟨ts', hts⟩ := readRegisters_eq (show (bus.work now (n + 1)).answers = _ from rfl)
          (claimEntry (bus.work now (n + 1)) (entryAt m k'))
        rw [show (clientAt m).ringbuffer k' = entryAt m k' from rfl, hts] at hread
        cases hread
        obtain ⟨t, hsettles, hunlocked, hlock, hout, hentry⟩ :=
          settles_registers bus hmode hlabel hclaimed.slot
        rw [hclaimed.entry, hclaimed.reads] at hentry
        refine ⟨s, t, .doDispatch, hstart, hsettles, hunlocked, hlock, ?_⟩
        rw [clientAt_of_outsideSlot hout, hentry, hclaimed.client]
        unfold ClientData.setEntry
        simp only [Function.update_idem]
        rfl

end Mpu6050
