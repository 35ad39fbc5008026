/-
What one run of the work queue handler does to the ring.

The count first.  `i2c_mpu6050_device_fifo_count` means to swap the 16-bit count but
swaps the upper half of the `s32` it sits in, which is all zeros or all ones, so what
it returns is exactly what the bus returned: `deviceFifoCount_word` and
`deviceFifoCount_fail`.

Then the shape of a run.  The handler touches one slot, the one after
`ringbufferpos`, and everything else about a run is about what becomes of that slot:
`wqReadHandler_eq` says so once, and the invariants of the system are read off it.

The slot's fate is decided by the loop.  What a condition on a run can speak of is
each block read that is made: how many bytes the slot had and how many came.
`EachRead` states that of a list of answers, and the loop lemmas trade a statement
about the loop's outcome for one about its reads.
-/
import Mpu6050.Driver.Wq

namespace Mpu6050

/-! ### Computations that may be stuck -/

theorem bind_ok {α β : Type} {x : Except Stuck α} {f : α → Except Stuck β} {b : β} :
    (x >>= f) = .ok b ↔ ∃ a, x = .ok a ∧ f a = .ok b := by
  cases x with
  | error stuck =>
      constructor
      · intro h; cases h
      · rintro ⟨a, h, -⟩; cases h
  | ok a =>
      constructor
      · intro h; exact ⟨a, rfl, h⟩
      · rintro ⟨a', h, hf⟩; cases h; exact hf

theorem ok_bind {α β : Type} (a : α) (f : α → Except Stuck β) : (.ok a >>= f) = f a := rfl

theorem error_bind {α β : Type} (stuck : Stuck) (f : α → Except Stuck β) :
    (.error stuck >>= f) = .error stuck := rfl

/-! ### The FIFO count -/

theorem upper_append_lower (x : BitVec 32) :
    ((x >>> 16).setWidth 16 ++ x.setWidth 16 : BitVec 32) = x := by
  ext i hi
  simp only [BitVec.getElem_append, BitVec.getElem_setWidth, BitVec.getLsbD_ushiftRight]
  split
  · rw [BitVec.getLsbD_eq_getElem hi]
  · rw [show 16 + (i - 16) = i by omega, BitVec.getLsbD_eq_getElem hi]

/-- A swap that leaves the upper half alone leaves the result alone. -/
theorem deviceFifoCount_eq (answer : WordAnswer)
    (h : be16ToCpus ((answer.result >>> 16).setWidth 16)
      = (answer.result >>> 16).setWidth 16) :
    deviceFifoCount answer = answer.result.toInt := by
  unfold deviceFifoCount
  simp only [h, upper_append_lower]

/-- **A delivered word is returned as it is.**  Its two bytes are not swapped. -/
theorem deviceFifoCount_word (w : BitVec 16) : deviceFifoCount (.word w) = w.toNat := by
  have hupper : (((WordAnswer.word w).result >>> 16).setWidth 16 : BitVec 16) = 0 := by
    apply BitVec.eq_of_toNat_eq
    simp [WordAnswer.result]
    omega
  rw [deviceFifoCount_eq _ (by rw [hupper]; decide)]
  show (w.setWidth 32).toInt = w.toNat
  rw [BitVec.toInt_eq_toNat_of_lt] <;> simp <;> omega

/-- An error is returned as it is. -/
theorem deviceFifoCount_fail (e : Errno) : deviceFifoCount (.fail e) = e.val := by
  obtain ⟨e, hlo, hhi⟩ := e
  have hupper : (((WordAnswer.fail ⟨e, hlo, hhi⟩).result >>> 16).setWidth 16 : BitVec 16)
      = 0xFFFF := by
    apply BitVec.eq_of_toNat_eq
    simp [WordAnswer.result]
    omega
  rw [deviceFifoCount_eq _ (by rw [hupper]; decide)]
  show (BitVec.ofInt 32 e).toInt = e
  rw [BitVec.toInt_ofInt, Int.bmod_eq_of_le] <;> omega

/-! ### The length of a block read -/

theorem blockLength_eq (length : Int) : (blockLength length : Int) = min (length % 256) 32 := by
  unfold blockLength
  simp
  omega

/-- A block read returns no more bytes than it really asked for. -/
theorem length_le_blockLength {length : Int} {answer : BlockAnswer} {bs : List U8}
    (h : smbusReadI2cBlockData length answer = .bytes bs) : bs.length ≤ blockLength length := by
  cases answer with
  | fail e => simp [smbusReadI2cBlockData] at h
  | bytes bs' =>
      simp only [smbusReadI2cBlockData, BlockAnswer.bytes.injEq] at h
      rw [← h, List.length_take]
      exact Nat.min_le_left _ _

/-- What the bus may deliver is what a block read may return. -/
theorem smbusRead_bytes {length : Int} {bs : List U8} (h : bs.length ≤ blockLength length) :
    smbusReadI2cBlockData length (.bytes bs) = .bytes bs := by
  rw [smbusReadI2cBlockData, List.take_of_length_le h]

/-! ### Storing a block -/

theorem storeBlock_ok {data : Data} {bs : List U8} (h : bs.length ≤ ringbufferDataSize) :
    storeBlock data bs = .ok fun i => (bs[i.val]?).getD (data i) := if_pos h

theorem storeBlock_error {data : Data} {bs : List U8} (h : ¬bs.length ≤ ringbufferDataSize) :
    storeBlock data bs = .error (.store bs.length) := if_neg h

/-! ### One pass of the loop -/

theorem doLoop_done {count : Int} {answers : List BlockAnswer} {entry : RingbufferEntry}
    {ts : Transfers} (h : ¬entry.size < count) :
    doLoop count answers entry ts = .ok (entry, ts) := by
  unfold doLoop
  rw [if_neg h]

theorem doLoop_nil {count : Int} {entry : RingbufferEntry} {ts : Transfers}
    (h : entry.size < count) : doLoop count [] entry ts = .error .pending := by
  unfold doLoop
  rw [if_pos h]

theorem doLoop_fail {count : Int} {answer : BlockAnswer} {rest : List BlockAnswer}
    {entry : RingbufferEntry} {ts : Transfers} {e : Errno} (h : entry.size < count)
    (hread : smbusReadI2cBlockData count answer = .fail e) :
    doLoop count (answer :: rest) entry ts = .ok (cleanUp entry, ts) := by
  unfold doLoop
  simp only [if_pos h, hread]

theorem doLoop_overflow {count : Int} {answer : BlockAnswer} {rest : List BlockAnswer}
    {entry : RingbufferEntry} {ts : Transfers} {bs : List U8} (h : entry.size < count)
    (hread : smbusReadI2cBlockData count answer = .bytes bs)
    (hlong : ¬bs.length ≤ ringbufferDataSize) :
    doLoop count (answer :: rest) entry ts = .error (.store bs.length) := by
  unfold doLoop
  simp only [if_pos h, hread, storeBlock_error hlong]

/-- The slot after one successful block read. -/
def fillEntry (entry : RingbufferEntry) (bs : List U8) : RingbufferEntry :=
  { entry with
    data := fun i => (bs[i.val]?).getD (entry.data i)
    size := entry.size + bs.length }

@[simp] theorem fillEntry_used (entry : RingbufferEntry) (bs : List U8) :
    (fillEntry entry bs).used = entry.used := rfl

@[simp] theorem fillEntry_size (entry : RingbufferEntry) (bs : List U8) :
    (fillEntry entry bs).size = entry.size + bs.length := rfl

@[simp] theorem cleanUp_used (entry : RingbufferEntry) : (cleanUp entry).used = false := rfl

theorem doLoop_bytes {count : Int} {answer : BlockAnswer} {rest : List BlockAnswer}
    {entry : RingbufferEntry} {ts : Transfers} {bs : List U8} (h : entry.size < count)
    (hread : smbusReadI2cBlockData count answer = .bytes bs)
    (hshort : bs.length ≤ ringbufferDataSize) :
    doLoop count (answer :: rest) entry ts
      = doLoop count rest (fillEntry entry bs) (ts ++ [bs]) := by
  rw [doLoop]
  simp only [if_pos h, hread, storeBlock_ok hshort]
  rfl

/-- The two ways to `clean_up` before the loop are one. -/
theorem readFifo_eq (work : ReadWork) (entry : RingbufferEntry) :
    readFifo work entry
      = if deviceFifoCount work.count ≤ 0 then .ok (cleanUp entry, [])
        else doLoop (deviceFifoCount work.count) work.answers entry [] := by
  unfold readFifo
  by_cases hneg : deviceFifoCount work.count < 0
  · simp only [if_pos hneg, if_pos (Int.le_of_lt hneg)]
  · by_cases hzero : deviceFifoCount work.count = 0
    · simp only [hzero, if_true, Int.le_refl, ite_self]
    · simp only [if_neg hneg, if_neg hzero]
      rw [if_neg (by omega)]

/-! ### What a condition on the reads says -/

/--
`Q before n` holds of each block read that a loop makes and that succeeds: `before` is
what the slot held, `n` how many bytes came.  A read is made while the slot holds less
than the count and no read before it has failed.
-/
def EachRead (Q : Int → Nat → Prop) (count : Int) : Int → List BlockAnswer → Prop
  | _, [] => True
  | size, answer :: rest =>
    size < count →
      match smbusReadI2cBlockData count answer with
      | .fail _ => True
      | .bytes bs => Q size bs.length ∧ EachRead Q count (size + bs.length) rest

theorem eachRead_done {Q : Int → Nat → Prop} {count size : Int} {answers : List BlockAnswer}
    (h : ¬size < count) : EachRead Q count size answers := by
  cases answers with
  | nil => trivial
  | cons answer rest => exact fun hlt => absurd hlt h

theorem eachRead_fail {Q : Int → Nat → Prop} {count size : Int} {answer : BlockAnswer}
    {rest : List BlockAnswer} {e : Errno} (hread : smbusReadI2cBlockData count answer = .fail e) :
    EachRead Q count size (answer :: rest) := by
  intro _
  simp only [hread]

theorem eachRead_bytes {Q : Int → Nat → Prop} {count size : Int} {answer : BlockAnswer}
    {rest : List BlockAnswer} {bs : List U8} (hlt : size < count)
    (hread : smbusReadI2cBlockData count answer = .bytes bs) :
    EachRead Q count size (answer :: rest)
      ↔ Q size bs.length ∧ EachRead Q count (size + bs.length) rest := by
  constructor
  · intro h
    simpa only [hread] using h hlt
  · intro h _
    simpa only [hread] using h

/-! ### The slot a run works on -/

/-- `ringbufferpos` is the sentinel or a slot. -/
def PosInRange (cd : ClientData) : Prop :=
  -1 ≤ cd.ringbufferpos ∧ cd.ringbufferpos < ringbufferSize

instance (cd : ClientData) : Decidable (PosInRange cd) :=
  inferInstanceAs (Decidable (_ ∧ _))

theorem ringbufferSize_eq : (ringbufferSize : Int) = 64 := rfl

theorem nextPos_range {cd : ClientData} (h : PosInRange cd) :
    0 ≤ nextPos cd.ringbufferpos ∧ nextPos cd.ringbufferpos < ringbufferSize := by
  obtain ⟨hlo, hhi⟩ := h
  have := ringbufferSize_eq
  unfold nextPos
  split <;> omega

theorem ringbufferIndex_ok {i : Int} (h : 0 ≤ i ∧ i < ringbufferSize) :
    ∃ k : Fin ringbufferSize, ringbufferIndex i = .ok k ∧ (k.val : Int) = i := by
  refine ⟨⟨i.toNat, by omega⟩, dif_pos h, ?_⟩
  show (i.toNat : Int) = i
  omega

theorem ringbufferIndex_val {i : Int} {k : Fin ringbufferSize} (h : ringbufferIndex i = .ok k) :
    (k.val : Int) = i := by
  unfold ringbufferIndex at h
  split at h
  · rename_i hrange
    cases h
    show (i.toNat : Int) = i
    exact Int.toNat_of_nonneg hrange.1
  · cases h

theorem ringbufferIndex_natCast (k : Fin ringbufferSize) : ringbufferIndex k.val = .ok k := by
  obtain ⟨k', hk, hval⟩ := ringbufferIndex_ok (i := k.val) ⟨by omega, by have := k.isLt; omega⟩
  rw [hk, Fin.ext (show k'.val = k.val by omega)]

/-- The read of one run, in either mode, on the slot it has claimed. -/
def readEntry (nofifo : Int) (work : ReadWork) (entry : RingbufferEntry) :
    Except Stuck (RingbufferEntry × Transfers) :=
  if nofifo = 0 then readFifo work (claimEntry work entry)
  else readRegisters work (claimEntry work entry)

/-- **A run works on one slot**: the next one, and the position moves there. -/
theorem wqReadHandler_eq (nofifo : Int) (work : ReadWork) {cd : ClientData}
    (h : PosInRange cd) :
    ∃ k : Fin ringbufferSize, (k.val : Int) = nextPos cd.ringbufferpos ∧
      wqReadHandler nofifo work cd
        = (readEntry nofifo work (cd.ringbuffer k)).map fun p =>
            ({ cd.setEntry k p.1 with ringbufferpos := k.val }, p.2) := by
  obtain ⟨k, hk, hval⟩ := ringbufferIndex_ok (nextPos_range h)
  refine ⟨k, hval, ?_⟩
  have hunfold : wqReadHandler nofifo work cd
      = readEntry nofifo work (cd.ringbuffer k) >>= fun p =>
          pure ({ cd.setEntry k p.1 with ringbufferpos := nextPos cd.ringbufferpos }, p.2) := by
    by_cases hfifo : nofifo = 0
    · simp only [wqReadHandler, readEntry, hk, if_pos hfifo]
      rfl
    · simp only [wqReadHandler, readEntry, hk, if_neg hfifo]
      rfl
  rw [hunfold, hval]
  cases readEntry nofifo work (cd.ringbuffer k) with
  | error stuck => rfl
  | ok p => rfl

/-- What a run that returns has done. -/
theorem wqReadHandler_ok {nofifo : Int} {work : ReadWork} {cd cd' : ClientData} {ts : Transfers}
    (h : PosInRange cd) (hrun : wqReadHandler nofifo work cd = .ok (cd', ts)) :
    ∃ (k : Fin ringbufferSize) (entry : RingbufferEntry),
      (k.val : Int) = nextPos cd.ringbufferpos ∧
      readEntry nofifo work (cd.ringbuffer k) = .ok (entry, ts) ∧
      cd' = { cd.setEntry k entry with ringbufferpos := k.val } := by
  obtain ⟨k, hk, heq⟩ := wqReadHandler_eq nofifo work h
  rw [heq] at hrun
  cases hread : readEntry nofifo work (cd.ringbuffer k) with
  | error stuck => rw [hread] at hrun; cases hrun
  | ok p =>
      rw [hread] at hrun
      cases hrun
      exact ⟨k, p.1, hk, hread, rfl⟩

/-- After a run the position is a slot. -/
theorem wqReadHandler_posInRange {nofifo : Int} {work : ReadWork} {cd cd' : ClientData}
    {ts : Transfers} (h : PosInRange cd) (hrun : wqReadHandler nofifo work cd = .ok (cd', ts)) :
    0 ≤ cd'.ringbufferpos ∧ cd'.ringbufferpos < ringbufferSize := by
  obtain ⟨k, entry, -, -, rfl⟩ := wqReadHandler_ok h hrun
  exact ⟨Int.natCast_nonneg _, by have := k.isLt; show (k.val : Int) < _; omega⟩

end Mpu6050
