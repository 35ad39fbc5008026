/-
When a run in FIFO mode stays inside the slot's `data`.

Three quantities meet in the loop: the count, which the bus delivered and nothing
bounds; the length of each request, which is the count narrowed to a byte and not
what is still missing; and the address, which is the start of `data` every time.  So
a request can be longer than the slot, and a request made when part of the count has
come can take the total past the slot although each read fits.

`staysInSlot_iff` is the condition read by read.  `staysInSlot_always_iff` is what it
comes to when the bus is free to split the data as it likes: a count of at most 7 can
overshoot to 13 at worst, a multiple of 256 asks for nothing at all, and every other
count has a split that leaves the slot.
-/
import Mathlib.Tactic.Linarith
import Mpu6050.Proofs.Handler

namespace Mpu6050

/-- The result of a word read, as the number it is. -/
def WordAnswer.value : WordAnswer → Int
  | .fail e => e.val
  | .word w => w.toNat

theorem deviceFifoCount_value (answer : WordAnswer) : deviceFifoCount answer = answer.value := by
  cases answer with
  | fail e => exact deviceFifoCount_fail e
  | word w => exact deviceFifoCount_word w

/--
A run in FIFO mode stores nothing outside `data` of its slot, and a slot it leaves in
use says no more than `data` holds.  A run that is still pending has not stored
outside either.
-/
def StaysInSlot (work : ReadWork) (cd : ClientData) : Prop :=
  match wqReadHandler 0 work cd with
  | .ok (cd', _) => ∀ k, ringbufferIndex cd'.ringbufferpos = .ok k →
      (cd'.ringbuffer k).used = true → (cd'.ringbuffer k).size ≤ ringbufferDataSize
  | .error (.store _) => False
  | .error _ => True

/-- A read that fits, and that does not complete the count beyond the slot. -/
def FitsSlot (count before : Int) (n : Nat) : Prop :=
  n ≤ ringbufferDataSize ∧ (count ≤ before + n → before + n ≤ ringbufferDataSize)

/-! ### Read by read -/

/-- What `StaysInSlot` says of the read of one run. -/
def EntryStays : Except Stuck (RingbufferEntry × Transfers) → Prop
  | .ok (entry, _) => entry.used = true → entry.size ≤ ringbufferDataSize
  | .error (.store _) => False
  | .error _ => True

theorem staysInSlot_entry (work : ReadWork) {cd : ClientData} (h : PosInRange cd) :
    ∃ entry, StaysInSlot work cd ↔ EntryStays (readEntry 0 work entry) := by
  obtain ⟨k, -, heq⟩ := wqReadHandler_eq 0 work h
  refine ⟨cd.ringbuffer k, ?_⟩
  unfold StaysInSlot
  rw [heq]
  cases readEntry 0 work (cd.ringbuffer k) with
  | error stuck => cases stuck <;> exact Iff.rfl
  | ok p =>
      show (∀ k', ringbufferIndex (k.val : Int) = .ok k' → _)
        ↔ (p.1.used = true → p.1.size ≤ ringbufferDataSize)
      constructor
      · intro hall
        simpa [ClientData.setEntry] using hall k (ringbufferIndex_natCast k)
      · intro hentry k' hk'
        rw [ringbufferIndex_natCast] at hk'
        cases hk'
        simpa [ClientData.setEntry] using hentry

/-- The loop stays inside the slot exactly if each of its reads fits. -/
theorem doLoop_stays_iff (count : Int) (answers : List BlockAnswer) :
    ∀ (entry : RingbufferEntry) (ts : Transfers), entry.used = true → entry.size < count →
      (EntryStays (doLoop count answers entry ts)
        ↔ EachRead (FitsSlot count) count entry.size answers) := by
  induction answers with
  | nil =>
      intro entry ts _ hlt
      rw [doLoop_nil hlt]
      exact ⟨fun _ => trivial, fun _ => trivial⟩
  | cons answer rest ih =>
      intro entry ts hused hlt
      cases hread : smbusReadI2cBlockData count answer with
      | fail e =>
          rw [doLoop_fail hlt hread]
          exact ⟨fun _ => eachRead_fail hread, fun _ hc => absurd hc (by simp)⟩
      | bytes bs =>
          rw [eachRead_bytes hlt hread]
          by_cases hshort : bs.length ≤ ringbufferDataSize
          · rw [doLoop_bytes hlt hread hshort]
            by_cases hmore : entry.size + bs.length < count
            · -- the count is not complete: the rest of the loop decides
              rw [ih (fillEntry entry bs) (ts ++ [bs]) hused hmore]
              exact ⟨fun h => ⟨⟨hshort, fun hc => absurd hmore (by omega)⟩, h⟩, fun h => h.2⟩
            · -- this read completes the count, and the slot is left in use
              rw [doLoop_done (show ¬(fillEntry entry bs).size < count from hmore)]
              constructor
              · intro h
                exact ⟨⟨hshort, fun _ => h hused⟩, eachRead_done hmore⟩
              · rintro ⟨⟨-, hfits⟩, -⟩ -
                exact hfits (by omega)
          · rw [doLoop_overflow hlt hread hshort]
            exact ⟨False.elim, fun h => absurd h.1.1 hshort⟩

theorem readEntry_stays_iff (work : ReadWork) (entry : RingbufferEntry) :
    EntryStays (readEntry 0 work entry)
      ↔ EachRead (FitsSlot work.count.value) work.count.value 0 work.answers := by
  rw [readEntry, if_pos rfl, readFifo_eq, deviceFifoCount_value]
  by_cases hcount : work.count.value ≤ 0
  · rw [if_pos hcount]
    exact ⟨fun _ => eachRead_done (by omega), fun _ hc => absurd hc (by simp)⟩
  · rw [if_neg hcount]
    exact doLoop_stays_iff _ _ (claimEntry work entry) [] rfl
      (show (0 : Int) < work.count.value by omega)

/-! ### Over every way the bus may split the data -/

/-- A request for nothing gets nothing, and a count of at most 7 overshoots to 13 at worst. -/
theorem eachRead_fits {count : Int} (h : count ≤ 7 ∨ 256 ∣ count) (answers : List BlockAnswer) :
    ∀ size : Int, 0 ≤ size → EachRead (FitsSlot count) count size answers := by
  induction answers with
  | nil => intro size _; trivial
  | cons answer rest ih =>
      intro size hsize hlt
      cases hread : smbusReadI2cBlockData count answer with
      | fail e => trivial
      | bytes bs =>
          have hlen := length_le_blockLength hread
          have hblock := blockLength_eq count
          refine ⟨?_, ih _ (by omega)⟩
          have hmod : count ≤ 7 ∨ count % 256 = 0 := h.imp_right Int.emod_eq_zero_of_dvd
          show bs.length ≤ 14 ∧ (count ≤ size + bs.length → size + bs.length ≤ 14)
          omega

/-- Equal pieces add up until they complete the count, and then it is past the slot. -/
theorem not_eachRead_replicate {count : Int} {bs : List U8} (hcount : 14 < count)
    (hlen : bs.length ≤ blockLength count) (k : Nat) :
    ∀ size : Int, size < count → count ≤ size + k * bs.length →
      ¬EachRead (FitsSlot count) count size (List.replicate k (.bytes bs)) := by
  induction k with
  | zero => intro size hlt hle; omega
  | succ k ih =>
      intro size hlt hle h
      rw [List.replicate_succ, eachRead_bytes hlt (smbusRead_bytes hlen)] at h
      obtain ⟨⟨-, hfits⟩, hrest⟩ := h
      have hfits' : count ≤ size + bs.length → size + bs.length ≤ 14 := hfits
      push_cast at hle
      by_cases hmore : size + bs.length < count
      · exact ih _ hmore (by linarith) hrest
      · omega

/-- A count from 8 to 14 is overshot by reading 7 bytes first and the whole count then. -/
theorem not_eachRead_overshoot {count : Int} (hlo : 7 < count) (hhi : count ≤ 14) :
    ¬EachRead (FitsSlot count) count 0
      [.bytes (List.replicate 7 0), .bytes (List.replicate count.toNat 0)] := by
  intro h
  have hblock := blockLength_eq count
  rw [eachRead_bytes (by omega) (smbusRead_bytes (by rw [List.length_replicate]; omega)),
    eachRead_bytes (by rw [List.length_replicate]; omega)
      (smbusRead_bytes (by rw [List.length_replicate]; omega))] at h
  obtain ⟨-, ⟨-, hfits⟩, -⟩ := h
  simp only [List.length_replicate] at hfits
  have hfits' : count ≤ 0 + (7 : Nat) + count.toNat → 0 + (7 : Nat) + (count.toNat : Int) ≤ 14 :=
    hfits
  omega

theorem eachRead_fits_iff (count : Int) :
    (∀ answers, EachRead (FitsSlot count) count 0 answers) ↔ (count ≤ 7 ∨ 256 ∣ count) := by
  constructor
  · intro h
    by_contra hc
    rw [not_or] at hc
    obtain ⟨hlo, hdvd⟩ := hc
    rcases lt_or_ge 14 count with hbig | hsmall
    · have hblock := blockLength_eq count
      have hpos : 1 ≤ blockLength count := by
        have : count % 256 ≠ 0 := fun h0 => hdvd (Int.dvd_of_emod_eq_zero h0)
        omega
      have hbyte : [(0 : U8)].length ≤ blockLength count := hpos
      refine not_eachRead_replicate hbig hbyte count.toNat 0 (by omega) ?_ (h _)
      simp
    · exact not_eachRead_overshoot (by omega) hsmall (h _)
  · intro h answers
    exact eachRead_fits h answers 0 (Int.le_refl 0)

/--
**When a run in FIFO mode stays inside its slot.**  Read by read: each block read that
is made fits, and the one that completes the count does not take the total past the
slot.  For a count whatever the bus does: exactly the counts up to 7, errors
included, and the multiples of 256.
-/
theorem staysInSlot_iff {cd : ClientData} (h : PosInRange cd) :
    (∀ work : ReadWork, StaysInSlot work cd
      ↔ EachRead (FitsSlot work.count.value) work.count.value 0 work.answers) ∧
    (∀ count : WordAnswer, (∀ now answers, StaysInSlot { now, count, answers } cd)
      ↔ (count.value ≤ 7 ∨ 256 ∣ count.value)) := by
  have hrun : ∀ work : ReadWork, StaysInSlot work cd
      ↔ EachRead (FitsSlot work.count.value) work.count.value 0 work.answers := by
    intro work
    obtain ⟨entry, hentry⟩ := staysInSlot_entry work h
    rw [hentry, readEntry_stays_iff]
  refine ⟨hrun, ?_⟩
  intro count
  rw [← eachRead_fits_iff]
  constructor
  · intro hall answers
    exact (hrun { now := 0, count, answers }).mp (hall 0 answers)
  · intro hall now answers
    exact (hrun { now, count, answers }).mpr (hall answers)

/-- The state `i2c_mpu6050_probe` leaves is one the theorem speaks of. -/
theorem staysInSlot_iff_probed :
    StaysInSlot { now := 0, count := .word 7, answers := [.bytes [1, 2], .bytes [3, 4, 5, 6, 7]] }
        probedClientData ∧
      ∀ now answers, StaysInSlot { now, count := .word 256, answers } probedClientData := by
  have h := staysInSlot_iff (show PosInRange probedClientData by decide)
  exact ⟨((h.2 (.word 7)).mpr (Or.inl (by decide))) 0 _,
    (h.2 (.word 256)).mpr (Or.inr (by decide))⟩

/-- A count of 32 makes the first read store 32 bytes. -/
theorem not_staysInSlot_overflow :
    ¬StaysInSlot { now := 0, count := .word 32, answers := [.bytes (List.replicate 32 0)] }
      probedClientData := by
  intro h
  exact h

end Mpu6050
