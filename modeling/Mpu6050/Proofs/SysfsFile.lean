/-
The sysfs file `buffer`, read as a file.

The text to be read is that of the newest used sample, and the sysfs layer asks for it in
parts.  `i2c_mpu6050_ringbuffer_read` looks at neither the offset nor the count: if the
slot at `ringbufferpos` is used it returns the whole line, every time, and if it is not it
returns nothing, whatever older samples there are.  So a call is answered as a file
would answer it when it asks for the whole line at once, or for nothing, and a read in
more than one chunk repeats the line.
-/
import Mpu6050.Lib.Files
import Mpu6050.Proofs.Consumers

namespace Mpu6050

open Files

/-! ### The text to be read -/

theorem printedLine_ne_nil (data : Data) : printedLine data ≠ [] := by
  rw [printedLine_eq]
  simp [formatLine]

theorem ringbufferSize_pos : 0 < ringbufferSize := by decide

/-- The slot so many places before another, around the ring. -/
def slotBefore (k : Fin ringbufferSize) (back : Nat) : Fin ringbufferSize :=
  ⟨(k.val + (ringbufferSize - back % ringbufferSize)) % ringbufferSize,
    Nat.mod_lt _ ringbufferSize_pos⟩

/-- The newest used sample, from the slot at `ringbufferpos` back. -/
def newestUsed (cd : ClientData) (k : Fin ringbufferSize) : Option RingbufferEntry :=
  ((List.range ringbufferSize).map fun back => cd.ringbuffer (slotBefore k back)).find?
    (fun entry => entry.used)

/-- Its line; nothing if there is no sample. -/
def newestText (cd : ClientData) (k : Fin ringbufferSize) : List Char :=
  match newestUsed cd k with
  | none => []
  | some entry => formatLine (printedSample entry.data)

theorem slotBefore_zero (k : Fin ringbufferSize) : slotBefore k 0 = k := by
  refine Fin.ext ?_
  show (k.val + (ringbufferSize - 0 % ringbufferSize)) % ringbufferSize = k.val
  rw [Nat.zero_mod, Nat.sub_zero, Nat.add_mod_right, Nat.mod_eq_of_lt k.isLt]

/-- A sample in the slot at the position is the newest. -/
theorem newestText_of_used {cd : ClientData} {k : Fin ringbufferSize}
    (hused : (cd.ringbuffer k).used = true) :
    newestText cd k = printedLine (cd.ringbuffer k).data := by
  have hnewest : newestUsed cd k = some (cd.ringbuffer k) := by
    unfold newestUsed
    rw [show List.range ringbufferSize = 0 :: (List.range 63).map Nat.succ from
      List.range_succ_eq_map, List.map_cons, slotBefore_zero]
    exact List.find?_cons_of_pos hused
  unfold newestText
  rw [hnewest, printedLine_eq]

/-! ### What the method returns -/

/-- The read method behind the file: what `sysfs` hands on of what was left in the buffer. -/
def bufferMethod (cd : ClientData) : ReadMethod Char := fun offset count =>
  match ringbufferRead offset count cd with
  | .ok (some text, ret) => text.take ret.toNat
  | _ => []

/-- A call is answered as a file with this text answers it. -/
def AnswersAsFile (text : List Char) (offset count : Nat)
    (result : Except Stuck (Option (List Char) × Int)) : Prop :=
  ∃ placed ret, result = .ok (placed, ret) ∧ ret ≤ count ∧
    placed.getD [] = part text offset count ∧ ret = (placed.getD []).length

section

variable {cd : ClientData} {k : Fin ringbufferSize}

theorem ringbufferRead_used (hk : ringbufferIndex cd.ringbufferpos = .ok k)
    (hused : (cd.ringbuffer k).used = true) (offset : Int) (count : Nat) :
    ringbufferRead offset count cd
      = .ok (some (newestText cd k), (newestText cd k).length) := by
  rw [newestText_of_used hused]
  exact ringbufferRead_of_used hk hused offset count

theorem ringbufferRead_unused (hk : ringbufferIndex cd.ringbufferpos = .ok k)
    (hused : (cd.ringbuffer k).used = false) (offset : Int) (count : Nat) :
    ringbufferRead offset count cd = .ok (none, 0) := by
  unfold ringbufferRead
  exact bind_ok.mpr ⟨k, hk, if_pos hused⟩

theorem newestText_ne_nil (hused : (cd.ringbuffer k).used = true) : newestText cd k ≠ [] := by
  rw [newestText_of_used hused]
  exact printedLine_ne_nil _

/-- A call is answered as a file answers it if it asks for the whole line, or for nothing. -/
theorem answersAsFile_iff (hk : ringbufferIndex cd.ringbufferpos = .ok k) (offset count : Nat) :
    AnswersAsFile (newestText cd k) offset count (ringbufferRead offset count cd) ↔
      (cd.ringbuffer k).used = true ∧ offset = 0 ∧ (newestText cd k).length ≤ count ∨
      (cd.ringbuffer k).used = false ∧ ((newestText cd k).length ≤ offset ∨ count = 0) := by
  cases hused : (cd.ringbuffer k).used with
  | true =>
      rw [ringbufferRead_used hk hused]
      have hwhole : newestText cd k = part (newestText cd k) offset count ↔
          offset = 0 ∧ (newestText cd k).length ≤ count := eq_part_iff (newestText_ne_nil hused)
      constructor
      · rintro ⟨placed, ret, hok, -, hpart, -⟩
        cases hok
        exact Or.inl ⟨rfl, hwhole.mp hpart⟩
      · intro h
        obtain ⟨-, hargs⟩ := h.resolve_right (fun hc => nomatch hc.1)
        exact ⟨_, _, rfl, by exact_mod_cast hargs.2, hwhole.mpr hargs, rfl⟩
  | false =>
      rw [ringbufferRead_unused hk hused]
      constructor
      · rintro ⟨placed, ret, hok, -, hpart, -⟩
        cases hok
        exact Or.inr ⟨rfl, part_eq_nil_iff.mp hpart.symm⟩
      · intro h
        obtain ⟨-, hargs⟩ := h.resolve_left (fun hc => nomatch hc.1)
        exact ⟨none, 0, rfl, Int.natCast_nonneg _, (part_eq_nil_iff.mpr hargs).symm, rfl⟩

/-- A read in chunks gives the line once only if one chunk is enough for it. -/
theorem bufferMethod_chunks_iff (hk : ringbufferIndex cd.ringbufferpos = .ok k)
    (counts : List Nat) :
    chunks (bufferMethod cd) 0 counts = part (newestText cd k) 0 (total counts) ↔
      (cd.ringbuffer k).used = true ∧
        (counts = [] ∨ ∃ count, counts = [count] ∧ (newestText cd k).length ≤ count) ∨
      (cd.ringbuffer k).used = false ∧ (newestText cd k = [] ∨ total counts = 0) := by
  cases hused : (cd.ringbuffer k).used with
  | true =>
      have hconst : ∀ offset count, bufferMethod cd offset count = newestText cd k := by
        intro offset count
        unfold bufferMethod
        rw [ringbufferRead_used hk hused]
        exact List.take_of_length_le (by simp)
      rw [chunks_const hconst, repeated_eq_part_iff (newestText_ne_nil hused)]
      simp
  | false =>
      have hconst : ∀ offset count, bufferMethod cd offset count = [] := by
        intro offset count
        unfold bufferMethod
        rw [ringbufferRead_unused hk hused]
      rw [chunks_const hconst, List.flatten_replicate_nil, eq_comm, part_eq_nil_iff]
      simp

/--
**The file behaves as one exactly on these calls and these splits.**  A call must ask for the
whole line of a used slot at once, or of an unused slot for nothing; a read in chunks must
be a single one that is large enough, or again be a read of nothing.
-/
theorem buffer_file_iff (hk : ringbufferIndex cd.ringbufferpos = .ok k) :
    (∀ offset count : Nat,
      AnswersAsFile (newestText cd k) offset count (ringbufferRead offset count cd) ↔
        (cd.ringbuffer k).used = true ∧ offset = 0 ∧ (newestText cd k).length ≤ count ∨
        (cd.ringbuffer k).used = false ∧ ((newestText cd k).length ≤ offset ∨ count = 0)) ∧
    (∀ counts : List Nat,
      chunks (bufferMethod cd) 0 counts = part (newestText cd k) 0 (total counts) ↔
        (cd.ringbuffer k).used = true ∧
          (counts = [] ∨ ∃ count, counts = [count] ∧ (newestText cd k).length ≤ count) ∨
        (cd.ringbuffer k).used = false ∧ (newestText cd k = [] ∨ total counts = 0)) :=
  ⟨answersAsFile_iff hk, bufferMethod_chunks_iff hk⟩

end

/-- A ring with one sample, in its first slot. -/
def oneSample : ClientData :=
  { ringbuffer := fun k =>
      if k.val = 0 then { zeroEntry with used := true, size := 14 } else zeroEntry
    ringbufferpos := 0 }

/-- One read of a page is answered as a file answers it. -/
theorem oneSample_page :
    AnswersAsFile (newestText oneSample ⟨0, ringbufferSize_pos⟩) 0 4096
      (ringbufferRead (0 : Nat) 4096 oneSample) := by
  have hk : ringbufferIndex oneSample.ringbufferpos = .ok ⟨0, ringbufferSize_pos⟩ := rfl
  exact ((buffer_file_iff hk).1 0 4096).mpr (Or.inl ⟨rfl, rfl, by decide⟩)

/-- A second read goes past the end and gets the line again; so does a reader of two pages. -/
theorem oneSample_repeats :
    ringbufferIndex oneSample.ringbufferpos = .ok ⟨0, ringbufferSize_pos⟩ ∧
      ¬AnswersAsFile (newestText oneSample ⟨0, ringbufferSize_pos⟩) 14 4096
        (ringbufferRead (14 : Nat) 4096 oneSample) ∧
      chunks (bufferMethod oneSample) 0 [4096, 4096]
        ≠ part (newestText oneSample ⟨0, ringbufferSize_pos⟩) 0 (total [4096, 4096]) := by
  have hk : ringbufferIndex oneSample.ringbufferpos = .ok ⟨0, ringbufferSize_pos⟩ := rfl
  refine ⟨hk, ?_, ?_⟩
  · rw [answersAsFile_iff hk]
    rintro (⟨-, hzero, -⟩ | ⟨hused, -⟩)
    · cases hzero
    · cases hused
  · rw [Ne, bufferMethod_chunks_iff hk]
    rintro (⟨-, hnil | ⟨count, hone, -⟩⟩ | ⟨hused, -⟩)
    · cases hnil
    · cases hone
    · cases hused

end Mpu6050
