/-
Draining the FIFO of the chip.

The chip reports the number of bytes in its FIFO in two registers, the high byte first, and
`i2c_smbus_read_word_data` returns the first byte as the low one.  Since
`i2c_mpu6050_device_fifo_count` does not swap them back, the handler takes a FIFO of `n`
bytes for one of `swappedCount n`.  It stops too early if that is less, and if it is more
it stops later or not at all; so a drain takes what the chip reported exactly when the two
bytes of `n` are equal.
-/
import Mpu6050.Proofs.HandlerSteps

namespace Mpu6050

open Steps

/-! ### The FIFO behind the bus -/

/-- `FIFO_COUNTH` and `FIFO_COUNTL`, read as a word. -/
def fifoCountWord (n : Nat) : BitVec 16 :=
  (BitVec.ofNat 8 n ++ BitVec.ofNat 8 (n / 256) : BitVec 16)

/-- How the bus splits the data: how many bytes each read would deliver, one at least unless none
are asked for, and what is read off a FIFO that is empty. -/
structure BusSplit where
  piece : Nat → Nat
  stale : Nat → List U8

/-- The length the handler's block reads really ask for. -/
def requested (fifo : List U8) : Nat :=
  blockLength (deviceFifoCount (.word (fifoCountWord fifo.length)))

/-- How many bytes read number `i` delivers, if there are so many. -/
def BusSplit.length (split : BusSplit) (fifo : List U8) (i : Nat) : Nat :=
  min (max 1 (split.piece i)) (requested fifo)

/-- What is left in the FIFO before read number `i`. -/
def BusSplit.left (split : BusSplit) (fifo : List U8) : Nat → List U8
  | 0 => fifo
  | i + 1 => (split.left fifo i).drop (split.length fifo i)

/-- The bus of a FIFO with these contents. -/
def BusSplit.bus (split : BusSplit) (fifo : List U8) : BusAnswers where
  count := .word (fifoCountWord fifo.length)
  answers i :=
    if split.left fifo i = [] then .bytes (split.stale i)
    else .bytes ((split.left fifo i).take (split.length fifo i))

/-- A run of the handler takes all of the FIFO and nothing else, in order. -/
def Drains (split : BusSplit) (fifo : List U8) (now : UInt64) (entry : RingbufferEntry) : Prop :=
  ∃ t exit, Settles (handlerStep 0 (split.bus fifo)) (handlerStart 0 now entry) t ∧
    t.label = .unlocked exit ∧ t.syncLock = false ∧ t.entry.size = fifo.length ∧
    split.left fifo t.reads = [] ∧
    (fifo.length ≤ 14 → ∀ i : Fin ringbufferDataSize, i.val < fifo.length →
      fifo[i.val]? = some (t.entry.data i))

/-! ### The count the handler goes by -/

/-- What the handler takes for the number of bytes. -/
def swappedCount (n : Nat) : Nat := 256 * (n % 256) + n / 256

theorem fifoCountWord_toNat {n : Nat} (h : n ≤ 1024) :
    (fifoCountWord n).toNat = swappedCount n := by
  have hhigh : n / 256 < 2 ^ 8 := by omega
  unfold fifoCountWord swappedCount
  rw [BitVec.toNat_append, BitVec.toNat_ofNat, BitVec.toNat_ofNat, Nat.mod_eq_of_lt hhigh,
    ← Nat.shiftLeft_add_eq_or_of_lt hhigh, Nat.shiftLeft_eq]
  omega

section

variable {fifo : List U8} {split : BusSplit}

/-- The count of the run. -/
theorem bus_count (split : BusSplit) (hlen : fifo.length ≤ 1024) :
    deviceFifoCount (split.bus fifo).count = swappedCount fifo.length := by
  rw [show (split.bus fifo).count = .word (fifoCountWord fifo.length) from rfl,
    deviceFifoCount_word, fifoCountWord_toNat hlen]

/-- The narrowed count is the high byte of the number of bytes. -/
theorem requested_eq (hlen : fifo.length ≤ 1024) : requested fifo = fifo.length / 256 := by
  have hlow : swappedCount fifo.length % 256 = fifo.length / 256 := by
    unfold swappedCount
    rw [Nat.mul_add_mod]
    omega
  have hlength := blockLength_eq (swappedCount fifo.length)
  unfold requested
  rw [deviceFifoCount_word, fifoCountWord_toNat hlen]
  omega

/-- Every read succeeds, and brings four bytes at most. -/
theorem bus_read (split : BusSplit) (hlen : fifo.length ≤ 1024) (i : Nat) :
    ∃ bs, smbusReadI2cBlockData (swappedCount fifo.length) ((split.bus fifo).answers i)
      = .bytes bs ∧ bs.length ≤ fifo.length / 256 := by
  have hrequested : blockLength (swappedCount fifo.length) = fifo.length / 256 := by
    rw [← requested_eq hlen]
    unfold requested
    rw [deviceFifoCount_word, fifoCountWord_toNat hlen]
  obtain ⟨bs, hbs⟩ : ∃ bs, (split.bus fifo).answers i = .bytes bs := by
    unfold BusSplit.bus
    simp only
    split
    · exact ⟨_, rfl⟩
    · exact ⟨_, rfl⟩
  refine ⟨bs.take (blockLength (swappedCount fifo.length)), ?_, ?_⟩
  · rw [hbs]
    rfl
  · rw [List.length_take, hrequested]
    exact Nat.min_le_left _ _

/-! ### A count that is not the number of bytes -/

/-- What holds of a drain under way: it never leaves through `clean_up`, it leaves with the
count reached, and the slot never holds more than the count and one read. -/
structure Draining (fifo : List U8) (s : HandlerState) : Prop where
  mode : s.label ≠ .registers
  kept : s.label ≠ .cleanUp ∧ s.label ≠ .unlocked .cleanUp
  reached : s.label = .unlocked .doDispatch → (swappedCount fifo.length : Int) ≤ s.entry.size
  bounded : s.entry.size ≤ (swappedCount fifo.length + fifo.length / 256 : Nat)

theorem draining_step (hpos : 0 < fifo.length) (hlen : fifo.length ≤ 1024) {s s' : HandlerState}
    (h : Draining fifo s) (hstep : handlerStep 0 (split.bus fifo) s = .ok s') :
    Draining fifo s' := by
  have hcount := bus_count split hlen
  cases fifoMove_of_step h.mode hstep with
  | empty hl hempty =>
      rw [hcount] at hempty
      unfold swappedCount at hempty
      omega
  | enter | leave | again => exact ⟨nofun, ⟨nofun, nofun⟩, nofun, h.bounded⟩
  | fail hl hlt hread =>
      obtain ⟨bs, hbs, -⟩ := bus_read split hlen s.reads
      rw [hcount, hbs] at hread
      cases hread
  | @bytes bs hl hlt hread hshort =>
      obtain ⟨bs', hbs, hle⟩ := bus_read split hlen s.reads
      rw [hcount] at hlt hread
      rw [hbs] at hread
      rw [BlockAnswer.bytes.inj hread] at hle
      refine ⟨nofun, ⟨nofun, nofun⟩, nofun, ?_⟩
      show s.entry.size + (bs.length : Int) ≤ _
      omega
  | done hl hdone =>
      rw [hcount] at hdone
      exact ⟨nofun, ⟨nofun, nofun⟩, fun _ => by simpa using hdone, h.bounded⟩
  | cleanUp hl => exact absurd hl h.kept.1
  | rest hl => exact h

/-- A drain that ends has taken the swapped count, and at most one read more. -/
theorem drain_size (hpos : 0 < fifo.length) (hlen : fifo.length ≤ 1024) {now : UInt64}
    {entry : RingbufferEntry} {t : HandlerState} {exit : WqExit}
    (h : Settles (handlerStep 0 (split.bus fifo)) (handlerStart 0 now entry) t)
    (hlabel : t.label = .unlocked exit) :
    (swappedCount fifo.length : Int) ≤ t.entry.size ∧
      t.entry.size ≤ (swappedCount fifo.length + fifo.length / 256 : Nat) := by
  have hstart : Draining fifo (handlerStart 0 now entry) :=
    ⟨nofun, ⟨nofun, nofun⟩, nofun, Int.natCast_nonneg _⟩
  have hend := h.invariant (P := Draining fifo) (fun _ _ => draining_step hpos hlen) hstart
  refine ⟨?_, hend.bounded⟩
  cases exit with
  | doDispatch => exact hend.reached hlabel
  | cleanUp => exact absurd hlabel hend.kept.2

/-! ### A count that is -/

theorem swappedCount_eq_iff (n : Nat) : swappedCount n = n ↔ n % 256 = n / 256 := by
  unfold swappedCount
  omega

/-- What a read takes from the FIFO. -/
theorem bus_read_left (hlen : fifo.length ≤ 1024) {i : Nat} (hne : split.left fifo i ≠ []) :
    smbusReadI2cBlockData (swappedCount fifo.length) ((split.bus fifo).answers i)
      = .bytes ((split.left fifo i).take (split.length fifo i)) := by
  have hanswer : (split.bus fifo).answers i
      = .bytes ((split.left fifo i).take (split.length fifo i)) := if_neg hne
  have hcount := bus_count split hlen
  rw [hanswer]
  refine smbusRead_bytes (Nat.le_trans (List.length_take_le ..) ?_)
  rw [← hcount]
  exact Nat.min_le_right _ _

/-- As long as slot and FIFO together hold what the chip reported, the drain goes on to the end. -/
theorem drains_from (hpos : 0 < fifo.length) (hlen : fifo.length ≤ 1024)
    (heq : fifo.length % 256 = fifo.length / 256) {s : HandlerState}
    (hlabel : s.label = .doDispatch)
    (htotal : s.entry.size + (split.left fifo s.reads).length = fifo.length) :
    ∃ t exit, Settles (handlerStep 0 (split.bus fifo)) s t ∧ t.label = .unlocked exit ∧
      t.syncLock = false ∧ t.entry.size = fifo.length ∧ split.left fifo t.reads = [] := by
  have hcount : deviceFifoCount (split.bus fifo).count = fifo.length := by
    rw [bus_count split hlen, (swappedCount_eq_iff _).mpr heq]
  -- every read takes something, so what is left gets less
  induction hleft : (split.left fifo s.reads).length using Nat.strongRecOn
    generalizing s with
  | ind n ih =>
      by_cases hnil : split.left fifo s.reads = []
      · rw [hnil, List.length_nil] at htotal
        have hdone : ¬s.entry.size < deviceFifoCount (split.bus fifo).count := by omega
        exact ⟨_, _, (settles_step (handlerStep_done hlabel hdone)).mpr (settles_self rfl), rfl,
          rfl, by simpa using htotal, hnil⟩
      · have hsome : 0 < (split.left fifo s.reads).length := List.length_pos_iff.mpr hnil
        have hlt : s.entry.size < deviceFifoCount (split.bus fifo).count := by omega
        have hread := bus_read_left hlen hnil
        rw [(swappedCount_eq_iff _).mpr heq, ← hcount] at hread
        have hpiece : 0 < split.length fifo s.reads ∧ split.length fifo s.reads ≤ 4 := by
          unfold BusSplit.length
          rw [requested_eq hlen]
          omega
        have hshort : ((split.left fifo s.reads).take (split.length fifo s.reads)).length
            ≤ ringbufferDataSize := by
          have : ringbufferDataSize = 14 := rfl
          rw [List.length_take]
          omega
        have hagain := handlerStep_again hlabel hlt
        have hbytes := handlerStep_bytes (s := { s with label := .doLoop }) rfl hlt hread hshort
        have hless : ((split.left fifo s.reads).drop (split.length fifo s.reads)).length < n := by
          rw [List.length_drop]
          omega
        obtain ⟨t, exit, hsettles, hend⟩ := ih _ hless
          (s := { s with
            label := .doDispatch
            entry := fillEntry s.entry
              ((split.left fifo s.reads).take (split.length fifo s.reads))
            reads := s.reads + 1 }) rfl
          (by
            show s.entry.size + (((split.left fifo s.reads).take _).length : Int)
              + ((split.left fifo s.reads).drop (split.length fifo s.reads)).length = _
            rw [List.length_take, List.length_drop]
            omega) rfl
        exact ⟨t, exit, (settles_step hagain).mpr ((settles_step hbytes).mpr hsettles), hend⟩

/--
**A drain takes exactly what the chip reported if and only if the two bytes of the reported
number are equal**, whatever the FIFO holds and however the bus splits it.
-/
theorem drains_iff (hpos : 0 < fifo.length) (hlen : fifo.length ≤ 1024) (now : UInt64)
    (entry : RingbufferEntry) :
    Drains split fifo now entry ↔ fifo.length % 256 = fifo.length / 256 := by
  constructor
  · rintro ⟨t, exit, hsettles, hlabel, -, hsize, -⟩
    obtain ⟨hlow, hhigh⟩ := drain_size hpos hlen hsettles hlabel
    rw [hsize] at hlow hhigh
    unfold swappedCount at hlow hhigh
    omega
  · intro heq
    have hcount : ¬deviceFifoCount (split.bus fifo).count ≤ 0 := by
      rw [bus_count split hlen, (swappedCount_eq_iff _).mpr heq]
      omega
    have hstart : (0 : Int) + (split.left fifo 0).length = fifo.length := Int.zero_add _
    obtain ⟨t, exit, hsettles, hlabel, hlock, hsize, hleft⟩ := drains_from hpos hlen heq
      (s := { handlerStart 0 now entry with label := .doDispatch }) rfl hstart
    refine ⟨t, exit, (settles_doLoop_iff hcount).mpr hsettles, hlabel, hlock, hsize, hleft, ?_⟩
    -- a FIFO this short has two different bytes for its length
    intro hshort
    omega

end

/-- A bus that delivers what it is asked for. -/
def promptBus : BusSplit := { piece := fun _ => 32, stale := fun _ => [] }

/-- 257 bytes are taken one at a time, and all of them. -/
theorem drains_257 : Drains promptBus (List.replicate 257 7) 0 zeroEntry := by
  have hlength : (List.replicate 257 (7 : U8)).length = 257 := List.length_replicate
  exact (drains_iff (by omega) (by omega) 0 zeroEntry).mpr (by omega)

/-- One dataset of 14 bytes is not. -/
theorem not_drains_dataset : ¬Drains promptBus (List.replicate 14 7) 0 zeroEntry := by
  have hlength : (List.replicate 14 (7 : U8)).length = 14 := List.length_replicate
  rintro ⟨t, exit, hsettles, hlabel, -, hsize, -⟩
  have hlow := (drain_size (by omega) (by omega) hsettles hlabel).1
  rw [hsize, hlength] at hlow
  revert hlow
  decide

end Mpu6050
