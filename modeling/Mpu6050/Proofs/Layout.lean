/-
What a store into the ring's memory changes of the ring.

The stores that keep to one member change that member of one slot: `entryAt_storeUsed` and
its neighbours.  A block read may go further.  `OutsideSlot` says how far a store into a
slot can be seen, and the lemmas on `store` of a block say what it leaves of each member
behind `data`, up to `used` of the next slot or `ringbufferpos`.

`Sizes` is what decides how long the handler's loop goes on: the position and the sizes.
Of a block read it sees the length and the bytes that go over either, so what becomes of
them can be said without the rest of the memory: `storeRead_sizes`.
-/
import Mpu6050.Driver.Layout
import Mpu6050.Proofs.Handler

namespace Mpu6050

open Memory

section

variable {m m' : Bytes} {i j k : Fin ringbufferSize}

theorem entryAt_size (m : Bytes) (i : Fin ringbufferSize) : (entryAt m i).size = sizeAt m i := rfl

theorem entryAt_used (m : Bytes) (i : Fin ringbufferSize) :
    (entryAt m i).used = decide (usedAt m i ≠ 0) := rfl

/-! ### How far a store is seen -/

/-- Two memories that agree outside one slot. -/
def OutsideSlot (k : Fin ringbufferSize) (m m' : Bytes) : Prop :=
  ∀ x, x < usedAddr k ∨ usedAddr k + 32 ≤ x → m' x = m x

/-- A slot is what its 32 bytes say. -/
theorem entryAt_congr (h : ∀ x, usedAddr i ≤ x → x < usedAddr i + 32 → m' x = m x) :
    entryAt m' i = entryAt m i := by
  have hi := addr_eq i
  have hload : ∀ a n, usedAddr i ≤ a → a + n ≤ usedAddr i + 32 → load m' a n = load m a n :=
    fun a n hlo hhi => load_congr fun x hx hx' => h x (by omega) (by omega)
  have hused : usedAt m' i = usedAt m i := by
    unfold usedAt loadInt
    rw [hload _ 4 (by omega) (by omega)]
  have hsize : sizeAt m' i = sizeAt m i := by
    unfold sizeAt loadInt
    rw [hload _ 4 (by omega) (by omega)]
  unfold entryAt
  rw [hused, hsize, hload _ 8 (by omega) (by omega)]
  congr 1
  funext b
  have hb : b.val < 14 := b.isLt
  exact h _ (by omega) (by omega)

theorem OutsideSlot.entryAt (h : OutsideSlot k m m') (hne : i ≠ k) :
    entryAt m' i = entryAt m i := by
  have hval := Fin.val_ne_of_ne hne
  have hi := addr_eq i
  have hk := addr_eq k
  exact entryAt_congr fun x hlo hhi => h x (by omega)

theorem OutsideSlot.ringbufferposAt (h : OutsideSlot k m m') :
    ringbufferposAt m' = ringbufferposAt m := by
  have hk := addr_eq k
  unfold Mpu6050.ringbufferposAt loadInt
  rw [load_congr fun x hlo hhi => h x (by omega)]

theorem OutsideSlot.trans {m'' : Bytes} (h : OutsideSlot k m m') (h' : OutsideSlot k m' m'') :
    OutsideSlot k m m'' := fun x hx => (h' x hx).trans (h x hx)

/-- A store that keeps to a slot. -/
theorem outsideSlot_store {a : Nat} {bs : List U8} (hlo : usedAddr k ≤ a)
    (hhi : a + bs.length ≤ usedAddr k + 32) : OutsideSlot k m (store m a bs) :=
  fun _ hx => store_of_disjoint (by omega)

theorem outsideSlot_storeInt {a : Nat} {v : Int} (hlo : usedAddr k ≤ a)
    (hhi : a + 4 ≤ usedAddr k + 32) : OutsideSlot k m (storeInt m a v) :=
  outsideSlot_store hlo (by rwa [length_bytesOf])

/-! ### The stores that keep to one member -/

theorem entryAt_storeUsed (m : Bytes) (k : Fin ringbufferSize) (v : Int) :
    entryAt (storeInt m (usedAddr k) v) k
      = { entryAt m k with used := decide (wrapInt v ≠ 0) } := by
  have hk := addr_eq k
  have hdata : (fun b : Fin ringbufferDataSize => storeInt m (usedAddr k) v (dataAddr k + b.val))
      = fun b => m (dataAddr k + b.val) :=
    funext fun b => storeInt_of_disjoint (by omega)
  unfold entryAt usedAt sizeAt
  rw [loadInt_storeInt, loadInt_storeInt_of_disjoint (by omega),
    load_storeInt_of_disjoint (by omega), hdata]

theorem entryAt_storeSize (m : Bytes) (k : Fin ringbufferSize) (v : Int) :
    entryAt (storeInt m (sizeAddr k) v) k = { entryAt m k with size := wrapInt v } := by
  have hk := addr_eq k
  have hdata : (fun b : Fin ringbufferDataSize => storeInt m (sizeAddr k) v (dataAddr k + b.val))
      = fun b => m (dataAddr k + b.val) := by
    funext b
    have hb : b.val < 14 := b.isLt
    exact storeInt_of_disjoint (by omega)
  unfold entryAt usedAt sizeAt
  rw [loadInt_storeInt, loadInt_storeInt_of_disjoint (by omega),
    load_storeInt_of_disjoint (by omega), hdata]

theorem entryAt_storeTimestamp (m : Bytes) (k : Fin ringbufferSize) (now : UInt64) :
    entryAt (store m (timestampAddr k) (bytesOf 8 now.toNat)) k
      = { entryAt m k with timestamp := now } := by
  have hk := addr_eq k
  have hlow : low 8 now.toNat = now.toNat := by
    have := now.toNat_lt
    simp only [low]
    omega
  have hdata : (fun b : Fin ringbufferDataSize =>
      store m (timestampAddr k) (bytesOf 8 now.toNat) (dataAddr k + b.val))
      = fun b => m (dataAddr k + b.val) := by
    funext b
    have hb : b.val < 14 := b.isLt
    exact store_of_disjoint (by omega)
  unfold entryAt usedAt sizeAt
  rw [loadInt_store_of_disjoint (by rw [length_bytesOf]; omega),
    loadInt_store_of_disjoint (by rw [length_bytesOf]; omega), load_store_bytesOf, hlow,
    UInt64.ofNat_toNat, hdata]

/-- A block that fits goes into `data` and nowhere else. -/
theorem entryAt_storeData {bs : List U8} (m : Bytes) (k : Fin ringbufferSize)
    (hshort : bs.length ≤ ringbufferDataSize) :
    entryAt (store m (dataAddr k) bs) k
      = { entryAt m k with data := fun i => (bs[i.val]?).getD ((entryAt m k).data i) } := by
  have hk := addr_eq k
  replace hshort : bs.length ≤ 14 := hshort
  have hdata : (fun b : Fin ringbufferDataSize => store m (dataAddr k) bs (dataAddr k + b.val))
      = fun b => (bs[b.val]?).getD (m (dataAddr k + b.val)) :=
    funext fun b => store_add b.val
  unfold entryAt usedAt sizeAt
  rw [loadInt_store_of_disjoint (by omega), loadInt_store_of_disjoint (by omega),
    load_store_of_disjoint (by omega), hdata]

/-! ### The position, and a slot reset -/

theorem entryAt_storePos (m : Bytes) (i : Fin ringbufferSize) (v : Int) :
    entryAt (storeInt m ringbufferposAddr v) i = entryAt m i := by
  have hi := addr_eq i
  exact entryAt_congr fun x hlo hhi => storeInt_of_disjoint (by omega)

/-- The memory that `i2c_mpu6050_probe` sets up holds the ring it sets up. -/
theorem clientAt_probedMemory : clientAt probedMemory = probedClientData := by
  have hring : entryAt probedMemory = fun _ => zeroEntry := by
    funext i
    unfold probedMemory
    rw [entryAt_storePos]
    unfold entryAt usedAt sizeAt loadInt
    rw [load_zero, load_zero, load_zero]
    rfl
  have hpos : ringbufferposAt probedMemory = -1 := by
    unfold probedMemory ringbufferposAt
    rw [loadInt_storeInt, wrapInt_of_range (by omega) (by omega)]
  unfold clientAt probedClientData
  rw [hring, hpos]

theorem outsideSlot_resetSlot (now : UInt64) (m : Bytes) (k : Fin ringbufferSize) :
    OutsideSlot k m (resetSlot now m k) := by
  have hk := addr_eq k
  unfold resetSlot
  exact ((outsideSlot_storeInt (by omega) (by omega)).trans
    (outsideSlot_storeInt (by omega) (by omega))).trans
    (outsideSlot_store (by omega) (by rw [length_bytesOf]; omega))

theorem entryAt_resetSlot (now : UInt64) (m : Bytes) (k : Fin ringbufferSize) :
    entryAt (resetSlot now m k) k
      = { entryAt m k with used := true, size := 0, timestamp := now } := by
  unfold resetSlot
  rw [entryAt_storeTimestamp, entryAt_storeSize, entryAt_storeUsed]
  rfl

/-- **A store that keeps to a slot is a slot set.** -/
theorem clientAt_of_outsideSlot (h : OutsideSlot k m m') :
    clientAt m' = (clientAt m).setEntry k (entryAt m' k) := by
  unfold clientAt ClientData.setEntry
  rw [h.ringbufferposAt]
  congr 1
  funext i
  by_cases hik : i = k
  · rw [hik, Function.update_self]
  · rw [Function.update_of_ne hik, h.entryAt hik]

/-! ### A block that may go further -/

section

variable {bs : List U8}

theorem sizeAt_storeBlock (m : Bytes) (k : Fin ringbufferSize) (bs : List U8) :
    sizeAt (store m (dataAddr k) bs) k = overlayInt (sizeAt m k) (bs.drop 16) :=
  loadInt_store 16

theorem sizeAt_storeBlock_of_ne (hne : j ≠ k) (hlen : bs.length ≤ 32) :
    sizeAt (store m (dataAddr k) bs) j = sizeAt m j := by
  have hval := Fin.val_ne_of_ne hne
  have hj := addr_eq j
  have hk := addr_eq k
  exact loadInt_store_of_disjoint (by omega)

/-- The position is stored over from the last slot only, by what comes after 28 bytes. -/
theorem ringbufferposAt_storeBlock (m : Bytes) (k : Fin ringbufferSize) (hlen : bs.length ≤ 32) :
    ringbufferposAt (store m (dataAddr k) bs)
      = if k.val + 1 = ringbufferSize then overlayInt (ringbufferposAt m) (bs.drop 28)
        else ringbufferposAt m := by
  have hk := addr_eq k
  split
  next hlast =>
    have haddr : ringbufferposAddr = dataAddr k + 28 := by
      replace hlast : k.val + 1 = 64 := hlast
      omega
    unfold ringbufferposAt
    rw [haddr]
    exact loadInt_store 28
  next hlast =>
    replace hlast : ¬k.val + 1 = 64 := hlast
    exact loadInt_store_of_disjoint (by omega)

/-- The mark of the next slot is, too. -/
theorem usedAt_storeBlock_next (hnext : j.val = k.val + 1) :
    usedAt (store m (dataAddr k) bs) j = overlayInt (usedAt m j) (bs.drop 28) := by
  have hj := addr_eq j
  have hk := addr_eq k
  unfold usedAt
  rw [show usedAddr j = dataAddr k + 28 by omega]
  exact loadInt_store 28

/-- Of the slots after the next nothing is touched, nor of those before. -/
theorem entryAt_storeBlock_of_ne (hne : j ≠ k) (hnext : j.val ≠ k.val + 1)
    (hlen : bs.length ≤ 32) : entryAt (store m (dataAddr k) bs) j = entryAt m j := by
  have hval := Fin.val_ne_of_ne hne
  have hj := addr_eq j
  have hk := addr_eq k
  exact entryAt_congr fun x hlo hhi => store_of_disjoint (by omega)

/-- Of the next slot only the mark is. -/
theorem entryAt_storeBlock_next (hnext : j.val = k.val + 1) (hlen : bs.length ≤ 32) :
    entryAt (store m (dataAddr k) bs) j
      = { entryAt m j with used := decide (overlayInt (usedAt m j) (bs.drop 28) ≠ 0) } := by
  have hj := addr_eq j
  have hk := addr_eq k
  have hdata : (fun b : Fin ringbufferDataSize => store m (dataAddr k) bs (dataAddr j + b.val))
      = fun b => m (dataAddr j + b.val) :=
    funext fun b => store_of_disjoint (by omega)
  unfold entryAt
  rw [usedAt_storeBlock_next hnext, load_store_of_disjoint (by omega),
    sizeAt_storeBlock_of_ne (by rintro rfl; omega) hlen, hdata]

end

/-! ### The sizes -/

/-- What decides how long the handler goes on: `ringbufferpos`, and `size` of every slot. -/
structure Sizes where
  pos : Int
  size : Fin ringbufferSize → Int

/-- The sizes in a memory. -/
def sizesAt (m : Bytes) : Sizes where
  pos := ringbufferposAt m
  size := sizeAt m

/-- The next slot, reset. -/
def Sizes.claim (z : Sizes) : Except Stuck Sizes := do
  let pos := nextPos z.pos
  let i ← ringbufferIndex pos
  pure { pos, size := Function.update z.size i 0 }

/-- A block goes over them: its bytes 16 to 19 over `size`, and in the last slot those from 28
on over `ringbufferpos`. -/
def Sizes.cover (z : Sizes) (i : Fin ringbufferSize) (bs : List U8) : Sizes where
  pos := if i.val + 1 = ringbufferSize then overlayInt z.pos (bs.drop 28) else z.pos
  size := Function.update z.size i (overlayInt (z.size i) (bs.drop 16))

/-- A `size` is set. -/
def Sizes.set (z : Sizes) (i : Fin ringbufferSize) (v : Int) : Sizes :=
  { z with size := Function.update z.size i (wrapInt v) }

/-- A block has been read, and its length is added to `size`. -/
def Sizes.read (z : Sizes) (bs : List U8) : Except Stuck Sizes := do
  let i ← ringbufferIndex z.pos
  let z := z.cover i bs
  let j ← ringbufferIndex z.pos
  pure (z.set j (z.size j + bs.length))

theorem sizesAt_storeSize (m : Bytes) (k : Fin ringbufferSize) (v : Int) :
    sizesAt (storeInt m (sizeAddr k) v) = (sizesAt m).set k v := by
  have hk := addr_eq k
  have hpos : ringbufferposAt (storeInt m (sizeAddr k) v) = ringbufferposAt m :=
    loadInt_storeInt_of_disjoint (by omega)
  have hsize : sizeAt (storeInt m (sizeAddr k) v)
      = Function.update (sizeAt m) k (wrapInt v) := by
    funext i
    by_cases hik : i = k
    · rw [hik, Function.update_self]
      exact loadInt_storeInt ..
    · have hval := Fin.val_ne_of_ne hik
      have hi := addr_eq i
      rw [Function.update_of_ne hik]
      exact loadInt_storeInt_of_disjoint (by omega)
  unfold sizesAt Sizes.set
  rw [hpos, hsize]

theorem sizesAt_storeBlock (m : Bytes) (k : Fin ringbufferSize) {bs : List U8}
    (hlen : bs.length ≤ 32) :
    sizesAt (store m (dataAddr k) bs) = (sizesAt m).cover k bs := by
  have hsize : sizeAt (store m (dataAddr k) bs)
      = Function.update (sizeAt m) k (overlayInt (sizeAt m k) (bs.drop 16)) := by
    funext i
    by_cases hik : i = k
    · rw [hik, Function.update_self, sizeAt_storeBlock]
    · rw [Function.update_of_ne hik, sizeAt_storeBlock_of_ne hik hlen]
  unfold sizesAt Sizes.cover
  rw [ringbufferposAt_storeBlock m k hlen, hsize]

theorem currentSlot_eq (m : Bytes) : currentSlot m = ringbufferIndex (sizesAt m).pos := rfl

/-- What a block read does, the two slots it looks up given. -/
theorem storeRead_eq {m : Bytes} {i j : Fin ringbufferSize} {bs : List U8}
    (hi : currentSlot m = .ok i) (hj : currentSlot (store m (dataAddr i) bs) = .ok j) :
    storeRead m bs = .ok (storeInt (store m (dataAddr i) bs) (sizeAddr j)
      (sizeAt (store m (dataAddr i) bs) j + bs.length)) := by
  unfold storeRead
  simp only [hi, ok_bind, hj]
  rfl

theorem Sizes.read_eq {z : Sizes} {i j : Fin ringbufferSize} {bs : List U8}
    (hi : ringbufferIndex z.pos = .ok i) (hj : ringbufferIndex (z.cover i bs).pos = .ok j) :
    z.read bs = .ok ((z.cover i bs).set j ((z.cover i bs).size j + bs.length)) := by
  unfold Sizes.read
  simp only [hi, ok_bind, hj]
  rfl

/-- **What a block read makes of the sizes does not depend on the rest of the memory.** -/
theorem storeRead_sizes (m : Bytes) {bs : List U8} (hlen : bs.length ≤ 32) :
    (storeRead m bs).map sizesAt = (sizesAt m).read bs := by
  cases hi : ringbufferIndex (sizesAt m).pos with
  | error stuck =>
      unfold storeRead Sizes.read
      simp only [currentSlot_eq m, hi, error_bind, Except.map]
  | ok i =>
      have hcover := sizesAt_storeBlock m i hlen
      have hslot := currentSlot_eq (store m (dataAddr i) bs)
      rw [hcover] at hslot
      cases hj : ringbufferIndex ((sizesAt m).cover i bs).pos with
      | error stuck =>
          unfold storeRead Sizes.read
          simp only [currentSlot_eq m, hi, ok_bind, hslot, hj, error_bind, Except.map]
      | ok j =>
          rw [Sizes.read_eq hi hj, storeRead_eq ((currentSlot_eq m).trans hi) (hslot.trans hj),
            Except.map, sizesAt_storeSize, hcover]
          rw [show sizeAt (store m (dataAddr i) bs) j = ((sizesAt m).cover i bs).size j by
            rw [← hcover, sizesAt]]

end

end Mpu6050
