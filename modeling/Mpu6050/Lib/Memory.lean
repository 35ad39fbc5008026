/-
A flat memory of bytes, and the words in it.

C code that stores past the end of one member of a structure stores into the next ones.  To
say what it finds there afterwards takes a memory in which the members are addresses: bytes
are stored from an address on, and a word is what its bytes say, the least significant one
first.

A store changes the words it meets and no others (`load_store_of_disjoint`).  Of a word it
meets in part it changes the bytes it meets: `overlay` is the word that is left, and
`load_store` says so of any word behind the address of the store.
-/
import Mathlib.Logic.Basic

namespace Memory

/-- A byte at every address. -/
abbrev Bytes := Nat → BitVec 8

/-- The bytes stored from an address on. -/
def store (m : Bytes) (a : Nat) (bs : List (BitVec 8)) : Bytes := fun x =>
  if a ≤ x then (bs[x - a]?).getD (m x) else m x

/-- The word of so many bytes at an address. -/
def load (m : Bytes) (a : Nat) : Nat → Nat
  | 0 => 0
  | n + 1 => (m a).toNat + 256 * load m (a + 1) n

/-- The bytes of a word. -/
def bytesOf : Nat → Nat → List (BitVec 8)
  | 0, _ => []
  | n + 1, w => BitVec.ofNat 8 w :: bytesOf n (w / 256)

/-- A word, cut to so many bytes. -/
def low : Nat → Nat → Nat
  | 0, _ => 0
  | n + 1, w => w % 256 + 256 * low n (w / 256)

/-- A word once bytes have been put over its first ones. -/
def overlay : Nat → Nat → List (BitVec 8) → Nat
  | 0, _, _ => 0
  | n + 1, w, [] => low (n + 1) w
  | n + 1, w, b :: bs => b.toNat + 256 * overlay n (w / 256) bs

variable {m m' : Bytes} {a x n w : Nat} {bs : List (BitVec 8)}

@[simp] theorem length_bytesOf (n w : Nat) : (bytesOf n w).length = n := by
  induction n generalizing w with
  | zero => rfl
  | succ n ih => rw [bytesOf, List.length_cons, ih]

/-! ### One byte -/

theorem store_of_disjoint (h : x < a ∨ a + bs.length ≤ x) : store m a bs x = m x := by
  unfold store
  split
  · rw [List.getElem?_eq_none (by omega)]
    rfl
  · rfl

/-- The bytes from the address on. -/
theorem store_add (i : Nat) : store m a bs (a + i) = (bs[i]?).getD (m (a + i)) := by
  unfold store
  rw [if_pos (by omega), Nat.add_sub_cancel_left]

/-! ### Words -/

/-- Two memories that agree on a word's bytes agree on the word. -/
theorem load_congr (h : ∀ x, a ≤ x → x < a + n → m x = m' x) : load m a n = load m' a n := by
  induction n generalizing a with
  | zero => rfl
  | succ n ih =>
      rw [load, load, h a (by omega) (by omega), ih fun x hlo hhi => h x (by omega) (by omega)]

/-- **A store leaves alone what it does not meet.** -/
theorem load_store_of_disjoint {b : Nat} (h : b + n ≤ a ∨ a + bs.length ≤ b) :
    load (store m a bs) b n = load m b n :=
  load_congr fun x hlo hhi => store_of_disjoint (by omega)

theorem low_load (m : Bytes) (a n : Nat) : low n (load m a n) = load m a n := by
  induction n generalizing a with
  | zero => rfl
  | succ n ih =>
      have hbyte : (m a).toNat < 256 := (m a).isLt
      rw [load, low, show ((m a).toNat + 256 * load m (a + 1) n) / 256 = load m (a + 1) n by omega,
        ih]
      omega

theorem load_zero (a n : Nat) : load (fun _ => 0) a n = 0 := by
  induction n generalizing a with
  | zero => rfl
  | succ n ih =>
      rw [load, ih]
      rfl

/-- **A store puts its bytes over the words it meets.** -/
theorem load_store (i : Nat) :
    load (store m a bs) (a + i) n = overlay n (load m (a + i) n) (bs.drop i) := by
  induction n generalizing i with
  | zero => rfl
  | succ n ih =>
      cases hdrop : bs.drop i with
      | nil =>
          rw [overlay, low_load, load_store_of_disjoint]
          have := congrArg List.length hdrop
          rw [List.length_drop, List.length_nil] at this
          omega
      | cons b rest =>
          have hrest : bs.drop (i + 1) = rest := by
            rw [← List.drop_drop, hdrop]
            rfl
          have hget : bs[i]? = some b := by
            have := congrArg List.head? hdrop
            rwa [List.head?_drop, List.head?_cons] at this
          have hbyte : (m (a + i)).toNat < 256 := (m (a + i)).isLt
          rw [overlay, load, store_add, hget, Nat.add_assoc, ih, hrest, load]
          rw [show ((m (a + i)).toNat + 256 * load m (a + i + 1) n) / 256
            = load m (a + i + 1) n by omega]
          rfl

/-- A word that is put over whole. -/
theorem overlay_bytesOf (n v w : Nat) : overlay n w (bytesOf n v) = low n v := by
  induction n generalizing v w with
  | zero => rfl
  | succ n ih =>
      rw [bytesOf, overlay, ih, low, BitVec.toNat_ofNat]

/-- **What is stored as a word is loaded as one.** -/
theorem load_store_bytesOf (m : Bytes) (a n v : Nat) :
    load (store m a (bytesOf n v)) a n = low n v := by
  have h := @load_store m a n (bytesOf n v) 0
  rwa [Nat.add_zero, List.drop_zero, overlay_bytesOf] at h

theorem overlay_nil (n w : Nat) : overlay n w [] = low n w := by
  cases n <;> rfl

/-! ### `int` -/

/-- The `int` at an address. -/
def loadInt (m : Bytes) (a : Nat) : Int := (BitVec.ofNat 32 (load m a 4)).toInt

/-- Storing one: what does not fit is cut off. -/
def storeInt (m : Bytes) (a : Nat) (v : Int) : Bytes :=
  store m a (bytesOf 4 (BitVec.ofInt 32 v).toNat)

/-- An `int` once bytes have been put over its first ones. -/
def overlayInt (v : Int) (bs : List (BitVec 8)) : Int :=
  (BitVec.ofNat 32 (overlay 4 (BitVec.ofInt 32 v).toNat bs)).toInt

/-- The `int` that a number is cut to. -/
def wrapInt (v : Int) : Int := (BitVec.ofInt 32 v).toInt

theorem wrapInt_of_range {v : Int} (hlo : -2147483648 ≤ v) (hhi : v < 2147483648) :
    wrapInt v = v := by
  unfold wrapInt
  rw [BitVec.toInt_ofInt, Int.bmod_eq_of_le] <;> omega

theorem low_four {v : Nat} (h : v < 4294967296) : low 4 v = v := by
  simp only [low]
  omega

theorem load_four_lt (m : Bytes) (a : Nat) : load m a 4 < 4294967296 := by
  have hbyte : ∀ x, (m x).toNat < 256 := fun x => (m x).isLt
  have := hbyte a
  have := hbyte (a + 1)
  have := hbyte (a + 1 + 1)
  have := hbyte (a + 1 + 1 + 1)
  simp only [load]
  omega

theorem load_four (m : Bytes) (a : Nat) : (BitVec.ofInt 32 (loadInt m a)).toNat = load m a 4 := by
  unfold loadInt
  rw [BitVec.ofInt_toInt, BitVec.toNat_ofNat]
  exact Nat.mod_eq_of_lt (load_four_lt m a)

@[simp] theorem loadInt_storeInt (m : Bytes) (a : Nat) (v : Int) :
    loadInt (storeInt m a v) a = wrapInt v := by
  unfold loadInt storeInt wrapInt
  rw [load_store_bytesOf, low_four (BitVec.isLt _), BitVec.ofNat_toNat, BitVec.setWidth_eq]

theorem loadInt_store_of_disjoint {b : Nat} (h : b + 4 ≤ a ∨ a + bs.length ≤ b) :
    loadInt (store m a bs) b = loadInt m b := by
  unfold loadInt
  rw [load_store_of_disjoint h]

theorem loadInt_store (i : Nat) :
    loadInt (store m a bs) (a + i) = overlayInt (loadInt m (a + i)) (bs.drop i) := by
  unfold overlayInt
  rw [load_four]
  unfold loadInt
  rw [load_store]

theorem loadInt_storeInt_of_disjoint {b : Nat} {v : Int} (h : b + 4 ≤ a ∨ a + 4 ≤ b) :
    loadInt (storeInt m a v) b = loadInt m b :=
  loadInt_store_of_disjoint (by rwa [length_bytesOf])

theorem storeInt_of_disjoint {v : Int} (h : x < a ∨ a + 4 ≤ x) : storeInt m a v x = m x :=
  store_of_disjoint (by rwa [length_bytesOf])

theorem load_storeInt_of_disjoint {b : Nat} {v : Int} (h : b + n ≤ a ∨ a + 4 ≤ b) :
    load (storeInt m a v) b n = load m b n :=
  load_store_of_disjoint (by rwa [length_bytesOf])

/-- An `int` that nothing is put over stays. -/
theorem overlayInt_nil (v : Int) : overlayInt v [] = wrapInt v := by
  unfold overlayInt wrapInt
  rw [overlay_nil, low_four (BitVec.isLt _), BitVec.ofNat_toNat, BitVec.setWidth_eq]

/-- What is loaded is an `int`. -/
theorem wrapInt_loadInt (m : Bytes) (a : Nat) : wrapInt (loadInt m a) = loadInt m a := by
  unfold wrapInt loadInt
  rw [BitVec.ofInt_toInt]

end Memory
