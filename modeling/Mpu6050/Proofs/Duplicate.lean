/-
Copying a chain of messages is all or nothing, unless a block without an allocator is the one
there is no room for.

A copy has one new header for each message of the chain and one reference more on its data
block, however often a data block stands in the chain.  If an allocation fails, the functions
that called one another come back one by one; each releases the header it made, and what is
left is what was there before.  All of them come back only if the innermost does: it asks the
allocator of its message whether it blocks, also where the message has none.
-/
import Mpu6050.Client.Duplicate

namespace Mpu6050.Client

variable {allocates : Nat → Bool}

/-! ### What is left when it is done -/

/-- A copy of the chain: a header for each message, which shares its data block and counts as one
reference more to it. -/
structure Copied (chain : List MessageBlock) (heap : Heap) (copy : List Header)
    (heap' : Heap) : Prop where
  shares : copy.map Header.block = chain
  counted : Counts.Retained (chain.map MessageBlock.dataBlock) heap.refCount heap'.refCount
  headers : heap'.headers.Perm (copy.map Header.address ++ heap.headers)

/-- No reference more or less, and no header. -/
structure Untouched (heap heap' : Heap) : Prop where
  refCount : heap'.refCount = heap.refCount
  headers : heap'.headers = heap.headers

/-- A copy of the whole chain, or none and nothing done. -/
def WholeOrNone (chain : List MessageBlock) (heap : Heap) :
    Except Failure (Option (List Header) × Heap) → Prop
  | .ok (some copy, heap') => Copied chain heap copy heap'
  | .ok (none, heap') => Untouched heap heap'
  | .error _ => False

theorem untouched_failed (heap : Heap) : Untouched heap heap.failed := ⟨rfl, rfl⟩

/-- A header that stands alone is a copy of a chain of one. -/
theorem copied_single (block : MessageBlock) (heap : Heap) :
    Copied [block] heap [{ address := heap.allocations, block }] (heap.constructed block) :=
  { shares := rfl
    counted := Counts.retained_cons.mpr (Counts.retained_nil _)
    headers := List.Perm.refl _ }

/-- A header before a copy of what follows it. -/
theorem Copied.cons {block : MessageBlock} {chain : List MessageBlock} {heap heap' : Heap}
    {copy : List Header} (h : Copied chain (heap.constructed block) copy heap') :
    Copied (block :: chain) heap ({ address := heap.allocations, block } :: copy) heap' := by
  refine { shares := ?_, counted := ?_, headers := ?_ }
  · rw [List.map_cons, h.shares]
  · rw [List.map_cons]
    exact Counts.retained_cons.mpr h.counted
  · rw [List.map_cons, List.cons_append]
    exact h.headers.trans List.perm_middle

/-- **Releasing the header undoes what making it did**, if nothing else has been kept. -/
theorem Untouched.release {block : MessageBlock} {heap heap' : Heap}
    (h : Untouched (heap.constructed block) heap') :
    Untouched heap (heap'.release { address := heap.allocations, block }) := by
  constructor
  · calc Counts.release block.dataBlock heap'.refCount
        = Counts.release block.dataBlock (Counts.retain block.dataBlock heap.refCount) := by
          rw [h.refCount]
          rfl
      _ = heap.refCount := Counts.release_retain _ _
  · calc heap'.headers.erase heap.allocations
        = (heap.allocations :: heap.headers).erase heap.allocations := by
          rw [h.headers]
          rfl
      _ = heap.headers := List.erase_cons_head _ _

/-! ### Which allocation fails -/

/-- The first of the allocations from the `n`-th on to fail is for a block with no allocator
that can be asked. -/
def FailsUnasked (allocates : Nat → Bool) (n : Nat) (chain : List MessageBlock) : Prop :=
  ∃ k block, chain[k]? = some block ∧ (∀ j < k, allocates (n + j) = true) ∧
    allocates (n + k) = false ∧ block.messageBlockAllocator ≠ some .streamAllocator

theorem failsUnasked_nil (n : Nat) : ¬ FailsUnasked allocates n [] := by
  intro ⟨k, block, hk, _⟩
  simp at hk

/-- If the first one does not fail, it is one of the others. -/
theorem failsUnasked_cons_of_allocates {n : Nat} {block : MessageBlock}
    {chain : List MessageBlock} (halloc : allocates n = true) :
    FailsUnasked allocates n (block :: chain) ↔ FailsUnasked allocates (n + 1) chain := by
  constructor
  · intro ⟨k, b, hk, hbefore, hfail, hb⟩
    cases k with
    | zero =>
        rw [Nat.add_zero, halloc] at hfail
        cases hfail
    | succ k =>
        refine ⟨k, b, by simpa using hk, fun j hj => ?_, ?_, hb⟩
        · rw [Nat.add_assoc, Nat.add_comm 1]
          exact hbefore (j + 1) (Nat.succ_lt_succ hj)
        · rw [Nat.add_assoc, Nat.add_comm 1]
          exact hfail
  · intro ⟨k, b, hk, hbefore, hfail, hb⟩
    refine ⟨k + 1, b, by simpa using hk, fun j hj => ?_, ?_, hb⟩
    · cases j with
      | zero => exact halloc
      | succ j =>
          rw [Nat.add_comm j, ← Nat.add_assoc]
          exact hbefore j (Nat.lt_of_succ_lt_succ hj)
    · rw [Nat.add_comm k, ← Nat.add_assoc]
      exact hfail

/-- If the first one fails, it is that one. -/
theorem failsUnasked_cons_of_fails {n : Nat} {block : MessageBlock} {chain : List MessageBlock}
    (hfail : allocates n = false) :
    FailsUnasked allocates n (block :: chain) ↔
      block.messageBlockAllocator ≠ some .streamAllocator := by
  constructor
  · intro ⟨k, b, hk, hbefore, _, hb⟩
    cases k with
    | zero =>
        obtain rfl : block = b := by simpa using hk
        exact hb
    | succ k =>
        have h := hbefore 0 (Nat.succ_pos k)
        rw [Nat.add_zero, hfail] at h
        cases h
  · intro hb
    exact ⟨0, block, rfl, fun j hj => absurd hj (Nat.not_lt_zero j), hfail, hb⟩

/-! ### The function -/

theorem construct_of_allocates {block : MessageBlock} {heap : Heap}
    (h : allocates heap.allocations = true) :
    construct allocates block heap =
      (some { address := heap.allocations, block }, heap.constructed block) := by
  rw [construct, if_pos h]

theorem construct_of_fails {block : MessageBlock} {heap : Heap}
    (h : allocates heap.allocations = false) :
    construct allocates block heap = (none, heap.failed) := by
  rw [construct, if_neg (by rw [h]; decide)]

/-- What becomes of a header, with the copy of what follows it or without one. -/
def continued (message : Header) :
    Except Failure (Option (List Header) × Heap) → Except Failure (Option (List Header) × Heap)
  | .error e => .error e
  | .ok (none, heap) => .ok (none, heap.release message)
  | .ok (some copy, heap) => .ok (some (message :: copy), heap)

theorem duplicate_cons {this next : MessageBlock} {rest : List MessageBlock} {heap : Heap}
    (h : allocates heap.allocations = true) :
    duplicate allocates this (next :: rest) heap =
      continued { address := heap.allocations, block := this }
        (duplicate allocates next rest (heap.constructed this)) := by
  rw [duplicate, construct_of_allocates h]
  rfl

theorem duplicate_single {this : MessageBlock} {heap : Heap}
    (h : allocates heap.allocations = true) :
    duplicate allocates this [] heap =
      .ok (some [{ address := heap.allocations, block := this }], heap.constructed this) := by
  rw [duplicate, construct_of_allocates h]

/-- With no room for the first header, the allocator of its message decides. -/
theorem duplicate_of_fails {this : MessageBlock} {cont : List MessageBlock} {heap : Heap}
    (h : allocates heap.allocations = false) :
    duplicate allocates this cont heap =
      if this.messageBlockAllocator = some .streamAllocator then .ok (none, heap.failed)
      else .error .assertion := by
  rw [duplicate, construct_of_fails h]
  cases this.messageBlockAllocator with
  | none => rfl
  | some allocator => cases allocator <;> rfl

theorem wholeOrNone_of_fails {this : MessageBlock} {cont : List MessageBlock} {heap : Heap}
    {result : Option (List Header) × Heap} (hfail : allocates heap.allocations = false)
    (h : duplicate allocates this cont heap = .ok result) :
    WholeOrNone (this :: cont) heap (.ok result) := by
  rw [duplicate_of_fails hfail] at h
  by_cases hasked : this.messageBlockAllocator = some .streamAllocator
  · rw [if_pos hasked] at h
    cases h
    exact untouched_failed heap
  · rw [if_neg hasked] at h
    cases h

/-- **What `duplicate` returns is all or nothing**, whatever fails. -/
theorem wholeOrNone_of_returns {this : MessageBlock} {cont : List MessageBlock}
    {heap : Heap} {result : Option (List Header) × Heap}
    (h : duplicate allocates this cont heap = .ok result) :
    WholeOrNone (this :: cont) heap (.ok result) := by
  induction cont generalizing this heap result with
  | nil =>
      cases halloc : allocates heap.allocations with
      | false => exact wholeOrNone_of_fails halloc h
      | true =>
          rw [duplicate_single halloc] at h
          cases h
          exact copied_single this heap
  | cons next rest ih =>
      cases halloc : allocates heap.allocations with
      | false => exact wholeOrNone_of_fails halloc h
      | true =>
          rw [duplicate_cons halloc] at h
          cases hrest : duplicate allocates next rest (heap.constructed this) with
          | error e =>
              rw [hrest] at h
              cases h
          | ok inner =>
              obtain ⟨copy, heap'⟩ := inner
              have hinner := ih hrest
              rw [hrest] at h
              cases copy with
              | none =>
                  cases h
                  exact Untouched.release hinner
              | some copy =>
                  cases h
                  exact Copied.cons hinner

theorem duplicate_fails_iff_of_fails {this : MessageBlock} {cont : List MessageBlock} {heap : Heap}
    (hfail : allocates heap.allocations = false) :
    (∃ e, duplicate allocates this cont heap = .error e) ↔
      FailsUnasked allocates heap.allocations (this :: cont) := by
  rw [duplicate_of_fails hfail, failsUnasked_cons_of_fails hfail]
  by_cases hasked : this.messageBlockAllocator = some .streamAllocator
  · simp [hasked]
  · simp [hasked]

/-- **`duplicate` fails if the allocation that fails has no allocator to ask**, and only then. -/
theorem duplicate_fails_iff {this : MessageBlock} {cont : List MessageBlock} {heap : Heap} :
    (∃ e, duplicate allocates this cont heap = .error e) ↔
      FailsUnasked allocates heap.allocations (this :: cont) := by
  induction cont generalizing this heap with
  | nil =>
      cases halloc : allocates heap.allocations with
      | false => exact duplicate_fails_iff_of_fails halloc
      | true =>
          rw [duplicate_single halloc, failsUnasked_cons_of_allocates halloc]
          simp [failsUnasked_nil]
  | cons next rest ih =>
      cases halloc : allocates heap.allocations with
      | false => exact duplicate_fails_iff_of_fails halloc
      | true =>
          rw [duplicate_cons halloc, failsUnasked_cons_of_allocates halloc]
          have hnext : FailsUnasked allocates (heap.allocations + 1) (next :: rest) ↔
              ∃ e, duplicate allocates next rest (heap.constructed this) = .error e :=
            (@ih next (heap.constructed this)).symm
          rw [hnext]
          cases duplicate allocates next rest (heap.constructed this) with
          | error e => exact Iff.rfl
          | ok inner =>
              obtain ⟨copy, heap'⟩ := inner
              cases copy with
              | none => simp [continued]
              | some copy => simp [continued]

/--
A copy is made of a chain as a whole or not at all if and only if the first allocation to
fail, if one does, is for a message whose allocator can be asked about it.
-/
theorem duplicate_wholeOrNone_iff (allocates : Nat → Bool) (this : MessageBlock)
    (cont : List MessageBlock) (heap : Heap) :
    WholeOrNone (this :: cont) heap (duplicate allocates this cont heap) ↔
      ¬ FailsUnasked allocates heap.allocations (this :: cont) := by
  rw [← duplicate_fails_iff]
  cases h : duplicate allocates this cont heap with
  | error e => simp [WholeOrNone]
  | ok result =>
      have hdone := wholeOrNone_of_returns h
      simp [hdone]

/-- Two data blocks, and a header for each. -/
def twoMessages : Heap :=
  { refCount := fun d => if d < 2 then 1 else 0
    headers := [1, 0]
    allocations := 2
    fresh := by decide
    distinct := by decide }

/-- Two messages that were made without an allocator, and room for one header more: the second
message is asked what its allocator does. -/
theorem duplicate_outOfMemory :
    ¬ WholeOrNone
      [{ dataBlock := 0, messageBlockAllocator := none },
        { dataBlock := 1, messageBlockAllocator := none }] twoMessages
      (duplicate (fun n => decide (n < 3)) { dataBlock := 0, messageBlockAllocator := none }
        [{ dataBlock := 1, messageBlockAllocator := none }] twoMessages) := by
  have hfails : duplicate (fun n => decide (n < 3))
      { dataBlock := 0, messageBlockAllocator := none }
      [{ dataBlock := 1, messageBlockAllocator := none }] twoMessages = .error .assertion := rfl
  rw [hfails]
  exact id

end Mpu6050.Client
