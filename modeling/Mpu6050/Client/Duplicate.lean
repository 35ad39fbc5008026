/-
`Olimex_Mod_MPU6050_Message::duplicate`: a chain of messages, copied.

A message is a header.  It refers to a data block, which counts its references, to the
allocator it was made with, if it was made with one, and to the next message of the chain.
Copying it makes new headers for the same data blocks.

What is kept of the memory is the counts and which headers there are.  `allocates` says which
allocations succeed, by their number.
-/
import Mpu6050.Client.Message
import Mpu6050.Lib.Counts

namespace Mpu6050.Client

/-- What `dynamic_cast<Stream_IAllocator*>` makes of a message's allocator. -/
inductive Allocator
  | streamAllocator
  /-- An `ACE_Allocator` of another class: a null pointer. -/
  | other
deriving DecidableEq

/-- A message of a chain: the number of its data block, and `message_block_allocator_`. -/
structure MessageBlock where
  dataBlock : Nat
  messageBlockAllocator : Option Allocator
deriving DecidableEq

/-- A header in memory, and what it holds. -/
structure Header where
  address : Nat
  block : MessageBlock
deriving DecidableEq

/-- The reference counts of the data blocks, and the headers that are there.  Addresses are
given out in order and not used again. -/
structure Heap where
  refCount : Nat → Nat
  headers : List Nat
  allocations : Nat
  fresh : ∀ address ∈ headers, address < allocations
  distinct : headers.Nodup

/-- An allocation that fails. -/
def Heap.failed (heap : Heap) : Heap :=
  { heap with
    allocations := heap.allocations + 1
    fresh := fun address h => Nat.lt_succ_of_lt (heap.fresh address h) }

/-- A new header, made by the copy constructor: it shares the data block. -/
def Heap.constructed (heap : Heap) (block : MessageBlock) : Heap :=
  { refCount := Counts.retain block.dataBlock heap.refCount
    headers := heap.allocations :: heap.headers
    allocations := heap.allocations + 1
    fresh := List.forall_mem_cons.mpr
      ⟨Nat.lt_succ_self _, fun address h => Nat.lt_succ_of_lt (heap.fresh address h)⟩
    distinct := List.nodup_cons.mpr
      ⟨fun h => Nat.lt_irrefl _ (heap.fresh _ h), heap.distinct⟩ }

/-- `release ()` of a header with no continuation. -/
def Heap.release (heap : Heap) (header : Header) : Heap :=
  { refCount := Counts.release header.block.dataBlock heap.refCount
    headers := heap.headers.erase header.address
    allocations := heap.allocations
    fresh := fun address h => heap.fresh address (List.mem_of_mem_erase h)
    distinct := heap.distinct.erase _ }

/-- `ACE_NEW_NORETURN`, and with an allocator `ACE_NEW_MALLOC_NORETURN`. -/
def construct (allocates : Nat → Bool) (block : MessageBlock) (heap : Heap) :
    Option Header × Heap :=
  if allocates heap.allocations then
    (some { address := heap.allocations, block }, heap.constructed block)
  else (none, heap.failed)

/--
`Olimex_Mod_MPU6050_Message::duplicate` of a message and the continuation it has: the new
chain, or `none` for a null pointer.  An allocator is asked whether it blocks if there was
nothing to be had, and it is asserted before that there is one to ask.
-/
def duplicate (allocates : Nat → Bool) (this : MessageBlock) (cont : List MessageBlock)
    (heap : Heap) : Except Failure (Option (List Header) × Heap) :=
  match construct allocates this heap with
  | (none, heap) =>
    match this.messageBlockAllocator with
    | some .streamAllocator => .ok (none, heap)
    | _ => .error .assertion
  | (some message, heap) =>
    match cont with
    | [] => .ok (some [message], heap)
    | next :: rest =>
      match duplicate allocates next rest heap with
      | .error e => .error e
      | .ok (none, heap) => .ok (none, heap.release message)
      | .ok (some copy, heap) => .ok (some (message :: copy), heap)

end Mpu6050.Client
