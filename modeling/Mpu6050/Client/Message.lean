/-
A message of the client, and the dataset at its start.

A message block is a data block and two pointers into it; what lies between them is the
payload, whatever came in one datagram.  `size ()` is that of the data block and says
nothing about the payload, whose length is `length ()`.  `extract_data` is given a bare
pointer, the one the payload starts at, and reads 14 bytes from there on.
-/
import Mpu6050.Client.Extract

namespace Mpu6050.Client

/-- `OLIMEX_MOD_MPU6050_STREAM_BUFFER_SIZE` -/
abbrev streamBufferSize : Nat := 14

/-- Why a function of the client does not come back. -/
inductive Failure
  /-- An `ACE_ASSERT` does not hold. -/
  | assertion
  /-- `front ()` or `pop_front ()` of an empty queue. -/
  | emptyQueue
  /-- A byte is read that is not in the payload, so far from where that starts. -/
  | outside (i : Nat)
deriving DecidableEq

/-- `Olimex_Mod_MPU6050_Message`, as far as it is an `ACE_Message_Block`. -/
structure Message where
  dataBlock : List U8
  rdPtr : Nat
  wrPtr : Nat
  rd_le_wr : rdPtr ≤ wrPtr
  wr_le_size : wrPtr ≤ dataBlock.length

/-- `size ()` -/
def Message.size (m : Message) : Nat := m.dataBlock.length

/-- `length ()` -/
def Message.length (m : Message) : Nat := m.wrPtr - m.rdPtr

/-- The byte so far behind `rd_ptr ()`.  Beyond the payload nothing is read here, and what reads
there fails; the program goes on with what is left in the data block (`Message.data`). -/
def Message.byteAt (m : Message) (i : Nat) : Except Failure U8 :=
  if h : m.rdPtr + i < m.wrPtr then
    .ok (m.dataBlock.get ⟨m.rdPtr + i, Nat.lt_of_lt_of_le h m.wr_le_size⟩)
  else .error (.outside i)

/-- So many bytes, one after another, from there on. -/
def Message.readBytes (m : Message) : (n i : Nat) → Except Failure (List U8)
  | 0, _ => .ok []
  | n + 1, i => do
    let b ← m.byteAt i
    let bs ← m.readBytes n (i + 1)
    pure (b :: bs)

/-- `extract_data (message.rd_ptr (), ..)`: seven words, in the order in which they stand. -/
def Message.extractData (m : Message) : Except Failure (Sample ℚ) := do
  let bs ← m.readBytes deviceBlockLength 0
  pure (Client.extractData fun i => (bs[i.val]?).getD 0)

end Mpu6050.Client
