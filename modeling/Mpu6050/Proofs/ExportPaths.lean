/-
The same sample on every path out of the driver.

A slot's data leave as netlink attributes, as a line of text and as raw bytes that the
client decodes itself.  Two decoders are at work, the kernel's and the client's, and both
come down to reading each pair of bytes in big-endian order: swapping a native load
puts the first byte on top, and inverting the two's complement changes nothing.  What the
line says is what is read back from it as text.

They differ in one word.  The kernel does not swap the temperature, so the integer it
reports has the two bytes in the wrong order, and the paths agree exactly where the
order does not matter.
-/
import Mpu6050.Client.Extract
import Mpu6050.Lib.Decimal
import Mpu6050.Lib.Words
import Mpu6050.Proofs.Consumers

namespace Mpu6050

open Words

/-- The two bytes of word `k`, the first one first. -/
def wordBytes (data : Data) (k : Fin 7) : U8 × U8 :=
  (data ⟨2 * k.val, wordFirst_lt k⟩, data ⟨2 * k.val + 1, wordSecond_lt k⟩)

/-- Word `k` read in big-endian order and two's complement. -/
def bigEndianWord (data : Data) (k : Fin 7) : Int :=
  bigEndian (wordBytes data k).1 (wordBytes data k).2

/-- The dataset read as the chip sends it: seven words, the high byte first. -/
def bigEndianSample (data : Data) : Sample Int where
  accelX := bigEndianWord data 0
  accelY := bigEndianWord data 1
  accelZ := bigEndianWord data 2
  temp := bigEndianWord data 3
  gyroX := bigEndianWord data 4
  gyroY := bigEndianWord data 5
  gyroZ := bigEndianWord data 6

/-- The values in their order. -/
def Sample.toList {α : Type} (s : Sample α) : List α :=
  [s.accelX, s.accelY, s.accelZ, s.temp, s.gyroX, s.gyroY, s.gyroZ]

/-- Every kernel call before the multicast succeeds. -/
def ForwardResults.Puts (results : ForwardResults) : Prop :=
  results.genlmsgNew = true ∧ results.genlmsgPut = true ∧
    (∀ attr, results.nlaPutU16 attr = 0) ∧ 0 ≤ results.genlmsgEnd

/-- The newest slot is in use and holds the data. -/
def Holds (cd : ClientData) (data : Data) : Prop :=
  ∃ k, ringbufferIndex cd.ringbufferpos = .ok k ∧ (cd.ringbuffer k).used = true ∧
    (cd.ringbuffer k).data = data

/-- Every path reports what the chip sent: each message that is multicast, the line that a read
of the file returns, and what the client decodes from the datagram. -/
structure PathsAgree (data : Data) : Prop where
  netlink : ∀ results attrs, BufferStep.multicast attrs ∈ (netlinkForward results data).2 →
    attrs.map Prod.fst = [.accelX, .accelY, .accelZ, .temp, .gyroX, .gyroY, .gyroZ] ∧
      attrs.map (fun attr => attr.2.toInt) = (bigEndianSample data).toList
  multicast : ∀ results, results.Puts →
    ∃ attrs, BufferStep.multicast attrs ∈ (netlinkForward results data).2
  sysfs : ∀ cd offset count, Holds cd data →
    ∃ text, ringbufferRead offset count cd = .ok (some text, text.length) ∧
      Decimal.readLine ',' text = some (bigEndianSample data).toList
  datagram : ∃ d, serverSend true data 14 = some d ∧ d.length = 14 ∧
    (Client.decoded d.buffer).map BitVec.toInt = bigEndianSample data

/-! ### The two decoders -/

/-- Inverting the two's complement representation changes nothing. -/
theorem invertTwosComplement_eq (x : BitVec 16) : invertTwosComplement x = x := by
  unfold invertTwosComplement
  dsimp only
  split
  next h => exact setWidth_magnitude_sub_sign (sign_of_test h)
  next => exact setWidth_signExtend x

theorem be16ToCpus_append (hi lo : U8) : be16ToCpus (hi ++ lo) = lo ++ hi := by
  unfold be16ToCpus
  rw [setWidth_append_low, setWidth_append_high]

/-- A native load has the second byte on top. -/
theorem loadS16_eq (data : Data) (k : Fin 7) :
    loadS16 data k = (wordBytes data k).2 ++ (wordBytes data k).1 := rfl

/-- A word the kernel swaps is the big-endian one. -/
theorem kernelWord_toInt (data : Data) (k : Fin 7) :
    (invertTwosComplement (be16ToCpus (loadS16 data k))).toInt = bigEndianWord data k := by
  rw [invertTwosComplement_eq, loadS16_eq, be16ToCpus_append]
  exact toInt_append _ _

/-- A word the client swaps is the big-endian one. -/
theorem clientWord_toInt (data : Data) (k : Fin 7) :
    (Client.loadWord data k).toInt = bigEndianWord data k := by
  unfold Client.loadWord Client.aceSwapWord
  rw [loadS16_eq, setWidth_swap]
  exact toInt_append _ _

/-- **The client decodes what the chip sent.** -/
theorem clientDecoded_eq (data : Data) :
    (Client.decoded data).map BitVec.toInt = bigEndianSample data := by
  unfold Client.decoded Sample.map bigEndianSample
  simp only [invertTwosComplement_eq, clientWord_toInt]

/-- The kernel's temperature has its bytes the other way round. -/
theorem deviceExtractData_temp (data : Data) :
    (deviceExtractData data).temp.toInt
      = bigEndian (wordBytes data 3).2 (wordBytes data 3).1 := toInt_append _ _

/-- **The kernel decodes what the chip sent, but for the temperature.** -/
theorem deviceExtractData_eq (data : Data) :
    (deviceExtractData data).map BitVec.toInt
      = { bigEndianSample data with
          temp := bigEndian (wordBytes data 3).2 (wordBytes data 3).1 } := by
  unfold Sample.map
  rw [deviceExtractData_temp]
  unfold deviceExtractData bigEndianSample
  simp only [kernelWord_toInt]

/-! ### Agreement -/

/-- Only the temperature can differ. -/
theorem deviceExtractData_iff (data : Data) :
    (deviceExtractData data).map BitVec.toInt = bigEndianSample data ↔ data 6 = data 7 := by
  have hwords : bigEndian (data 7) (data 6) = bigEndian (data 6) (data 7) ↔ data 6 = data 7 := by
    rw [← toInt_append, ← toInt_append, BitVec.toInt_inj, append_comm_iff]
    exact eq_comm
  rw [← hwords, deviceExtractData_eq]
  constructor
  · intro h
    exact congrArg Sample.temp h
  · intro h
    rw [Sample.mk.injEq]
    exact ⟨rfl, rfl, rfl, h, rfl, rfl, rfl⟩

/-! ### The line -/

theorem formatInt_eq (x : Int) : formatInt x = Nat.toDigits 10 x.natAbs ∧ x = x.natAbs ∨
    formatInt x = '-' :: Nat.toDigits 10 x.natAbs ∧ x = -(x.natAbs : Int) := by
  cases x with
  | ofNat n => exact Or.inl ⟨rfl, rfl⟩
  | negSucc n => exact Or.inr ⟨rfl, rfl⟩

/-- An integer that is printed is read back. -/
theorem readInt_formatInt (x : Int) : Decimal.readInt (formatInt x) = some x := by
  obtain ⟨htext, hval⟩ | ⟨htext, hval⟩ := formatInt_eq x
  · rw [htext, Decimal.readInt_toDigits, ← hval]
  · rw [htext, Decimal.readInt_minus, ← hval]

theorem comma_not_mem_formatInt (x : Int) : ',' ∉ formatInt x := by
  have hdigits : ∀ n, ',' ∉ Nat.toDigits 10 n :=
    fun n h => absurd (Decimal.isDigit_of_mem_toDigits h) (by decide)
  obtain ⟨htext, -⟩ | ⟨htext, -⟩ := formatInt_eq x
  · rw [htext]
    exact hdigits _
  · rw [htext, List.mem_cons, not_or]
    exact ⟨by decide, hdigits _⟩

/-- **The line reads as the seven values in their order.** -/
theorem readLine_formatLine (s : Sample Int) :
    Decimal.readLine ',' (formatLine s) = some s.toList := by
  have hline : formatLine s = [','].intercalate (s.toList.map formatInt) ++ ['\n'] := by
    simp [formatLine, Sample.toList, List.intercalate]
  rw [hline]
  exact Decimal.readLine_line (by simp [Sample.toList]) (fun x _ => readInt_formatInt x)
    fun x _ => comma_not_mem_formatInt x

/-- Two samples have the same values in the same order only if they are the same. -/
theorem Sample.toList_inj {α : Type} {s t : Sample α} : s.toList = t.toList ↔ s = t := by
  refine ⟨?_, congrArg Sample.toList⟩
  intro h
  cases s
  cases t
  simpa [Sample.toList] using h

/-! ### Each path -/

section

variable {data : Data}

/-- A read of the file returns the line of what the kernel decodes. -/
theorem ringbufferRead_readLine {cd : ClientData} (h : Holds cd data) (offset : Int)
    (count : Nat) : ∃ text, ringbufferRead offset count cd = .ok (some text, text.length) ∧
      Decimal.readLine ',' text = some ((deviceExtractData data).map BitVec.toInt).toList := by
  obtain ⟨k, hk, hused, rfl⟩ := h
  refine ⟨_, ringbufferRead_of_used hk hused offset count, ?_⟩
  rw [printedLine_eq]
  exact readLine_formatLine _

theorem multicast_of_puts {results : ForwardResults} (h : results.Puts) :
    BufferStep.multicast (netlinkAttributes (deviceExtractData data))
      ∈ (netlinkForward results data).2 := by
  rcases netlinkForward_cases results data with
    ⟨hnew, -⟩ | ⟨-, hnot, -⟩ | ⟨-, -, hforward⟩
  · exact absurd (h.1.symm.trans hnew) (by decide)
  · exact absurd h.2 hnot
  · simp [hforward]

theorem netlinkAttributes_values (data : Data) :
    (netlinkAttributes (deviceExtractData data)).map (fun attr => attr.2.toInt)
      = ((deviceExtractData data).map BitVec.toInt).toList := rfl

end

/-- A ring whose only sample is this one. -/
def ringHolding (data : Data) : ClientData :=
  { ringbuffer := fun _ => { zeroEntry with used := true, size := 14, data := data }
    ringbufferpos := 0 }

theorem ringHolding_holds (data : Data) : Holds (ringHolding data) data :=
  ⟨⟨0, by decide⟩, rfl, rfl, rfl⟩

/-- **All paths report the same sample exactly where the two temperature bytes are equal.** -/
theorem pathsAgree_iff (data : Data) : PathsAgree data ↔ data 6 = data 7 := by
  rw [← deviceExtractData_iff]
  constructor
  · intro h
    obtain ⟨text, hread, hline⟩ := h.sysfs (ringHolding data) 0 0 (ringHolding_holds data)
    obtain ⟨text', hread', hline'⟩ := ringbufferRead_readLine (ringHolding_holds data) 0 0
    obtain rfl : text' = text := by
      have hsame := Except.ok.inj (hread'.symm.trans hread)
      exact Option.some.inj (Prod.mk.inj hsame).1
    exact Sample.toList_inj.mp (Option.some.inj (hline'.symm.trans hline))
  · intro h
    refine ⟨?_, fun results hputs => ⟨_, multicast_of_puts hputs⟩, ?_, ?_⟩
    · intro results attrs hsent
      rw [netlinkForward_multicast hsent, netlinkAttributes_values, h]
      exact ⟨rfl, rfl⟩
    · intro cd offset count hholds
      obtain ⟨text, hread, hline⟩ := ringbufferRead_readLine hholds offset count
      exact ⟨text, hread, h ▸ hline⟩
    · exact ⟨{ buffer := data, length := 14 }, rfl, rfl, clientDecoded_eq data⟩

/-- 25 °C, as the chip sends it. -/
def roomTemperature : Data := fun i =>
  if i.val = 6 then 0xF0 else if i.val = 7 then 0xB0 else 0

/-- The client reads -3920, the kernel -20240. -/
theorem roomTemperature_differs : ¬PathsAgree roomTemperature := by
  intro h
  obtain ⟨-, hvalues⟩ := h.netlink
    { genlmsgNew := true, genlmsgPut := true, nlaPutU16 := fun _ => 0, genlmsgEnd := 0,
      genlmsgMulticast := 0 } _ (multicast_of_puts ⟨rfl, rfl, fun _ => rfl, le_refl 0⟩)
  revert hvalues
  decide

end Mpu6050
