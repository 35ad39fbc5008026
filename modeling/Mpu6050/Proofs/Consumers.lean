/-
What each consumer does with the slot at `ringbufferpos`.

A message is multicast only when every attribute has been put, so it carries the whole
sample.  The netlink thread, the UDP thread and the sysfs read hand out something only
for a slot that is marked used, and then it is made of that slot and nothing else.  The
two threads look for the sentinel first, so in range they never access outside the ring;
the sysfs read does at the sentinel, and only there.
-/
import Mpu6050.Driver.System
import Mpu6050.Proofs.Handler

namespace Mpu6050

/-! ### The netlink message -/

/-- When every attribute was put, all of them are carried. -/
theorem putAttributes_ok {put : NetlinkAttribute → Int}
    {attrs carried : List (NetlinkAttribute × BitVec 16)}
    (h : (putAttributes put attrs carried).1 = 0) :
    (putAttributes put attrs carried).2 = carried ++ attrs := by
  induction attrs generalizing carried with
  | nil => simp [putAttributes]
  | cons attr rest ih =>
      unfold putAttributes at h ⊢
      by_cases herr : put attr.1 ≠ 0
      · rw [if_pos herr] at h
        exact absurd h herr
      · simp only [if_neg herr] at h ⊢
        rw [ih h, List.append_assoc]
        rfl

theorem putAttributes_eq_zero_iff {put : NetlinkAttribute → Int}
    {attrs carried : List (NetlinkAttribute × BitVec 16)} :
    (putAttributes put attrs carried).1 = 0 ↔ ∀ p ∈ attrs, put p.1 = 0 := by
  induction attrs generalizing carried with
  | nil => simp [putAttributes]
  | cons attr rest ih =>
      unfold putAttributes
      by_cases herr : put attr.1 = 0
      · simp [herr, ih]
      · simp [herr]

/-- There are seven attributes. -/
theorem forall_attribute {P : NetlinkAttribute → Prop} :
    (∀ attr, P attr) ↔ ∀ attr ∈ [NetlinkAttribute.accelX, .accelY, .accelZ, .temp, .gyroX,
      .gyroY, .gyroZ], P attr := by
  refine ⟨fun h attr _ => h attr, fun h attr => h attr ?_⟩
  cases attr <;> decide

/-- The three ways a call can go: no buffer, a failure before the message is whole, or the
message handed to `genlmsg_multicast`. -/
theorem netlinkForward_cases (results : ForwardResults) (data : Data) :
    (results.genlmsgNew = false ∧ netlinkForward results data = (enomem.val, [])) ∨
    (results.genlmsgNew = true ∧
      ¬(results.genlmsgPut = true ∧ (∀ attr, results.nlaPutU16 attr = 0) ∧
        0 ≤ results.genlmsgEnd) ∧
      ∃ err between, err ≠ 0 ∧ (between = [] ∨ between = [.cancel]) ∧
        netlinkForward results data = (err, .new :: between ++ [.free])) ∨
    (results.genlmsgNew = true ∧
      (results.genlmsgPut = true ∧ (∀ attr, results.nlaPutU16 attr = 0) ∧
        0 ≤ results.genlmsgEnd) ∧
      netlinkForward results data = (results.genlmsgMulticast,
        [.new, .multicast (netlinkAttributes (deviceExtractData data))])) := by
  have hattrs : (putAttributes results.nlaPutU16
      (netlinkAttributes (deviceExtractData data)) []).1 = 0
        ↔ ∀ attr, results.nlaPutU16 attr = 0 := by
    rw [putAttributes_eq_zero_iff, forall_attribute]
    simp [netlinkAttributes]
  unfold netlinkForward
  cases hnew : results.genlmsgNew with
  | false => exact Or.inl ⟨rfl, rfl⟩
  | true =>
      refine Or.inr ?_
      cases hheader : results.genlmsgPut with
      | false => exact Or.inl ⟨rfl, nofun, enosys.val, [], by decide, Or.inl rfl, rfl⟩
      | true =>
          simp only [Bool.not_true, Bool.false_eq_true, if_false]
          by_cases hput : (putAttributes results.nlaPutU16
              (netlinkAttributes (deviceExtractData data)) []).1 = 0
          · rw [if_neg (not_not.mpr hput)]
            by_cases hend : results.genlmsgEnd < 0
            · rw [if_pos hend]
              exact Or.inl ⟨trivial, fun h => absurd h.2.2 (Int.not_le.mpr hend), _, [.cancel],
                by omega, Or.inr rfl, rfl⟩
            · -- the buffer is gone, whatever the multicast returns
              rw [if_neg hend, putAttributes_ok hput, List.nil_append]
              refine Or.inr ⟨trivial, ⟨trivial, hattrs.mp hput, Int.not_lt.mp hend⟩, ?_⟩
              by_cases hmulticast : results.genlmsgMulticast = 0
              · rw [if_neg (not_not.mpr hmulticast), hmulticast]
              · rw [if_pos hmulticast]
          · rw [if_pos hput]
            exact Or.inl ⟨trivial, fun h => hput (hattrs.mpr h.2.1), _, [.cancel], hput,
              Or.inr rfl, rfl⟩

/-- A message that is multicast carries every attribute of the decoded data. -/
theorem netlinkForward_multicast {results : ForwardResults} {data : Data}
    {carried : List (NetlinkAttribute × BitVec 16)}
    (h : BufferStep.multicast carried ∈ (netlinkForward results data).2) :
    carried = netlinkAttributes (deviceExtractData data) := by
  rcases netlinkForward_cases results data with
    ⟨-, hforward⟩ | ⟨-, -, err, between, -, hbetween, hforward⟩ | ⟨-, -, hforward⟩
  · simp [hforward] at h
  · rcases hbetween with rfl | rfl <;> simp [hforward] at h
  · simpa [hforward] using h

/-! ### The slot at the position -/

section

variable {α : Type} {cd : ClientData} {unused r : α} {f : Fin ringbufferSize → α}

/-- Looking up the slot and testing its mark, as all three do, is in bounds at a slot. -/
theorem slotAt_ok (h : PosInRange cd) (hne : cd.ringbufferpos ≠ -1) (unused : α)
    (f : Fin ringbufferSize → α) :
    ∃ r, (ringbufferIndex cd.ringbufferpos >>= fun i =>
      if (cd.ringbuffer i).used = false then .ok unused else .ok (f i)) = .ok r := by
  obtain ⟨k, hk, -⟩ := ringbufferIndex_ok ⟨by have := h.1; omega, h.2⟩
  by_cases hused : (cd.ringbuffer k).used = false
  · exact ⟨_, bind_ok.mpr ⟨k, hk, if_pos hused⟩⟩
  · exact ⟨_, bind_ok.mpr ⟨k, hk, if_neg hused⟩⟩

/-- And what comes of it is decided by the mark. -/
theorem slotAt_eq (h : (ringbufferIndex cd.ringbufferpos >>= fun i =>
      if (cd.ringbuffer i).used = false then .ok unused else .ok (f i)) = .ok r) :
    r = unused ∨
      ∃ k, ringbufferIndex cd.ringbufferpos = .ok k ∧ (cd.ringbuffer k).used = true ∧ r = f k := by
  obtain ⟨k, hk, hif⟩ := bind_ok.mp h
  by_cases hused : (cd.ringbuffer k).used = false
  · rw [if_pos hused] at hif
    exact Or.inl (Except.ok.inj hif).symm
  · rw [if_neg hused] at hif
    exact Or.inr ⟨k, hk, by simpa using hused, (Except.ok.inj hif).symm⟩

end

/-! ### What is handed out -/

theorem netlinkRun_emits {results : ForwardResults} {cd : ClientData} {steps : List BufferStep}
    (hrun : netlinkRun results cd = .ok steps) {e : Emission}
    (he : e ∈ steps.filterMap BufferStep.emission) :
    ∃ k, ringbufferIndex cd.ringbufferpos = .ok k ∧ (cd.ringbuffer k).used = true ∧
      e = .message (netlinkAttributes (deviceExtractData (cd.ringbuffer k).data)) := by
  unfold netlinkRun at hrun
  split at hrun
  · cases hrun
    simp at he
  rcases slotAt_eq hrun with rfl | ⟨k, hk, hused, rfl⟩
  · simp at he
  refine ⟨k, hk, hused, ?_⟩
  obtain ⟨b, hb, hbe⟩ := List.mem_filterMap.mp he
  cases b with
  | multicast attrs =>
      simp only [BufferStep.emission, Option.some.injEq] at hbe
      rw [← hbe, netlinkForward_multicast hb]
  | new => cases hbe
  | cancel => cases hbe
  | free => cases hbe

theorem serverRun_emits {sk : Bool} {cd : ClientData} {datagram : Option Datagram}
    (hrun : serverRun sk cd = .ok datagram) {d : Datagram} (hd : d ∈ datagram.toList) :
    ∃ k, ringbufferIndex cd.ringbufferpos = .ok k ∧ (cd.ringbuffer k).used = true ∧
      d = { buffer := (cd.ringbuffer k).data, length := (cd.ringbuffer k).size } := by
  unfold serverRun at hrun
  split at hrun
  · cases hrun
    simp at hd
  rcases slotAt_eq hrun with rfl | ⟨k, hk, hused, rfl⟩
  · simp at hd
  refine ⟨k, hk, hused, ?_⟩
  unfold serverSend at hd
  split at hd <;> simp at hd
  exact hd

theorem ringbufferRead_emits {offset : Int} {count : Nat} {cd : ClientData}
    {text : Option (List Char)} {ret : Int}
    (hrun : ringbufferRead offset count cd = .ok (text, ret)) {t : List Char}
    (ht : t ∈ text.toList) :
    ∃ k, ringbufferIndex cd.ringbufferpos = .ok k ∧ (cd.ringbuffer k).used = true ∧
      t = printedLine (cd.ringbuffer k).data := by
  rcases slotAt_eq hrun with hr | ⟨k, hk, hused, hr⟩
  · rw [(Prod.mk.inj hr).1] at ht
    simp at ht
  · rw [(Prod.mk.inj hr).1] at ht
    exact ⟨k, hk, hused, by simpa using ht⟩

/-- A slot in use at the position is what the next UDP iteration sends. -/
theorem serverRun_of_used {cd : ClientData} {k : Fin ringbufferSize}
    (hk : ringbufferIndex cd.ringbufferpos = .ok k) (hused : (cd.ringbuffer k).used = true) :
    serverRun true cd = .ok (some
      { buffer := (cd.ringbuffer k).data, length := (cd.ringbuffer k).size }) := by
  have hval := ringbufferIndex_val hk
  have hpos : ¬cd.ringbufferpos = -1 := by omega
  simp only [serverRun, if_neg hpos, hk, bind_ok]
  refine ⟨k, rfl, ?_⟩
  rw [if_neg (by simp [hused])]
  rfl

/-- And what the next read of the file prints. -/
theorem ringbufferRead_of_used {cd : ClientData} {k : Fin ringbufferSize}
    (hk : ringbufferIndex cd.ringbufferpos = .ok k) (hused : (cd.ringbuffer k).used = true)
    (offset : Int) (count : Nat) :
    ringbufferRead offset count cd
      = .ok (some (printedLine (cd.ringbuffer k).data),
          (printedLine (cd.ringbuffer k).data).length) := by
  unfold ringbufferRead
  refine bind_ok.mpr ⟨k, hk, ?_⟩
  rw [if_neg (by simp [hused])]

/-! ### The line fits the page -/

theorem formatInt_length {x : Int} (hlo : -32768 ≤ x) (hhi : x < 32768) :
    (formatInt x).length ≤ 6 := by
  cases x with
  | ofNat n =>
      have hdigits : (Nat.toDigits 10 n).length ≤ 5 := by
        rw [Nat.length_toDigits_le_iff (by omega) (by omega)]
        have hn : (n : Int) < 32768 := hhi
        omega
      exact Nat.le_succ_of_le hdigits
  | negSucc n =>
      have hdigits : (Nat.toDigits 10 (n + 1)).length ≤ 5 := by
        rw [Nat.length_toDigits_le_iff (by omega) (by omega)]
        omega
      exact Nat.succ_le_succ hdigits

theorem formatInt_word_length (x : BitVec 16) : (formatInt x.toInt).length ≤ 6 :=
  formatInt_length x.le_toInt x.toInt_lt

/-- `scnprintf` has room for the line. -/
theorem printedLine_eq (data : Data) : printedLine data = formatLine (printedSample data) := by
  have hword := formatInt_word_length
  unfold printedLine scnprintf
  refine List.take_of_length_le ?_
  have hpage : pageSize = 4096 := rfl
  have haccelX := hword (deviceExtractData data).accelX
  have haccelY := hword (deviceExtractData data).accelY
  have haccelZ := hword (deviceExtractData data).accelZ
  have htemp := hword (deviceExtractData data).temp
  have hgyroX := hword (deviceExtractData data).gyroX
  have hgyroY := hword (deviceExtractData data).gyroY
  have hgyroZ := hword (deviceExtractData data).gyroZ
  simp only [formatLine, printedSample, Sample.map, List.length_append, List.length_cons,
    List.length_nil]
  omega

/-! ### In bounds -/

theorem netlinkRun_ok (results : ForwardResults) {cd : ClientData} (h : PosInRange cd) :
    ∃ steps, netlinkRun results cd = .ok steps := by
  unfold netlinkRun
  by_cases hpos : cd.ringbufferpos = -1
  · rw [if_pos hpos]
    exact ⟨_, rfl⟩
  · rw [if_neg hpos]
    exact slotAt_ok h hpos _ _

theorem serverRun_ok (sk : Bool) {cd : ClientData} (h : PosInRange cd) :
    ∃ datagram, serverRun sk cd = .ok datagram := by
  unfold serverRun
  by_cases hpos : cd.ringbufferpos = -1
  · rw [if_pos hpos]
    exact ⟨_, rfl⟩
  · rw [if_neg hpos]
    exact slotAt_ok h hpos _ _

/-- Once the position is a slot, the sysfs read is in bounds too. -/
theorem ringbufferRead_ok (offset : Int) (count : Nat) {cd : ClientData} (h : PosInRange cd)
    (hne : cd.ringbufferpos ≠ -1) : ∃ r, ringbufferRead offset count cd = .ok r :=
  slotAt_ok h hne _ _

/-- The read of the sysfs file looks up the sentinel like any other position. -/
theorem ringbufferRead_sentinel {offset : Int} {count : Nat} {cd : ClientData}
    (h : cd.ringbufferpos = -1) : ringbufferRead offset count cd = .error (.index (-1)) := by
  unfold ringbufferRead
  rw [h]
  rfl

end Mpu6050
