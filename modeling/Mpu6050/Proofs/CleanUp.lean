/-
What a FIFO read that comes to nothing leaves for the consumers.

The handler moves `ringbufferpos` on and resets the slot there before it knows whether
there is anything to read, and `clean_up` only marks that slot unused: the position stays.
So the sample the consumers saw is no longer the one they look at, and if the ring has
wrapped, the sample the slot still held is gone.  A run that leaves through `clean_up` may
also have read blocks that overran its slot, and bytes 28 to 31 of such a block are the mark
of the slot after it.

`cleanUp_undisturbed` says when nothing is disturbed.  It is about every run that leaves
through `clean_up`, whatever it stored on the way.  Only of a run that has stored over
`ringbufferpos` itself, with a block of more than 28 bytes in the last slot, it does not say
the last word: such a run goes on at another slot.
-/
import Mpu6050.Proofs.Finishing
import Mpu6050.Proofs.Consumers

namespace Mpu6050

open Memory Steps

/-- The sample consumers see, at `ringbuffer[ringbufferpos]`. -/
def visible (cd : ClientData) : Option RingbufferEntry :=
  match ringbufferIndex cd.ringbufferpos with
  | .error _ => none
  | .ok k => if (cd.ringbuffer k).used then some (cd.ringbuffer k) else none

/-- What consumers see is not disturbed. -/
structure Undisturbed (before after : ClientData) : Prop where
  visible : ∀ entry, visible before = some entry → visible after = some entry
  others : ∀ k : Fin ringbufferSize, (before.ringbuffer k).used = true →
    (k.val : Int) ≠ before.ringbufferpos → after.ringbuffer k = before.ringbuffer k

/-- The block that an answer brings, none if the read fails. -/
def blockOf (count : Int) (answer : BlockAnswer) : List U8 :=
  match smbusReadI2cBlockData count answer with
  | .fail _ => []
  | .bytes bs => bs

/-- With these answers the handler gives up after `n` block reads: there is nothing to read, or
the last of them is the first that fails. -/
def GivesUp (bus : BusAnswers) : Nat → Prop
  | 0 => deviceFifoCount bus.count ≤ 0
  | n + 1 => 0 < deviceFifoCount bus.count ∧
      Fails (deviceFifoCount bus.count) (bus.answers n) ∧
      ∀ i < n, ¬Fails (deviceFifoCount bus.count) (bus.answers i)

/-- A mark after the first `n` block reads into the slot before it: what comes after 28 bytes
goes over it. -/
def marked (bus : BusAnswers) (mark : Int) : Nat → Int
  | 0 => mark
  | n + 1 =>
    overlayInt (marked bus mark n)
      ((blockOf (deviceFifoCount bus.count) (bus.answers n)).drop 28)

/-- The first `n` block reads do not reach `ringbufferpos`: the slot is not the last, or none of
them brings more than 28 bytes. -/
def KeepsPos (bus : BusAnswers) (m : Bytes) (n : Nat) : Prop :=
  nextPos (ringbufferposAt m) + 1 = ringbufferSize →
    ∀ i < n, (blockOf (deviceFifoCount bus.count) (bus.answers i)).length ≤ 28

/-- There is nothing to disturb: no sample is visible, the next slot is unused, and the slot
after it does not lose its mark to the first `n` block reads. -/
structure Harmless (bus : BusAnswers) (m : Bytes) (n : Nat) : Prop where
  visible : visible (clientAt m) = none
  next : ∀ k : Fin ringbufferSize, (k.val : Int) = nextPos (ringbufferposAt m) →
    usedAt m k = 0
  marks : ∀ j : Fin ringbufferSize, (j.val : Int) = nextPos (ringbufferposAt m) + 1 →
    usedAt m j ≠ 0 → marked bus (usedAt m j) n ≠ 0

theorem nextPos_ne (pos : Int) : nextPos pos ≠ pos := by
  have := ringbufferSize_eq
  unfold nextPos
  split <;> omega

theorem visible_of_unused {cd : ClientData} {k : Fin ringbufferSize}
    (hk : ringbufferIndex cd.ringbufferpos = .ok k) (hunused : (cd.ringbuffer k).used = false) :
    visible cd = none := by
  unfold visible
  simp only [hk, hunused]
  rfl

theorem visible_of_slot {m : Bytes} {k : Fin ringbufferSize} (hk : currentSlot m = .ok k)
    (hunused : usedAt m k = 0) : visible (clientAt m) = none := by
  refine visible_of_unused hk ?_
  show (entryAt m k).used = false
  rw [entryAt_used, hunused]
  rfl

theorem blockOf_fail {count : Int} {answer : BlockAnswer} {e : Errno}
    (hread : smbusReadI2cBlockData count answer = .fail e) : blockOf count answer = [] := by
  unfold blockOf
  rw [hread]

theorem blockOf_bytes {count : Int} {answer : BlockAnswer} {bs : List U8}
    (hread : smbusReadI2cBlockData count answer = .bytes bs) : blockOf count answer = bs := by
  unfold blockOf
  rw [hread]

/-! ### A run on its way to `clean_up` -/

section

variable {bus : BusAnswers} {now : UInt64} {m : Bytes} {k : Fin ringbufferSize} {s s' t : WqState}

/-- A block read that leaves the position alone stays with its slot. -/
theorem storeRead_slot {memory memory' : Bytes} {bs : List U8} (hslot : currentSlot memory = .ok k)
    (hlen : bs.length ≤ 32) (hkeeps : k.val + 1 = ringbufferSize → bs.length ≤ 28)
    (hstore : storeRead memory bs = .ok memory') :
    currentSlot memory' = .ok k ∧ OutsideSlot k (store memory (dataAddr k) bs) memory' := by
  have haddr := addr_eq k
  have hpos : ringbufferposAt (store memory (dataAddr k) bs) = ringbufferposAt memory := by
    rw [ringbufferposAt_storeBlock memory k hlen]
    split
    next hlast =>
      rw [List.drop_of_length_le (hkeeps hlast), overlayInt_nil]
      exact wrapInt_loadInt ..
    next => rfl
  have hslot' : currentSlot (store memory (dataAddr k) bs) = .ok k := by
    rw [currentSlot, hpos]
    exact hslot
  rw [storeRead_eq hslot hslot'] at hstore
  cases hstore
  have hout : OutsideSlot k (store memory (dataAddr k) bs) (storeInt
      (store memory (dataAddr k) bs) (sizeAddr k)
      (sizeAt (store memory (dataAddr k) bs) k + bs.length)) :=
    outsideSlot_storeInt (by omega) (by omega)
  refine ⟨?_, hout⟩
  rw [currentSlot, hout.ringbufferposAt, hpos]
  exact hslot

/-- The reads that a run under way has made. -/
structure ReadsMade (bus : BusAnswers) (s : WqState) : Prop where
  mode : s.label ≠ .registers
  none : s.label = .fifoCount → s.reads = 0
  succeeded : s.label = .doLoop ∨ s.label = .doDispatch → 0 < deviceFifoCount bus.count ∧
    ∀ i < s.reads, ¬Fails (deviceFifoCount bus.count) (bus.answers i)
  gaveUp : s.label = .cleanUp ∨ s.label = .unlocked .cleanUp → GivesUp bus s.reads

theorem readsMade_step (h : ReadsMade bus s) (hstep : wqStep 0 bus s = .ok s') :
    ReadsMade bus s' := by
  cases wqMove_of_step h.mode hstep with
  | empty hl hcount =>
      refine ⟨nofun, nofun, by simp, fun _ => ?_⟩
      show GivesUp bus s.reads
      rw [h.none hl]
      exact hcount
  | enter hl hcount =>
      refine ⟨nofun, nofun, fun _ => ⟨hcount, fun i hi => ?_⟩, by simp⟩
      replace hi : i < s.reads := hi
      rw [h.none hl] at hi
      cases hi
  | fail hl hlt hread =>
      obtain ⟨hcount, hbefore⟩ := h.succeeded (Or.inl hl)
      exact ⟨nofun, nofun, by simp, fun _ => ⟨hcount, ⟨_, hread⟩, hbefore⟩⟩
  | bytes hl hlt hread hstore =>
      obtain ⟨hcount, hbefore⟩ := h.succeeded (Or.inl hl)
      refine ⟨nofun, nofun, fun _ => ⟨hcount, fun i hi => ?_⟩, by simp⟩
      rcases Nat.lt_succ_iff_lt_or_eq.mp hi with hi | rfl
      · exact hbefore i hi
      · rintro ⟨e, he⟩
        rw [hread] at he
        cases he
  | leave hl => exact ⟨nofun, nofun, fun _ => h.succeeded (Or.inl hl), by simp⟩
  | again hl => exact ⟨nofun, nofun, fun _ => h.succeeded (Or.inr hl), by simp⟩
  | done hl => exact ⟨nofun, nofun, by simp, by simp⟩
  | cleanUp hl => exact ⟨nofun, nofun, by simp, fun _ => h.gaveUp (Or.inl hl)⟩
  | rest => exact h

/-- A run that leaves through `clean_up` has made the reads up to the first that fails. -/
theorem givesUp_of_cleanUp (hclaimed : Claimed now m k s) (hlabel : s.label = .fifoCount)
    (hrun : Settles (wqStep 0 bus) s t) (hclean : t.label = .unlocked .cleanUp) :
    GivesUp bus t.reads := by
  refine (hrun.invariant (P := ReadsMade bus) (fun _ _ => readsMade_step) ?_).gaveUp
    (Or.inr hclean)
  exact ⟨by simp [hlabel], fun _ => hclaimed.reads, by simp [hlabel], by simp [hlabel]⟩

/-- What holds of a run under way that has not stored over the position: it is at its slot, and
of the others only the next one may have lost or got its mark. -/
structure CleanRun (bus : BusAnswers) (m : Bytes) (k : Fin ringbufferSize) (s : WqState) :
    Prop where
  mode : s.label ≠ .registers
  slot : currentSlot s.memory = .ok k
  others : ∀ j, j ≠ k → j.val ≠ k.val + 1 → entryAt s.memory j = entryAt m j
  next : ∀ j, j.val = k.val + 1 → usedAt s.memory j = marked bus (usedAt m j) s.reads ∧
    { entryAt s.memory j with used := true } = { entryAt m j with used := true }
  released : s.label = .unlocked .cleanUp → usedAt s.memory k = 0

/-- **What one step keeps**, as long as the block it reads does not reach the position. -/
theorem cleanRun_step (h : CleanRun bus m k s)
    (hkeeps : k.val + 1 = ringbufferSize → ∀ i < s'.reads,
      (blockOf (deviceFifoCount bus.count) (bus.answers i)).length ≤ 28)
    (hstep : wqStep 0 bus s = .ok s') : CleanRun bus m k s' := by
  cases wqMove_of_step h.mode hstep with
  | empty hl | enter hl | leave hl | again hl | done hl =>
      exact ⟨nofun, h.slot, h.others, h.next, nofun⟩
  | @fail e hl hlt hread =>
      refine ⟨nofun, h.slot, h.others, fun j hj => ⟨?_, (h.next j hj).2⟩, nofun⟩
      show usedAt s.memory j = overlayInt _ _
      rw [blockOf_fail hread, List.drop_nil, overlayInt_nil, ← (h.next j hj).1]
      exact (wrapInt_loadInt ..).symm
  | @bytes bs memory hl hlt hread hstore =>
      have hlen : bs.length ≤ 32 := block_length hread
      have hblock := blockOf_bytes hread
      have hshort : k.val + 1 = ringbufferSize → bs.length ≤ 28 := by
        intro hlast
        rw [← hblock]
        exact hkeeps hlast s.reads (Nat.lt_succ_self _)
      obtain ⟨hslot, hout⟩ := storeRead_slot h.slot hlen hshort hstore
      refine ⟨nofun, hslot, fun j hne hnext => ?_, fun j hj => ?_, nofun⟩
      · rw [hout.entryAt hne, entryAt_storeBlock_of_ne hne hnext hlen]
        exact h.others j hne hnext
      · have hne : j ≠ k := by
          rintro rfl
          omega
        constructor
        · show usedAt memory j = overlayInt _ _
          rw [hout.usedAt hne, usedAt_storeBlock_next hj, hblock, (h.next j hj).1]
        · dsimp only
          rw [hout.entryAt hne, entryAt_storeBlock_next hj hlen]
          exact (h.next j hj).2
  | @cleanUp i hl hi =>
      rw [h.slot] at hi
      cases hi
      have haddr := addr_eq k
      have hout : OutsideSlot k s.memory (storeInt s.memory (usedAddr k) 0) :=
        outsideSlot_storeInt (Nat.le_refl _) (by omega)
      refine ⟨nofun, ?_, fun j hne hnext => ?_, fun j hj => ?_, fun _ => loadInt_storeInt ..⟩
      · rw [currentSlot, hout.ringbufferposAt]
        exact h.slot
      · rw [hout.entryAt hne]
        exact h.others j hne hnext
      · have hne : j ≠ k := by
          rintro rfl
          omega
        rw [hout.usedAt hne, hout.entryAt hne]
        exact h.next j hj
  | rest hl => exact h

/-- The reads made are counted up. -/
theorem reads_le (hmode : s.label ≠ .registers) (hstep : wqStep 0 bus s = .ok s') :
    s.reads ≤ s'.reads := by
  cases wqMove_of_step hmode hstep with
  | fail | bytes => exact Nat.le_succ _
  | empty | enter | leave | again | done | cleanUp | rest => exact Nat.le_refl _

theorem cleanRun_start (h : Claimed now m k s) (hlabel : s.label = .fifoCount) :
    CleanRun bus m k s := by
  have hring : ∀ j, j ≠ k → entryAt s.memory j = entryAt m j := by
    intro j hne
    have hj := congrArg (ClientData.ringbuffer · j) h.client
    exact hj.trans (Function.update_of_ne hne ..)
  refine ⟨by rw [hlabel]; nofun, h.slot, fun j hne _ => hring j hne, fun j hj => ?_,
    fun hc => by rw [hlabel] at hc; cases hc⟩
  have hne : j ≠ k := by
    rintro rfl
    omega
  rw [h.reads, hring j hne]
  exact ⟨h.used j hne, rfl⟩

/-- **A run that keeps the position** has left everything but its slot and a mark alone. -/
theorem cleanRun_settles (hclaimed : Claimed now m k s) (hlabel : s.label = .fifoCount)
    (hrun : Settles (wqStep 0 bus) s t)
    (hkeeps : k.val + 1 = ringbufferSize → ∀ i < t.reads,
      (blockOf (deviceFifoCount bus.count) (bus.answers i)).length ≤ 28) : CleanRun bus m k t := by
  refine (hrun.invariant (P := fun s => s.label ≠ .registers ∧
    ((k.val + 1 = ringbufferSize → ∀ i < s.reads,
      (blockOf (deviceFifoCount bus.count) (bus.answers i)).length ≤ 28) → CleanRun bus m k s))
    ?_ ⟨by rw [hlabel]; nofun, fun _ => cleanRun_start hclaimed hlabel⟩).2 hkeeps
  rintro s s' ⟨hmode, ih⟩ hstep
  refine ⟨by cases wqMove_of_step hmode hstep <;> simp_all, fun hkeeps => ?_⟩
  have hle := reads_le hmode hstep
  exact cleanRun_step (ih fun hlast i hi => hkeeps hlast i (by omega)) hkeeps hstep

theorem wqStart_label {nofifo : Int} (hstart : wqStart nofifo now m = .ok s) :
    s.label = if nofifo = 0 then .fifoCount else .registers := by
  obtain ⟨k, -, hpure⟩ := bind_ok.mp hstart
  cases hpure
  rfl

/-- Whatever a run stored on its way, `clean_up` leaves nothing visible. -/
theorem invisible_of_cleanUp (hstart : wqStart 0 now m = .ok s)
    (hrun : Settles (wqStep 0 bus) s t) (hclean : t.label = .unlocked .cleanUp) :
    visible (clientAt t.memory) = none := by
  have hlabel := wqStart_label hstart
  have hinv := hrun.invariant (P := fun s => s.label ≠ .registers ∧
    (s.label = .unlocked .cleanUp → visible (clientAt s.memory) = none)) ?_
    ⟨by rw [hlabel]; nofun, fun hc => by rw [hlabel] at hc; cases hc⟩
  · exact hinv.2 hclean
  rintro s s' ⟨hmode, ih⟩ hstep
  cases wqMove_of_step hmode hstep with
  | empty | enter | fail | bytes | leave | again | done => exact ⟨nofun, nofun⟩
  | rest => exact ⟨hmode, ih⟩
  | @cleanUp i hl hi =>
      refine ⟨nofun, fun _ => ?_⟩
      have hout : OutsideSlot i s.memory (storeInt s.memory (usedAddr i) 0) :=
        outsideSlot_storeInt (Nat.le_refl _) (by omega)
      refine visible_of_slot (k := i) ?_ (loadInt_storeInt ..)
      rw [currentSlot, hout.ringbufferposAt]
      exact hi

theorem entry_used_iff (m : Bytes) (k : Fin ringbufferSize) :
    (entryAt m k).used = true ↔ usedAt m k ≠ 0 := by
  rw [entryAt_used]
  exact decide_eq_true_iff

/-- With nothing visible before it, a run that keeps the position disturbs nothing exactly when
it is harmless to the next two slots. -/
theorem undisturbed_iff_harmless (hk : (k.val : Int) = nextPos (ringbufferposAt m))
    (hrun : CleanRun bus m k t) (hclean : t.label = .unlocked .cleanUp)
    (hvisible : visible (clientAt m) = none) :
    Undisturbed (clientAt m) (clientAt t.memory) ↔ Harmless bus m t.reads := by
  have hreleased := hrun.released hclean
  constructor
  · intro h
    refine ⟨hvisible, fun k' hk' => ?_, fun j hj hused => ?_⟩
    · obtain rfl : k' = k := Fin.ext (by omega)
      by_contra hused
      replace hused : usedAt m k' ≠ 0 := hused
      have hkept : entryAt t.memory k' = entryAt m k' := h.others k'
        ((entry_used_iff m k').mpr hused) (by rw [hk]; exact nextPos_ne _)
      rw [← entry_used_iff, ← hkept, entry_used_iff] at hused
      exact hused hreleased
    · have hnext : j.val = k.val + 1 := by omega
      have hpos : (j.val : Int) ≠ ringbufferposAt m := by
        have := ringbufferSize_eq
        have hlt : j.val < 64 := j.isLt
        unfold nextPos at hj
        split at hj <;> omega
      have hkept : entryAt t.memory j = entryAt m j :=
        h.others j ((entry_used_iff m j).mpr hused) hpos
      rw [← (hrun.next j hnext).1, ← entry_used_iff, hkept, entry_used_iff]
      exact hused
  · intro h
    refine ⟨fun e he => ?_, fun j hused _ => ?_⟩
    · rw [hvisible] at he
      cases he
    show entryAt t.memory j = entryAt m j
    replace hused : usedAt m j ≠ 0 := (entry_used_iff m j).mp hused
    have hne : j ≠ k := by
      rintro rfl
      exact hused (h.next j hk)
    by_cases hnext : j.val = k.val + 1
    · obtain ⟨hmark, hrest⟩ := hrun.next j hnext
      have hmarked := h.marks j (by omega) hused
      rw [← hmark] at hmarked
      have hbefore : entryAt m j = { entryAt m j with used := true } := by
        rw [← (entry_used_iff m j).mpr hused]
      have hafter : entryAt t.memory j = { entryAt t.memory j with used := true } := by
        rw [← (entry_used_iff t.memory j).mpr hmarked]
      rw [hbefore, hafter, hrest]
    · exact hrun.others j hne hnext

end

/--
**What a run that leaves through `clean_up` disturbs.**  It has made the reads up to the first
that fails, or none.  With these it disturbs nothing if it is harmless and keeps the position.
For nothing to be disturbed no sample may be visible before it, and a run that keeps the
position must be harmless.
-/
theorem cleanUp_undisturbed {bus : BusAnswers} {now : UInt64} {m : Bytes} {s t : WqState}
    (hstart : wqStart 0 now m = .ok s) (hrun : Settles (wqStep 0 bus) s t)
    (hclean : t.label = .unlocked .cleanUp) :
    ∃ n, GivesUp bus n ∧
      (KeepsPos bus m n ∧ Harmless bus m n → Undisturbed (clientAt m) (clientAt t.memory)) ∧
      (Undisturbed (clientAt m) (clientAt t.memory) →
        visible (clientAt m) = none ∧ (KeepsPos bus m n → Harmless bus m n)) := by
  obtain ⟨k, hk, -⟩ := bind_ok.mp hstart
  have hval := ringbufferIndex_val hk
  obtain ⟨s', hstart', hlabel, hclaimed⟩ := wqStart_claims 0 now hk
  rw [hstart] at hstart'
  cases hstart'
  have hsettled : KeepsPos bus m t.reads → CleanRun bus m k t := fun hkeeps =>
    cleanRun_settles hclaimed hlabel hrun fun hlast => hkeeps (by
      have := ringbufferSize_eq
      omega)
  refine ⟨t.reads, givesUp_of_cleanUp hclaimed hlabel hrun hclean, ?_, ?_⟩
  · rintro ⟨hkeeps, hharmless⟩
    exact (undisturbed_iff_harmless hval (hsettled hkeeps) hclean hharmless.visible).mpr hharmless
  · intro h
    have hinvisible := invisible_of_cleanUp hstart hrun hclean
    have hvisible : visible (clientAt m) = none := by
      cases hbefore : visible (clientAt m) with
      | none => rfl
      | some e =>
          rw [h.visible e hbefore] at hinvisible
          cases hinvisible
    exact ⟨hvisible, fun hkeeps =>
      (undisturbed_iff_harmless hval (hsettled hkeeps) hclean hvisible).mp h⟩

/-- A FIFO with one dataset. -/
def fullBus : BusAnswers := { count := .word 14, answers := fun _ => .bytes (List.replicate 14 7) }

/-- A FIFO whose count cannot be read. -/
def failedBus : BusAnswers := { count := .fail eio, answers := fun _ => .fail eio }

/-- On a ring without samples there is nothing to disturb. -/
theorem undisturbed_probed :
    ∃ s t, wqStart 0 2 probedMemory = .ok s ∧ Settles (wqStep 0 failedBus) s t ∧
      t.label = .unlocked .cleanUp ∧ Undisturbed (clientAt probedMemory) (clientAt t.memory) := by
  have hpos : ringbufferposAt probedMemory = -1 :=
    congrArg ClientData.ringbufferpos clientAt_probedMemory
  have hunused : ∀ k, usedAt probedMemory k = 0 := by
    intro k
    by_contra hused
    have hentry : (entryAt probedMemory k).used = true := (entry_used_iff probedMemory k).mpr hused
    rw [show entryAt probedMemory k = zeroEntry from
      congrArg (ClientData.ringbuffer · k) clientAt_probedMemory] at hentry
    cases hentry
  obtain ⟨s, t, hstart, hrun, hclean, -⟩ := @settles_empty failedBus 2 probedMemory 0
    (by rw [hpos]; rfl) (by decide)
  obtain ⟨n, -, henough, -⟩ := cleanUp_undisturbed hstart hrun hclean
  refine ⟨s, t, hstart, hrun, hclean, henough ⟨?_, ?_⟩⟩
  · intro hlast
    rw [hpos] at hlast
    cases hlast
  · refine ⟨?_, fun k _ => hunused k, fun j _ hused => absurd (hunused j) hused⟩
    rw [clientAt_probedMemory]
    rfl

/-- After one sample, a count that cannot be read takes it from the consumers. -/
theorem failedFifo_disturbs :
    ∃ s t exit s' t', wqStart 0 1 probedMemory = .ok s ∧ Settles (wqStep 0 fullBus) s t ∧
      t.label = .unlocked exit ∧ wqStart 0 2 t.memory = .ok s' ∧
      Settles (wqStep 0 failedBus) s' t' ∧ t'.label = .unlocked .cleanUp ∧
      ¬Undisturbed (clientAt t.memory) (clientAt t'.memory) := by
  have hread : ∃ cd ts, wqReadHandler 0 (fullBus.work 1 1) (clientAt probedMemory) = .ok (cd, ts) ∧
      cd.ringbufferpos = 0 ∧ ∃ entry, visible cd = some entry := by
    rw [clientAt_probedMemory]
    exact ⟨_, _, rfl, rfl, _, rfl⟩
  obtain ⟨cd, ts, hread, hpos, entry, hvisible⟩ := hread
  obtain ⟨s, t, exit, hstart, hrun, hunlocked, -, rfl⟩ := wqReadHandler_inMemory hread
  replace hpos : ringbufferposAt t.memory = 0 := hpos
  obtain ⟨s', t', hstart', hrun', hclean, -⟩ := @settles_empty failedBus 2 t.memory 1
    (by rw [hpos]; rfl) (by decide)
  refine ⟨s, t, exit, s', t', hstart, hrun, hunlocked, hstart', hrun', hclean, fun h => ?_⟩
  have hafter := h.visible entry hvisible
  rw [invisible_of_cleanUp hstart' hrun' hclean] at hafter
  cases hafter

end Mpu6050
