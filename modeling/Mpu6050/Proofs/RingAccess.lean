/-
Where the ring is accessed outside its bounds, and where it is not.

Two accesses can go wrong.  The read of the sysfs file uses `ringbufferpos` without a look at
it, and the file is there before the first sample is.  And the handler uses `ringbufferpos`
again after every block read: a block of more than 28 bytes in the last slot has gone over it,
and the next use is of whatever number it left.

`KeepsIndex` says of the answers of the bus that they leave the index of a slot there.
`index_valid` is about every order in which the set-up and the operations may come.
-/
import Mpu6050.Driver.SetUp
import Mpu6050.Lib.Runs
import Mpu6050.Proofs.Finishing
import Mpu6050.Proofs.Consumers

namespace Mpu6050

open Memory Runs Steps

/-- The next `n` block reads that a loop makes, from number `i` on, each leave the index of a
slot in `ringbufferpos`. -/
def KeepsIndex (count : Int) (answers : Nat → BlockAnswer) : Sizes → Nat → Nat → Prop
  | _, _, 0 => True
  | z, i, n + 1 => z.Short count → ∀ bs, smbusReadI2cBlockData count (answers i) = .bytes bs →
      ∃ z', z.read bs = .ok z' ∧ KeepsIndex count answers z' (i + 1) n

/-- The condition on an operation: the sysfs file is not read at -1, and the handler, reading the
FIFO, does not come to lose its slot. -/
def InRing (m : Bytes) : MemoryOp → Prop
  | .sysfsRead _ _ => ringbufferposAt m ≠ -1
  | .handler nofifo _ bus => nofifo = 0 → ∀ z, (sizesAt m).claim = .ok z →
      ∀ n, KeepsIndex (deviceFifoCount bus.count) bus.answers z 0 n
  | _ => True

/-- The condition on a step. -/
def StepInRing (s : StagedState) : StagedEvent → Prop
  | .op op => InRing s.memory op
  | .init => True

/-- The event is a run of the handler. -/
def StagedEvent.isHandler : StagedEvent → Bool
  | .op (.handler _ _ _) => true
  | _ => false

/-! ### The handler keeps its slot -/

section

variable {bus : BusAnswers} {s : WqState} {m : Bytes}

/-- A handler under way that has its slot and keeps it. -/
structure HasSlot (bus : BusAnswers) (s : WqState) : Prop where
  mode : s.label ≠ .registers
  slot : ∃ i, currentSlot s.memory = .ok i
  keeps : s.label ≠ .cleanUp → (∀ exit, s.label ≠ .unlocked exit) → ∀ n,
    KeepsIndex (deviceFifoCount bus.count) bus.answers (sizesAt s.memory) s.reads n

/-- A read of a block that leaves the index of a slot can be stored. -/
theorem storeRead_of_read {bs : List U8} {z : Sizes} {i : Nat} {count : Int}
    {answers : Nat → BlockAnswer} (hread : smbusReadI2cBlockData count (answers i) = .bytes bs)
    (hz : (sizesAt m).read bs = .ok z) :
    ∃ m', storeRead m bs = .ok m' ∧ sizesAt m' = z := by
  rw [← storeRead_sizes m (block_length hread)] at hz
  cases hstore : storeRead m bs with
  | error stuck => rw [hstore] at hz; cases hz
  | ok m' =>
      rw [hstore] at hz
      cases hz
      exact ⟨m', rfl, rfl⟩

/-- **A step of a handler that keeps its slot is not stuck**, and the handler still does. -/
theorem hasSlot_step (h : HasSlot bus s) : ∃ s', wqStep 0 bus s = .ok s' ∧ HasSlot bus s' := by
  obtain ⟨i, hi⟩ := h.slot
  cases hlabel : s.label with
  | registers => exact absurd hlabel h.mode
  | fifoCount =>
      refine ⟨_, wqStep_fifoCount bus hlabel, ?_, ⟨i, hi⟩,
        fun _ _ => h.keeps (by simp [hlabel]) (by simp [hlabel])⟩
      show (if _ then WqLabel.cleanUp else .doLoop) ≠ _
      split <;> nofun
  | doLoop =>
      have hkeeps := h.keeps (by simp [hlabel]) (by simp [hlabel])
      rcases short_or_reached hi (deviceFifoCount bus.count) with hshort | hdone
      · cases hread : smbusReadI2cBlockData (deviceFifoCount bus.count) (bus.answers s.reads) with
        | fail e =>
            exact ⟨_, wqStep_fail hlabel hshort hread, nofun, ⟨i, hi⟩, fun hc => absurd rfl hc⟩
        | bytes bs =>
            obtain ⟨z, hz, -⟩ := hkeeps 1 hshort bs hread
            obtain ⟨m', hstore, hm'⟩ := storeRead_of_read hread hz
            have hstep := wqStep_bytes hlabel hshort hread
            rw [hstore] at hstep
            refine ⟨_, hstep, nofun, slot_of_read hstore, fun _ _ n => ?_⟩
            obtain ⟨z', hz', hrest⟩ := hkeeps (n + 1) hshort bs hread
            rw [hz] at hz'
            cases hz'
            show KeepsIndex _ _ (sizesAt m') _ _
            rw [hm']
            exact hrest
      · exact ⟨_, wqStep_leave hlabel hdone, nofun, ⟨i, hi⟩, fun _ _ => hkeeps⟩
  | doDispatch =>
      have hkeeps := h.keeps (by simp [hlabel]) (by simp [hlabel])
      rcases short_or_reached hi (deviceFifoCount bus.count) with hshort | hdone
      · exact ⟨_, wqStep_again hlabel hshort, nofun, ⟨i, hi⟩, fun _ _ => hkeeps⟩
      · exact ⟨_, wqStep_done hlabel hdone, nofun, ⟨i, hi⟩, fun _ hc => absurd rfl (hc _)⟩
  | cleanUp =>
      have hout : OutsideSlot i s.memory (storeInt s.memory (usedAddr i) 0) :=
        outsideSlot_storeInt (Nat.le_refl _) (by omega)
      refine ⟨_, wqStep_cleanUp hlabel hi, nofun, ⟨i, ?_⟩, fun _ hc => absurd rfl (hc _)⟩
      rw [currentSlot, hout.ringbufferposAt]
      exact hi
  | unlocked exit => exact ⟨s, wqStep_unlocked hlabel, h⟩

theorem storeRead_error {bs : List U8} {stuck : Stuck} (h : storeRead m bs = .error stuck) :
    ∃ i, stuck = .index i := by
  unfold storeRead at h
  rcases currentSlot_cases m with ⟨i, hi⟩ | hi
  · simp only [hi, ok_bind] at h
    rcases currentSlot_cases (store m (dataAddr i) bs) with ⟨j, hj⟩ | hj
    · simp only [hj, ok_bind] at h
      cases h
    · simp only [hj, error_bind] at h
      cases h
      exact ⟨_, rfl⟩
  · simp only [hi, error_bind] at h
    cases h
    exact ⟨_, rfl⟩

/-- **A handler that does not keep its slot comes to an access outside the ring.** -/
theorem lost_of_not_keeps {n : Nat} (hlabel : s.label = .doDispatch)
    (h : ¬KeepsIndex (deviceFifoCount bus.count) bus.answers (sizesAt s.memory) s.reads n) :
    ∃ n i, iter (wqStep 0 bus) n s = .error (.index i) := by
  induction n generalizing s with
  | zero => exact absurd trivial h
  | succ n ih =>
      obtain ⟨hshort, h⟩ := Classical.not_imp.mp h
      obtain ⟨bs, h⟩ := not_forall.mp h
      obtain ⟨hread, hrest⟩ := Classical.not_imp.mp h
      have hagain := wqStep_again hlabel hshort
      have hbytes := wqStep_bytes (s := { s with label := .doLoop }) rfl hshort hread
      cases hstore : storeRead s.memory bs with
      | error stuck =>
          obtain ⟨i, rfl⟩ := storeRead_error hstore
          rw [hstore] at hbytes
          exact ⟨2, i, (iter_succ hagain 1).trans (iter_error hbytes)⟩
      | ok m' =>
          rw [hstore] at hbytes
          have hz := sizes_read hread hstore
          obtain ⟨n', i, hi⟩ :=
            ih (s := { s with label := .doDispatch, memory := m', reads := s.reads + 1 }) rfl
              fun hc => hrest ⟨_, hz, hc⟩
          exact ⟨n' + 2, i,
            (iter_succ hagain (n' + 1)).trans ((iter_succ hbytes n').trans hi)⟩

/-- A handler under way in register mode. -/
structure ReadsRegisters (s : WqState) : Prop where
  label : s.label = .registers ∨ s.label = .doDispatch ∨ ∃ exit, s.label = .unlocked exit
  slot : ∃ i, currentSlot s.memory = .ok i

theorem readsRegisters_step {nofifo : Int} (hmode : nofifo ≠ 0) (h : ReadsRegisters s) :
    ∃ s', wqStep nofifo bus s = .ok s' ∧ ReadsRegisters s' := by
  obtain ⟨hlabel, i, hi⟩ := h
  rcases hlabel with hlabel | hlabel | ⟨exit, hlabel⟩
  · obtain ⟨m', hstore, hout, -⟩ := storeRegisters_ok hi (smbusRead_idem _ (bus.answers s.reads))
    refine ⟨_, wqStep_registers hmode hlabel hstore, Or.inr (Or.inl rfl), i, ?_⟩
    rw [currentSlot, hout.ringbufferposAt]
    exact hi
  · exact ⟨_, wqStep_dispatched hmode hlabel, Or.inr (Or.inr ⟨_, rfl⟩), i, hi⟩
  · exact ⟨s, wqStep_unlocked hlabel, Or.inr (Or.inr ⟨exit, hlabel⟩), i, hi⟩

/-- A run from a position in range has its next slot. -/
theorem nextSlot_of_range (hpos : PosInRange (clientAt m)) :
    ∃ k, ringbufferIndex (nextPos (ringbufferposAt m)) = .ok k := by
  obtain ⟨k, hk, -⟩ := ringbufferIndex_ok (nextPos_range hpos)
  exact ⟨k, hk⟩

/-- A handler that is in the ring by its answers has its slot, to begin with. -/
theorem hasSlot_start {now : UInt64} {k : Fin ringbufferSize} (hclaimed : Claimed now m k s)
    (hk : ringbufferIndex (nextPos (ringbufferposAt m)) = .ok k) (hlabel : s.label = .fifoCount)
    (hring : ∀ z, (sizesAt m).claim = .ok z →
      ∀ n, KeepsIndex (deviceFifoCount bus.count) bus.answers z 0 n) : HasSlot bus s := by
  refine ⟨by rw [hlabel]; nofun, ⟨k, hclaimed.slot⟩, fun _ _ n => ?_⟩
  rw [hclaimed.reads]
  exact hring _ (hclaimed.sizes hk) n

/-- **The handler, from a position in range, accesses outside the ring exactly when it does not
keep its slot.** -/
theorem handler_outside_iff {nofifo : Int} {now : UInt64} (hpos : PosInRange (clientAt m)) :
    ¬AccessesOutside m (.handler nofifo now bus) ↔ InRing m (.handler nofifo now bus) := by
  obtain ⟨k, hk⟩ := nextSlot_of_range hpos
  obtain ⟨s, hstart, hlabel, hclaimed⟩ := wqStart_claims nofifo now hk
  constructor
  · rintro hout rfl z hz n
    rw [hclaimed.sizes hk] at hz
    cases hz
    by_contra hkeeps
    refine hout (Or.inr ?_)
    rw [← hclaimed.reads] at hkeeps
    obtain ⟨n', i, hi⟩ := lost_of_not_keeps (s := { s with label := .doDispatch }) rfl hkeeps
    -- the loop is entered, since the slot holds less than the count
    have hshort : (sizesAt s.memory).Short (deviceFifoCount bus.count) := by
      cases n with
      | zero => exact absurd trivial hkeeps
      | succ n => exact (Classical.not_imp.mp hkeeps).1
    have hcount : ¬deviceFifoCount bus.count ≤ 0 := by
      obtain ⟨j, hj, hlt⟩ := short_iff_slot.mp hshort
      rw [hclaimed.slot] at hj
      cases hj
      rw [← entryAt_size, hclaimed.entry] at hlt
      exact Int.not_le.mpr hlt
    have hfirst := wqStep_fifoCount bus hlabel
    rw [if_neg hcount] at hfirst
    have hagain := wqStep_again (s := { s with label := .doDispatch }) rfl hshort
    cases n' with
    | zero => cases hi
    | succ n' =>
        rw [iter_succ hagain] at hi
        exact ⟨s, n' + 1, i, hstart, (iter_succ hfirst n').trans hi⟩
  · rintro hring (⟨i, hi⟩ | ⟨s', n, i, hstart', hi⟩)
    · rw [hstart] at hi
      cases hi
    · rw [hstart] at hstart'
      cases hstart'
      by_cases hmode : nofifo = 0
      · subst hmode
        obtain ⟨t, ht, -⟩ := iter_ok (fun s => @hasSlot_step bus s) n
          (hasSlot_start hclaimed hk hlabel (hring rfl))
        rw [ht] at hi
        cases hi
      · rw [if_neg hmode] at hlabel
        obtain ⟨t, ht, -⟩ := iter_ok (fun s => @readsRegisters_step bus s nofifo hmode) n
          ⟨Or.inl hlabel, k, hclaimed.slot⟩
        rw [ht] at hi
        cases hi

/-- After a run that keeps its slot the position is a slot. -/
theorem slot_of_handler {nofifo : Int} {now : UInt64} {t : WqState}
    (hring : InRing m (.handler nofifo now bus)) (hstart : wqStart nofifo now m = .ok s)
    (hrun : Settles (wqStep nofifo bus) s t) : ∃ i, currentSlot t.memory = .ok i := by
  obtain ⟨k, hk, -⟩ := bind_ok.mp hstart
  obtain ⟨s', hstart', hlabel, hclaimed⟩ := wqStart_claims nofifo now hk
  rw [hstart] at hstart'
  cases hstart'
  by_cases hmode : nofifo = 0
  · subst hmode
    exact (hrun.of_step (fun s => @hasSlot_step bus s)
      (hasSlot_start hclaimed hk hlabel (hring rfl))).slot
  · rw [if_neg hmode] at hlabel
    exact (hrun.of_step (fun s => @readsRegisters_step bus s nofifo hmode)
      ⟨Or.inl hlabel, k, hclaimed.slot⟩).slot

end

/-! ### The other operations -/

theorem ringbufferposAt_clearMemory (m : Bytes) :
    ringbufferposAt (clearMemory m) = ringbufferposAt m := by
  unfold clearMemory
  refine List.foldlRecOn (motive := fun m' => ringbufferposAt m' = ringbufferposAt m) _ _ rfl ?_
  intro m' ih i _
  have haddr := addr_eq i
  have hout : OutsideSlot i m' (storeInt m' (usedAddr i) 0) :=
    outsideSlot_storeInt (Nat.le_refl _) (by omega)
  rw [hout.ringbufferposAt]
  exact ih

/-- **What an operation accesses outside the ring**, from a position in range. -/
theorem outside_iff {m : Bytes} {op : MemoryOp} (hpos : PosInRange (clientAt m)) :
    ¬AccessesOutside m op ↔ InRing m op := by
  cases op with
  | handler nofifo now bus => exact handler_outside_iff hpos
  | clear => exact ⟨fun _ => trivial, fun _ h => h⟩
  | sysfsRead offset count =>
      constructor
      · intro h hsentinel
        exact h ⟨_, ringbufferRead_sentinel hsentinel⟩
      · rintro hne ⟨i, hi⟩
        obtain ⟨r, hr⟩ := ringbufferRead_ok offset count hpos hne
        rw [hr] at hi
        cases hi
  | netlink results =>
      refine ⟨fun _ => trivial, ?_⟩
      rintro - ⟨i, hi⟩
      obtain ⟨steps, hsteps⟩ := netlinkRun_ok results hpos
      rw [hsteps] at hi
      cases hi
  | server sk =>
      refine ⟨fun _ => trivial, ?_⟩
      rintro - ⟨i, hi⟩
      obtain ⟨datagram, hdatagram⟩ := serverRun_ok sk hpos
      rw [hdatagram] at hi
      cases hi

/-! ### The position along a run -/

theorem posInRange_iff {m : Bytes} : PosInRange (clientAt m) ↔
    -1 ≤ ringbufferposAt m ∧ ringbufferposAt m < ringbufferSize := Iff.rfl

/-- The position is in range, and at the sentinel exactly until the handler has run. -/
structure RingTracks (handled : Bool) (m : Bytes) : Prop where
  range : PosInRange (clientAt m)
  sentinel : ringbufferposAt m = -1 ↔ handled = false

theorem ringTracks_step {handled : Bool} {m m' : Bytes} {op : MemoryOp}
    (h : RingTracks handled m) (hring : InRing m op) (hstep : MemoryStep m op m') :
    RingTracks (handled || (StagedEvent.op op).isHandler) m' := by
  cases hstep with
  | @handler nofifo now bus s t exit hstart hrun hlabel =>
      obtain ⟨i, hi⟩ := slot_of_handler hring hstart hrun
      have hval := ringbufferIndex_val hi
      have hlt : i.val < 64 := i.isLt
      have hsize := ringbufferSize_eq
      refine ⟨posInRange_iff.mpr (by omega), ?_⟩
      · simp only [StagedEvent.isHandler, Bool.or_true]
        refine ⟨fun hc => ?_, fun hc => by cases hc⟩
        omega
  | clear =>
      have hpos := ringbufferposAt_clearMemory m
      generalize clearMemory m = m' at hpos
      simp only [StagedEvent.isHandler, Bool.or_false]
      refine ⟨?_, by rw [hpos]; exact h.sentinel⟩
      rw [posInRange_iff, hpos]
      exact h.range
  | sysfsRead | netlink | server =>
      simpa only [StagedEvent.isHandler, Bool.or_false] using h

theorem ringTracks_run {p : Params} {es : List StagedEvent} {s : StagedState}
    (hrun : Run (Guarded (StagedStep p) StepInRing) allocatedState es s) :
    RingTracks (es.any StagedEvent.isHandler) s.memory := by
  refine Run.invariant (P := fun es s => RingTracks (es.any StagedEvent.isHandler) s.memory)
    ?_ ?_ hrun
  · have hpos : ringbufferposAt probedMemory = -1 :=
      congrArg ClientData.ringbufferpos clientAt_probedMemory
    refine ⟨?_, by rw [show allocatedState.memory = probedMemory from rfl, hpos]; decide⟩
    rw [show allocatedState.memory = probedMemory from rfl, clientAt_probedMemory]
    decide
  · rintro es mid e s' hmid ⟨hring, hstep⟩
    rw [List.any_append, List.any_cons, List.any_nil, Bool.or_false]
    cases hstep with
    | init _ => simpa only [StagedEvent.isHandler, Bool.or_false] using hmid
    | op _ hop => exact ringTracks_step hmid hring hop

/--
**The ring index is valid in every run whose steps stay in the ring by what they are given.**
The position is in range, it is the sentinel exactly until the handler has run, and of the
operations that can come next those access outside the ring, and only those, that do not
meet the condition: a sysfs read at the sentinel, and a run of the handler whose blocks
leave something else than the index of a slot in `ringbufferpos`.
-/
theorem index_valid (p : Params) (es : List StagedEvent) (s : StagedState)
    (hrun : Run (Guarded (StagedStep p) StepInRing) allocatedState es s) :
    PosInRange (clientAt s.memory) ∧
    (ringbufferposAt s.memory = -1 ↔ ∀ e ∈ es, e.isHandler = false) ∧
    (∀ op, s.stage.Allows p op → (¬AccessesOutside s.memory op ↔ StepInRing s (.op op))) := by
  have htracks := ringTracks_run hrun
  refine ⟨htracks.range, ?_, fun op _ => outside_iff htracks.range⟩
  rw [htracks.sentinel, List.any_eq_false]
  simp

/-- A bus that answers every read of the registers in full. -/
def registersBus : BusAnswers :=
  { count := .word 0, answers := fun _ => .bytes (List.replicate 14 7) }

/-- Once the handler has run, a sysfs read is in bounds. -/
theorem index_valid_sampled :
    ∃ s, Run (Guarded (StagedStep pollingParams) StepInRing) allocatedState
        [.init, .init, .init, .op (.handler 1 1 registersBus)] s ∧
      ¬AccessesOutside s.memory (.sysfsRead 0 4096) := by
  obtain ⟨k, hk⟩ := nextSlot_of_range (m := probedMemory) (by
    rw [clientAt_probedMemory]
    decide)
  obtain ⟨s, hstart, hlabel, hclaimed⟩ := wqStart_claims 1 1 hk
  obtain ⟨t, hsettles, hunlocked, -⟩ :=
    settles_registers registersBus (show (1 : Int) ≠ 0 by decide) hlabel hclaimed.slot
  have hrun : Run (Guarded (StagedStep pollingParams) StepInRing) allocatedState
      [.init, .init, .init, .op (.handler 1 1 registersBus)] _ :=
    (((Run.single ⟨trivial, .init rfl⟩).snoc ⟨trivial, .init rfl⟩).snoc ⟨trivial, .init rfl⟩).snoc
      ⟨nofun, .op (by show Stage.rank _ ≤ Stage.rank _; decide)
        (.handler hstart hsettles hunlocked)⟩
  obtain ⟨-, hsentinel, hnext⟩ := index_valid pollingParams _ _ hrun
  refine ⟨_, hrun, (hnext (.sysfsRead 0 4096)
    (by show Stage.sysfs.rank ≤ Stage.trigger.rank; decide)).mpr fun hc => ?_⟩
  have hnone := hsentinel.mp hc (.op (.handler 1 1 registersBus)) (by simp)
  cases hnone

/-- The file is there, no sample has been taken, and reading it accesses `ringbuffer[-1]`. -/
theorem sysfsRead_before_sample :
    ∃ s, Run (StagedStep pollingParams) allocatedState [.init] s ∧
      s.stage.Allows pollingParams (.sysfsRead 0 4096) ∧
      ringbufferRead 0 4096 (clientAt s.memory) = .error (.index (-1)) := by
  refine ⟨_, Run.single (.init rfl), by show Stage.rank _ ≤ Stage.rank _; decide, ?_⟩
  show ringbufferRead 0 4096 (clientAt probedMemory) = _
  rw [clientAt_probedMemory]
  rfl

end Mpu6050
