/-
When the handler finishes.

In FIFO mode the handler goes round the loop until `size` reaches the count or a read fails.
Nothing makes a read bring anything: the count is narrowed to a `u8` before it is used as a
request length, so for a count divisible by 256 every read asks for no byte at all, and the
bus may also answer a read with none.  Such a run goes on for ever with `sync_lock` held.

A block read that overruns its slot does not end the loop either.  Its bytes 16 to 19 go
over the `size` the loop looks at, and from the last slot those after 28 go over
`ringbufferpos`, so that the loop may find itself at another slot, or at none.  `EndsIn`
follows both; of the memory it needs the position and the sizes only.
-/
import Mpu6050.Proofs.WqMemory

namespace Mpu6050

open Memory Steps

/-- A run of the handler in FIFO mode makes finitely many reads, comes to one of its two exits
and has released `sync_lock`. -/
def Finishes (bus : BusAnswers) (now : UInt64) (m : Bytes) : Prop :=
  ∃ s t exit, wqStart 0 now m = .ok s ∧ Settles (wqStep 0 bus) s t ∧
    t.label = .unlocked exit ∧ t.syncLock = false

/-- A block read that fails. -/
def Fails (count : Int) (answer : BlockAnswer) : Prop :=
  ∃ e, smbusReadI2cBlockData count answer = .fail e

/-- With these sizes, the next `n` reads, from number `i` on, bring blocks, after each of which
`ringbufferpos` names a slot; and then the count is reached or a read fails. -/
def EndsIn (count : Int) (answers : Nat → BlockAnswer) : Sizes → Nat → Nat → Prop
  | z, i, 0 => z.Reached count ∨ Fails count (answers i)
  | z, i, n + 1 => ∃ bs z', smbusReadI2cBlockData count (answers i) = .bytes bs ∧
      z.read bs = .ok z' ∧ EndsIn count answers z' (i + 1) n

/-- The answers come to an end. -/
def Ends (count : Int) (answers : Nat → BlockAnswer) (z : Sizes) (i : Nat) : Prop :=
  ∃ n, EndsIn count answers z i n

section

variable {count : Int} {answers : Nat → BlockAnswer} {z z' : Sizes} {i : Nat} {bs : List U8}

theorem ends_of_reached (h : z.Reached count) : Ends count answers z i := ⟨0, Or.inl h⟩

theorem ends_of_fails (h : Fails count (answers i)) : Ends count answers z i := ⟨0, Or.inr h⟩

/-- A read that brings a block leaves the question to the reads after it. -/
theorem ends_bytes (hshort : z.Short count)
    (hread : smbusReadI2cBlockData count (answers i) = .bytes bs) :
    Ends count answers z i ↔ ∃ z', z.read bs = .ok z' ∧ Ends count answers z' (i + 1) := by
  constructor
  · rintro ⟨n, hn⟩
    cases n with
    | zero =>
        rcases hn with hreached | ⟨e, he⟩
        · exact absurd hshort (Sizes.not_short hreached)
        · rw [hread] at he
          cases he
    | succ n =>
        obtain ⟨bs', z', hread', hz', hrest⟩ := hn
        rw [hread] at hread'
        cases hread'
        exact ⟨z', hz', n, hrest⟩
  · rintro ⟨z', hz', n, hrest⟩
    exact ⟨n + 1, bs, z', hread, hz', hrest⟩

/-- A block as the bus delivers it is no longer than a block read may be. -/
theorem block_length (hread : smbusReadI2cBlockData count (answers i) = .bytes bs) :
    bs.length ≤ 32 :=
  Nat.le_trans (length_le_blockLength hread) (Nat.min_le_right _ _)

/-- The sizes that a read leaves. -/
theorem sizes_read {m m' : Bytes}
    (hread : smbusReadI2cBlockData count (answers i) = .bytes bs)
    (hstore : storeRead m bs = .ok m') : (sizesAt m).read bs = .ok (sizesAt m') := by
  rw [← storeRead_sizes m (block_length hread), hstore]
  rfl

end

/-! ### Into the loop and round it -/

section

variable {bus : BusAnswers} {s : WqState}

/-- The slot of a run that is not stuck. -/
theorem slot_of_read {m m' : Bytes} {bs : List U8} (hstore : storeRead m bs = .ok m') :
    ∃ i, currentSlot m' = .ok i := by
  obtain ⟨i, hi, hrest⟩ := bind_ok.mp hstore
  obtain ⟨j, hj, hpure⟩ := bind_ok.mp hrest
  cases hpure
  have haddr := addr_eq j
  refine ⟨j, ?_⟩
  rw [currentSlot, ringbufferposAt, loadInt_storeInt_of_disjoint (by omega)]
  exact hj

/-- **On answers that come to an end the machine settles**, with the lock released. -/
theorem settles_of_ends {n : Nat} {k : Fin ringbufferSize} (hlabel : s.label = .doDispatch)
    (hslot : currentSlot s.memory = .ok k)
    (hends : EndsIn (deviceFifoCount bus.count) bus.answers (sizesAt s.memory) s.reads n) :
    ∃ t exit, Settles (wqStep 0 bus) s t ∧ t.label = .unlocked exit ∧ t.syncLock = false := by
  induction n generalizing s k with
  | zero =>
      rcases short_or_reached hslot (deviceFifoCount bus.count) with hshort | hdone
      · have hagain := wqStep_again hlabel hshort
        obtain ⟨e, he⟩ := hends.resolve_left fun hc => Sizes.not_short hc hshort
        have hfail := wqStep_fail (s := { s with label := .doLoop }) rfl hshort he
        have hclean := @wqStep_cleanUp bus
          { s with label := .cleanUp, reads := s.reads + 1 } 0 k rfl hslot
        exact ⟨_, _, (settles_step hagain).mpr ((settles_step hfail).mpr
          ((settles_step hclean).mpr (settles_self (wqStep_unlocked rfl)))), rfl, rfl⟩
      · exact ⟨_, _, (settles_step (wqStep_done hlabel hdone)).mpr
          (settles_self (wqStep_unlocked rfl)), rfl, rfl⟩
  | succ n ih =>
      rcases short_or_reached hslot (deviceFifoCount bus.count) with hshort | hdone
      · have hagain := wqStep_again hlabel hshort
        obtain ⟨bs, z', hread, hz', hrest⟩ := hends
        have hbytes := wqStep_bytes (s := { s with label := .doLoop }) rfl hshort hread
        have hsizes := storeRead_sizes s.memory (block_length hread)
        rw [hz'] at hsizes
        cases hstore : storeRead s.memory bs with
        | error stuck =>
            rw [hstore] at hsizes
            cases hsizes
        | ok memory =>
            rw [hstore] at hsizes hbytes
            cases hsizes
            obtain ⟨j, hj⟩ := slot_of_read hstore
            obtain ⟨t, exit, hsettles, hend⟩ :=
              ih (s := { s with label := .doDispatch, memory, reads := s.reads + 1 }) rfl hj hrest
            exact ⟨t, exit, (settles_step hagain).mpr ((settles_step hbytes).mpr hsettles), hend⟩
      · exact ⟨_, _, (settles_step (wqStep_done hlabel hdone)).mpr
          (settles_self (wqStep_unlocked rfl)), rfl, rfl⟩

/-- The handler in the loop, on answers that do not come to an end. -/
def Endless (bus : BusAnswers) (s : WqState) : Prop :=
  (s.label = .doDispatch ∨ s.label = .doLoop) ∧
    ¬Ends (deviceFifoCount bus.count) bus.answers (sizesAt s.memory) s.reads

/-- **On answers that do not come to an end the handler stays in the loop.** -/
theorem endless_step {s' : WqState} (h : Endless bus s) (hstep : wqStep 0 bus s = .ok s') :
    Endless bus s' := by
  obtain ⟨hlabel, hends⟩ := h
  have hmode : s.label ≠ .registers := by
    rcases hlabel with h | h <;> simp [h]
  cases wqMove_of_step hmode hstep with
  | empty h | enter h | cleanUp h | rest h =>
      rcases hlabel with hl | hl <;> rw [h] at hl <;> cases hl
  | leave h hdone | done h hdone => exact absurd (ends_of_reached hdone) hends
  | fail h hlt hread => exact absurd (ends_of_fails ⟨_, hread⟩) hends
  | again h hlt => exact ⟨Or.inr rfl, hends⟩
  | bytes h hlt hread hstore =>
      exact ⟨Or.inl rfl, fun hc => hends ((ends_bytes hlt hread).mpr
        ⟨_, sizes_read hread hstore, hc⟩)⟩

theorem not_settles_of_endless {t : WqState} {exit : WqExit} (h : Endless bus s)
    (hsettles : Settles (wqStep 0 bus) s t) : t.label ≠ .unlocked exit := by
  intro hlabel
  have hendless := hsettles.invariant (P := Endless bus) (fun _ _ => endless_step) h
  rcases hendless.1 with hloop | hloop <;> rw [hlabel] at hloop <;> cases hloop

end

/-! ### A whole run -/

theorem sizesAt_eq (m : Bytes) : sizesAt m
    = { pos := (clientAt m).ringbufferpos, size := fun i => ((clientAt m).ringbuffer i).size } :=
  rfl

/-- The next slot, reset, as far as the sizes go. -/
theorem Claimed.sizes {now : UInt64} {m : Bytes} {k : Fin ringbufferSize} {s : WqState}
    (h : Claimed now m k s) (hk : ringbufferIndex (nextPos (ringbufferposAt m)) = .ok k) :
    (sizesAt m).claim = .ok (sizesAt s.memory) := by
  have hval := ringbufferIndex_val hk
  have hsize : (fun i => ((clientAt s.memory).ringbuffer i).size)
      = Function.update (sizeAt m) k 0 := by
    funext i
    rw [h.client]
    unfold ClientData.setEntry
    by_cases hik : i = k
    · rw [hik]
      simp only [Function.update_self]
    · simp only [Function.update_of_ne hik]
      rfl
  unfold Sizes.claim
  rw [sizesAt_eq s.memory, hsize, h.client, hval]
  simp only [show ringbufferIndex (nextPos (sizesAt m).pos) = .ok k from hk, ok_bind]
  rfl

/-- A run that finds nothing to read leaves through `clean_up`. -/
theorem settles_empty {bus : BusAnswers} (now : UInt64) {m : Bytes} {k : Fin ringbufferSize}
    (hk : ringbufferIndex (nextPos (ringbufferposAt m)) = .ok k)
    (hcount : deviceFifoCount bus.count ≤ 0) :
    ∃ s t, wqStart 0 now m = .ok s ∧ Settles (wqStep 0 bus) s t ∧
      t.label = .unlocked .cleanUp ∧ t.syncLock = false := by
  obtain ⟨s, hstart, hlabel, hclaimed⟩ := wqStart_claims 0 now hk
  have hfirst := wqStep_fifoCount bus hlabel
  rw [if_pos hcount] at hfirst
  have hclean := @wqStep_cleanUp bus { s with label := .cleanUp } 0 k rfl hclaimed.slot
  exact ⟨s, _, hstart, (settles_step hfirst).mpr
    ((settles_step hclean).mpr (settles_self (wqStep_unlocked rfl))), rfl, rfl⟩

/--
**In FIFO mode the handler finishes exactly when there is a next slot, and there is nothing to
read or the answers come to an end**: after finitely many blocks `size`, as they leave it, has
reached the count or a read fails.
-/
theorem handler_finishes_iff (bus : BusAnswers) (now : UInt64) (m : Bytes) :
    Finishes bus now m ↔ ∃ z, (sizesAt m).claim = .ok z ∧
      (deviceFifoCount bus.count ≤ 0 ∨
        ∃ n, EndsIn (deviceFifoCount bus.count) bus.answers z 0 n) := by
  cases hk : ringbufferIndex (nextPos (ringbufferposAt m)) with
  | error stuck =>
      constructor
      · rintro ⟨s, t, exit, hstart, -⟩
        unfold wqStart at hstart
        simp only [hk, error_bind] at hstart
        cases hstart
      · rintro ⟨z, hz, -⟩
        unfold Sizes.claim at hz
        simp only [show ringbufferIndex (nextPos (sizesAt m).pos) = .error stuck from hk,
          error_bind] at hz
        cases hz
  | ok k =>
      obtain ⟨s, hstart, hlabel, hclaimed⟩ := wqStart_claims 0 now hk
      have hz := hclaimed.sizes hk
      have hfirst := wqStep_fifoCount bus hlabel
      by_cases hcount : deviceFifoCount bus.count ≤ 0
      · obtain ⟨s', t, hempty⟩ := settles_empty now hk hcount
        exact ⟨fun _ => ⟨_, hz, Or.inl hcount⟩, fun _ => ⟨s', t, _, hempty⟩⟩
      · -- the loop entered for the first time is the loop entered from `do_dispatch`
        rw [if_neg hcount] at hfirst
        have hsize : sizeAt s.memory k = 0 := by
          rw [← entryAt_size, hclaimed.entry]
        have hshort : (sizesAt s.memory).Short (deviceFifoCount bus.count) :=
          short_iff_slot.mpr ⟨k, hclaimed.slot, by omega⟩
        have hagain := wqStep_again (s := { s with label := .doDispatch }) rfl hshort
        constructor
        · rintro ⟨s', t, exit, hstart', hsettles, hunlocked, -⟩
          rw [hstart] at hstart'
          cases hstart'
          refine ⟨_, hz, Or.inr ?_⟩
          by_contra hends
          rw [settles_step hfirst] at hsettles
          refine not_settles_of_endless (s := { s with label := .doLoop }) ⟨Or.inr rfl, ?_⟩
            hsettles hunlocked
          rw [hclaimed.reads]
          exact hends
        · rintro ⟨z, hz', hends⟩
          rw [hz] at hz'
          cases hz'
          obtain ⟨n, hn⟩ := hends.resolve_left hcount
          rw [← hclaimed.reads] at hn
          obtain ⟨t, exit, hsettles, hend⟩ :=
            settles_of_ends (s := { s with label := .doDispatch }) rfl hclaimed.slot hn
          rw [settles_step hagain] at hsettles
          exact ⟨s, t, exit, hstart, (settles_step hfirst).mpr hsettles, hend⟩

/-! ### Reads that are too short to overrun anything that matters -/

theorem Sizes.cover_short {z : Sizes} {k : Fin ringbufferSize} {bs : List U8}
    (hk : ringbufferIndex z.pos = .ok k) (hint : wrapInt (z.size k) = z.size k)
    (hlen : bs.length ≤ 16) : z.cover k bs = z := by
  have hval := ringbufferIndex_val hk
  have hlt : k.val < 64 := k.isLt
  unfold Sizes.cover
  rw [List.drop_of_length_le hlen, List.drop_of_length_le (Nat.le_trans hlen (by omega)),
    overlayInt_nil, overlayInt_nil, hint, wrapInt_of_range (by omega) (by omega), ite_self,
    Function.update_eq_self]

/-- A block of 16 bytes at most is added to `size`, and that is all the loop sees of it. -/
theorem Sizes.read_short {z : Sizes} {k : Fin ringbufferSize} {bs : List U8}
    (hk : ringbufferIndex z.pos = .ok k) (hint : wrapInt (z.size k) = z.size k)
    (hlen : bs.length ≤ 16) : z.read bs = .ok (z.set k (z.size k + bs.length)) := by
  have hcover := Sizes.cover_short hk hint hlen
  rw [Sizes.read_eq hk (by rwa [hcover]), hcover]

/-- A count of 256, of which every read asks for nothing. -/
def endlessBus : BusAnswers := { count := .word 256, answers := fun _ => .bytes [] }

theorem endlessBus_not_ends {k : Fin ringbufferSize} (n : Nat) :
    ∀ (z : Sizes) (i : Nat), ringbufferIndex z.pos = .ok k → z.size k = 0 →
      ¬EndsIn 256 endlessBus.answers z i n := by
  induction n with
  | zero =>
      rintro z i hk hzero (⟨k', hk', hle⟩ | ⟨e, he⟩)
      · rw [hk] at hk'
        cases hk'
        omega
      · cases he
  | succ n ih =>
      rintro z i hk hzero ⟨bs, z', hread, hz', hrest⟩
      cases hread
      have hint : wrapInt (z.size k) = z.size k := by
        rw [hzero]
        rfl
      rw [Sizes.read_short hk hint (Nat.zero_le _), hzero] at hz'
      cases hz'
      refine ih (z.set k (0 + ([] : List U8).length)) (i + 1) ?_ ?_ hrest
      · exact hk
      · exact Function.update_self ..

/-- The handler never comes back from it. -/
theorem endlessBus_never : ¬Finishes endlessBus 0 probedMemory := by
  have hcount : deviceFifoCount endlessBus.count = 256 := by decide
  rw [handler_finishes_iff, hcount]
  rintro ⟨z, hz, hle | ⟨n, hn⟩⟩
  · omega
  · obtain ⟨k, hk, hpure⟩ := bind_ok.mp hz
    cases hpure
    exact endlessBus_not_ends n _ 0 hk (Function.update_self ..) hn

end Mpu6050
