/-
How long `sync_lock` is held.

In FIFO mode the handler may keep the lock for ever.  With `nofifo` nobody does: there is no
loop but the one over the slots, and no way out that forgets the lock.  `Place.fuel` counts
the accesses that a section can still make, every access lowers it (`fuel_access`), and until
none is left the thread can always go on (`access_exists`).  The one exception is a sysfs read
before the first sample: it looks up the sentinel.

`lock_given_back` puts the two together.  While a thread has the lock, nothing but its own
accesses happens to the ring, and no more than 65 of them.
-/
import Mpu6050.Proofs.Locking
import Mpu6050.Proofs.Freshness

namespace Mpu6050

open Runs Sections

/-- What the handler still does, with `nofifo`. -/
@[simp] def HandlerPc.fuel : HandlerPc → Nat
  | .increment => 23
  | .wrap => 22
  | .setUsed => 21
  | .setSize => 20
  | .setTimestamp => 19
  | .registers => 18
  | .store _ rest => rest.length + 3
  | .assignSize _ => 2
  | .doDispatch | .cleanUp => 1
  | .addSize _ | .fifoCount | .doLoop => 0

/-- What a consumer still does. -/
@[simp] def ConsumerPc.fuel : ConsumerPc → Nat
  | .sentinel => 18
  | .testUsed => 17
  | .testAgain _ => 16
  | .load _ bytes => 15 - bytes.length

/-- How many accesses a thread can still make before `mutex_unlock`. -/
@[simp] def Place.fuel : Place → Nat
  | .handler t => t.pc.fuel
  | .clear i => 65 - i
  | .consumer _ pc => pc.fuel
  | .outside | .leaving => 0

/-- A sysfs read that is about to look up the sentinel. -/
def Place.AtSentinel (place : Place) (cd : ClientData) : Prop :=
  ∃ offset count, place = .consumer (.sysfsRead offset count) .testUsed ∧ cd.ringbufferpos = -1

/-! ### A block of registers fits its slot -/

theorem readRegisters_not_store {work : ReadWork} {entry : RingbufferEntry} {n : Nat} :
    readRegisters work entry ≠ .error (.store n) := by
  intro h
  unfold readRegisters at h
  cases hanswers : work.answers with
  | nil => rw [hanswers] at h; cases h
  | cons answer rest =>
      cases hread : smbusReadI2cBlockData deviceBlockLength answer with
      | fail e => simp only [hanswers, hread] at h; cases h
      | bytes bs =>
          have hshort : bs.length ≤ ringbufferDataSize := length_le_blockLength hread
          simp only [hanswers, hread, storeBlock_ok hshort] at h
          cases h

section

variable {nofifo : Int} {cd₀ cd cd' : ClientData} {old entry : RingbufferEntry}
  {k : Fin ringbufferSize}

/-- A block that is still being stored fits. -/
theorem answered_fits {bs : List U8} {data : Data}
    {f : List BlockAnswer → Data → Except Stuck (RingbufferEntry × Transfers)}
    (hmode : nofifo ≠ 0)
    (h : Answered nofifo old fun answers => storeBlock data bs >>= f answers) :
    bs.length ≤ ringbufferDataSize := by
  by_contra hlong
  obtain ⟨now, count, answers, hread⟩ := h
  have hread := hread []
  rw [storeBlock_error hlong, readEntry, if_neg hmode] at hread
  exact readRegisters_not_store hread

/-! ### Every access lowers the fuel -/

theorem fuel_handlerAccess {t : HandlerThread} {given : Given} {place : Place} (hmode : nofifo ≠ 0)
    (h : HandlerAt nofifo cd₀ cd t) (hstep : handlerAccess nofifo given cd t = .ok (cd', place)) :
    place.fuel < t.pc.fuel := by
  cases h with
  | increment | wrap =>
      cases hstep
      simp
  | setUsed =>
      obtain ⟨cd', -, hpure⟩ := bind_ok.mp hstep
      cases hpure
      simp
  | inSlot hslot hentry =>
      cases hentry with
      | fifoCount hc | doLoop hc | addSize hc => exact absurd hc hmode
      | setSize =>
          obtain ⟨cd', -, hpure⟩ := bind_ok.mp hstep
          cases hpure
          simp
      | setTimestamp =>
          obtain ⟨cd', -, hpure⟩ := bind_ok.mp hstep
          rw [if_neg hmode] at hpure
          cases hpure
          simp
      | assignSize | cleanUp =>
          obtain ⟨cd', -, hpure⟩ := bind_ok.mp hstep
          cases hpure
          exact Nat.lt_succ_self _
      | registers =>
          simp only [handlerAccess] at hstep
          cases hanswer : smbusReadI2cBlockData deviceBlockLength given.answer with
          | fail e =>
              simp only [hanswer] at hstep
              cases hstep
              simp
          | bytes bs =>
              have hshort : bs.length ≤ 14 := length_le_blockLength hanswer
              simp only [hanswer] at hstep
              cases hstep
              show bs.length + 3 < 18
              omega
      | @store n _ _ _ stored rest =>
          cases rest with
          | nil =>
              simp only [handlerAccess, if_neg hmode] at hstep
              cases hstep
              simp
          | cons b rest =>
              obtain ⟨i, -, hrest⟩ := bind_ok.mp hstep
              obtain ⟨entry', -, hpure⟩ := bind_ok.mp hrest
              cases hpure
              show rest.length + 3 < rest.length + 1 + 3
              omega
      | doDispatch =>
          obtain ⟨i, -, hrest⟩ := bind_ok.mp hstep
          rw [if_neg fun hc => hmode hc.1] at hrest
          cases hrest
          exact Nat.lt_succ_self _

theorem fuel_clearAccess (cd : ClientData) (i : Nat) (hi : i ≤ ringbufferSize) :
    (clearAccess cd i).2.fuel < (Place.clear i).fuel := by
  have hi : i ≤ 64 := hi
  unfold clearAccess
  by_cases hlt : i < ringbufferSize
  · rw [dif_pos hlt]
    show 65 - (i + 1) < 65 - i
    omega
  · rw [dif_neg hlt]
    show 0 < 65 - i
    omega

theorem fuel_consumerAccess {c : Consumer} {pc : ConsumerPc} {place : Place}
    {emitted : List Emission} (h : ConsumerAt cd c pc)
    (hstep : consumerAccess c cd pc = .ok (place, emitted)) : place.fuel < pc.fuel := by
  cases h with
  | sentinel =>
      cases hstep
      split <;> simp
  | testUsed =>
      obtain ⟨k, -, hpure⟩ := bind_ok.mp hstep
      cases hpure
      split
      · simp
      · cases c <;> simp [Consumer.found]
  | testAgain =>
      obtain ⟨k, -, hpure⟩ := bind_ok.mp hstep
      cases hpure
      split <;> simp
  | @load _ k hk hused bytes hbytes =>
      obtain ⟨k', -, hrest⟩ := bind_ok.mp hstep
      have hlen : bytes.length ≤ 14 := by
        rw [hbytes, List.length_take, List.length_ofFn]
        exact Nat.min_le_right _ _
      by_cases hlt : bytes.length < ringbufferDataSize
      · rw [dif_pos hlt] at hrest
        cases hrest
        show 15 - (bytes ++ [_]).length < 15 - bytes.length
        rw [List.length_append, List.length_singleton]
        omega
      · rw [dif_neg hlt] at hrest
        cases hrest
        show 0 < 15 - bytes.length
        omega

/-- **Every access brings a section closer to its end.** -/
theorem fuel_access {emitted new : List Emission} {place place' : Place} (hmode : nofifo ≠ 0)
    (h : SectionAt nofifo cd₀ emitted cd place) (hstep : Accesses nofifo cd place new cd' place') :
    place'.fuel < place.fuel := by
  cases hstep with
  | handler haccess =>
      cases h with
      | handler hat => exact fuel_handlerAccess hmode hat haccess
  | clear =>
      cases h with
      | clear _ hi => exact fuel_clearAccess _ _ hi
  | consumer haccess =>
      cases h with
      | consumer hat => exact fuel_consumerAccess hat haccess

/-- No section has more than 65 to make. -/
theorem fuel_le {emitted : List Emission} {place : Place} (hmode : nofifo ≠ 0)
    (h : SectionAt nofifo cd₀ emitted cd place) : place.fuel ≤ 65 := by
  cases h with
  | leaving => simp
  | clear i => simp
  | consumer hat => cases hat <;> simp only [Place.fuel, ConsumerPc.fuel] <;> omega
  | handler hat =>
      cases hat with
      | increment | wrap | setUsed => simp
      | inSlot hslot hentry =>
          cases hentry with
          | store hfits hdata hread =>
              have hlen := answered_fits hmode hread
              rw [List.length_append] at hlen
              simp only [Place.fuel, HandlerPc.fuel]
              have : ringbufferDataSize = 14 := rfl
              omega
          | _ => simp

/-! ### Until none is left, there is one to make -/

theorem atPos_exists {i : Fin ringbufferSize} (hi : ringbufferIndex cd.ringbufferpos = .ok i)
    (f : RingbufferEntry → RingbufferEntry) : ∃ cd', cd.atPos f = .ok cd' :=
  ⟨_, bind_ok.mpr ⟨i, hi, rfl⟩⟩

theorem InSlot.index_pos (h : InSlot cd₀ k cd entry) :
    ringbufferIndex cd.ringbufferpos = .ok k := by
  obtain ⟨hindex, rfl⟩ := h
  exact hindex

theorem handlerAccess_exists {t : HandlerThread} (given : Given) (hmode : nofifo ≠ 0)
    (hpos : PosInRange cd₀) (h : HandlerAt nofifo cd₀ cd t) :
    ∃ p, handlerAccess nofifo given cd t = .ok p := by
  cases h with
  | increment | wrap => exact ⟨_, rfl⟩
  | setUsed =>
      obtain ⟨k, hk, -⟩ := ringbufferIndex_ok (nextPos_range hpos)
      have hat : ringbufferIndex
          ({ cd₀ with ringbufferpos := nextPos cd₀.ringbufferpos } : ClientData).ringbufferpos
            = .ok k := hk
      obtain ⟨cd', hcd⟩ := atPos_exists hat fun entry => { entry with used := true }
      exact ⟨_, bind_ok.mpr ⟨cd', hcd, rfl⟩⟩
  | @inSlot _ k entry _ hslot hentry =>
      have hk := hslot.index_pos
      cases hentry with
      | fifoCount hc | doLoop hc | addSize hc => exact absurd hc hmode
      | setSize | setTimestamp | assignSize | cleanUp =>
          obtain ⟨cd', hcd⟩ := atPos_exists hk _
          exact ⟨_, bind_ok.mpr ⟨cd', hcd, rfl⟩⟩
      | registers =>
          simp only [handlerAccess]
          cases smbusReadI2cBlockData deviceBlockLength given.answer with
          | fail e => exact ⟨_, rfl⟩
          | bytes bs => exact ⟨_, rfl⟩
      | @store n _ ts data stored rest hfits hdata hread =>
          cases rest with
          | nil => exact ⟨_, rfl⟩
          | cons b rest =>
              have hlen := answered_fits hmode hread
              rw [List.length_append, List.length_cons] at hlen
              have hlt : stored.length < ringbufferDataSize := by omega
              exact ⟨_, bind_ok.mpr ⟨k, hk, bind_ok.mpr ⟨_, storeByte_ok b hlt, rfl⟩⟩⟩
      | doDispatch =>
          exact ⟨_, bind_ok.mpr ⟨k, hk, if_neg fun hc => hmode hc.1⟩⟩

theorem consumerAccess_exists {c : Consumer} {pc : ConsumerPc} (hpos : PosInRange cd)
    (h : ConsumerAt cd c pc) (hsentinel : ¬(Place.consumer c pc).AtSentinel cd) :
    ∃ p, consumerAccess c cd pc = .ok p := by
  cases h with
  | sentinel => exact ⟨_, rfl⟩
  | testUsed hguard =>
      have hne : cd.ringbufferpos ≠ -1 := by
        cases c with
        | sysfsRead offset count => exact fun hc => hsentinel ⟨offset, count, rfl, hc⟩
        | netlink results => exact hguard rfl
        | server sk => exact hguard rfl
      obtain ⟨k, hk, -⟩ := ringbufferIndex_ok ⟨by have := hpos.1; omega, hpos.2⟩
      exact ⟨_, bind_ok.mpr ⟨k, hk, rfl⟩⟩
  | @testAgain _ k hk hused => exact ⟨_, bind_ok.mpr ⟨k, hk, rfl⟩⟩
  | @load _ k hk hused bytes hbytes =>
      by_cases hlt : bytes.length < ringbufferDataSize
      · exact ⟨_, bind_ok.mpr ⟨k, hk, dif_pos hlt⟩⟩
      · exact ⟨_, bind_ok.mpr ⟨k, hk, dif_neg hlt⟩⟩

/-- **A section that has not ended can go on**, unless it looks up the sentinel. -/
theorem access_exists {emitted : List Emission} {place : Place} (hmode : nofifo ≠ 0)
    (hpos : PosInRange cd₀) (h : SectionAt nofifo cd₀ emitted cd place)
    (hsentinel : ¬place.AtSentinel cd) :
    (∃ place', Releases place place') ∨
      ∃ new cd' place', Accesses nofifo cd place new cd' place' := by
  cases h with
  | leaving => exact Or.inl ⟨_, .leaving⟩
  | clear i => exact Or.inr ⟨_, _, _, .clear⟩
  | consumer hat =>
      obtain ⟨p, hp⟩ := consumerAccess_exists hpos hat hsentinel
      exact Or.inr ⟨_, _, _, .consumer hp⟩
  | handler hat =>
      obtain ⟨p, hp⟩ := handlerAccess_exists failedCount hmode hpos hat
      exact Or.inr ⟨_, _, _, .handler hp⟩

end

/-! ### While a thread has the lock -/

/-- The position stays in the ring: the handler wraps it, and nothing else writes it. -/
theorem posInRange_step {nofifo : Int} {s s' : DriverState} {op : Op}
    (h : PosInRange s.client) (hstep : OpStep nofifo s op s') : PosInRange s'.client := by
  obtain ⟨emitted, hstep⟩ := hstep
  cases op with
  | handler work =>
      obtain ⟨⟨client, ts⟩, hrun, hpure⟩ := bind_ok.mp hstep
      cases hpure
      obtain ⟨hlo, hhi⟩ := wqReadHandler_posInRange h hrun
      exact ⟨by show -1 ≤ client.ringbufferpos; omega, hhi⟩
  | clear =>
      cases hstep
      exact h
  | sysfsRead | netlink | server =>
      rw [opStep_consumer (by simp) hstep]
      exact h

theorem posInRange_of_ops {nofifo : Int} {ops : List (Op × List Emission)} {driver : DriverState}
    (hrun : Run (OpEmits nofifo) probedState ops driver) : PosInRange driver.client := by
  refine Run.invariant (P := fun _ s => PosInRange s.client) ⟨by decide, by decide⟩ ?_ hrun
  intro _ mid e s' hmid hstep
  exact posInRange_step hmid ⟨e.2, hstep⟩

section

variable {T : Type} [DecidableEq T] {nofifo : Int} {es : List (Event T Emission)}
  {s s' : State T ClientData Place} {t : T}

/-- Where the thread that has the lock is. -/
theorem sectionAt_of_run (hrun : Run (AccessStep T nofifo) (probedThreads T) es s)
    (hheld : s.lock = some t) :
    ∃ cd emitted, PosInRange cd ∧ SectionAt nofifo cd emitted s.shared (s.locals t) := by
  obtain ⟨ops, driver, hops⟩ := wholeOps_of_run hrun
  obtain ⟨emitted, hentered, -⟩ := hops.held t hheld
  exact ⟨driver.client, emitted, posInRange_of_ops hops.run, sectionAt_entered hentered⟩

/-- A step that does not end the section is an access of the thread that has the lock. -/
theorem fuel_step (hmode : nofifo ≠ 0) (hrun : Run (AccessStep T nofifo) (probedThreads T) es s)
    (hheld : s.lock = some t) {e : Event T Emission} (hkeep : e.released = none)
    (hstep : AccessStep T nofifo s e s') :
    e.thread = t ∧ s'.lock = some t ∧ (s'.locals t).fuel < (s.locals t).fuel := by
  cases hstep with
  | acquire hfree =>
      rw [hheld] at hfree
      cases hfree
  | release => cases hkeep
  | @access t' _ _ _ haccess =>
      have hinside := ((disciplined_sectionProgram nofifo).access haccess).1
      have hlock := (exclusive_of_run hrun t').mp hinside
      rw [hheld] at hlock
      cases hlock
      obtain ⟨cd, emitted, -, hsection⟩ := sectionAt_of_run hrun hheld
      refine ⟨rfl, hheld, ?_⟩
      show (s.move t _ t).fuel < (s.locals t).fuel
      rw [move_self]
      exact fuel_access hmode hsection haccess

/--
**With `nofifo` the lock is given back.**  As long as a thread has it, there are at most 65
steps, all of them its own, and always one more that it can take itself until it gives the lock
back; unless it reads the sysfs file before the first sample.
-/
theorem lock_given_back (hmode : nofifo ≠ 0)
    (hrun : Run (AccessStep T nofifo) (probedThreads T) es s) (hheld : s.lock = some t)
    (es' : List (Event T Emission)) (hrun' : Run (AccessStep T nofifo) s es' s')
    (hkeep : es'.filterMap Event.released = []) :
    s'.lock = some t ∧ (∀ e ∈ es', e.thread = t) ∧ es'.length ≤ 65 ∧
      ((∃ e s'', e.thread = t ∧ AccessStep T nofifo s' e s'') ∨
        (s'.locals t).AtSentinel s'.shared) := by
  have hlower : Run (AccessStep T nofifo) s es' s' ∧ (es'.filterMap Event.released = [] →
      s'.lock = some t ∧ (∀ e ∈ es', e.thread = t) ∧
        es'.length + (s'.locals t).fuel ≤ (s.locals t).fuel) := by
    refine Run.invariant (P := fun es' s' => Run (AccessStep T nofifo) s es' s' ∧
      (es'.filterMap Event.released = [] →
        s'.lock = some t ∧ (∀ e ∈ es', e.thread = t) ∧
          es'.length + (s'.locals t).fuel ≤ (s.locals t).fuel)) ?_ ?_ hrun'
    · exact ⟨.nil, fun _ => ⟨hheld, fun _ h => absurd h List.not_mem_nil, by simp⟩⟩
    · intro es' mid e s' ⟨hmid, ih⟩ hstep
      refine ⟨hmid.snoc hstep, fun hkeep => ?_⟩
      rw [List.filterMap_append, List.append_eq_nil_iff] at hkeep
      have he : e.released = none := by
        cases hreleased : e.released with
        | none => rfl
        | some t => simp [hreleased] at hkeep
      obtain ⟨hlock, hown, hle⟩ := ih hkeep.1
      obtain ⟨hthread, hlock', hlt⟩ := fuel_step hmode (hrun.trans hmid) hlock he hstep
      refine ⟨hlock', fun e' he' => ?_, ?_⟩
      · rcases List.mem_append.mp he' with he' | he'
        · exact hown e' he'
        · exact List.mem_singleton.mp he' ▸ hthread
      · rw [List.length_append, List.length_singleton]
        omega
  obtain ⟨hlock, hown, hle⟩ := hlower.2 hkeep
  obtain ⟨_, _, -, hbegun⟩ := sectionAt_of_run hrun hheld
  obtain ⟨cd, emitted, hpos, hsection⟩ := sectionAt_of_run (hrun.trans hrun') hlock
  refine ⟨hlock, hown, by have := fuel_le hmode hbegun; omega, ?_⟩
  by_cases hsentinel : (s'.locals t).AtSentinel s'.shared
  · exact Or.inr hsentinel
  · refine Or.inl ?_
    rcases access_exists hmode hpos hsection hsentinel with
      ⟨place, hrelease⟩ | ⟨new, cd', place, haccess⟩
    · exact ⟨.release t, _, rfl, .release hrelease⟩
    · exact ⟨.access t new, _, rfl, .access haccess⟩

end

/-- A clear that has begun. -/
theorem lock_given_back_clear : ∃ s : State Bool ClientData Place,
    Run (AccessStep Bool 1) (probedThreads Bool) [.acquire true, .access true []] s ∧
      s.lock = some true ∧
      ((∃ e s', e.thread = true ∧ AccessStep Bool 1 s e s') ∨
        (s.locals true).AtSentinel s.shared) := by
  have hstart : Run (AccessStep Bool 1) (probedThreads Bool) [] _ := Run.nil
  have hlock := hstart.snoc (.acquire (t := true) rfl .clear)
  have hbegun : Run (AccessStep Bool 1) { probedThreads Bool with
      lock := some true, locals := (probedThreads Bool).move true (.clear 0) } [] _ := Run.nil
  have hfirst := hbegun.snoc (.access (t := true) .clear)
  have hkeep := lock_given_back (by decide) hlock rfl _ hfirst rfl
  exact ⟨_, hlock.trans hfirst, hkeep.1, hkeep.2.2.2⟩

end Mpu6050
