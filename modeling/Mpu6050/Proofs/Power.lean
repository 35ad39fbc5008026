/-
The chip over the life of the device, whatever transfers fail on the way.

Three questions, over every order in which the callbacks can come.

  * Is the configuration the same each time?  A suspend may fail to reset the chip and a probe
    may be stopped half way, so the callbacks leave the registers in many states; but each is a
    beginning of the steps on what a reset leaves, and a probe or a resume that returns 0
    leaves what the first one would have left (`configuration_restored`).
  * What does the driver write at all?  Registers of initialisation, and no others
    (`writes_confined`).
  * Which chips does it take for its own?  Those that answer the ping, and those whose answer
    fails in a way that looks like it; and one read is all a chip sees of a probe that does not
    find it (`probe_finds_chip`).
-/
import Mpu6050.Driver.Power
import Mpu6050.Lib.Retry
import Mpu6050.Lib.Runs
import Mpu6050.Proofs.DeviceFaults
import Mpu6050.Proofs.DeviceFrame

namespace Mpu6050

open Registers Runs

/-! ### Resets -/

/-- An update that reports an error has changed nothing. -/
theorem run_error_file {u : Update U8 U8} {faults : Faults Errno} {chip chip' : Chip} {e : Errno}
    (h : u.run faults readByteData chip = (some e, chip')) : chip'.file = chip.file := by
  rw [u.run_eq] at h
  cases hchange : u.change (readByteData (chip.read faults u.addr).1) with
  | none =>
      rw [hchange] at h
      cases h
  | some v =>
      rw [hchange] at h
      simp only at h
      have hsome : faults (chip.read faults u.addr).2.log.length = some e :=
        congrArg Prod.fst h
      rw [Bus.write_error _ _ hsome] at h
      cases h
      rfl

section Reset

variable (base : RegisterFile) (nofifo wait : Int) (faults : Faults Errno) (chip : Chip)

/-- A reset of the whole chip takes place, or nothing does. -/
theorem deviceReset_file :
    (deviceReset (fun _ => base) nofifo 0 wait faults chip).file = chip.file ∨
      (deviceReset (fun _ => base) nofifo 0 wait faults chip).file = base := by
  unfold deviceReset writeReset
  rw [if_pos rfl]
  rcases hrun : resetDevice.run faults readByteData chip with ⟨_ | e, chip'⟩
  · refine Or.inr ?_
    simp only
    split <;> rfl
  · exact Or.inl (run_error_file hrun)

theorem deviceReset_confined {regs : List U8} (hregs : raPwrMgmt1 ∈ regs)
    (h : Confined regs base chip) :
    Confined regs base (deviceReset (fun _ => base) nofifo 0 wait faults chip) := by
  have hreset := h.run faults readByteData (u := resetDevice) hregs
  unfold deviceReset writeReset
  rw [if_pos rfl]
  rcases hrun : resetDevice.run faults readByteData chip with ⟨_ | e, chip'⟩
  · rw [hrun] at hreset
    have hbase : Confined regs base { chip' with file := base } := ⟨hreset.writes, fun _ _ => rfl⟩
    simp only
    split
    · exact hbase.read faults raPwrMgmt1
    · exact hbase
  · rw [hrun] at hreset
    exact hreset

theorem deviceReset_grows :
    ∃ ts, (deviceReset (fun _ => base) nofifo 0 wait faults chip).log = chip.log ++ ts := by
  obtain ⟨ts, hts⟩ := resetDevice.run_log faults readByteData chip
  unfold deviceReset writeReset
  rw [if_pos rfl]
  rcases hrun : resetDevice.run faults readByteData chip with ⟨_ | e, chip'⟩
  · rw [hrun] at hts
    simp only
    split
    · exact ⟨_, (congrArg (· ++ _) hts).trans (List.append_assoc ..)⟩
    · exact ⟨_, hts⟩
  · rw [hrun] at hts
    exact ⟨_, hts⟩

end Reset

theorem deviceInit_grows (nofifo noirq : Int) (faults : Faults Errno) (chip : Chip) :
    ∃ ts, (deviceInit nofifo noirq faults chip).2.log = chip.log ++ ts := by
  rw [deviceInit_eq]
  exact runAll_grows ..

/-! ### What a callback does -/

/-- What a callback leaves of the registers: what was there, what a reset leaves, or what an
attempt at initialisation made of them. -/
inductive PowerEffect (base : RegisterFile) (p : Params) (faults : Faults Errno)
    (chip chip' : Chip) : Prop
  | kept (hfile : chip'.file = chip.file)
  | reset (hfile : chip'.file = base)
  | programmed (mid : Chip) (hmid : mid.file = chip.file)
      (hfile : chip'.file = (deviceInit p.nofifo p.noirq faults mid).2.file)
      (hbefore : ∃ ts, mid.log = chip.log ++ ts)
      (hafter : ∃ ts, chip'.log = (deviceInit p.nofifo p.noirq faults mid).2.log ++ ts)

variable {base : RegisterFile} {faults : Faults Errno} {chip : Chip}

theorem devicePing_file : (devicePing faults chip).2.file = chip.file := rfl

theorem devicePing_log :
    (devicePing faults chip).2.log = chip.log ++ [.read raWhoAmI (chip.read faults raWhoAmI).1] :=
  rfl

theorem deviceReset_effect (p : Params) (wait : Int) :
    PowerEffect base p faults chip
      (deviceReset (fun _ => base) p.nofifo 0 wait faults chip) := by
  rcases deviceReset_file base p.nofifo wait faults chip with h | h
  · exact .kept h
  · exact .reset h

/-- A probe that returns 0 has pinged the chip and programmed it. -/
theorem probe_zero_calls {p : Params} {o : Outcomes} {s : Handles} (h : probe p o = some (0, s)) :
    reachesPing o = true ∧ o.devicePing = 0 ∧ o.deviceInit = 0 := by
  unfold probe at h
  simp only at h
  split at h
  · cases h
  split at h
  · cases h
  split at h
  · cases h
  split at h
  · next hfetch => exact absurd (congrArg Prod.fst (Option.some.inj h)) hfetch
  split at h
  · cases h
  obtain ⟨_, hsysfs, hafter⟩ := Unwind.orGoto_eq_zero h
  obtain ⟨_, hping, hafter⟩ := Unwind.orGoto_eq_zero hafter
  obtain ⟨_, hinit, -⟩ := Unwind.orGoto_eq_zero hafter
  have hcreate : o.sysfsCreateBinFile = 0 := by
    by_contra hne
    unfold sysfsInit at hsysfs
    rw [if_pos hne] at hsysfs
    exact hne (congrArg Prod.fst (Option.some.inj hsysfs))
  refine ⟨?_, congrArg Prod.fst (Option.some.inj hping),
    congrArg Prod.fst (Option.some.inj hinit)⟩
  simp_all [reachesPing]

/-- The ways a probe can go, as the chip sees it. -/
inductive ProbeWay (base : RegisterFile) (p : Params) (o : Outcomes) (faults : Faults Errno)
    (chip : Chip) : Option Int × Chip → Prop
  | early {ret : Option Int} (hret : ret ≠ some 0) (hreaches : reachesPing o = false) :
      ProbeWay base p o faults chip (ret, chip)
  | notFound {ret : Option Int} (hret : ret ≠ some 0) (hreaches : reachesPing o = true)
      (hping : (devicePing faults chip).1 ≠ 0) :
      ProbeWay base p o faults chip (ret, (devicePing faults chip).2)
  | stopped {ret : Option Int} (hret : ret ≠ some 0) (hping : (devicePing faults chip).1 = 0) :
      ProbeWay base p o faults chip
        (ret, (deviceInit p.nofifo p.noirq faults (devicePing faults chip).2).2)
  | done (hping : (devicePing faults chip).1 = 0)
      (hinit : (deviceInit p.nofifo p.noirq faults (devicePing faults chip).2).1 = 0) :
      ProbeWay base p o faults chip
        (some 0, (deviceInit p.nofifo p.noirq faults (devicePing faults chip).2).2)
  | undone {ret : Option Int} (hret : ret ≠ some 0) (hping : (devicePing faults chip).1 = 0) :
      ProbeWay base p o faults chip (ret, deviceFini (fun _ => base) p.nofifo faults
        (deviceInit p.nofifo p.noirq faults (devicePing faults chip).2).2)

theorem probeChip_way (p : Params) (o : Outcomes) (finiReached : Bool) :
    ProbeWay base p o faults chip (probeChip (fun _ => base) p o finiReached faults chip) := by
  unfold probeChip
  simp only
  generalize hresult : (probe p (probeOutcomes p o faults chip)).map Prod.fst = result
  -- a result of 0 says how far the probe has come
  have hzero : result = some 0 → reachesPing o = true ∧ (devicePing faults chip).1 = 0 ∧
      (deviceInit p.nofifo p.noirq faults (devicePing faults chip).2).1 = 0 := by
    intro h
    obtain ⟨⟨err, s⟩, hprobe, herr⟩ := Option.map_eq_some_iff.mp (hresult.trans h)
    obtain rfl : err = 0 := herr
    exact probe_zero_calls hprobe
  by_cases hreaches : reachesPing o = false
  · rw [if_pos hreaches]
    exact .early (fun h => by simp [(hzero h).1] at hreaches) hreaches
  rw [if_neg hreaches]
  by_cases hping : (devicePing faults chip).1 = 0
  swap
  · rw [if_pos hping]
    exact .notFound (fun h => hping (hzero h).2.1) (by simpa using hreaches) hping
  rw [if_neg (not_not.mpr hping)]
  by_cases hinit : (deviceInit p.nofifo p.noirq faults (devicePing faults chip).2).1 = 0
  swap
  · rw [if_pos hinit]
    exact .stopped (fun h => hinit (hzero h).2.2) hping
  rw [if_neg (not_not.mpr hinit)]
  cases result with
  | none => exact .stopped nofun hping
  | some err =>
      by_cases herr : err = 0
      · simp only [if_pos herr]
        exact .done hping hinit
      simp only [if_neg herr]
      cases finiReached with
      | false => exact .stopped nofun hping
      | true => exact .undone (fun h => herr (Option.some.inj h)) hping

theorem ProbeWay.effect {p : Params} {o : Outcomes} {result : Option Int × Chip}
    (h : ProbeWay base p o faults chip result) : PowerEffect base p faults chip result.2 := by
  have hprogrammed : PowerEffect base p faults chip
      (deviceInit p.nofifo p.noirq faults (devicePing faults chip).2).2 :=
    .programmed _ devicePing_file rfl ⟨_, devicePing_log⟩ ⟨[], (List.append_nil _).symm⟩
  cases h with
  | early => exact .kept rfl
  | notFound => exact .kept devicePing_file
  | stopped => exact hprogrammed
  | done => exact hprogrammed
  | undone =>
      -- the error path resets the chip, unless the write of the reset fails
      rcases deviceReset_file base p.nofifo 0 faults
          (deviceInit p.nofifo p.noirq faults (devicePing faults chip).2).2 with hfile | hfile
      · exact .programmed _ devicePing_file hfile ⟨_, devicePing_log⟩
          (deviceReset_grows base p.nofifo 0 faults _)
      · exact .reset hfile

theorem powerCall_effect (call : PowerCall) :
    PowerEffect base call.params faults chip (powerCall (fun _ => base) faults call chip).2 := by
  cases call with
  | probe p o finiReached => exact (probeChip_way p o finiReached).effect
  | remove p finiReached =>
      cases finiReached with
      | false => exact .kept rfl
      | true => exact deviceReset_effect p 0
  | shutdown p => exact deviceReset_effect p 0
  | suspend p => exact deviceReset_effect p 1
  | resume p =>
      exact .programmed chip rfl rfl ⟨[], (List.append_nil _).symm⟩
        ⟨[], (List.append_nil _).symm⟩

theorem ProbeWay.zero {p : Params} {o : Outcomes} {result : Option Int × Chip}
    (h : ProbeWay base p o faults chip result) (hzero : result.1 = some 0) :
    (devicePing faults chip).1 = 0 ∧
      (deviceInit p.nofifo p.noirq faults (devicePing faults chip).2).1 = 0 ∧
      result.2 = (deviceInit p.nofifo p.noirq faults (devicePing faults chip).2).2 := by
  cases h with
  | early hret => exact absurd hzero hret
  | notFound hret => exact absurd hzero hret
  | stopped hret => exact absurd hzero hret
  | done hping hinit => exact ⟨hping, hinit, rfl⟩
  | undone hret => exact absurd hzero hret

/-- A callback that returns 0 and programs the chip has made an initialisation that returned 0,
and done nothing to the chip after it. -/
theorem powerCall_zero {call : PowerCall} (hprograms : call.Programs)
    (hzero : (powerCall (fun _ => base) faults call chip).1 = some 0) :
    ∃ mid, mid.file = chip.file ∧ (∃ ts, mid.log = chip.log ++ ts) ∧
      (deviceInit call.params.nofifo call.params.noirq faults mid).1 = 0 ∧
      (powerCall (fun _ => base) faults call chip).2
        = (deviceInit call.params.nofifo call.params.noirq faults mid).2 := by
  cases call with
  | probe p o finiReached =>
      obtain ⟨-, hinit, hchip⟩ := (probeChip_way p o finiReached).zero hzero
      exact ⟨_, devicePing_file, ⟨_, devicePing_log⟩, hinit, hchip⟩
  | resume p =>
      refine ⟨chip, rfl, ⟨[], (List.append_nil _).symm⟩, Option.some.inj hzero, rfl⟩
  | remove | shutdown | suspend => exact hprograms.elim

/-! ### The configuration, whatever came before -/

/-- The parameters mean what they meant, and no read of the callback fails. -/
def Steady (nofifo noirq : Int) (base : RegisterFile) (faults : Faults Errno) (chip : Chip)
    (call : PowerCall) : Prop :=
  (call.params.nofifo = 0 ↔ nofifo = 0) ∧ (call.params.noirq = 0 ↔ noirq = 0) ∧
    ∀ t ∈ made chip (powerCall (fun _ => base) faults call chip).2, ¬t.IsFailedRead

theorem initSteps_congr {nofifo noirq nofifo' noirq' : Int} (hfifo : nofifo' = 0 ↔ nofifo = 0)
    (hirq : noirq' = 0 ↔ noirq = 0) : initSteps nofifo' noirq' = initSteps nofifo noirq := by
  unfold initSteps
  simp only [hfifo, hirq]

/-- The transfers of a part of a callback are among those of the whole. -/
theorem made_subset {mid mid' chip' : Chip} {before during after : List (Transfer U8 U8 Errno)}
    (hbefore : mid.log = chip.log ++ before) (hduring : mid'.log = mid.log ++ during)
    (hafter : chip'.log = mid'.log ++ after) :
    ∀ t ∈ made mid mid', t ∈ made chip chip' := by
  have hall : chip'.log = chip.log ++ (before ++ during ++ after) := by
    rw [hafter, hduring, hbefore]
    simp only [List.append_assoc]
  rw [made_eq hduring, made_eq hall]
  intro t ht
  exact List.mem_append_left _ (List.mem_append_right _ ht)

/-- An initialisation on the way of a callback has made no read that failed. -/
theorem Steady.init {nofifo noirq : Int} {call : PowerCall} {mid : Chip}
    (h : Steady nofifo noirq base faults chip call)
    (hbefore : ∃ ts, mid.log = chip.log ++ ts)
    (hafter : ∃ ts, (powerCall (fun _ => base) faults call chip).2.log
      = (deviceInit call.params.nofifo call.params.noirq faults mid).2.log ++ ts) :
    ∀ t ∈ made mid (runAll faults readByteData (initSteps nofifo noirq) mid).2,
      ¬t.IsFailedRead := by
  obtain ⟨hfifo, hirq, hreads⟩ := h
  obtain ⟨before, hbefore⟩ := hbefore
  obtain ⟨after, hafter⟩ := hafter
  obtain ⟨during, hduring⟩ := deviceInit_grows call.params.nofifo call.params.noirq faults mid
  have hsubset := made_subset hbefore hduring hafter
  rw [deviceInit_eq, initSteps_congr hfifo hirq] at hsubset
  exact fun t ht => hreads t (hsubset t ht)

/-- A callback leaves the registers part of the way. -/
theorem powerCall_partway {nofifo noirq : Int} {call : PowerCall}
    (hok : Steady nofifo noirq base faults chip call)
    (h : Partway (initSteps nofifo noirq) base chip.file) :
    Partway (initSteps nofifo noirq) base (powerCall (fun _ => base) faults call chip).2.file := by
  have heffect : PowerEffect base call.params faults chip
      (powerCall (fun _ => base) faults call chip).2 := powerCall_effect call
  cases heffect with
  | kept hfile => rw [hfile]; exact h
  | reset hfile => rw [hfile]; exact partway_base
  | programmed mid hmid hfile hbefore hafter =>
      have hreads := hok.init hbefore hafter
      rw [hfile, deviceInit_eq, initSteps_congr hok.1 hok.2.1]
      exact Partway.again readByteData_ok (initSteps_retryable nofifo noirq) (hmid ▸ h) hreads

/--
**The configuration is restored, whatever came before.**  In every order of callbacks, with
any writes failing, the registers are at each moment a beginning of the steps on what a
reset leaves; and a probe or a resume that returns 0 leaves exactly what initialisation makes
of a chip fresh from a reset.
-/
theorem configuration_restored (nofifo noirq : Int) (base : RegisterFile)
    (faults : Faults Errno) {calls : List PowerCall} {chip : Chip}
    (hrun : Run (Guarded (PowerStep (fun _ => base) faults)
      (Steady nofifo noirq base faults)) (freshChip base) calls chip) :
    Partway (initSteps nofifo noirq) base chip.file ∧
      ∀ call : PowerCall, call.Programs → Steady nofifo noirq base faults chip call →
        (powerCall (fun _ => base) faults call chip).1 = some 0 →
        (powerCall (fun _ => base) faults call chip).2.file
          = (deviceInit nofifo noirq noFaults (freshChip base)).2.file := by
  have hpartway : Partway (initSteps nofifo noirq) base chip.file :=
    hrun.invariant (P := fun _ chip => Partway (initSteps nofifo noirq) base chip.file)
      partway_base fun _ mid call chip' hmid hstep => hstep.2 ▸ powerCall_partway hstep.1 hmid
  refine ⟨hpartway, fun call hprograms hok hzero => ?_⟩
  obtain ⟨mid, hmid, hbefore, hinit, hchip⟩ := powerCall_zero hprograms hzero
  have hreads := hok.init hbefore ⟨[], by rw [hchip, List.append_nil]⟩
  rw [deviceInit_eq, initSteps_congr hok.1 hok.2.1] at hinit hchip
  rw [hchip, (deviceInit_noFaults nofifo noirq (freshChip base)).2]
  exact Partway.finished readByteData_ok (initSteps_retryable nofifo noirq) (hmid ▸ hpartway)
    hreads (errnoValue_eq_zero.mp hinit)

instance (t : Transfer U8 U8 Errno) : Decidable t.IsFailedRead :=
  match t with
  | .read _ (.error _) => isTrue trivial
  | .read _ (.ok _) => isFalse id
  | .write _ _ _ => isFalse id

/-- The first write of the first attempt fails. -/
def attemptedChip : Chip :=
  (powerCall (fun _ => powerOn.file) (failsAt 1 eio) (.resume pollingParams)
    (freshChip powerOn.file)).2

/-- A resume that was stopped does not show in the next one. -/
theorem configuration_restored_attempted :
    (powerCall (fun _ => powerOn.file) (failsAt 1 eio) (.resume pollingParams)
        (freshChip powerOn.file)).1 = some (-5) ∧
      (powerCall (fun _ => powerOn.file) (failsAt 1 eio) (.resume pollingParams)
        attemptedChip).2.file = (deviceInit 1 1 noFaults (freshChip powerOn.file)).2.file := by
  refine ⟨by decide +kernel, ?_⟩
  have hfirst : Steady 1 1 powerOn.file (failsAt 1 eio) (freshChip powerOn.file)
      (.resume pollingParams) := ⟨Iff.rfl, Iff.rfl, by decide +kernel⟩
  have hsecond : Steady 1 1 powerOn.file (failsAt 1 eio) attemptedChip
      (.resume pollingParams) := ⟨Iff.rfl, Iff.rfl, by decide +kernel⟩
  exact (configuration_restored 1 1 powerOn.file (failsAt 1 eio)
    (Run.single ⟨hfirst, rfl⟩)).2 (.resume pollingParams) trivial hsecond (by decide +kernel)

/-! ### What is written at all -/

theorem deviceInit_confined (nofifo noirq : Int) (h : Confined initRegisters base chip) :
    Confined initRegisters base (deviceInit nofifo noirq faults chip).2 := by
  rw [deviceInit_eq]
  refine h.runAll faults readByteData fun u hu => ?_
  exact allSteps_addr u ((initSteps_sublist nofifo noirq).subset hu)

theorem pwrMgmt1_mem_initRegisters : raPwrMgmt1 ∈ initRegisters := by
  decide

theorem ProbeWay.confined {p : Params} {o : Outcomes} {result : Option Int × Chip}
    (hway : ProbeWay base p o faults chip result) (h : Confined initRegisters base chip) :
    Confined initRegisters base result.2 := by
  have hping : Confined initRegisters base (devicePing faults chip).2 := h.read faults raWhoAmI
  have hinit : Confined initRegisters base
      (deviceInit p.nofifo p.noirq faults (devicePing faults chip).2).2 :=
    deviceInit_confined p.nofifo p.noirq hping
  cases hway with
  | early => exact h
  | notFound => exact hping
  | stopped => exact hinit
  | done => exact hinit
  | undone => exact deviceReset_confined base p.nofifo 0 faults _ pwrMgmt1_mem_initRegisters hinit

theorem powerCall_confined (call : PowerCall) (h : Confined initRegisters base chip) :
    Confined initRegisters base (powerCall (fun _ => base) faults call chip).2 := by
  cases call with
  | probe p o finiReached => exact (probeChip_way p o finiReached).confined h
  | remove p finiReached =>
      cases finiReached with
      | false => exact h
      | true => exact deviceReset_confined base p.nofifo 0 faults chip pwrMgmt1_mem_initRegisters h
  | shutdown p =>
      exact deviceReset_confined base p.nofifo 0 faults chip pwrMgmt1_mem_initRegisters h
  | suspend p => exact deviceReset_confined base p.nofifo 1 faults chip pwrMgmt1_mem_initRegisters h
  | resume p => exact deviceInit_confined p.nofifo p.noirq h

/--
**The driver writes the registers of initialisation, and no others.**  Whatever the callbacks
are, the parameters they find and the transfers that fail, reads included: every write made
went to one of the ten, and every other register holds what a reset leaves.
-/
theorem writes_confined (base : RegisterFile) (faults : Faults Errno) {calls : List PowerCall}
    {chip : Chip} (hrun : Run (PowerStep (fun _ => base) faults) (freshChip base) calls chip) :
    (∀ a v result, Transfer.write a v result ∈ chip.log → a ∈ initRegisters) ∧
      ∀ a ∉ initRegisters, chip.file a = base a := by
  have hconfined : Confined initRegisters base chip :=
    hrun.invariant (P := fun _ chip => Confined initRegisters base chip)
      ⟨fun _ _ _ h => absurd h List.not_mem_nil, fun _ _ => rfl⟩
      fun _ mid call chip' hmid hstep => hstep ▸ powerCall_confined call hmid
  exact ⟨hconfined.writes, hconfined.others⟩

/-- A resume in which a read fails too. -/
theorem writes_confined_attempted :
    (∀ a v result, Transfer.write a v result ∈ (powerCall (fun _ => powerOn.file) (failsAt 0 eio)
        (.resume defaultParams) (freshChip powerOn.file)).2.log → a ∈ initRegisters) ∧
      ∀ a ∉ initRegisters, (powerCall (fun _ => powerOn.file) (failsAt 0 eio)
        (.resume defaultParams) (freshChip powerOn.file)).2.file a = powerOn.file a :=
  writes_confined powerOn.file (failsAt 0 eio)
    (Run.single (show PowerStep _ _ _ (.resume defaultParams) _ from rfl))

/-! ### Which chips are found -/

/-- The ping is answered with the address of an MPU-6050, in its six bits of `WHO_AM_I`. -/
def Answers (faults : Faults Errno) (chip : Chip) : Prop :=
  faults chip.log.length = none ∧ (chip.file raWhoAmI).extractLsb 6 1 = (0x34 : BitVec 6)

/-- Its read fails, with an error whose lowest byte, which is all that is looked at, passes for
that address. -/
def PassesFor (faults : Faults Errno) (chip : Chip) : Prop :=
  ∃ e, faults chip.log.length = some e ∧
    (e.val % 256 = 0x68 ∨ e.val % 256 = 0x69 ∨ e.val % 256 = 0xE8 ∨ e.val % 256 = 0xE9)

theorem whoAmI_iff : ∀ reg : U8,
    whoAmI reg = addressAd0Low ↔ reg.extractLsb 6 1 = (0x34 : BitVec 6) := by
  decide +kernel

theorem whoAmI_toNat_iff : ∀ reg : U8, whoAmI reg = addressAd0Low ↔
    reg.toNat = 0x68 ∨ reg.toNat = 0x69 ∨ reg.toNat = 0xE8 ∨ reg.toNat = 0xE9 := by
  decide +kernel

theorem narrow_ofInt_toNat (e : Int) : ((narrow (BitVec.ofInt 32 e)).toNat : Int) = e % 256 := by
  unfold narrow
  rw [BitVec.toNat_setWidth, BitVec.toNat_ofInt]
  omega

/-- The two ways to pass the ping. -/
theorem devicePing_iff :
    (devicePing faults chip).1 = 0 ↔ Answers faults chip ∨ PassesFor faults chip := by
  have hvalue : (devicePing faults chip).1 = 0
      ↔ whoAmI (readByteData (chip.read faults raWhoAmI).1) = addressAd0Low := by
    unfold devicePing
    simp only
    split
    · next h => exact iff_of_true rfl h
    · next h => exact iff_of_false (by decide) h
  rw [hvalue]
  unfold Answers PassesFor
  cases hread : faults chip.log.length with
  | none =>
      rw [Bus.read_ok _ hread]
      simp only [true_and, reduceCtorEq, false_and, exists_false, or_false]
      exact whoAmI_iff _
  | some e =>
      rw [Bus.read_error _ hread]
      have hbyte := narrow_ofInt_toNat e.val
      simp only [readByteData, whoAmI_toNat_iff, Option.some.injEq, exists_eq_left', false_and,
        false_or, reduceCtorEq]
      omega

/--
**A probe programs a chip only if its ping passes,** which it does if the chip answers as an
MPU-6050, or the read fails with an error that looks like it.  Otherwise the probe does not
return 0, the registers stay as they are, and the chip sees a single read, of `WHO_AM_I`, if
the probe gets as far, and nothing if not.
-/
theorem probe_finds_chip (base : RegisterFile) (p : Params) (o : Outcomes) (finiReached : Bool)
    (faults : Faults Errno) (chip : Chip) :
    ((probeChip (fun _ => base) p o finiReached faults chip).1 = some 0 →
      Answers faults chip ∨ PassesFor faults chip) ∧
    (¬Answers faults chip → ¬PassesFor faults chip →
      (probeChip (fun _ => base) p o finiReached faults chip).1 ≠ some 0 ∧
      (probeChip (fun _ => base) p o finiReached faults chip).2.file = chip.file ∧
      (probeChip (fun _ => base) p o finiReached faults chip).2.log
        = chip.log ++ if reachesPing o = true then
            [.read raWhoAmI (chip.read faults raWhoAmI).1] else []) := by
  have hway : ProbeWay base p o faults chip
      (probeChip (fun _ => base) p o finiReached faults chip) := probeChip_way p o finiReached
  refine ⟨fun hzero => devicePing_iff.mp (hway.zero hzero).1, fun hno hlike => ?_⟩
  have hping : (devicePing faults chip).1 ≠ 0 :=
    fun h => (devicePing_iff.mp h).elim hno hlike
  generalize probeChip (fun _ => base) p o finiReached faults chip = result at hway ⊢
  cases hway with
  | early hret hreaches =>
      refine ⟨hret, rfl, ?_⟩
      rw [if_neg (by simp [hreaches]), List.append_nil]
  | notFound hret hreaches =>
      refine ⟨hret, devicePing_file, ?_⟩
      rw [if_pos hreaches]
      exact devicePing_log
  | stopped _ h => exact absurd h hping
  | done h => exact absurd h hping
  | undone _ h => exact absurd h hping

end Mpu6050
