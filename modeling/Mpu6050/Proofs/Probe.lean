/-
When a failing probe leaves nothing behind.

`probe` makes its calls in a fixed order, and what becomes of a run is decided by the first
call that fails.  Going through the calls in that order (`Behaves`), each part of `probe`
either goes on, or unwinds to nothing held, or goes wrong, and once it has gone wrong no
label below can repair it: what was released without being held leaves the account
void, and what nobody releases is still there at the end (`Keeps`).

The labels are right as far as the timer.  `i2c_mpu6050_irq_fini` cannot undo
`i2c_mpu6050_irq_init`, nor `i2c_mpu6050_netlink_fini` its `init`, so a failure after
either goes wrong; and four results that are `NULL` on failure are tested with `IS_ERR`.
-/
import Mpu6050.Driver.Main

namespace Mpu6050

open Unwind

/-- The calls of `probe` that can fail. -/
inductive Call
  | checkFunctionality | gpioLedIsValid | kzallocClientData | scriptParserFetch | gpioRequestLed
  | sysfsCreateBinFile | devicePing | deviceInit | createWorkqueue
  | hrtimerStart
  | gpioIntIsValid | pinctrlGet | pinctrlLookupState | pinctrlSelectState | gpioRequestInt
  | gpioToIrq | requestIrq
  | kzallocNetlinkServer | netlinkKernelCreate | registerFamily | registerGroup
  | kthreadRunNetlink
  /-- the check of `peer` and `port` -/
  | serverAddress
  | kzallocServer | kthreadRunServer

/-- The call succeeds, by its own convention. -/
def succeeds (p : Params) (o : Outcomes) : Call → Bool
  | .checkFunctionality => o.checkFunctionality
  | .gpioLedIsValid => o.gpioLedIsValid
  | .kzallocClientData => o.kzallocClientData
  | .scriptParserFetch => o.scriptParserFetch = 0
  | .gpioRequestLed => o.gpioRequestLed
  | .sysfsCreateBinFile => o.sysfsCreateBinFile = 0
  | .devicePing => o.devicePing = 0
  | .deviceInit => o.deviceInit = 0
  | .createWorkqueue => o.createWorkqueue
  | .hrtimerStart => o.hrtimerStart = 0
  | .gpioIntIsValid => o.gpioIntIsValid
  | .pinctrlGet => o.pinctrlGet.isNone
  | .pinctrlLookupState => o.pinctrlLookupState.isNone
  | .pinctrlSelectState => o.pinctrlSelectState = 0
  | .gpioRequestInt => o.gpioRequestInt
  | .gpioToIrq => 0 ≤ o.gpioToIrq
  | .requestIrq => o.requestIrq = 0
  | .kzallocNetlinkServer => o.kzallocNetlinkServer
  | .netlinkKernelCreate => o.netlinkKernelCreate
  | .registerFamily => o.registerFamily = 0
  | .registerGroup => o.registerGroup = 0
  | .kthreadRunNetlink => o.kthreadRunNetlink.isNone
  | .serverAddress => p.peer ≠ 0 ∧ 0 ≤ p.port
  | .kzallocServer => o.kzallocServer
  | .kthreadRunServer => o.kthreadRunServer.isNone

/-- The calls made for the timer, or for the interrupt. -/
def triggerCalls (p : Params) : List Call :=
  if p.noirq ≠ 0 then [.hrtimerStart]
  else [.gpioIntIsValid, .pinctrlGet, .pinctrlLookupState, .pinctrlSelectState, .gpioRequestInt,
    .gpioToIrq, .requestIrq]

/-- The calls made for netlink, if it is enabled. -/
def netlinkCalls (p : Params) : List Call :=
  if p.nonetlink = 0 then
    [.kzallocNetlinkServer, .netlinkKernelCreate, .registerFamily, .registerGroup,
      .kthreadRunNetlink]
  else []

/-- The calls made for the server, if it is enabled. -/
def serverCalls (p : Params) : List Call :=
  if p.noserver = 0 then [.serverAddress, .kzallocServer, .kthreadRunServer] else []

/-- The calls `probe` makes when none of them fails, in order. -/
def calls (p : Params) : List Call :=
  .checkFunctionality :: .gpioLedIsValid :: .kzallocClientData :: .scriptParserFetch ::
    .gpioRequestLed :: .sysfsCreateBinFile :: .devicePing :: .deviceInit :: .createWorkqueue ::
    (triggerCalls p ++ (netlinkCalls p ++ serverCalls p))

/-- The first call that fails. -/
def firstFailure (p : Params) (o : Outcomes) : Option Call :=
  (calls p).find? fun c => !succeeds p o c

/-- The failures `probe` unwinds. -/
def unwinds (p : Params) : Call → Bool
  | .kzallocClientData | .createWorkqueue | .gpioToIrq | .requestIrq | .kzallocNetlinkServer
  | .netlinkKernelCreate | .registerGroup | .kthreadRunNetlink | .kzallocServer => false
  | .registerFamily => p.noirq ≠ 0
  | .serverAddress | .kthreadRunServer => p.noirq ≠ 0 ∧ p.nonetlink ≠ 0
  | _ => true

/-! ### What is held along the way -/

/-- What is held from the work queue on. -/
def baseHeld (o : Outcomes) : List Resource :=
  (if o.createWorkqueue then [.workqueue] else []) ++ [.binFile, .gpioLed, .clientData]

/-- What the timer takes, or the interrupt. -/
def triggerHeld (p : Params) (o : Outcomes) : List Resource :=
  if p.noirq ≠ 0 then [.timer] else [.irqAction o.gpioToIrq .device, .gpioInt, .pinctrl]

/-- What netlink takes. -/
def netlinkHeld (p : Params) (o : Outcomes) : List Resource :=
  if p.nonetlink = 0 then
    [.thread .netlink, .netlinkGroup, .netlinkFamily] ++
      (if o.netlinkKernelCreate then [.netlinkSocket] else []) ++ [.netlinkServer]
  else []

/-- What the server takes. -/
def serverHeld (p : Params) : List Resource :=
  if p.noserver = 0 then [.thread .server, .server] else []

/-- The handles once the work queue is set up. -/
def onWorkqueue (o : Outcomes) : Handles :=
  { irq := o.clientIrq, workqueue := o.createWorkqueue, netlinkServer := none, server := none,
    held := some (baseHeld o) }

/-- The handles once the timer or the interrupt is set up. -/
def onTrigger (p : Params) (o : Outcomes) : Handles :=
  { onWorkqueue o with
    irq := if p.noirq ≠ 0 then o.clientIrq else o.gpioToIrq
    held := some (triggerHeld p o ++ baseHeld o) }

/-- The handles once netlink is set up, if it is to be. -/
def onNetlink (p : Params) (o : Outcomes) : Handles :=
  { onTrigger p o with
    netlinkServer :=
      if p.nonetlink = 0 then some { socket := o.netlinkKernelCreate, thread := true } else none
    held := some (netlinkHeld p o ++ (triggerHeld p o ++ baseHeld o)) }

/-- The handles at the end of a probe that returns 0. -/
def onServer (p : Params) (o : Outcomes) : Handles :=
  { onNetlink p o with
    server := if p.noserver = 0 then some { thread := true } else none
    held := some (serverHeld p ++ (netlinkHeld p o ++ (triggerHeld p o ++ baseHeld o))) }

/-- The resource is one the driver takes at some point; the others it only gives back. -/
def Taken : Resource → Prop
  | .gpioExport | .gpioNumber | .operationRecord | .taskStruct _ | .irqAction _ .null => False
  | _ => True

/-! ### Verdicts -/

/-- An error, and nothing held. -/
def Unwound (result : Option (Int × Handles)) : Prop :=
  ∃ err s, result = some (err, s) ∧ err ≠ 0 ∧ s.held = some []

/-- No error is returned with nothing held: the run has ended in a fault, or claims success,
or holds something still, or has released what it did not hold. -/
def GoesWrong (result : Option (Int × Handles)) : Prop :=
  ∀ err s, result = some (err, s) → err = 0 ∨ s.held ≠ some []

/-- What becomes of the rest of a probe, by the first of the calls still to come that fails. -/
def Behaves (p : Params) (o : Outcomes) (cs : List Call) (result : Option (Int × Handles)) : Prop :=
  match cs.find? fun c => !succeeds p o c with
  | none => result = some (0, onServer p o)
  | some c => if unwinds p c then Unwound result else GoesWrong result

section

variable {p : Params} {o : Outcomes}

theorem behaves_nil {result : Option (Int × Handles)} (h : result = some (0, onServer p o)) :
    Behaves p o [] result := h

/-- The next call is the first that fails, or it succeeds and the rest decides. -/
theorem behaves_cons {c : Call} {cs : List Call} {result : Option (Int × Handles)}
    (hfail : succeeds p o c = false → if unwinds p c then Unwound result else GoesWrong result)
    (hok : succeeds p o c = true → Behaves p o cs result) :
    Behaves p o (c :: cs) result := by
  unfold Behaves
  cases h : succeeds p o c with
  | true =>
      rw [List.find?_cons_of_neg (by simp [h])]
      exact hok h
  | false =>
      rw [List.find?_cons_of_pos (by simp [h])]
      exact hfail h

theorem unwound_or_wrong {result : Option (Int × Handles)} {b : Bool}
    (hgood : b = true → Unwound result) (hbad : b = false → GoesWrong result) :
    if b then Unwound result else GoesWrong result := by
  cases b with
  | true => exact hgood rfl
  | false => exact hbad rfl

theorem goesWrong_none : GoesWrong none := by
  intro err s h
  cases h

/-- An account that does not come out even goes wrong whatever is returned. -/
theorem goesWrong_some {err : Int} {s : Handles} (h : s.held ≠ some []) :
    GoesWrong (some (err, s)) := by
  rintro _ _ ⟨⟩
  exact Or.inr h

/-- A part goes wrong if its label leaves the account uneven and what comes next goes wrong. -/
theorem goesWrong_orGoto {result : Option (Int × Handles)} {label : Handles → Handles}
    {next : Handles → Option (Int × Handles)}
    (hlabel : ∀ err s, result = some (err, s) → err ≠ 0 → (label s).held ≠ some [])
    (hnext : ∀ s, result = some (0, s) → GoesWrong (next s)) :
    GoesWrong (orGoto result label next) := by
  cases hresult : result with
  | none => exact goesWrong_none
  | some r =>
      obtain ⟨err, s⟩ := r
      by_cases herr : err = 0
      · subst herr
        exact hnext s hresult
      · rw [orGoto_err rfl herr]
        exact goesWrong_some (hlabel err s hresult herr)

/-! ### Resources the labels do not give back -/

variable {r : Resource} {s : Handles}

theorem keeps_release {r' : Resource} (h : Keeps r s.held) (hne : r ≠ r') :
    Keeps r (s.release r').held := h.release hne

/-- The labels from `error8` down give back the four resources taken first, and no other. -/
theorem error8_keeps (h : Keeps r s.held)
    (hr : r ∉ [.workqueue, .binFile, .gpioLed, .clientData]) : Keeps r (error8 s).held := by
  simp only [List.mem_cons, List.not_mem_nil, or_false, not_or] at hr
  obtain ⟨hwq, hbin, hled, hclient⟩ := hr
  refine keeps_release (keeps_release (keeps_release ?_ hbin) hled) hclient
  unfold wqFini
  split
  · exact keeps_release h hwq
  · exact keeps_none

theorem irqFini_keeps (h : Keeps r s.held)
    (hr : r ∉ [.irqAction s.irq .null, .gpioExport, .gpioNumber, .gpioInt, .pinctrl]) :
    Keeps r (irqFini s).held := by
  simp only [List.mem_cons, List.not_mem_nil, or_false, not_or] at hr
  obtain ⟨hirq, hexport, hnumber, hint, hpin⟩ := hr
  exact keeps_release (keeps_release (keeps_release (keeps_release (keeps_release h hirq) hexport)
    hnumber) hint) hpin

/-- A handler registered with a device, or a thread, survives every label from `error9` down. -/
theorem error9_keeps (h : Keeps r s.held)
    (hr : (∃ n, r = .irqAction n .device) ∨ ∃ f, r = .thread f) : Keeps r (error9 p s).held := by
  refine error8_keeps ?_ (by rcases hr with ⟨n, rfl⟩ | ⟨f, rfl⟩ <;> simp)
  split
  · exact keeps_release h (by rcases hr with ⟨n, rfl⟩ | ⟨f, rfl⟩ <;> simp)
  · exact irqFini_keeps h (by rcases hr with ⟨n, rfl⟩ | ⟨f, rfl⟩ <;> simp)

theorem netlinkKernelRelease_keeps (h : Keeps r s.held) (hr : r ≠ .netlinkSocket) :
    Keeps r (netlinkKernelRelease s).held := by
  unfold netlinkKernelRelease
  split
  · exact keeps_release h hr
  · exact keeps_none

theorem stopThread_keeps {sendSig : Forwarder → Int} {f : Forwarder} (h : Keeps r s.held)
    (hthread : r ≠ .thread f) (htask : r ≠ .taskStruct f) :
    Keeps r (stopThread sendSig f s).held := by
  unfold stopThread
  split
  · exact h
  · exact keeps_release (keeps_release h hthread) htask

/-- Stopping a thread either leaves it running or frees a `task_struct` that is not the
driver's. -/
theorem stopThread_spoils {sendSig : Forwarder → Int} {f : Forwarder}
    (hthread : Keeps (.thread f) s.held) (hwithin : Within Taken s.held) :
    Keeps (.thread f) (stopThread sendSig f s).held := by
  unfold stopThread
  split
  · exact hthread
  · have hnone : ((s.release (.thread f)).release (.taskStruct f)).held = none :=
      (Within.release hwithin).release_eq_none (by simp [Taken])
    rw [hnone]
    exact keeps_none

/-- What follows the thread in `netlink_fini`. -/
theorem netlinkTail_keeps (h : Keeps r s.held)
    (hr : r ∉ [.netlinkGroup, .netlinkFamily, .netlinkSocket, .netlinkServer]) :
    Keeps r (freeNetlinkServer
      (netlinkKernelRelease ((s.release .netlinkGroup).release .netlinkFamily))).held := by
  simp only [List.mem_cons, List.not_mem_nil, or_false, not_or] at hr
  obtain ⟨hgroup, hfamily, hsocket, hserver⟩ := hr
  exact keeps_release (netlinkKernelRelease_keeps
    (keeps_release (keeps_release h hgroup) hfamily) hsocket) hserver

theorem netlinkFini_keeps {sendSig : Forwarder → Int} (h : Keeps r s.held)
    (hr : r ∉ [.thread .netlink, .taskStruct .netlink, .netlinkGroup, .netlinkFamily,
      .netlinkSocket, .netlinkServer]) : Keeps r (netlinkFini sendSig s).held := by
  unfold netlinkFini
  split
  · exact h
  · simp only [List.mem_cons, not_or] at hr
    refine netlinkTail_keeps ?_ (by simp only [List.mem_cons, not_or]; exact hr.2.2)
    split
    · exact stopThread_keeps h hr.1 hr.2.1
    · exact h

/-- `netlink_fini` cannot undo `netlink_init`. -/
theorem netlinkFini_spoils {sendSig : Forwarder → Int} {socket : Bool}
    (hrecord : s.netlinkServer = some { socket, thread := true })
    (hthread : Keeps (.thread .netlink) s.held) (hwithin : Within Taken s.held) :
    Keeps (.thread .netlink) (netlinkFini sendSig s).held := by
  unfold netlinkFini
  rw [hrecord]
  exact netlinkTail_keeps (stopThread_spoils hthread hwithin) (by simp)

/-! ### Resources that are never taken -/

theorem onWorkqueue_within : Within Taken (onWorkqueue o).held := by
  rintro _ ⟨⟩
  unfold baseHeld
  split <;> simp [Taken]

theorem onTrigger_within : Within Taken (onTrigger p o).held := by
  rintro _ ⟨⟩
  refine List.forall_mem_append.mpr ⟨?_, onWorkqueue_within _ rfl⟩
  unfold triggerHeld
  split <;> simp [Taken]

theorem onNetlink_within : Within Taken (onNetlink p o).held := by
  rintro _ ⟨⟩
  refine List.forall_mem_append.mpr ⟨?_, onTrigger_within _ rfl⟩
  unfold netlinkHeld
  split
  · split <;> simp [Taken]
  · simp

/-- `error4` of `irq_init` unexports and frees a GPIO that was neither exported nor requested. -/
theorem irqError4_none (h : Within Taken s.held) : (irqError4 s).held = none := by
  show Unwind.release _ (Unwind.release _ (Unwind.release _ (Unwind.release .gpioExport s.held)))
    = none
  rw [h.release_eq_none (by simp [Taken])]
  rfl

theorem netlinkError2_none (h : s.held = none) : (netlinkError2 s).held = none := by
  show Unwind.release _ (netlinkKernelRelease s).held = none
  unfold netlinkKernelRelease
  split
  · show Unwind.release _ (Unwind.release _ s.held) = none
    rw [h]
    rfl
  · rfl

/-- `error4` of `netlink_init` unregisters operations that were never registered. -/
theorem netlinkError4_none (h : Within Taken s.held) : (netlinkError4 s).held = none := by
  refine netlinkError2_none ?_
  show Unwind.release _ (Unwind.release .operationRecord s.held) = none
  rw [h.release_eq_none (by simp [Taken])]
  rfl

/-! ### What the parts leave when they return 0 -/

theorem errno_ne_zero (err : Errno) : err.val ≠ 0 := by
  have := err.property.2
  omega

theorem triggerInit_zero {s : Handles} (h : triggerInit p o (onWorkqueue o) = (0, s)) :
    s = onTrigger p o := by
  unfold triggerInit at h
  by_cases hirq : p.noirq ≠ 0
  · rw [if_pos hirq] at h
    unfold timerInit at h
    split at h
    next herr => exact absurd (Prod.mk.inj h).1 herr
    next =>
      rw [← (Prod.mk.inj h).2]
      simp [onTrigger, triggerHeld, hirq, onWorkqueue, Handles.acquire]
  · rw [if_neg hirq] at h
    unfold irqInit at h
    split at h
    · exact absurd (Prod.mk.inj h).1 (errno_ne_zero _)
    split at h
    next err _ => exact absurd (Prod.mk.inj h).1 (errno_ne_zero err)
    dsimp only at h
    split at h
    next err _ => exact absurd (Prod.mk.inj h).1 (errno_ne_zero err)
    split at h
    next herr => exact absurd (Prod.mk.inj h).1 herr
    split at h
    · exact absurd (Prod.mk.inj h).1 (errno_ne_zero _)
    split at h
    next hneg => exact absurd (Prod.mk.inj h).1 (Int.ne_of_lt hneg)
    split at h
    next herr => exact absurd (Prod.mk.inj h).1 herr
    rw [← (Prod.mk.inj h).2]
    simp [onTrigger, triggerHeld, hirq, onWorkqueue, Handles.acquire]

theorem netlinkStart_zero {s : Handles} (h : netlinkStart p o (onTrigger p o) = some (0, s)) :
    s = onNetlink p o := by
  unfold netlinkStart at h
  by_cases hnet : p.nonetlink = 0
  · rw [if_pos hnet] at h
    unfold netlinkInit at h
    split at h
    next hsome => cases hsome
    split at h
    · cases h
    dsimp only at h
    split at h
    next herr => exact absurd (Prod.mk.inj (Option.some.inj h)).1 herr
    split at h
    next herr => exact absurd (Prod.mk.inj (Option.some.inj h)).1 herr
    split at h
    next err _ => exact absurd (Prod.mk.inj (Option.some.inj h)).1 (errno_ne_zero err)
    rw [← (Prod.mk.inj (Option.some.inj h)).2]
    cases hsocket : o.netlinkKernelCreate <;>
      simp [onNetlink, netlinkHeld, hnet, hsocket, onTrigger, onWorkqueue, Handles.acquire]
  · rw [if_neg hnet] at h
    rw [← (Prod.mk.inj (Option.some.inj h)).2]
    simp [onNetlink, netlinkHeld, hnet, onTrigger, onWorkqueue]

/-- The server either starts, or fails and leaves everything as it was. -/
theorem serverStart_cases {err : Int} {s : Handles}
    (h : serverStart p o (onNetlink p o) = some (err, s)) :
    s = if err = 0 then onServer p o else onNetlink p o := by
  unfold serverStart at h
  by_cases hserver : p.noserver = 0
  · rw [if_pos hserver] at h
    unfold serverInit at h
    split at h
    · cases h
      rfl
    split at h
    next hsome => cases hsome
    split at h
    · cases h
    dsimp only at h
    split at h
    next e _ =>
      cases h
      rw [if_neg (errno_ne_zero e)]
      simp [freeServer, Handles.acquire, Handles.release, onNetlink, onTrigger, onWorkqueue]
    cases h
    simp [onServer, serverHeld, hserver, onNetlink, onTrigger, onWorkqueue, Handles.acquire]
  · rw [if_neg hserver] at h
    cases h
    simp [onServer, serverHeld, hserver, onNetlink, onTrigger, onWorkqueue]

/-- What is held once the netlink socket has been asked for. -/
theorem netlinkSocket_within :
    Within Taken (if o.netlinkKernelCreate
      then ((onTrigger p o).acquire .netlinkServer).acquire .netlinkSocket
      else (onTrigger p o).acquire .netlinkServer).held := by
  have hserver : Within Taken ((onTrigger p o).acquire .netlinkServer).held :=
    onTrigger_within.acquire trivial
  split
  · exact hserver.acquire trivial
  · exact hserver

/-- A netlink part that fails has released what it did not hold; only with its socket, and
failing to register the family, has it taken everything back. -/
theorem netlinkStart_err {err : Int} {s : Handles}
    (h : netlinkStart p o (onTrigger p o) = some (err, s)) (herr : err ≠ 0) :
    s.held = none ∨
      (s = onTrigger p o ∧ o.netlinkKernelCreate = true ∧ o.registerFamily ≠ 0) := by
  unfold netlinkStart at h
  by_cases hnet : p.nonetlink = 0
  · rw [if_pos hnet] at h
    unfold netlinkInit at h
    split at h
    next hsome => cases hsome
    split at h
    · cases h
    dsimp only at h
    split at h
    next hfamily =>
      cases h
      cases hsocket : o.netlinkKernelCreate with
      | true =>
          refine Or.inr ⟨?_, rfl, hfamily⟩
          simp [netlinkError2, netlinkKernelRelease, freeNetlinkServer, Handles.acquire,
            Handles.release, onTrigger, onWorkqueue]
      | false => exact Or.inl rfl
    split at h
    · cases h
      exact Or.inl (netlinkError4_none (Within.acquire netlinkSocket_within trivial))
    split at h
    · cases h
      exact Or.inl (netlinkError4_none (Within.release (Within.acquire
        (Within.acquire netlinkSocket_within trivial) trivial)))
    · cases h
      exact absurd rfl herr
  · rw [if_neg hnet] at h
    cases h
    exact absurd rfl herr

/-- A timer or interrupt that fails has taken everything back, or has released what it did not
hold. -/
theorem triggerInit_err {err : Int} {s : Handles} (h : triggerInit p o (onWorkqueue o) = (err, s))
    (herr : err ≠ 0) :
    s.held = none ∨ (s.held = some (baseHeld o) ∧ s.workqueue = o.createWorkqueue) := by
  unfold triggerInit at h
  by_cases hirq : p.noirq ≠ 0
  · rw [if_pos hirq] at h
    unfold timerInit at h
    split at h <;> cases h
    · exact Or.inr ⟨rfl, rfl⟩
    · exact absurd rfl herr
  · rw [if_neg hirq] at h
    unfold irqInit at h
    split at h
    · cases h
      exact Or.inr ⟨rfl, rfl⟩
    split at h
    · cases h
      exact Or.inr ⟨rfl, rfl⟩
    dsimp only at h
    have hback : ((onWorkqueue o).acquire .pinctrl |> irqError1).held = some (baseHeld o) := by
      simp [irqError1, Handles.acquire, Handles.release, onWorkqueue]
    split at h
    · cases h
      exact Or.inr ⟨hback, rfl⟩
    split at h
    · cases h
      exact Or.inr ⟨hback, rfl⟩
    split at h
    · cases h
      exact Or.inr ⟨hback, rfl⟩
    have hpinctrl : Within Taken ((onWorkqueue o).acquire .pinctrl).held :=
      onWorkqueue_within.acquire trivial
    have hwithin : Within Taken (((onWorkqueue o).acquire .pinctrl).acquire .gpioInt).held :=
      hpinctrl.acquire trivial
    split at h
    · cases h
      exact Or.inl (irqError4_none hwithin)
    split at h <;> cases h
    · exact Or.inl (irqError4_none hwithin)
    · exact absurd rfl herr

/-! ### The parts that go wrong whatever fails -/

/-- An account that is void stays so down to the last label. -/
theorem error8_of_none (h : s.held = none) : (error8 s).held ≠ some [] :=
  (error8_keeps (r := .timer) (by rw [h]; exact keeps_none) (by simp)).ne_nil

theorem error9_of_none (h : s.held = none) : (error9 p s).held ≠ some [] :=
  (error9_keeps (r := .thread .netlink) (by rw [h]; exact keeps_none) (Or.inr ⟨_, rfl⟩)).ne_nil

/-- Without a work queue `wq_fini` passes on a `NULL`. -/
theorem error8_of_no_workqueue (h : s.workqueue = false) : (error8 s).held ≠ some [] := by
  have hnone : (wqFini s).held = none := by
    unfold wqFini
    rw [h]
    rfl
  have hvoid : (error8 s).held = none := by
    show Unwind.release _ (Unwind.release _ (Unwind.release _ (wqFini s).held)) = none
    rw [hnone]
    rfl
  simp [hvoid]

theorem error9_of_no_workqueue (h : s.workqueue = false) : (error9 p s).held ≠ some [] := by
  refine error8_of_no_workqueue ?_
  split
  · exact h
  · exact h

theorem netlinkFini_workqueue (sendSig : Forwarder → Int) (s : Handles) :
    (netlinkFini sendSig s).workqueue = s.workqueue := by
  have hrelease : ∀ s : Handles, (netlinkKernelRelease s).workqueue = s.workqueue := by
    intro s
    unfold netlinkKernelRelease
    split <;> rfl
  unfold netlinkFini stopThread
  split
  · rfl
  · show (netlinkKernelRelease _).workqueue = _
    rw [hrelease]
    split
    · split <;> rfl
    · rfl

/-- Past an interrupt or netlink that was set up, or without a work queue, the server part goes
wrong whenever it fails. -/
theorem probeServer_goesWrong
    (h : p.noirq = 0 ∨ p.nonetlink = 0 ∨ o.createWorkqueue = false) :
    GoesWrong (probeServer p o (onNetlink p o)) := by
  refine goesWrong_orGoto ?_ ?_
  · intro err s hs herr
    have hsame := serverStart_cases hs
    rw [if_neg herr] at hsame
    subst hsame
    rcases h with hirq | hnet | hwq
    · have hkeep : Keeps (.irqAction o.gpioToIrq .device) (onNetlink p o).held :=
        keeps_some (by simp [triggerHeld, hirq])
      refine (error9_keeps (r := .irqAction o.gpioToIrq .device) ?_ (Or.inl ⟨_, rfl⟩)).ne_nil
      split
      · exact netlinkFini_keeps hkeep (by simp)
      · exact hkeep
    · refine (error9_keeps (r := .thread .netlink) ?_ (Or.inr ⟨_, rfl⟩)).ne_nil
      rw [if_pos hnet]
      have hrecord : (onNetlink p o).netlinkServer
          = some { socket := o.netlinkKernelCreate, thread := true } := by simp [onNetlink, hnet]
      exact netlinkFini_spoils hrecord (keeps_some (by simp [netlinkHeld, hnet])) onNetlink_within
    · refine error9_of_no_workqueue ?_
      split
      · exact (netlinkFini_workqueue _ _).trans hwq
      · exact hwq
  · intro s _ err s' hs'
    exact Or.inl (Prod.mk.inj (Option.some.inj hs')).1.symm

/-- So does the netlink part; and if it has no socket, or gets as far as registering the
family, it goes wrong itself. -/
theorem probeNetlink_goesWrong
    (h : p.noirq = 0 ∨ o.createWorkqueue = false ∨
      (p.nonetlink = 0 ∧ (o.netlinkKernelCreate = false ∨ o.registerFamily = 0))) :
    GoesWrong (probeNetlink p o (onTrigger p o)) := by
  refine goesWrong_orGoto ?_ ?_
  · intro err s hs herr
    rcases netlinkStart_err hs herr with hnone | ⟨rfl, hsocket, hfamily⟩
    · exact error9_of_none hnone
    · rcases h with hirq | hwq | ⟨-, hno | hzero⟩
      · exact (error9_keeps (r := .irqAction o.gpioToIrq .device)
          (keeps_some (by simp [triggerHeld, hirq])) (Or.inl ⟨_, rfl⟩)).ne_nil
      · exact error9_of_no_workqueue hwq
      · rw [hsocket] at hno
        cases hno
      · exact absurd hzero hfamily
  · intro s hs
    rw [netlinkStart_zero hs]
    refine probeServer_goesWrong ?_
    rcases h with hirq | hwq | ⟨hnet, -⟩
    · exact Or.inl hirq
    · exact Or.inr (Or.inr hwq)
    · exact Or.inr (Or.inl hnet)

/-- And of the part that sets up the timer or the interrupt. -/
theorem probeTrigger_goesWrong (hwq : o.createWorkqueue = false) :
    GoesWrong (probeTrigger p o (onWorkqueue o)) := by
  refine goesWrong_orGoto ?_ ?_
  · intro err s hs herr
    rcases triggerInit_err (Option.some.inj hs) herr with hnone | ⟨-, hsame⟩
    · exact error8_of_none hnone
    · exact error8_of_no_workqueue (hsame.trans hwq)
  · intro s hs
    rw [triggerInit_zero (Option.some.inj hs)]
    exact probeNetlink_goesWrong (Or.inr (Or.inl hwq))

/-! ### The parts, call by call -/

theorem exists_of_isNone {result : Option Errno} (h : result.isNone = false) :
    ∃ err, result = some err := by
  cases result with
  | none => cases h
  | some err => exact ⟨err, rfl⟩

/-- The labels from `error8` down give back everything up to the work queue. -/
theorem error8_unwinds (hwq : o.createWorkqueue = true) (hheld : s.held = some (baseHeld o))
    (hsame : s.workqueue = o.createWorkqueue) : (error8 s).held = some [] := by
  unfold error8 error7 error6 error5 error2 wqFini sysfsFini
  simp [hsame, hwq, hheld, baseHeld, Handles.release]

/-- And the timer before that. -/
theorem error9_unwinds (hwq : o.createWorkqueue = true) (hirq : p.noirq ≠ 0)
    (hheld : s.held = some (.timer :: baseHeld o)) (hsame : s.workqueue = o.createWorkqueue) :
    (error9 p s).held = some [] := by
  unfold error9
  rw [if_pos hirq]
  refine error8_unwinds hwq ?_ hsame
  show Unwind.release _ s.held = _
  rw [hheld, release_cons_self]

theorem probeServer_fails {err : Int} (hwq : o.createWorkqueue = true) (herr : err ≠ 0)
    (hstart : serverStart p o (onNetlink p o) = some (err, onNetlink p o)) :
    if decide (p.noirq ≠ 0 ∧ p.nonetlink ≠ 0) then Unwound (probeServer p o (onNetlink p o))
    else GoesWrong (probeServer p o (onNetlink p o)) := by
  refine unwound_or_wrong ?_ ?_
  · intro h
    obtain ⟨hirq, hnet⟩ := of_decide_eq_true h
    refine ⟨err, _, orGoto_err hstart herr, herr, ?_⟩
    unfold error10
    rw [if_neg hnet]
    exact error9_unwinds hwq hirq
      (by simp [onNetlink, netlinkHeld, triggerHeld, hnet, hirq]) rfl
  · intro h
    have hor : p.noirq = 0 ∨ p.nonetlink = 0 := by
      have := of_decide_eq_false h
      omega
    exact probeServer_goesWrong (hor.imp_right Or.inl)

/-- `server_init` past the check of the address. -/
theorem serverStart_eq (hserver : p.noserver = 0) (haddress : p.peer ≠ 0 ∧ 0 ≤ p.port) :
    serverStart p o (onNetlink p o)
      = if o.kzallocServer = false then none
        else match o.kthreadRunServer with
          | some err => some (err.val, onNetlink p o)
          | none => some (0, onServer p o) := by
  have hvalid : ¬(p.peer = 0 ∨ p.port < 0) := by
    rintro (hpeer | hport)
    · exact haddress.1 hpeer
    · omega
  unfold serverStart serverInit
  rw [if_pos hserver, if_neg hvalid, if_neg (by simp [onNetlink, onTrigger, onWorkqueue])]
  cases hthread : o.kthreadRunServer with
  | some err =>
      simp [freeServer, Handles.acquire, Handles.release, onNetlink, onTrigger, onWorkqueue]
  | none =>
      simp [onServer, serverHeld, hserver, onNetlink, onTrigger, onWorkqueue, Handles.acquire]

theorem probeServer_behaves (hwq : o.createWorkqueue = true) :
    Behaves p o (serverCalls p) (probeServer p o (onNetlink p o)) := by
  unfold serverCalls
  by_cases hserver : p.noserver = 0
  · rw [if_pos hserver]
    refine behaves_cons (fun haddress => ?_) fun haddress => ?_
    · refine probeServer_fails hwq (errno_ne_zero einval) ?_
      have hinvalid : p.peer = 0 ∨ p.port < 0 := by
        have := of_decide_eq_false haddress
        by_contra hc
        exact this ⟨fun h => hc (Or.inl h), by omega⟩
      unfold serverStart serverInit
      rw [if_pos hserver, if_pos hinvalid]
    have heq := serverStart_eq (o := o) hserver (of_decide_eq_true haddress)
    refine behaves_cons (fun hkzalloc => ?_) fun hkzalloc => ?_
    · have hkzalloc' : o.kzallocServer = false := hkzalloc
      rw [if_pos hkzalloc'] at heq
      have hnone : probeServer p o (onNetlink p o) = none := orGoto_none heq
      rw [hnone]
      exact goesWrong_none
    have hkzalloc' : ¬o.kzallocServer = false := by simpa [succeeds] using hkzalloc
    rw [if_neg hkzalloc'] at heq
    refine behaves_cons (fun hthread => ?_) fun hthread => behaves_nil ?_
    · obtain ⟨err, herr⟩ := exists_of_isNone hthread
      rw [herr] at heq
      exact probeServer_fails hwq (errno_ne_zero err) heq
    · rw [Option.isNone_iff_eq_none.mp hthread] at heq
      exact orGoto_zero heq
  · rw [if_neg hserver]
    refine behaves_nil (orGoto_zero (s := onServer p o) ?_)
    unfold serverStart
    rw [if_neg hserver]
    simp [onServer, serverHeld, hserver, onNetlink, onTrigger, onWorkqueue]

/-- Netlink set up, or not to be set up, the server decides. -/
theorem probeNetlink_goesOn (hwq : o.createWorkqueue = true) {s : Handles}
    (hs : netlinkStart p o (onTrigger p o) = some (0, s)) :
    Behaves p o (serverCalls p) (probeNetlink p o (onTrigger p o)) := by
  unfold probeNetlink
  rw [orGoto_zero hs, netlinkStart_zero hs]
  exact probeServer_behaves hwq

theorem probeNetlink_behaves (hwq : o.createWorkqueue = true) :
    Behaves p o (netlinkCalls p ++ serverCalls p) (probeNetlink p o (onTrigger p o)) := by
  unfold netlinkCalls
  by_cases hnet : p.nonetlink = 0
  · rw [if_pos hnet]
    have hstart : netlinkStart p o (onTrigger p o) = netlinkInit o (onTrigger p o) := if_pos hnet
    have hwrong : (o.netlinkKernelCreate = false ∨ o.registerFamily = 0) →
        GoesWrong (probeNetlink p o (onTrigger p o)) :=
      fun h => probeNetlink_goesWrong (Or.inr (Or.inr ⟨hnet, h⟩))
    refine behaves_cons (fun hkzalloc => ?_) fun hkzalloc => ?_
    · have hkzalloc' : o.kzallocNetlinkServer = false := hkzalloc
      have hnone : netlinkStart p o (onTrigger p o) = none := by
        rw [hstart]
        simp [netlinkInit, onTrigger, onWorkqueue, hkzalloc']
      have hprobe : probeNetlink p o (onTrigger p o) = none := orGoto_none hnone
      rw [hprobe]
      exact goesWrong_none
    have hkzalloc' : o.kzallocNetlinkServer = true := hkzalloc
    refine behaves_cons (fun hsocket => hwrong (Or.inl hsocket)) fun hsocket => ?_
    have hsocket' : o.netlinkKernelCreate = true := hsocket
    refine behaves_cons (fun hfamily => ?_) fun hfamily => ?_
    · -- the one failure that is unwound, as far as `error9` can unwind what came before
      have hfamily' : o.registerFamily ≠ 0 := of_decide_eq_false hfamily
      have herr : netlinkStart p o (onTrigger p o) = some (o.registerFamily, onTrigger p o) := by
        rw [hstart]
        simp [netlinkInit, hkzalloc', hsocket', hfamily', netlinkError2, netlinkKernelRelease,
          freeNetlinkServer, Handles.acquire, Handles.release, onTrigger, onWorkqueue]
      refine unwound_or_wrong (fun hgood => ?_) fun hbad => ?_
      · have hirq : p.noirq ≠ 0 := of_decide_eq_true hgood
        refine ⟨_, _, orGoto_err herr hfamily', hfamily', ?_⟩
        exact error9_unwinds hwq hirq (by simp [onTrigger, triggerHeld, hirq]) rfl
      · exact probeNetlink_goesWrong (Or.inl (not_not.mp (of_decide_eq_false hbad)))
    have hfamily' : o.registerFamily = 0 := of_decide_eq_true hfamily
    refine behaves_cons (fun _ => hwrong (Or.inr hfamily')) fun hgroup => ?_
    have hgroup' : o.registerGroup = 0 := of_decide_eq_true hgroup
    refine behaves_cons (fun _ => hwrong (Or.inr hfamily')) fun hthread => ?_
    have hthread' : o.kthreadRunNetlink = none := Option.isNone_iff_eq_none.mp hthread
    obtain ⟨s, hs⟩ : ∃ s, netlinkStart p o (onTrigger p o) = some (0, s) := by
      rw [hstart]
      simp [netlinkInit, onTrigger, onWorkqueue, hkzalloc', hfamily', hgroup', hthread']
    exact probeNetlink_goesOn hwq hs
  · rw [if_neg hnet]
    exact probeNetlink_goesOn hwq (if_neg hnet)

/-- The timer or the interrupt set up, netlink and the server decide. -/
theorem probeTrigger_goesOn (hwq : o.createWorkqueue = true) {s : Handles}
    (hs : triggerInit p o (onWorkqueue o) = (0, s)) :
    Behaves p o (netlinkCalls p ++ serverCalls p) (probeTrigger p o (onWorkqueue o)) := by
  unfold probeTrigger
  rw [orGoto_zero (congrArg some hs), triggerInit_zero hs]
  exact probeNetlink_behaves hwq

/-- A failure that leaves the account good is unwound. -/
theorem probeTrigger_unwound (hwq : o.createWorkqueue = true) {err : Int} {s : Handles}
    (hs : triggerInit p o (onWorkqueue o) = (err, s)) (herr : err ≠ 0) (hheld : s.held ≠ none) :
    Unwound (probeTrigger p o (onWorkqueue o)) := by
  obtain ⟨hbase, hsame⟩ := (triggerInit_err hs herr).resolve_left hheld
  exact ⟨err, _, orGoto_err (congrArg some hs) herr, herr, error8_unwinds hwq hbase hsame⟩

/-- One that leaves it void goes wrong. -/
theorem probeTrigger_void {err : Int} {s : Handles}
    (hs : triggerInit p o (onWorkqueue o) = (err, s)) (herr : err ≠ 0) (hheld : s.held = none) :
    GoesWrong (probeTrigger p o (onWorkqueue o)) := by
  unfold probeTrigger
  rw [orGoto_err (congrArg some hs) herr]
  exact goesWrong_some (error8_of_none hheld)

theorem probeTrigger_behaves_timer (hwq : o.createWorkqueue = true) (hirq : p.noirq ≠ 0) :
    Behaves p o (.hrtimerStart :: (netlinkCalls p ++ serverCalls p))
      (probeTrigger p o (onWorkqueue o)) := by
  have hstart : triggerInit p o (onWorkqueue o) = timerInit o (onWorkqueue o) := if_pos hirq
  unfold timerInit at hstart
  refine behaves_cons (fun htimer => ?_) fun htimer => ?_
  · rw [if_pos (of_decide_eq_false htimer)] at hstart
    exact probeTrigger_unwound hwq hstart (of_decide_eq_false htimer) (by simp [onWorkqueue])
  · rw [if_neg (not_not.mpr (of_decide_eq_true htimer))] at hstart
    exact probeTrigger_goesOn hwq hstart

/-- The labels give back what there is, up to the one that unexports the GPIO. -/
theorem probeTrigger_behaves_irq (hwq : o.createWorkqueue = true) (hirq : ¬p.noirq ≠ 0) :
    Behaves p o (.gpioIntIsValid :: .pinctrlGet :: .pinctrlLookupState :: .pinctrlSelectState ::
        .gpioRequestInt :: .gpioToIrq :: .requestIrq :: (netlinkCalls p ++ serverCalls p))
      (probeTrigger p o (onWorkqueue o)) := by
  have hstart : triggerInit p o (onWorkqueue o) = irqInit o (onWorkqueue o) := if_neg hirq
  have hback : (irqError1 ((onWorkqueue o).acquire .pinctrl)).held ≠ none := by
    simp [irqError1, Handles.acquire, Handles.release, onWorkqueue]
  unfold irqInit at hstart
  refine behaves_cons (fun hvalid => ?_) fun hvalid => ?_
  · have hvalid' : o.gpioIntIsValid = false := hvalid
    rw [if_pos hvalid'] at hstart
    exact probeTrigger_unwound hwq hstart (errno_ne_zero einval) (by simp [onWorkqueue])
  have hvalid' : ¬o.gpioIntIsValid = false := by simpa [succeeds] using hvalid
  rw [if_neg hvalid'] at hstart
  refine behaves_cons (fun hget => ?_) fun hget => ?_
  · obtain ⟨err, herr⟩ := exists_of_isNone hget
    rw [herr] at hstart
    exact probeTrigger_unwound hwq hstart (errno_ne_zero err) (by simp [onWorkqueue])
  rw [Option.isNone_iff_eq_none.mp hget] at hstart
  dsimp only at hstart
  refine behaves_cons (fun hlookup => ?_) fun hlookup => ?_
  · obtain ⟨err, herr⟩ := exists_of_isNone hlookup
    rw [herr] at hstart
    exact probeTrigger_unwound hwq hstart (errno_ne_zero err) hback
  rw [Option.isNone_iff_eq_none.mp hlookup] at hstart
  dsimp only at hstart
  refine behaves_cons (fun hselect => ?_) fun hselect => ?_
  · rw [if_pos (of_decide_eq_false hselect)] at hstart
    exact probeTrigger_unwound hwq hstart (of_decide_eq_false hselect) hback
  rw [if_neg (not_not.mpr (of_decide_eq_true hselect))] at hstart
  refine behaves_cons (fun hgpio => ?_) fun hgpio => ?_
  · have hgpio' : o.gpioRequestInt = false := hgpio
    rw [if_pos hgpio'] at hstart
    exact probeTrigger_unwound hwq hstart (errno_ne_zero enosys) hback
  have hgpio' : ¬o.gpioRequestInt = false := by simpa [succeeds] using hgpio
  rw [if_neg hgpio'] at hstart
  -- from here on the label is `error4`
  have hpinctrl : Within Taken ((onWorkqueue o).acquire .pinctrl).held :=
    onWorkqueue_within.acquire trivial
  have hwithin : Within Taken (((onWorkqueue o).acquire .pinctrl).acquire .gpioInt).held :=
    hpinctrl.acquire trivial
  refine behaves_cons (fun hirqno => ?_) fun hirqno => ?_
  · have hirqno' : o.gpioToIrq < 0 := by
      have := of_decide_eq_false hirqno
      omega
    rw [if_pos hirqno'] at hstart
    exact probeTrigger_void hstart (Int.ne_of_lt hirqno') (irqError4_none hwithin)
  have hirqno' : ¬o.gpioToIrq < 0 := by
    have := of_decide_eq_true hirqno
    omega
  rw [if_neg hirqno'] at hstart
  refine behaves_cons (fun hrequest => ?_) fun hrequest => ?_
  · rw [if_pos (of_decide_eq_false hrequest)] at hstart
    exact probeTrigger_void hstart (of_decide_eq_false hrequest) (irqError4_none hwithin)
  rw [if_neg (not_not.mpr (of_decide_eq_true hrequest))] at hstart
  exact probeTrigger_goesOn hwq hstart

theorem probeTrigger_behaves (hwq : o.createWorkqueue = true) :
    Behaves p o (triggerCalls p ++ (netlinkCalls p ++ serverCalls p))
      (probeTrigger p o (onWorkqueue o)) := by
  unfold triggerCalls
  by_cases hirq : p.noirq ≠ 0
  · rw [if_pos hirq]
    exact probeTrigger_behaves_timer hwq hirq
  · rw [if_neg hirq]
    exact probeTrigger_behaves_irq hwq hirq

/-- The handles when the sysfs file is about to be made. -/
def onGpioLed (o : Outcomes) : Handles :=
  ((Handles.zero o.clientIrq).acquire .clientData).acquire .gpioLed

theorem wqInit_eq (o : Outcomes) :
    wqInit o ((onGpioLed o).acquire .binFile) = (0, onWorkqueue o) := by
  unfold wqInit
  cases hwq : o.createWorkqueue <;>
    simp [onGpioLed, Handles.zero, Handles.acquire, onWorkqueue, baseHeld, hwq]

theorem probeDevice_behaves :
    Behaves p o
      (.sysfsCreateBinFile :: .devicePing :: .deviceInit :: .createWorkqueue ::
        (triggerCalls p ++ (netlinkCalls p ++ serverCalls p)))
      (probeDevice p o (onGpioLed o)) := by
  refine behaves_cons (fun hsysfs => ?_) fun hsysfs => ?_
  · have hsysfs' : o.sysfsCreateBinFile ≠ 0 := of_decide_eq_false hsysfs
    have heq : sysfsInit o (onGpioLed o) = (o.sysfsCreateBinFile, onGpioLed o) := if_pos hsysfs'
    refine ⟨_, _, orGoto_err (congrArg some heq) hsysfs', hsysfs', ?_⟩
    simp [error5, error2, onGpioLed, Handles.zero, Handles.acquire, Handles.release]
  have hsysfs' : sysfsInit o (onGpioLed o) = (0, (onGpioLed o).acquire .binFile) :=
    if_neg (not_not.mpr (of_decide_eq_true hsysfs))
  have heq : probeDevice p o (onGpioLed o)
      = orGoto (some (o.devicePing, (onGpioLed o).acquire .binFile)) error6 fun s =>
        orGoto (some (o.deviceInit, s)) error6 fun s =>
        orGoto (some (wqInit o s)) error7 (probeTrigger p o) :=
    orGoto_zero (congrArg some hsysfs')
  have hback : (error6 ((onGpioLed o).acquire .binFile)).held = some [] := by
    simp [error6, error5, error2, sysfsFini, onGpioLed, Handles.zero, Handles.acquire,
      Handles.release]
  refine behaves_cons (fun hping => ?_) fun hping => ?_
  · have hping' : o.devicePing ≠ 0 := of_decide_eq_false hping
    exact ⟨_, _, heq.trans (orGoto_err rfl hping'), hping', hback⟩
  have hping' : o.devicePing = 0 := of_decide_eq_true hping
  rw [hping', orGoto_zero rfl] at heq
  refine behaves_cons (fun hinit => ?_) fun hinit => ?_
  · have hinit' : o.deviceInit ≠ 0 := of_decide_eq_false hinit
    exact ⟨_, _, heq.trans (orGoto_err rfl hinit'), hinit', hback⟩
  have hinit' : o.deviceInit = 0 := of_decide_eq_true hinit
  rw [hinit', orGoto_zero rfl, orGoto_zero (congrArg some (wqInit_eq o))] at heq
  rw [heq]
  exact behaves_cons probeTrigger_goesWrong probeTrigger_behaves

/-- **What becomes of a probe is decided by the first call that fails.** -/
theorem probe_behaves (p : Params) (o : Outcomes) : Behaves p o (calls p) (probe p o) := by
  unfold probe
  refine behaves_cons (fun hfunc => ?_) fun hfunc => ?_
  · have hfunc' : o.checkFunctionality = false := hfunc
    rw [if_pos hfunc']
    exact ⟨_, _, rfl, errno_ne_zero eio, rfl⟩
  have hfunc' : ¬o.checkFunctionality = false := by simpa [succeeds] using hfunc
  rw [if_neg hfunc']
  refine behaves_cons (fun hled => ?_) fun hled => ?_
  · have hled' : o.gpioLedIsValid = false := hled
    rw [if_pos hled']
    exact ⟨_, _, rfl, errno_ne_zero enosys, rfl⟩
  have hled' : ¬o.gpioLedIsValid = false := by simpa [succeeds] using hled
  rw [if_neg hled']
  refine behaves_cons (fun halloc => ?_) fun halloc => ?_
  · have halloc' : o.kzallocClientData = false := halloc
    rw [if_pos halloc']
    exact goesWrong_none
  have halloc' : ¬o.kzallocClientData = false := by simpa [succeeds] using halloc
  rw [if_neg halloc']
  refine behaves_cons (fun hscript => ?_) fun hscript => ?_
  · rw [if_pos (of_decide_eq_false hscript)]
    exact ⟨_, _, rfl, of_decide_eq_false hscript, rfl⟩
  rw [if_neg (not_not.mpr (of_decide_eq_true hscript))]
  refine behaves_cons (fun hgpio => ?_) fun hgpio => ?_
  · have hgpio' : o.gpioRequestLed = false := hgpio
    rw [if_pos hgpio']
    exact ⟨_, _, rfl, errno_ne_zero enosys, rfl⟩
  have hgpio' : ¬o.gpioRequestLed = false := by simpa [succeeds] using hgpio
  rw [if_neg hgpio']
  exact probeDevice_behaves

end

/-! ### A failing probe -/

/-- One that returns an error holds nothing exactly if the first call that failed is one of those
it unwinds. -/
theorem failed_held_iff {p : Params} {o : Outcomes} {err : Int} {s : Handles}
    (hprobe : probe p o = some (err, s)) (herr : err ≠ 0) :
    s.held = some [] ↔ ∀ c, firstFailure p o = some c → unwinds p c = true := by
  have hbehaves := probe_behaves p o
  unfold Behaves at hbehaves
  unfold firstFailure
  cases hfirst : (calls p).find? fun c => !succeeds p o c with
  | none =>
      simp only [hfirst] at hbehaves
      rw [hprobe] at hbehaves
      exact absurd (Prod.mk.inj (Option.some.inj hbehaves)).1 herr
  | some c =>
      simp only [hfirst] at hbehaves
      cases hunwinds : unwinds p c with
      | true =>
          rw [if_pos hunwinds] at hbehaves
          obtain ⟨err', s', hprobe', -, hheld⟩ := hbehaves
          obtain ⟨-, rfl⟩ := Prod.mk.inj (Option.some.inj (hprobe.symm.trans hprobe'))
          refine iff_of_true hheld ?_
          rintro _ ⟨⟩
          exact hunwinds
      | false =>
          rw [if_neg (by simp [hunwinds])] at hbehaves
          refine iff_of_false ((hbehaves err s hprobe).resolve_left herr) ?_
          intro h
          exact absurd (hunwinds.symm.trans (h c rfl)) Bool.false_ne_true

/-- A probe that returns 0 has had every call succeed and holds what the subsystems that are
enabled take; one that returns an error holds nothing; and every probe returns. -/
def LeavesNothing (p : Params) (o : Outcomes) : Prop :=
  match probe p o with
  | none => False
  | some (err, s) =>
    if err = 0 then (∀ c ∈ calls p, succeeds p o c = true) ∧ s.held = (onServer p o).held
    else s.held = some []

/-- **A probe leaves nothing behind exactly if the first call that fails, if one does, is one
of those it unwinds.** -/
theorem leavesNothing_iff (p : Params) (o : Outcomes) :
    LeavesNothing p o ↔ ∀ c, firstFailure p o = some c → unwinds p c = true := by
  have hbehaves := probe_behaves p o
  unfold Behaves at hbehaves
  unfold LeavesNothing firstFailure
  cases hfirst : (calls p).find? fun c => !succeeds p o c with
  | none =>
      simp only [hfirst] at hbehaves
      rw [hbehaves]
      refine iff_of_true ⟨?_, rfl⟩ (by intro c hc; cases hc)
      intro c hc
      simpa using List.find?_eq_none.mp hfirst c hc
  | some c =>
      simp only [hfirst] at hbehaves
      have hcond : (∀ c', some c = some c' → unwinds p c' = true) ↔ unwinds p c = true := by
        constructor
        · intro h
          exact h c rfl
        · rintro h _ ⟨⟩
          exact h
      rw [hcond]
      cases hunwinds : unwinds p c with
      | true =>
          rw [if_pos hunwinds] at hbehaves
          obtain ⟨err, s, hprobe, herr, hheld⟩ := hbehaves
          rw [hprobe]
          refine iff_of_true ?_ rfl
          simp only [if_neg herr]
          exact hheld
      | false =>
          rw [if_neg (by simp [hunwinds])] at hbehaves
          refine iff_of_false ?_ Bool.false_ne_true
          cases hprobe : probe p o with
          | none => exact id
          | some r =>
              intro hclean
              simp only at hclean
              split at hclean
              · have hfails := List.find?_some hfirst
                rw [hclean.1 c (List.mem_of_find?_eq_some hfirst)] at hfails
                cases hfails
              next herr => exact (hbehaves r.1 r.2 hprobe).elim herr (fun h => h hclean)

/-- Every kernel call succeeds. -/
def allSucceed : Outcomes :=
  { clientIrq := 0, checkFunctionality := true, gpioLedIsValid := true, kzallocClientData := true,
    scriptParserFetch := 0, gpioRequestLed := true, sysfsCreateBinFile := 0, devicePing := 0,
    deviceInit := 0, createWorkqueue := true, hrtimerStart := 0, gpioIntIsValid := true,
    pinctrlGet := none, pinctrlLookupState := none, pinctrlSelectState := 0,
    gpioRequestInt := true, gpioToIrq := 33, requestIrq := 0, kzallocNetlinkServer := true,
    netlinkKernelCreate := true, registerFamily := 0, registerGroup := 0,
    kthreadRunNetlink := none, kzallocServer := true, kthreadRunServer := none,
    sendSig := fun _ => 0 }

/-- `request_irq` fails, and a GPIO is unexported that was never exported; and
`create_singlethread_workqueue` fails, and probe returns 0. -/
theorem probe_leaves_behind :
    ¬LeavesNothing defaultParams { allSucceed with requestIrq := -16 } ∧
      ¬LeavesNothing defaultParams { allSucceed with createWorkqueue := false } := by
  refine ⟨?_, ?_⟩
  · intro h
    cases h
  · intro h
    cases h.1 .createWorkqueue (by simp [calls])

end Mpu6050
