/-
When remove undoes probe.

A probe that returned 0 has left one of few sets of handles (`onServer`), by its
parameters and by the two pointers it does not test.  `remove` then runs the fini
functions by the parameters of the day, and after the two threads it is the label
`error9` of the probe, so the lemmas about the labels serve here too.

Only the timer can be undone, and only by a `remove` that still finds `noirq` set.  An
interrupt stays registered, being freed under another `dev_id`; a thread is either left
running or has its `task_struct` freed.

Over the life of the module nothing is ever made good again: what one cycle has left is
there after every later one.  So the module has nothing left exactly if each step so far left
nothing (`CleanStep`).
-/
import Mpu6050.Driver.Module
import Mpu6050.Proofs.Probe

namespace Mpu6050

open Runs Unwind

/-- The condition under which `remove` undoes the probe. -/
def Undoable (b : Bound) (now : Params) : Prop :=
  b.outcomes.createWorkqueue = true ∧ b.params.noirq ≠ 0 ∧ now.noirq ≠ 0 ∧
    b.params.nonetlink ≠ 0 ∧ b.params.noserver ≠ 0

/-- The condition on a step: a probe that fails does so at a call it unwinds, and a device that
is removed can be undone. -/
def CleanStep (s : ModuleState) : ModuleEvent → Prop
  | .write _ => True
  | .probe o => ∀ err handles, probe s.params o = some (err, handles) → err ≠ 0 →
      ∀ c, firstFailure s.params o = some c → unwinds s.params c = true
  | .remove _ => ∀ b, s.bound = some b → Undoable b s.params

section

variable {p : Params} {o : Outcomes}

/-! ### What a probe leaves that returned 0 -/

theorem probe_zero {s : Handles} (h : probe p o = some (0, s)) : s = onServer p o := by
  have hdevice : probeDevice p o (onGpioLed o) = some (0, s) := by
    unfold probe at h
    dsimp only at h
    split at h
    · exact absurd (Prod.mk.inj (Option.some.inj h)).1 (errno_ne_zero _)
    split at h
    · exact absurd (Prod.mk.inj (Option.some.inj h)).1 (errno_ne_zero _)
    split at h
    · cases h
    split at h
    next herr => exact absurd (Prod.mk.inj (Option.some.inj h)).1 herr
    split at h
    · exact absurd (Prod.mk.inj (Option.some.inj h)).1 (errno_ne_zero _)
    · exact h
  -- each call has returned 0, and what it was given is what the one before left
  obtain ⟨s1, hsysfs, h1⟩ := orGoto_eq_zero hdevice
  obtain ⟨s2, hping, h2⟩ := orGoto_eq_zero h1
  obtain ⟨s3, hinit, h3⟩ := orGoto_eq_zero h2
  obtain ⟨s4, hwq, h4⟩ := orGoto_eq_zero h3
  obtain ⟨s5, htrigger, h5⟩ := orGoto_eq_zero h4
  obtain ⟨s6, hnetlink, h6⟩ := orGoto_eq_zero h5
  obtain ⟨s7, hserver, h7⟩ := orGoto_eq_zero h6
  have hs1 : s1 = (onGpioLed o).acquire .binFile := by
    have hpair : sysfsInit o (onGpioLed o) = (0, s1) := Option.some.inj hsysfs
    unfold sysfsInit at hpair
    split at hpair
    next herr => exact absurd (Prod.mk.inj hpair).1 herr
    next => exact (Prod.mk.inj hpair).2.symm
  have hs2 : s2 = s1 := (Prod.mk.inj (Option.some.inj hping)).2.symm
  have hs3 : s3 = s2 := (Prod.mk.inj (Option.some.inj hinit)).2.symm
  subst hs3 hs2 hs1
  have hs4 : s4 = onWorkqueue o := by
    rw [wqInit_eq] at hwq
    exact (Prod.mk.inj (Option.some.inj hwq)).2.symm
  subst hs4
  have hs5 := triggerInit_zero (Option.some.inj htrigger)
  subst hs5
  have hs6 := netlinkStart_zero hnetlink
  subst hs6
  have hs7 := serverStart_cases hserver
  rw [← (Prod.mk.inj (Option.some.inj h7)).2, hs7]
  rfl

/-- The handles of a device that is bound are those its probe left. -/
def HandlesKept (s : ModuleState) : Prop :=
  ∀ b, s.bound = some b → b.handles = onServer b.params b.outcomes

theorem handlesKept_step {s s' : ModuleState} {e : ModuleEvent} (h : HandlesKept s)
    (hstep : ModuleStep s e s') : HandlesKept s' := by
  cases hstep with
  | write => exact h
  | bind hfree hprobe =>
      rintro _ ⟨⟩
      exact probe_zero hprobe
  | fail => exact h
  | unbind =>
      intro b hb
      cases hb

theorem bound_handles {params : Params} {es : List ModuleEvent} {s : ModuleState}
    (hrun : Run ModuleStep (loaded params) es s) : HandlesKept s := by
  refine Run.invariant (P := fun _ s => HandlesKept s) ?_ ?_ hrun
  · intro b hb
    cases hb
  · intro es mid e s' hmid hstep
    exact handlesKept_step hmid hstep

/-! ### The functions before the labels -/

variable {r : Resource} {s : Handles} {sendSig : Forwarder → Int}

/-- The server's `fini`, if the parameter says so now. -/
def serverStop (p : Params) (sendSig : Forwarder → Int) (s : Handles) : Handles :=
  if p.noserver = 0 then serverFini sendSig s else s

/-- Netlink's `fini`, if the parameter says so now. -/
def netlinkStop (p : Params) (sendSig : Forwarder → Int) (s : Handles) : Handles :=
  if p.nonetlink = 0 then netlinkFini sendSig s else s

/-- `remove` stops the threads and is `error9` from there. -/
theorem remove_eq (p : Params) (sendSig : Forwarder → Int) (s : Handles) :
    remove p sendSig s = error9 p (netlinkStop p sendSig (serverStop p sendSig s)) := rfl

theorem serverStop_keeps (h : Keeps r s.held)
    (hr : r ∉ [.thread .server, .taskStruct .server, .server]) :
    Keeps r (serverStop p sendSig s).held := by
  simp only [List.mem_cons, List.not_mem_nil, or_false, not_or] at hr
  obtain ⟨hthread, htask, hserver⟩ := hr
  unfold serverStop serverFini
  split
  · split
    · exact h
    · refine keeps_release ?_ hserver
      split
      · exact stopThread_keeps h hthread htask
      · exact h
  · exact h

theorem netlinkStop_keeps (h : Keeps r s.held)
    (hr : r ∉ [.thread .netlink, .taskStruct .netlink, .netlinkGroup, .netlinkFamily,
      .netlinkSocket, .netlinkServer]) : Keeps r (netlinkStop p sendSig s).held := by
  unfold netlinkStop
  split
  · exact netlinkFini_keeps h hr
  · exact h

/-- The server's `fini` leaves alone what is netlink's. -/
theorem serverStop_frame : (serverStop p sendSig s).netlinkServer = s.netlinkServer ∧
    (serverStop p sendSig s).workqueue = s.workqueue := by
  have hstop : ∀ f, (stopThread sendSig f s).netlinkServer = s.netlinkServer ∧
      (stopThread sendSig f s).workqueue = s.workqueue := by
    intro f
    unfold stopThread
    split <;> exact ⟨rfl, rfl⟩
  unfold serverStop serverFini
  split
  · split
    · exact ⟨rfl, rfl⟩
    · unfold freeServer
      split
      · exact hstop .server
      · exact ⟨rfl, rfl⟩
  · exact ⟨rfl, rfl⟩

theorem stopThread_within {f : Forwarder} (h : Within Taken s.held) :
    Within Taken (stopThread sendSig f s).held := by
  unfold stopThread
  split
  · exact h
  · exact Within.release (Within.release h)

theorem serverStop_within (h : Within Taken s.held) :
    Within Taken (serverStop p sendSig s).held := by
  unfold serverStop serverFini
  split
  · split
    · exact h
    · refine Within.release ?_
      split
      · exact stopThread_within h
      · exact h
  · exact h

/-! ### What stays behind -/

theorem onServer_within : Within Taken (onServer p o).held := by
  rintro _ ⟨⟩
  refine List.forall_mem_append.mpr ⟨?_, onNetlink_within _ rfl⟩
  unfold serverHeld
  split <;> simp [Taken]

/-- The interrupt handler stays registered, whatever `remove` does. -/
theorem remove_leaves_irq {now : Params} (hirq : p.noirq = 0) :
    (remove now sendSig (onServer p o)).held ≠ some [] := by
  have hkeep : Keeps (.irqAction o.gpioToIrq .device) (onServer p o).held :=
    keeps_some (by simp [triggerHeld, hirq])
  rw [remove_eq]
  exact (error9_keeps (netlinkStop_keeps (serverStop_keeps hkeep (by simp)) (by simp))
    (Or.inl ⟨_, rfl⟩)).ne_nil

/-- The timer stays armed if `remove` takes it for an interrupt. -/
theorem remove_leaves_timer {now : Params} (hirq : p.noirq ≠ 0) (hnow : now.noirq = 0) :
    (remove now sendSig (onServer p o)).held ≠ some [] := by
  have hkeep : Keeps .timer (onServer p o).held :=
    keeps_some (by simp [triggerHeld, hirq])
  rw [remove_eq]
  unfold error9
  rw [if_neg (not_not.mpr hnow)]
  exact (error8_keeps (irqFini_keeps (netlinkStop_keeps (serverStop_keeps hkeep (by simp))
    (by simp)) (by simp)) (by simp)).ne_nil

/-- The netlink thread stays, or its `task_struct` is freed. -/
theorem remove_leaves_netlink {now : Params} (hnet : p.nonetlink = 0) :
    (remove now sendSig (onServer p o)).held ≠ some [] := by
  have hkeep : Keeps (.thread .netlink) (serverStop now sendSig (onServer p o)).held :=
    serverStop_keeps (keeps_some (by simp [netlinkHeld, hnet])) (by simp)
  have hrecord : (serverStop now sendSig (onServer p o)).netlinkServer
      = some { socket := o.netlinkKernelCreate, thread := true } := by
    rw [serverStop_frame.1]
    exact if_pos hnet
  rw [remove_eq]
  refine (error9_keeps (r := .thread .netlink) ?_ (Or.inr ⟨_, rfl⟩)).ne_nil
  unfold netlinkStop
  split
  · exact netlinkFini_spoils hrecord hkeep (serverStop_within onServer_within)
  · exact hkeep

/-- And so does the UDP thread. -/
theorem remove_leaves_server {now : Params} (hserver : p.noserver = 0) :
    (remove now sendSig (onServer p o)).held ≠ some [] := by
  have hkeep : Keeps (.thread .server) (onServer p o).held :=
    keeps_some (by simp [serverHeld, hserver])
  have hrecord : (onServer p o).server = some { thread := true } := if_pos hserver
  rw [remove_eq]
  refine (error9_keeps (r := .thread .server) (netlinkStop_keeps ?_ (by simp))
    (Or.inr ⟨_, rfl⟩)).ne_nil
  unfold serverStop
  split
  · unfold serverFini
    rw [hrecord]
    exact keeps_release (stopThread_spoils hkeep onServer_within) (by simp)
  · exact hkeep

/-- Without a work queue a `NULL` is destroyed. -/
theorem remove_without_workqueue {now : Params} (hwq : o.createWorkqueue = false) :
    (remove now sendSig (onServer p o)).held ≠ some [] := by
  rw [remove_eq]
  refine error9_of_no_workqueue ?_
  have hserver : (serverStop now sendSig (onServer p o)).workqueue = false :=
    serverStop_frame.2.trans hwq
  unfold netlinkStop
  split
  · exact (netlinkFini_workqueue _ _).trans hserver
  · exact hserver

/-- With polling and neither thread, at both times, everything is given back. -/
theorem remove_undoes {now : Params} (hwq : o.createWorkqueue = true) (hirq : p.noirq ≠ 0)
    (hnow : now.noirq ≠ 0) (hnet : p.nonetlink ≠ 0) (hserver : p.noserver ≠ 0) :
    (remove now sendSig (onServer p o)).held = some [] := by
  have hnoserver : (onServer p o).server = none := if_neg hserver
  have hnonetlink : (onServer p o).netlinkServer = none := if_neg hnet
  have hstop : serverStop now sendSig (onServer p o) = onServer p o := by
    unfold serverStop serverFini
    rw [hnoserver]
    exact ite_self _
  have hstop' : netlinkStop now sendSig (onServer p o) = onServer p o := by
    unfold netlinkStop netlinkFini
    rw [hnonetlink]
    exact ite_self _
  rw [remove_eq, hstop, hstop']
  refine error9_unwinds hwq hnow ?_ rfl
  simp [onServer, serverHeld, hserver, netlinkHeld, hnet, triggerHeld, hirq]

end

/-! ### Remove -/

/-- A device whose handles are those its probe left: `remove` gives back what was taken exactly
if it is undoable. -/
theorem heldAfterRemove_iff {s : ModuleState} (hkept : HandlesKept s) {b : Bound}
    (hb : s.bound = some b) (sendSig : Forwarder → Int) :
    heldAfterRemove s b sendSig = some [] ↔ Undoable b s.params := by
  unfold heldAfterRemove
  rw [hkept b hb]
  constructor
  · intro hclean
    refine ⟨?_, ?_, ?_, ?_, ?_⟩
    · by_contra hwq
      exact remove_without_workqueue (by simpa using hwq) hclean
    · intro hirq
      exact remove_leaves_irq hirq hclean
    · intro hnow
      by_cases hirq : b.params.noirq = 0
      · exact remove_leaves_irq hirq hclean
      · exact remove_leaves_timer hirq hnow hclean
    · intro hnet
      exact remove_leaves_netlink hnet hclean
    · intro hserver
      exact remove_leaves_server hserver hclean
  · rintro ⟨hwq, hirq, hnow, hnet, hserver⟩
    exact remove_undoes hwq hirq hnow hnet hserver

/-- **One step leaves nothing exactly if it is clean and nothing was left before.** -/
theorem left_step {s s' : ModuleState} {e : ModuleEvent} (hkept : HandlesKept s)
    (hstep : ModuleStep s e s') :
    s'.left = some [] ↔ s.left = some [] ∧ CleanStep s e := by
  cases hstep with
  | write => exact (and_iff_left trivial).symm
  | bind hfree hprobe =>
      refine (and_iff_left ?_).symm
      -- a probe that returned 0 is none of those that fail
      intro err handles hfail herr
      obtain ⟨hzero, -⟩ := Prod.mk.inj (Option.some.inj (hprobe.symm.trans hfail))
      exact absurd hzero.symm herr
  | @fail o err handles hfree hprobe herr =>
      rw [join_eq_nil, and_comm, failed_held_iff hprobe herr]
      refine and_congr_right fun _ => ⟨?_, fun h => h err handles hprobe herr⟩
      intro h _ _ _ _
      exact h
  | @unbind b sendSig hbound =>
      rw [join_eq_nil, and_comm, heldAfterRemove_iff hkept hbound]
      refine and_congr_right fun _ => ⟨?_, fun h => h b hbound⟩
      intro h b' hb'
      obtain rfl := Option.some.inj (hbound.symm.trans hb')
      exact h

/--
**A run of probes, removes and parameter writes leaves something behind exactly if one of its
steps does, and a `remove` gives back what its probe took if, and only if,** the work queue
had been created, the probe set up neither the interrupt nor a thread, and `noirq` is still
set.
-/
theorem remove_undoes_iff (params : Params) (es : List ModuleEvent) (s : ModuleState)
    (hrun : Run ModuleStep (loaded params) es s) :
    (s.left = some [] ↔ Run (Guarded ModuleStep CleanStep) (loaded params) es s) ∧
      ∀ b, s.bound = some b → ∀ sendSig,
        (heldAfterRemove s b sendSig = some [] ↔ Undoable b s.params) := by
  refine ⟨⟨?_, ?_⟩, fun b hb sendSig => heldAfterRemove_iff (bound_handles hrun) hb sendSig⟩
  · induction hrun with
    | nil => exact fun _ => .nil
    | snoc hmid hstep ih =>
        intro hleft
        obtain ⟨hbefore, hclean⟩ := (left_step (bound_handles hmid) hstep).mp hleft
        exact (ih hbefore).snoc ⟨hclean, hstep⟩
  · intro hguarded
    have hboth : HandlesKept s ∧ s.left = some [] := by
      refine @Run.guarded_invariant _ _ _ _ (fun s => HandlesKept s ∧ s.left = some []) _ ?_ ?_
        es s hguarded
      · exact ⟨bound_handles .nil, rfl⟩
      · intro mid e s' hmid hclean hstep
        exact ⟨handlesKept_step hmid.1 hstep, (left_step hmid.1 hstep).mpr ⟨hmid.2, hclean⟩⟩
    exact hboth.2

/-- Polling, with neither thread, and nothing written in between. -/
theorem remove_undoes_iff_polling :
    ∃ s b, Run ModuleStep (loaded pollingParams) [.probe allSucceed] s ∧ s.left = some [] ∧
      s.bound = some b ∧ ∀ sendSig, heldAfterRemove s b sendSig = some [] := by
  have hrun : Run ModuleStep (loaded pollingParams) [.probe allSucceed] _ :=
    Run.single (ModuleStep.bind rfl rfl)
  refine ⟨_, _, hrun, rfl, rfl, fun sendSig => ?_⟩
  refine ((remove_undoes_iff pollingParams _ _ hrun).2 _ rfl sendSig).mpr ?_
  simp [Undoable, allSucceed, loaded, pollingParams]

/-- With the parameters the module comes with, `free_irq` names another `dev_id`; and a later
cycle that polls does not make that good. -/
theorem remove_leaves_handler :
    (∃ s b, Run ModuleStep (loaded defaultParams) [.probe allSucceed] s ∧
      s.bound = some b ∧ heldAfterRemove s b (fun _ => 0) ≠ some []) ∧
    ∃ s, Run ModuleStep (loaded defaultParams) [.probe allSucceed, .remove (fun _ => 0),
      .write pollingParams, .probe allSucceed, .remove (fun _ => 0)] s ∧ s.left ≠ some [] := by
  have hrun : Run ModuleStep (loaded defaultParams) [.probe allSucceed] _ :=
    Run.single (ModuleStep.bind rfl rfl)
  refine ⟨⟨_, _, hrun, rfl, by intro h; cases h⟩, ?_⟩
  refine ⟨_, (((hrun.snoc (.unbind rfl)).snoc .write).snoc (.bind rfl rfl)).snoc (.unbind rfl), ?_⟩
  intro h
  cases h

end Mpu6050
