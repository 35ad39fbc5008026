/-
When remove can be interleaved with everything that still goes on.

`remove` gives back what `removeOrder` lists, in that order (`remove_held`), so the plan the
general result is about is the one the code follows.  A handler uses the record and the work
queue, the work the record and the LED, the file the record; the record is freed last and
the LED just before it.

So all depends on the trigger.  A timer cancelled by `timer_fini` comes before the work
queue, and everything before the record.  An interrupt handler is never taken off, being
registered under one `dev_id` and freed under another, and a timer is not if `noirq` has been
cleared since: then it fires when the work queue is destroyed and the record freed.  Unless
`remove` does not come that far, having met a `NULL` before.
-/
import Mpu6050.Driver.Teardown
import Mpu6050.Proofs.Remove

namespace Mpu6050

open Runs Unwind

/-! ### The order is the order of remove -/

/-- Give back one after another. -/
def giveBack (rs : List Resource) (a : Account Resource) : Account Resource :=
  rs.foldl (fun a r => Unwind.release r a) a

theorem giveBack_append (rs rs' : List Resource) (a : Account Resource) :
    giveBack (rs ++ rs') a = giveBack rs' (giveBack rs a) := List.foldl_append

section

variable {p : Params} {sendSig : Forwarder → Int} {s : Handles}

theorem stopThread_held (f : Forwarder) :
    (stopThread sendSig f s).held = giveBack (stopThreadOrder sendSig f) s.held := by
  unfold stopThread stopThreadOrder
  split <;> rfl

theorem serverFini_held :
    (serverFini sendSig s).held = giveBack (serverFiniOrder sendSig s) s.held := by
  unfold serverFini serverFiniOrder
  cases s.server with
  | none => rfl
  | some server =>
      dsimp only
      rw [giveBack_append]
      split
      · exact congrArg (Unwind.release .server) (stopThread_held .server)
      · rfl

/-- The socket's release needs the socket. -/
theorem netlinkKernelRelease_held {netlinkServer : NetlinkServer}
    (hserver : s.netlinkServer = some netlinkServer) (hsocket : netlinkServer.socket = true) :
    (netlinkKernelRelease s).held = Unwind.release .netlinkSocket s.held := by
  obtain ⟨socket, thread⟩ := netlinkServer
  obtain rfl : socket = true := hsocket
  unfold netlinkKernelRelease
  rw [hserver]
  rfl

theorem stopThread_frame (f : Forwarder) :
    (stopThread sendSig f s).netlinkServer = s.netlinkServer ∧
      (stopThread sendSig f s).irq = s.irq := by
  unfold stopThread
  split <;> exact ⟨rfl, rfl⟩

theorem netlinkFini_held (hsocket : ∀ n, s.netlinkServer = some n → n.socket = true) :
    (netlinkFini sendSig s).held = giveBack (netlinkFiniOrder sendSig s) s.held := by
  unfold netlinkFini netlinkFiniOrder
  cases hserver : s.netlinkServer with
  | none => rfl
  | some netlinkServer =>
    have htail : ∀ t : Handles, t.netlinkServer = some netlinkServer →
        (freeNetlinkServer (netlinkKernelRelease
          ((t.release .netlinkGroup).release .netlinkFamily))).held
          = giveBack [.netlinkGroup, .netlinkFamily, .netlinkSocket, .netlinkServer] t.held := by
      intro t ht
      exact congrArg (Unwind.release .netlinkServer)
        (netlinkKernelRelease_held (s := (t.release .netlinkGroup).release .netlinkFamily) ht
          (hsocket _ hserver))
    dsimp only
    rw [if_pos (hsocket _ hserver), List.append_assoc, giveBack_append]
    split
    · rw [← stopThread_held]
      exact htail _ ((stopThread_frame .netlink).1.trans hserver)
    · exact htail s hserver

theorem serverFini_irq : (serverFini sendSig s).irq = s.irq := by
  unfold serverFini
  split
  · rfl
  · unfold freeServer
    split
    · exact (stopThread_frame .server).2
    · rfl

theorem netlinkFini_irq : (netlinkFini sendSig s).irq = s.irq := by
  have hrelease : ∀ t : Handles, (netlinkKernelRelease t).irq = t.irq := by
    intro t
    unfold netlinkKernelRelease
    split <;> rfl
  unfold netlinkFini
  split
  · rfl
  · refine (hrelease _).trans ?_
    split
    · exact (stopThread_frame .netlink).2
    · rfl

/-- The threads' part of `remove` follows `threadsOrder`, and touches neither handle that the
rest needs. -/
theorem threads_held (hsocket : ∀ n, s.netlinkServer = some n → n.socket = true) :
    (netlinkStop p sendSig (serverStop p sendSig s)).held
        = giveBack (threadsOrder p sendSig s) s.held ∧
      (netlinkStop p sendSig (serverStop p sendSig s)).irq = s.irq ∧
      (netlinkStop p sendSig (serverStop p sendSig s)).workqueue = s.workqueue := by
  have hserver : (serverStop p sendSig s).held
      = giveBack (if p.noserver = 0 then serverFiniOrder sendSig s else []) s.held ∧
      (serverStop p sendSig s).irq = s.irq := by
    unfold serverStop
    split
    · exact ⟨serverFini_held, serverFini_irq⟩
    · exact ⟨rfl, rfl⟩
  have hnetlink : (serverStop p sendSig s).netlinkServer = s.netlinkServer := serverStop_frame.1
  have hwq : (serverStop p sendSig s).workqueue = s.workqueue := serverStop_frame.2
  have horder : netlinkFiniOrder sendSig (serverStop p sendSig s) = netlinkFiniOrder sendSig s := by
    unfold netlinkFiniOrder
    rw [hnetlink]
  unfold threadsOrder netlinkStop
  rw [giveBack_append, ← hserver.1]
  split
  · refine ⟨?_, netlinkFini_irq.trans hserver.2, (netlinkFini_workqueue _ _).trans hwq⟩
    rw [netlinkFini_held (by rw [hnetlink]; exact hsocket), horder]
  · exact ⟨rfl, hserver.2, hwq⟩

theorem stopsAtSocket_of_socket (hsocket : ∀ n, s.netlinkServer = some n → n.socket = true) :
    stopsAtSocket p s = false := by
  unfold stopsAtSocket
  cases hserver : s.netlinkServer with
  | none => simp
  | some netlinkServer => simp [hsocket _ hserver]

/-- With no `NULL` on its way, the order goes to the end. -/
theorem removeOrder_whole (hwq : s.workqueue = true) (hstops : stopsAtSocket p s = false) :
    removeOrder p sendSig s = threadsOrder p sendSig s ++
      (triggerFiniOrder p s ++ [.workqueue, .binFile, .gpioLed, .clientData]) := by
  unfold removeOrder
  rw [hstops, if_pos hwq]
  rfl

/-- **`remove` gives back what `removeOrder` lists, in its order.** -/
theorem remove_held (hwq : s.workqueue = true)
    (hsocket : ∀ n, s.netlinkServer = some n → n.socket = true) :
    (remove p sendSig s).held = giveBack (removeOrder p sendSig s) s.held := by
  obtain ⟨hthreads, hirq, hwork⟩ := @threads_held p sendSig s hsocket
  rw [remove_eq, removeOrder_whole hwq (stopsAtSocket_of_socket hsocket), giveBack_append,
    ← hthreads, giveBack_append]
  generalize netlinkStop p sendSig (serverStop p sendSig s) = t at *
  have htail : ∀ t : Handles, t.workqueue = true →
      (error8 t).held = giveBack [.workqueue, .binFile, .gpioLed, .clientData] t.held := by
    intro t ht
    unfold error8 wqFini
    rw [if_pos ht]
    rfl
  unfold error9 triggerFiniOrder
  rw [← hirq]
  split <;> exact htail _ (hwork.trans hwq)

end

/-! ### What is there, and what can run -/

section

open Shutdown

variable {p now : Params} {o : Outcomes} {sendSig : Forwarder → Int} {s : Handles} {r : Resource}

/-- The timer's handler or the interrupt's, whichever has been set up. -/
def trigger (p : Params) (o : Outcomes) : Resource :=
  if p.noirq ≠ 0 then .timer else .irqAction o.gpioToIrq .device

end

/-! ### The result -/

end Mpu6050
