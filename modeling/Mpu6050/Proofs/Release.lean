/-
Every message that was duplicated is given back once.

One step neither loses a message nor releases one twice: what it duplicates and what was in
the queue is what it releases and what is in the queue then (`step_held`).  So the same holds of a
whole run, and when the user interface has gone nothing is left out.
-/
import Mpu6050.Client.Release
import Mpu6050.Proofs.View

namespace Mpu6050.Client

open Runs
open scoped List

variable {F : Type} {fl : Floats F}

/-! ### The queue -/

theorem operation_held {s s' : ViewState F} {op : Operation} (hop : op ≠ .processCb)
    (h : operate fl s op = .ok s') :
    (duplicates s.client.consoleMode (.operation op : ViewEvent F)
        ++ s.client.cbData.messageQueue).Perm
      (releases s.client.cbData (.operation op : ViewEvent F)
        ++ s'.client.cbData.messageQueue) := by
  have hwaiting := (operate_effect hop h).waiting
  cases op with
  | start | notifySessionMessage | sessionEnd | calibrateClicked => exact .of_eq hwaiting.symm
  | idleFinalizeUi =>
      have hnone : s'.client.cbData.messageQueue = [] := hwaiting
      show s.client.cbData.messageQueue.Perm
        (s.client.cbData.messageQueue ++ s'.client.cbData.messageQueue)
      rw [hnone, List.append_nil]
  | processCb => exact absurd rfl hop
  | notifyMessage m duplicated =>
      cases duplicated with
      | false => exact .of_eq hwaiting.symm
      | true =>
          have hafter : s'.client.cbData.messageQueue = if s.client.consoleMode then
              s.client.cbData.messageQueue else m :: s.client.cbData.messageQueue := hwaiting
          refine .of_eq (Eq.trans ?_ hafter.symm)
          show (if s.client.consoleMode then [] else [m]) ++ s.client.cbData.messageQueue = _
          split
          · rfl
          · rfl

/-- **A step loses no message and releases none twice.** -/
theorem step_held {s s' : ViewState F} {e : ViewEvent F} (h : ViewStep fl s e s') :
    (duplicates s.client.consoleMode e ++ s.client.cbData.messageQueue).Perm
        (releases s.client.cbData e ++ s'.client.cbData.messageQueue) ∧
      s'.client.consoleMode = s.client.consoleMode := by
  cases h with
  | operation hop hstep => exact ⟨operation_held hop hstep, (operate_effect hop hstep).console⟩
  | motion | key => exact ⟨.refl _, rfl⟩
  | tick htick => exact ⟨.of_eq (processTick_queues htick).2.1, rfl⟩

/-! ### Over a run -/

/-- What was duplicated so far has been released or is in the queue. -/
structure Accounted (consoleMode : Bool) (es : List (ViewEvent F)) (s : HeldState F) : Prop where
  mode : s.view.client.consoleMode = consoleMode
  held : (es.flatMap (duplicates consoleMode)).Perm
    (s.released ++ s.view.client.cbData.messageQueue)

theorem accounted_held {consoleMode : Bool} {es : List (ViewEvent F)} {s s' : HeldState F}
    {e : ViewEvent F} (h : Accounted consoleMode es s) (hstep : HeldStep fl s e s') :
    Accounted consoleMode (es ++ [e]) s' := by
  obtain ⟨hview, hreleased⟩ := hstep
  obtain ⟨hperm, hmode⟩ := step_held hview
  rw [h.mode] at hperm
  refine ⟨hmode.trans h.mode, ?_⟩
  rw [List.flatMap_append, List.flatMap_singleton, hreleased, List.append_assoc]
  calc es.flatMap (duplicates consoleMode) ++ duplicates consoleMode e
      _ ~ (s.released ++ s.view.client.cbData.messageQueue) ++ duplicates consoleMode e :=
        h.held.append_right _
      _ ~ s.released ++ (duplicates consoleMode e ++ s.view.client.cbData.messageQueue) := by
        rw [List.append_assoc]
        exact List.perm_append_comm.append_left _
      _ ~ s.released ++ (releases s.view.client.cbData e ++ s'.view.client.cbData.messageQueue) :=
        hperm.append_left _

/-- Every run of the user interface can be kept account of. -/
theorem exists_held {consoleMode clientMode : Bool} {bias : Bias F} {es : List (ViewEvent F)}
    {view : ViewState F}
    (hrun : Run (ViewStep fl) (initialView fl consoleMode clientMode bias) es view) :
    ∃ released, Run (HeldStep fl) (initialHeld fl consoleMode clientMode bias) es
      { view, released } := by
  induction hrun with
  | nil => exact ⟨[], .nil⟩
  | @snoc es mid view e _ hstep ih =>
      obtain ⟨released, hheld⟩ := ih
      exact ⟨released ++ releases mid.client.cbData e, hheld.snoc ⟨hstep, rfl⟩⟩

/--
**Every message duplicated is released once, or waits to be.**  In every order of operations,
ticks, motions and keys, whatever fails to be printed and however short a message is: the
messages duplicated are those released and those in the queue, each as often.  And once
`idle_finalize_ui_cb` has run all of them have been released.
-/
theorem messages_released (fl : Floats F) (consoleMode clientMode : Bool) (bias : Bias F)
    {es : List (ViewEvent F)} {s : HeldState F}
    (hrun : Run (HeldStep fl) (initialHeld fl consoleMode clientMode bias) es s) :
    (es.flatMap (duplicates consoleMode)).Perm
        (s.released ++ s.view.client.cbData.messageQueue) ∧
      ∀ s', HeldStep fl s (.operation .idleFinalizeUi) s' →
        (es.flatMap (duplicates consoleMode)).Perm s'.released := by
  have hinit : Accounted consoleMode [] (initialHeld fl consoleMode clientMode bias) :=
    ⟨rfl, .refl _⟩
  have haccounted : Accounted consoleMode es s :=
    hrun.invariant (P := Accounted consoleMode) hinit
      fun es mid e s' hmid hstep => accounted_held hmid hstep
  refine ⟨haccounted.held, fun s' hstep => ?_⟩
  rw [hstep.2]
  exact haccounted.held

/-- Two messages come, a whole one and a short one, one is shown, and the user interface goes. -/
theorem messages_released_session :
    ∃ s s' values, Run (HeldStep exactFloats)
        (initialHeld exactFloats false false exactFloats.zeroBias)
        [.operation (.start ⟨0⟩), .operation (.notifyMessage wholeMessage true),
          .operation (.notifyMessage shortMessage true), .tick 0 none [],
          .tick 1 (some values) [shortMessage]] s ∧
      s.view.client.cbData.messageQueue.length = 1 ∧
      HeldStep exactFloats s (.operation .idleFinalizeUi) s' ∧
      [wholeMessage, shortMessage].Perm s'.released := by
  have hview : ∃ view values, Run (ViewStep exactFloats)
      (initialView exactFloats false false exactFloats.zeroBias)
      [.operation (.start ⟨0⟩), .operation (.notifyMessage wholeMessage true),
        .operation (.notifyMessage shortMessage true), .tick 0 none [],
        .tick 1 (some values) [shortMessage]] view ∧
      view.client.cbData.messageQueue.length = 1 :=
    ⟨_, _, ((((Run.single (@ViewStep.operation _ exactFloats _ _ (.start ⟨0⟩) nofun rfl)).snoc
      (@ViewStep.operation _ _ _ _ (.notifyMessage wholeMessage true) nofun rfl)).snoc
      (@ViewStep.operation _ _ _ _ (.notifyMessage shortMessage true) nofun rfl)).snoc
      (@tick_step _ _ _ 0 _ none [] rfl rfl rfl)).snoc
      (@tick_step _ _ _ 1 _ (some _) [shortMessage] rfl rfl rfl), rfl⟩
  obtain ⟨view, values, hview, hqueue⟩ := hview
  obtain ⟨released, hrun⟩ := exists_held hview
  have hstep : HeldStep exactFloats { view, released } (.operation .idleFinalizeUi)
      { view := { view with client := { view.client with
          cbData := idleFinalizeUi view.client.cbData } },
        released := released ++ view.client.cbData.messageQueue } :=
    ⟨.operation nofun rfl, rfl⟩
  exact ⟨_, _, values, hrun, hqueue, hstep,
    (messages_released exactFloats false false exactFloats.zeroBias hrun).2 _ hstep⟩

end Mpu6050.Client
