/-
The messages the client takes over, and when it gives them back.

`notify` duplicates a message and leaves the duplicate in the queue.  From there `process_cb`
takes it and releases it, on either of the two ways on which it returns; what it has not taken
when the user interface goes, `idle_finalize_ui_cb` releases.  The list of what has been
released is not in the source.
-/
import Mpu6050.Client.View

namespace Mpu6050.Client

variable {F : Type} (fl : Floats F)

/-- What an event duplicates.  In console mode a message is only printed. -/
def duplicates (consoleMode : Bool) : ViewEvent F → List Message
  | .operation (.notifyMessage m true) => if consoleMode then [] else [m]
  | _ => []

/-- What an event releases: the message that `process_cb` took, or all that are left. -/
def releases (cb : CBData) : ViewEvent F → List Message
  | .tick _ _ released => released
  | .operation .idleFinalizeUi => cb.messageQueue
  | _ => []

/-- The user interface, and the messages released so far. -/
structure HeldState (F : Type) where
  view : ViewState F
  released : List Message

/-- A step of the user interface, with what it releases. -/
def HeldStep (s : HeldState F) (e : ViewEvent F) (s' : HeldState F) : Prop :=
  ViewStep fl s.view e s'.view ∧ s'.released = s.released ++ releases s.view.client.cbData e

/-- The client before its first session. -/
def initialHeld (consoleMode clientMode : Bool) (bias : Bias F) : HeldState F :=
  { view := initialView fl consoleMode clientMode bias, released := [] }

end Mpu6050.Client
