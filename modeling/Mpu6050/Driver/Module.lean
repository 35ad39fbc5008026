/-
The module over its life: probe, remove, and the parameters in between.

The parameters are writable while the module is loaded, so each probe and each remove
finds the values of the moment.  A state is those values and, while the device is
bound, what the probe left: the handles, and for the record the values it was made with
and the results of its calls.

What a probe that failed did not give back, or a `remove`, is nobody's any more, and still
held: an interrupt handler goes on being called with a record that has been freed.  It is
added to what earlier ones have left, for as long as the module is loaded.
-/
import Mpu6050.Driver.Main

namespace Mpu6050

/-- A device that is bound. -/
structure Bound where
  /-- the parameters `probe` was made with -/
  params : Params
  outcomes : Outcomes
  handles : Handles

/-- The parameters as they are now, the device if it is bound, and what is held although
nothing is bound to it any more. -/
structure ModuleState where
  params : Params
  bound : Option Bound
  left : Unwind.Account Resource

/-- The module has just been loaded. -/
def loaded (params : Params) : ModuleState :=
  { params := params, bound := none, left := some [] }

/-- What happens to the module. -/
inductive ModuleEvent
  | write (params : Params)
  | probe (outcomes : Outcomes)
  | remove (sendSig : Forwarder → Int)

/-- What is held when `remove` has run, on a device that is bound. -/
def heldAfterRemove (s : ModuleState) (b : Bound) (sendSig : Forwarder → Int) :
    Unwind.Account Resource :=
  (remove s.params sendSig b.handles).held

/-- One step.  A probe that fails leaves the device unbound, and whatever else it leaves; one
that dereferences `NULL` has no step. -/
inductive ModuleStep : ModuleState → ModuleEvent → ModuleState → Prop
  | write {s : ModuleState} {p : Params} : ModuleStep s (.write p) { s with params := p }
  | bind {s : ModuleState} {o : Outcomes} {handles : Handles} (hfree : s.bound = none)
      (hprobe : probe s.params o = some (0, handles)) :
      ModuleStep s (.probe o)
        { s with bound := some { params := s.params, outcomes := o, handles := handles } }
  | fail {s : ModuleState} {o : Outcomes} {err : Int} {handles : Handles} (hfree : s.bound = none)
      (hprobe : probe s.params o = some (err, handles)) (herr : err ≠ 0) :
      ModuleStep s (.probe o) { s with left := Unwind.join handles.held s.left }
  | unbind {s : ModuleState} {b : Bound} {sendSig : Forwarder → Int} (hbound : s.bound = some b) :
      ModuleStep s (.remove sendSig)
        { s with bound := none, left := Unwind.join (heldAfterRemove s b sendSig) s.left }

end Mpu6050
