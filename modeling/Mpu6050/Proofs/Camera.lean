/-
What the picture shows: the samples' turn beside what is done by hand.

The camera is written from two sides, by the samples and by hand.  Of what the samples write
nothing else is computed, and of the hand's parts nothing but those: where the camera stands
is the hand's affair alone, how it is rolled that of the samples, and so is all of its rotation
as long as nothing is dragged with the first button (`camera_apart`).  That needs nothing of the
numbers, so it holds however they are rounded.

A drag moves the camera by the pointer's moves, none of which is lost (`drag_accounted`).  And once
calibrated, a device at rest is shown at rest (`camera_at_rest`).
-/
import Mathlib.Tactic.Ring
import Mpu6050.Proofs.View

namespace Mpu6050.Client

open Runs

variable {F : Type} {fl : Floats F}

/-! ### The camera by itself -/

/-- What an event makes of the camera. -/
def applyEvent (fl : Floats F) (c : Camera F) : ViewEvent F → Camera F
  | .operation _ => c
  | .tick _ none _ => c
  | .tick result (some values) _ => if result < 0 then c else c.turn fl (fl.angles values)
  | .motion event => motion fl event c
  | .key keyval => key fl keyval c

/-- The camera after these events. -/
def cameraAfter (fl : Floats F) (es : List (ViewEvent F)) : Camera F :=
  es.foldl (applyEvent fl) (resetCamera fl)

/-- A step moves the camera as its event says. -/
theorem step_camera {s s' : ViewState F} {event : ViewEvent F} (h : ViewStep fl s event s') :
    s'.camera = applyEvent fl s.camera event := by
  cases h with
  | operation hop hstep => exact (operate_effect hop hstep).camera
  | motion | key => rfl
  | @tick result ticked htick =>
      rw [processTick_camera htick]
      cases ticked.shown with
      | none => rfl
      | some values => rfl

/-- So the camera at the end of a run is that of its events. -/
theorem run_camera {start s : ViewState F} {es : List (ViewEvent F)}
    (hrun : Run (ViewStep fl) start es s) :
    s.camera = es.foldl (applyEvent fl) start.camera := by
  refine hrun.invariant
    (P := fun es s => s.camera = es.foldl (applyEvent fl) start.camera) rfl ?_
  intro es mid event s' hmid hstep
  rw [List.foldl_append, ← hmid]
  exact step_camera hstep

/-! ### Two sides -/

/-- What is done by hand. -/
def ViewEvent.isHand : ViewEvent F → Bool
  | .motion _ | .key _ => true
  | _ => false

/-- Anything but the mouse. -/
def ViewEvent.isSteady : ViewEvent F → Bool
  | .motion _ => false
  | _ => true

/-- Where the camera stands. -/
def Camera.place (c : Camera F) : F × Vec3 F × (Int × Int) := (c.zoom, c.translation, c.last)

theorem motion_place {c c' : Camera F} (event : MotionEvent) (h : c.place = c'.place) :
    (motion fl event c).place = (motion fl event c').place := by
  obtain ⟨zoom, rotation, translation, last⟩ := c
  obtain ⟨zoom', rotation', translation', last'⟩ := c'
  cases h
  unfold motion
  cases event.isHint <;> cases event.button1 <;> cases event.button2 <;> cases event.button3 <;>
    rfl

theorem applyEvent_place (event : ViewEvent F) (c c' : Camera F) (h : c.place = c'.place) :
    (applyEvent fl c event).place = (applyEvent fl c' event).place := by
  cases event with
  | operation => exact h
  | motion event => exact motion_place event h
  | key keyval =>
      cases keyval with
      | r => rfl
      | left | right | other => exact h
  | tick result shown released =>
      cases shown with
      | none => exact h
      | some values =>
          simp only [applyEvent]
          split
          · exact h
          · exact h

theorem applyEvent_untouched {event : ViewEvent F} (h : event.isHand = false) (c : Camera F) :
    (applyEvent fl c event).place = c.place := by
  cases event with
  | operation => rfl
  | motion | key => cases h
  | tick result shown released =>
      cases shown with
      | none => rfl
      | some values =>
          simp only [applyEvent]
          split
          · rfl
          · rfl

/-- The mouse does not roll the camera. -/
theorem motion_roll (event : MotionEvent) (c : Camera F) :
    (motion fl event c).rotation.z = c.rotation.z := by
  unfold motion
  cases event.isHint <;> cases event.button1 <;> cases event.button2 <;> cases event.button3 <;>
    rfl

/-- And without its first button it does not turn it at all. -/
theorem motion_rotation {event : MotionEvent} (h : event.isHint = true ∨ event.button1 = false)
    (c : Camera F) : (motion fl event c).rotation = c.rotation := by
  unfold motion
  rcases h with h | h
  · rw [if_pos h]
  · rw [h]
    cases event.isHint <;> cases event.button2 <;> cases event.button3 <;> rfl

theorem applyEvent_roll (event : ViewEvent F) (c c' : Camera F)
    (h : c.rotation.z = c'.rotation.z) :
    (applyEvent fl c event).rotation.z = (applyEvent fl c' event).rotation.z := by
  cases event with
  | operation => exact h
  | motion event => exact (motion_roll event c).trans (h.trans (motion_roll event c').symm)
  | key keyval =>
      cases keyval with
      | r => rfl
      | left | right | other => exact h
  | tick result shown released =>
      cases shown with
      | none => exact h
      | some values =>
          simp only [applyEvent]
          split
          · exact h
          · exact congrArg (fl.add · (fl.angles values).z) h

/-- Every motion that is looked at comes without the first button. -/
def NotTurned (es : List (ViewEvent F)) : Prop :=
  ∀ event, .motion event ∈ es → event.isHint = true ∨ event.button1 = false

theorem steady_rotation {event : ViewEvent F} (hsteady : event.isSteady = true) {c c' : Camera F}
    (h : c.rotation = c'.rotation) :
    (applyEvent fl c event).rotation = (applyEvent fl c' event).rotation := by
  cases event with
  | operation => exact h
  | motion => cases hsteady
  | key keyval =>
      cases keyval with
      | r => rfl
      | left | right | other => exact h
  | tick result shown released =>
      cases shown with
      | none => exact h
      | some values =>
          simp only [applyEvent]
          split
          · exact h
          · simp only [Camera.turn, h]

/-- An event that is not steady is one of the mouse. -/
theorem eq_motion {event : ViewEvent F} (h : event.isSteady = false) :
    ∃ motion, event = .motion motion := by
  cases event with
  | motion motion => exact ⟨motion, rfl⟩
  | operation | tick | key => cases h

/--
**The samples and the hand keep out of each other's way.**  In every order of operations of the
client, ticks, motions of the mouse and keys, and however the numbers are rounded: where the
camera stands, its zoom and the last place of the pointer are those of what is done by hand
alone; its roll is that of everything but the mouse; and so is its whole rotation as long as
the mouse is not dragged with the first button.
-/
theorem camera_apart (fl : Floats F) (consoleMode clientMode : Bool) (bias : Bias F)
    {es : List (ViewEvent F)} {s : ViewState F}
    (hrun : Run (ViewStep fl) (initialView fl consoleMode clientMode bias) es s) :
    s.camera.place = (cameraAfter fl (es.filter ViewEvent.isHand)).place ∧
      s.camera.rotation.z = (cameraAfter fl (es.filter ViewEvent.isSteady)).rotation.z ∧
      (NotTurned es →
        s.camera.rotation = (cameraAfter fl (es.filter ViewEvent.isSteady)).rotation) := by
  rw [show s.camera = cameraAfter fl es from run_camera hrun]
  refine ⟨?_, ?_, fun hnot => ?_⟩
  · exact foldl_purged Camera.place (fun e _ _ => applyEvent_place e)
      (fun e _ hother => applyEvent_untouched hother) rfl
  · refine foldl_purged (fun c : Camera F => c.rotation.z) (fun e _ _ => applyEvent_roll e) ?_ rfl
    intro e _ hother c
    obtain ⟨event, rfl⟩ := eq_motion hother
    exact motion_roll event c
  · refine foldl_purged Camera.rotation
      (fun e _ hkept c c' => steady_rotation hkept) ?_ rfl
    intro e he hother c
    obtain ⟨event, rfl⟩ := eq_motion hother
    exact motion_rotation (hnot event he) c

/-- A message, shown while the mouse is dragged. -/
theorem camera_apart_session :
    ∃ es s, Run (ViewStep exactFloats) (initialView exactFloats false false exactFloats.zeroBias)
        es s ∧
      (es.filter ViewEvent.isHand).length = 1 ∧ (es.filter ViewEvent.isSteady).length = 4 ∧
      s.camera.rotation.z
        = (cameraAfter exactFloats (es.filter ViewEvent.isSteady)).rotation.z := by
  have hrun : ∃ s shown released, Run (ViewStep exactFloats)
      (initialView exactFloats false false exactFloats.zeroBias)
      [.operation (.start ⟨0⟩), .operation (.notifyMessage wholeMessage true), .tick 0 none [],
        .motion ⟨false, 3, 4, true, false, false⟩, .tick 1 (some shown) released] s :=
    ⟨_, _, _, ((((Run.single (@ViewStep.operation _ exactFloats _ _ (.start ⟨0⟩) nofun rfl)).snoc
      (@ViewStep.operation _ _ _ _ (.notifyMessage wholeMessage true) nofun rfl)).snoc
      (@tick_step _ _ _ 0 _ none [] rfl rfl rfl)).snoc (.motion _)).snoc
      (@tick_step _ _ _ 1 _ (some _) _ rfl rfl rfl)⟩
  obtain ⟨s, shown, released, hrun⟩ := hrun
  exact ⟨_, s, hrun, rfl, rfl,
    (camera_apart exactFloats false false exactFloats.zeroBias hrun).2.1⟩

/-! ### A drag -/

/-- The same buttons are held. -/
def MotionEvent.SameButtons (event event' : MotionEvent) : Prop :=
  event.button1 = event'.button1 ∧ event.button2 = event'.button2 ∧
    event.button3 = event'.button3

/-- What the pointer's move by so much makes of the camera, with the buttons of an event. -/
def moveBy (fl : Floats F) (held : MotionEvent) (c : Camera F) (diff : Int × Int) : Camera F :=
  { c with
    rotation := if held.button1 then
        { c.rotation with
          x := fl.add c.rotation.x (fl.mul (fl.constant cameraRotationFactor) (fl.ofInt diff.2))
          y := fl.add c.rotation.y (fl.mul (fl.constant cameraRotationFactor) (fl.ofInt diff.1)) }
      else c.rotation
    translation := if held.button2 then
        { c.translation with
          x := fl.add c.translation.x
            (fl.mul (fl.constant cameraTranslationFactor) (fl.ofInt diff.1))
          y := fl.sub c.translation.y
            (fl.mul (fl.constant cameraTranslationFactor) (fl.ofInt diff.2)) }
      else c.translation
    zoom := if held.button3 then
        fl.sub c.zoom (fl.mul (fl.constant cameraZoomFactor) (fl.ofInt diff.1))
      else c.zoom }

/-- The moves of the pointer in a drag, from one event that is not a hint to the next. -/
def dragMoves (last : Int × Int) : List MotionEvent → List (Int × Int)
  | [] => []
  | event :: path =>
    if event.isHint then dragMoves last path
    else (event.x - last.1, event.y - last.2) :: dragMoves (event.x, event.y) path

/-- Where a drag comes to. -/
def dragEnd (last : Int × Int) : List MotionEvent → Int × Int
  | [] => last
  | event :: path => dragEnd (if event.isHint then last else (event.x, event.y)) path

/-- The moves add up to the way from the beginning to the end. -/
theorem dragMoves_sum (last : Int × Int) (path : List MotionEvent) :
    ((dragMoves last path).map Prod.fst).sum = (dragEnd last path).1 - last.1 ∧
      ((dragMoves last path).map Prod.snd).sum = (dragEnd last path).2 - last.2 := by
  induction path generalizing last with
  | nil => simp [dragMoves, dragEnd]
  | cons event path ih =>
      unfold dragMoves dragEnd
      by_cases hhint : event.isHint = true
      · rw [if_pos hhint, if_pos hhint]
        exact ih last
      · rw [if_neg hhint, if_neg hhint]
        obtain ⟨hx, hy⟩ := ih (event.x, event.y)
        simp only [List.map_cons, List.sum_cons, hx, hy]
        omega

theorem motion_moveBy {event held : MotionEvent} (hhint : event.isHint = false)
    (hbuttons : event.SameButtons held) (c : Camera F) :
    motion fl event c
      = { moveBy fl held c (event.x - c.last.1, event.y - c.last.2) with
          last := (event.x, event.y) } := by
  obtain ⟨h1, h2, h3⟩ := hbuttons
  unfold motion moveBy
  rw [hhint, h1, h2, h3]
  cases held.button1 <;> cases held.button2 <;> cases held.button3 <;> rfl

/-- A move does not look at where the pointer was. -/
theorem foldl_moveBy_last (held : MotionEvent) (moves : List (Int × Int)) (c : Camera F)
    (last : Int × Int) :
    moves.foldl (moveBy fl held) { c with last }
      = { moves.foldl (moveBy fl held) c with last } := by
  induction moves generalizing c with
  | nil => rfl
  | cons diff moves ih => exact ih (moveBy fl held c diff)

/-- A drag is its moves, one after another. -/
theorem foldl_motion {held : MotionEvent} {path : List MotionEvent}
    (hpath : ∀ event ∈ path, event.SameButtons held) (c : Camera F) :
    path.foldl (fun c event => motion fl event c) c
      = { (dragMoves c.last path).foldl (moveBy fl held) c with last := dragEnd c.last path } := by
  induction path generalizing c with
  | nil => rfl
  | cons event path ih =>
      have hrest := ih fun e he => hpath e (List.mem_cons_of_mem event he)
      rw [List.foldl_cons, hrest]
      cases hhint : event.isHint with
      | true =>
          have hsame : motion fl event c = c := if_pos hhint
          simp only [hsame, dragMoves, dragEnd, hhint, if_true]
      | false =>
          rw [motion_moveBy hhint (hpath event (List.mem_cons_self ..)), foldl_moveBy_last]
          simp only [dragMoves, dragEnd, hhint, Bool.false_eq_true, if_false, List.foldl_cons]

/-- With exact numbers two moves are one. -/
theorem moveBy_moveBy (held : MotionEvent) (c : Camera ℚ) (a b : Int × Int) :
    moveBy exactFloats held (moveBy exactFloats held c a) b
      = moveBy exactFloats held c (a.1 + b.1, a.2 + b.2) := by
  unfold moveBy exactFloats
  cases held.button1 <;> cases held.button2 <;> cases held.button3 <;>
    simp [mul_add, add_assoc, sub_sub]

theorem moveBy_zero (held : MotionEvent) (c : Camera ℚ) :
    moveBy exactFloats held c (0, 0) = c := by
  unfold moveBy exactFloats
  cases held.button1 <;> cases held.button2 <;> cases held.button3 <;> simp

/-- And so are any number. -/
theorem foldl_moveBy_exact (held : MotionEvent) (moves : List (Int × Int)) (c : Camera ℚ) :
    moves.foldl (moveBy exactFloats held) c
      = moveBy exactFloats held c ((moves.map Prod.fst).sum, (moves.map Prod.snd).sum) := by
  induction moves generalizing c with
  | nil => exact (moveBy_zero held c).symm
  | cons diff moves ih =>
      rw [List.foldl_cons, ih, moveBy_moveBy]
      rfl

/--
**A drag loses nothing on its way.**  With the same buttons held, and however the numbers are
rounded: the camera is moved by the pointer's moves one after another, which add up to the way
from the beginning to the end, hints or no hints.  So it is only the rounding that can tell one
path from another: with exact numbers the camera is that of the one move to the end.
-/
theorem drag_accounted (fl : Floats F) (held : MotionEvent) (path : List MotionEvent)
    (hpath : ∀ event ∈ path, event.SameButtons held) :
    (∀ c : Camera F, path.foldl (fun c event => motion fl event c) c
      = { (dragMoves c.last path).foldl (moveBy fl held) c with last := dragEnd c.last path }) ∧
    (∀ last, ((dragMoves last path).map Prod.fst).sum = (dragEnd last path).1 - last.1 ∧
      ((dragMoves last path).map Prod.snd).sum = (dragEnd last path).2 - last.2) ∧
    ∀ c : Camera ℚ, path.foldl (fun c event => motion exactFloats event c) c
      = { moveBy exactFloats held c
            ((dragEnd c.last path).1 - c.last.1, (dragEnd c.last path).2 - c.last.2) with
          last := dragEnd c.last path } := by
  refine ⟨foldl_motion hpath, fun last => dragMoves_sum last path, fun c => ?_⟩
  obtain ⟨hx, hy⟩ := dragMoves_sum c.last path
  rw [foldl_motion hpath, foldl_moveBy_exact, hx, hy]

/-- A drag there and back, with a hint on the way. -/
theorem drag_accounted_back :
    dragMoves (0, 0) [⟨false, 5, 9, true, false, true⟩, ⟨true, 7, 7, true, false, true⟩,
        ⟨false, 0, 0, true, false, true⟩] = [(5, 9), (-5, -9)] ∧
      [⟨false, 5, 9, true, false, true⟩, ⟨true, 7, 7, true, false, true⟩,
          ⟨false, 0, 0, true, false, true⟩].foldl (fun c event => motion exactFloats event c)
          (resetCamera exactFloats)
        = { moveBy exactFloats ⟨false, 0, 0, true, false, true⟩ (resetCamera exactFloats) (0, 0)
            with last := (0, 0) } :=
  ⟨rfl, (drag_accounted exactFloats ⟨false, 0, 0, true, false, true⟩
    [⟨false, 5, 9, true, false, true⟩, ⟨true, 7, 7, true, false, true⟩,
      ⟨false, 0, 0, true, false, true⟩] (by simp [MotionEvent.SameButtons])).2.2 _⟩

/-! ### At rest -/

/-- What is shown of a message by which the client was calibrated. -/
def Floats.restSample (fl : Floats F) (rest : Data) : Sample F :=
  fl.correct (fl.restBias (fl.extractData rest)) (fl.extractData rest)

/-- That of a device lying still, its z axis upwards. -/
theorem restSample_exact (rest : Data) :
    exactFloats.restSample rest
      = { accelX := 0, accelY := 0, accelZ := -1, temp := (exactFloats.extractData rest).temp,
          gyroX := 0, gyroY := 0, gyroZ := 0 } := by
  have hz (a : ℚ) : a - (a + 1) = -1 := sub_add_cancel_left a 1
  simp [Floats.restSample, Floats.correct, Floats.restBias, exactFloats, hz]

/-- The words of a dataset are those of another, but for the temperature. -/
structure Resembles (rest data : Data) : Prop where
  accelX : (decoded data).accelX = (decoded rest).accelX
  accelY : (decoded data).accelY = (decoded rest).accelY
  accelZ : (decoded data).accelZ = (decoded rest).accelZ
  gyroX : (decoded data).gyroX = (decoded rest).gyroX
  gyroY : (decoded data).gyroY = (decoded rest).gyroY
  gyroZ : (decoded data).gyroZ = (decoded rest).gyroZ

/-- The message, if there is one, shows the device as it lay. -/
def ShowsRest (rest : Data) (queue : List Message) : Prop :=
  ∀ m data, queue.head? = some m → m.data = .ok data → Resembles rest data

/-- The device lies as it lay when it was calibrated: what a tick takes and what a click looks at
shows it so, and no click finds the event queue empty. -/
def AtRest (rest : Data) (s : ViewState F) : ViewEvent F → Prop
  | .operation (.calibrateClicked _) =>
    s.client.cbData.eventQueue ≠ [] ∧ ShowsRest rest s.client.cbData.messageQueue
  | .tick _ _ _ => ShowsRest rest s.client.cbData.messageQueue
  | _ => True

/-- A rate less itself turns nothing.  In single precision it does not, if the two zeros are
taken for one: the difference is a zero, as each rate is finite. -/
def Floats.Still (fl : Floats F) : Prop :=
  ∀ (word : BitVec 16) (angle : F),
    let rate := fl.div (fl.ofInt word.toInt) (fl.constant gyroscopeLsbFactor250)
    fl.add angle (fl.mul (fl.neg (fl.sub rate rate)) fl.period) = angle ∧
      fl.add angle (fl.mul (fl.sub rate rate) fl.period) = angle

theorem exactFloats_still : exactFloats.Still := by
  intro word angle
  simp [exactFloats]

theorem extractData_resembles {rest data : Data} (h : Resembles rest data) :
    fl.extractData data = { fl.extractData rest with temp := (fl.extractData data).temp } := by
  simp only [Floats.extractData, Sample.map, h.accelX, h.accelY, h.accelZ, h.gyroX, h.gyroY,
    h.gyroZ]

/-- The temperature is no part of the bias. -/
theorem restBias_temp (values : Sample F) (t : F) :
    fl.restBias { values with temp := t } = fl.restBias values := rfl

theorem correct_temp (bias : Bias F) (values : Sample F) (t : F) :
    fl.correct bias { values with temp := t } = { fl.correct bias values with temp := t } := rfl

theorem restBias_resembles {rest data : Data} (h : Resembles rest data) :
    fl.restBias (fl.extractData data) = fl.restBias (fl.extractData rest) :=
  (congrArg fl.restBias (extractData_resembles h)).trans (restBias_temp _ _)

theorem correct_resembles {rest data : Data} (h : Resembles rest data) :
    fl.correct (fl.restBias (fl.extractData rest)) (fl.extractData data)
      = { fl.restSample rest with temp := (fl.extractData data).temp } :=
  (congrArg (fl.correct _) (extractData_resembles h)).trans (correct_temp _ _ _)

/-- A device at rest does not turn the camera. -/
theorem turn_restSample (hstill : fl.Still) (rest : Data) (t : F) (c : Camera F) :
    c.turn fl (fl.angles { fl.restSample rest with temp := t }) = c := by
  obtain ⟨zoom, rotation, translation, last⟩ := c
  obtain ⟨x, y, z⟩ := rotation
  have hx := (hstill (decoded rest).gyroX x).1
  have hy := (hstill (decoded rest).gyroY y).1
  have hz := (hstill (decoded rest).gyroZ z).2
  exact congrArg (fun rotation => Camera.mk zoom rotation translation last)
    (congr (congr (congrArg Vec3.mk hx) hy) hz)

/-- What was shown is the device at rest. -/
def ShownAtRest (fl : Floats F) (rest : Data) (es : List (ViewEvent F)) : Prop :=
  ∀ result values released, .tick result (some values) released ∈ es →
    ∃ t, values = { fl.restSample rest with temp := t }

/-- A client that was calibrated with the device in this position. -/
structure Calibrated (fl : Floats F) (rest : Data) (s : ViewState F) : Prop where
  mode : s.client.cbData.clientMode = true
  bias : s.bias = fl.restBias (fl.extractData rest)

/-- Whatever happens, it stays so. -/
theorem calibrated_step {rest : Data} {s s' : ViewState F} {event : ViewEvent F}
    (h : Calibrated fl rest s) (hrest : AtRest rest s event) (hstep : ViewStep fl s event s') :
    Calibrated fl rest s' := by
  cases hstep with
  | motion | key => exact ⟨h.mode, h.bias⟩
  | tick htick => exact ⟨(processTick_queues htick).1.trans h.mode, h.bias⟩
  | @operation _ op hop hstep =>
      have heffect := operate_effect hop hstep
      refine ⟨heffect.mode.trans h.mode, ?_⟩
      by_cases hclick : ∃ result, op = .calibrateClicked result
      · obtain ⟨result, rfl⟩ := hclick
        obtain ⟨hevents, hshows⟩ := hrest
        obtain ⟨bias, rfl, ⟨hnone, -⟩ | ⟨m, data, hhead, hdata, rfl⟩⟩ := calibrateView_ok hstep
        · exact absurd hnone hevents
        · exact restBias_resembles (hshows m data hhead hdata)
      · rw [heffect.bias fun result hop => hclick ⟨result, hop⟩]
        exact h.bias

/-- A tick shows the device at rest. -/
theorem tick_atRest {rest : Data} {s s' : ViewState F} {result : Int} {values : Sample F}
    {released : List Message} (h : Calibrated fl rest s)
    (hrest : ShowsRest rest s.client.cbData.messageQueue)
    (hstep : ViewStep fl s (.tick result (some values) released) s') :
    ∃ t, values = { fl.restSample rest with temp := t } := by
  generalize hevent : ViewEvent.tick result (some values) released = event at hstep
  cases hstep with
  | operation | motion | key => cases hevent
  | tick htick =>
      injection hevent with _ hshown
      obtain ⟨m, data, hhead, -, hdata, hvalues⟩ := processTick_shown htick hshown.symm
      refine ⟨(fl.extractData data).temp, ?_⟩
      rw [hvalues, Floats.values, if_pos h.mode, h.bias]
      exact correct_resembles (hrest m data hhead hdata)

/-- What happens by hand is all that moves the camera. -/
theorem applyEvent_atRest (hstill : fl.Still) {rest : Data} {es : List (ViewEvent F)}
    (h : ShownAtRest fl rest es) (c : Camera F) :
    es.foldl (applyEvent fl) c = (es.filter ViewEvent.isHand).foldl (applyEvent fl) c := by
  have hsame : ∀ event ∈ es, event.isHand = true → ∀ c c' : Camera F, id c = id c' →
      id (applyEvent fl c event) = id (applyEvent fl c' event) := by
    rintro event - - c c' ⟨⟩
    rfl
  refine foldl_purged id hsame ?_ rfl
  intro event hmem hother c
  cases event with
  | operation => rfl
  | motion | key => cases hother
  | tick result shown released =>
      cases shown with
      | none => rfl
      | some values =>
          obtain ⟨t, rfl⟩ := h result values released hmem
          simp only [applyEvent, turn_restSample hstill]
          exact ite_self c

/--
**Once calibrated, a device at rest is shown at rest.**  From a click on, in every order of
operations, ticks, motions, keys and further clicks that find an event in the queue, as long as
the messages taken and looked at show the device as it was when it was calibrated: every
sample shown is the same but for the temperature, the first one's less its own bias.  And if a
rate less itself turns nothing, the camera is where it was moved by hand.
-/
theorem camera_at_rest (fl : Floats F) (rest : Data) {start : ViewState F}
    (hmode : start.client.cbData.clientMode = true)
    (hbias : start.bias = fl.restBias (fl.extractData rest)) {es : List (ViewEvent F)}
    {s : ViewState F} (hrun : Run (Guarded (ViewStep fl) (AtRest rest)) start es s) :
    ShownAtRest fl rest es ∧
      (fl.Still →
        s.camera = (es.filter ViewEvent.isHand).foldl (applyEvent fl) start.camera) := by
  have hshown : Calibrated fl rest s ∧ ShownAtRest fl rest es := by
    refine hrun.invariant (P := fun es s => Calibrated fl rest s ∧ ShownAtRest fl rest es)
      ⟨⟨hmode, hbias⟩, fun _ _ _ h => absurd h List.not_mem_nil⟩ ?_
    rintro es mid event s' ⟨hcalibrated, hshown⟩ ⟨hrest, hstep⟩
    refine ⟨calibrated_step hcalibrated hrest hstep, fun result values released hmem => ?_⟩
    rcases List.mem_append.mp hmem with hmem | hmem
    · exact hshown result values released hmem
    · cases List.mem_singleton.mp hmem
      exact tick_atRest hcalibrated hrest hstep
  refine ⟨hshown.2, fun hstill => ?_⟩
  rw [run_camera hrun.of_guarded]
  exact applyEvent_atRest hstill hshown.2 start.camera

/-- The data of the message with a whole dataset. -/
def wholeData : Data := fun _ => 7

/-- A client just calibrated, with the message it was calibrated by still to be shown. -/
def calibratedView : ViewState ℚ :=
  { client :=
      { consoleMode := false, sessionData := some ⟨0⟩
        cbData := { clientMode := true, clientSensorBias := zeroBias,
                    eventQueue := [.message], messageQueue := [wholeMessage] } }
    bias := exactFloats.restBias (exactFloats.extractData wholeData)
    camera := resetCamera exactFloats
    temperatureIndex := -1 }

/-- The message it was calibrated by does not turn the camera, calibrated again or not. -/
theorem camera_at_rest_calibrated :
    ∃ shown released s, Run (Guarded (ViewStep exactFloats) (AtRest wholeData)) calibratedView
        [.operation (.calibrateClicked 0), .tick 1 (some shown) released] s ∧
      s.camera = resetCamera exactFloats ∧
      ∃ t, shown = { accelX := 0, accelY := 0, accelZ := -1, temp := t,
                     gyroX := 0, gyroY := 0, gyroZ := 0 } := by
  have hshows : ShowsRest wholeData [wholeMessage] := by
    rintro m data ⟨⟩ ⟨⟩
    exact ⟨rfl, rfl, rfl, rfl, rfl, rfl⟩
  have hrun : ∃ shown released s,
      Run (Guarded (ViewStep exactFloats) (AtRest wholeData)) calibratedView
        [.operation (.calibrateClicked 0), .tick 1 (some shown) released] s := by
    refine ⟨_, _, _, (Run.single ⟨⟨List.cons_ne_nil _ _, hshows⟩,
      @ViewStep.operation _ exactFloats _ _ (.calibrateClicked 0) nofun rfl⟩).snoc
      ⟨?_, @tick_step _ _ _ 1 _ (some _) _ rfl rfl rfl⟩⟩
    exact hshows
  obtain ⟨shown, released, s, hrun⟩ := hrun
  obtain ⟨hshown, hcamera⟩ := camera_at_rest exactFloats wholeData rfl rfl hrun
  obtain ⟨t, ht⟩ := hshown 1 shown released (by simp)
  rw [restSample_exact] at ht
  exact ⟨shown, released, s, hrun, hcamera exactFloats_still, t, ht⟩

end Mpu6050.Client
