/-
Where the temperature curve is stored.

Nothing advances `temperatureIndex`, so it is -1 for every message, and every point goes to
the places -2 and -1, in front of the array.
-/
import Mpu6050.Client.Curve
import Mpu6050.Proofs.ClientQueues

namespace Mpu6050.Client

open Runs

/-- The curve, and the places stored to, a pair for each message. -/
structure CurveState where
  curve : Curve
  stored : List (Int × Int)

/-- A call of `process_cb`: the queues it finds, and the result of its `sprintf`. -/
structure Call where
  cbData : CBData
  result : Int

/-- One call that comes back.  What happens to the queues between two calls is left open. -/
inductive CurveStep (s : CurveState) : Call → CurveState → Prop
  | call {call : Call} {processed : Processed}
      (h : processAll call.result call.cbData s.curve = .ok processed) :
      CurveStep s call
        { curve := processed.curve, stored := s.stored ++ processed.stored.toList }

/-- The callback data before the first call. -/
def CurveState.start : CurveState := { curve := initialCurve, stored := [] }

/-- The call takes a message, and can print what is in it. -/
def Call.Handles (call : Call) : Prop :=
  call.cbData.eventQueue.head? = some .message ∧ 0 ≤ call.result

/-- The points have gone to the array, the `k`-th one to the place whose turn it was. -/
def InArray (stored : List (Int × Int)) : Prop :=
  ∀ (k : Nat) (x y : Int), stored[k]? = some (x, y) →
    x = 2 * (k % temperatureBufferSize : Nat) ∧ y = x + 1 ∧
      0 ≤ x ∧ y < 2 * temperatureBufferSize

/-! ### One call -/

/-- At the sentinel both places are in front of the array. -/
theorem storeTemperature_sentinel {c : Curve} (hindex : c.temperatureIndex = -1) (t : ℚ) :
    storeTemperature t c = (c, (-2, -1)) := by
  have houtside : ∀ (i : Int) (value : ℚ), i < 0 → c.store i value = c :=
    fun i value hi => dif_neg (by omega)
  unfold storeTemperature
  simp only [hindex, houtside _ _ (show (-1 : Int) * 2 < 0 by omega),
    houtside _ _ (show (-1 : Int) * 2 + 1 < 0 by omega)]
  rfl

/-- Without a message to handle, nothing is stored. -/
theorem processAll_other {call : Call} {curve : Curve} {processed : Processed}
    (hne : call.cbData.eventQueue.head? ≠ some .message)
    (h : processAll call.result call.cbData curve = .ok processed) :
    processed.curve = curve ∧ processed.stored = none := by
  unfold processAll at h
  cases hevents : call.cbData.eventQueue with
  | nil =>
      simp only [processEvent, hevents] at h
      cases h
      exact ⟨rfl, rfl⟩
  | cons e events =>
      have hother : e ≠ .message := by
        rintro rfl
        exact hne (by rw [hevents]; rfl)
      rw [processEvent_other hevents hother] at h
      by_cases hinvalid : e = .invalid
      · rw [if_pos hinvalid] at h
        cases h
        exact ⟨rfl, rfl⟩
      · rw [if_neg hinvalid] at h
        cases h
        exact ⟨rfl, rfl⟩

/-- A message that was taken is stored, if it could be printed. -/
theorem processAll_message {call : Call} {curve : Curve} {processed : Processed}
    (hindex : curve.temperatureIndex = -1)
    (hmessage : call.cbData.eventQueue.head? = some .message)
    (h : processAll call.result call.cbData curve = .ok processed) :
    processed.curve = curve ∧
      processed.stored = if 0 ≤ call.result then some (-2, -1) else none := by
  obtain ⟨events, hevents⟩ := List.head?_eq_some_iff.mp hmessage
  unfold processAll at h
  cases hmessages : call.cbData.messageQueue with
  | nil =>
      simp only [processEvent, hevents, hmessages] at h
      cases h
  | cons m messages =>
      simp only [processEvent, hevents, hmessages, bind, Except.bind] at h
      cases hvalues : processMessage { call.cbData with
          eventQueue := events, messageQueue := messages } m with
      | error e =>
          rw [hvalues] at h
          cases h
      | ok values =>
          rw [hvalues] at h
          by_cases hresult : call.result < 0
          · simp only [if_pos hresult] at h
            cases h
            exact ⟨rfl, (if_neg (Int.not_le.mpr hresult)).symm⟩
          · simp only [if_neg hresult, storeTemperature_sentinel hindex] at h
            cases h
            exact ⟨rfl, (if_pos (Int.not_lt.mp hresult)).symm⟩

/-- **At the sentinel a call leaves the curve alone, and stores what it handles outside.** -/
theorem processAll_sentinel {call : Call} {curve : Curve} {processed : Processed}
    (hindex : curve.temperatureIndex = -1)
    (h : processAll call.result call.cbData curve = .ok processed) :
    processed.curve = curve ∧
      (call.Handles ∧ processed.stored = some (-2, -1) ∨
        ¬call.Handles ∧ processed.stored = none) := by
  by_cases hmessage : call.cbData.eventQueue.head? = some .message
  · obtain ⟨hcurve, hstored⟩ := processAll_message hindex hmessage h
    refine ⟨hcurve, ?_⟩
    by_cases hresult : 0 ≤ call.result
    · rw [if_pos hresult] at hstored
      exact Or.inl ⟨⟨hmessage, hresult⟩, hstored⟩
    · rw [if_neg hresult] at hstored
      exact Or.inr ⟨fun hhandles => hresult hhandles.2, hstored⟩
  · obtain ⟨hcurve, hstored⟩ := processAll_other hmessage h
    exact ⟨hcurve, Or.inr ⟨fun hhandles => hmessage hhandles.1, hstored⟩⟩

/-! ### Runs -/

/-- The index is where it was, and every message handled has been stored outside. -/
structure AtSentinel (calls : List Call) (s : CurveState) : Prop where
  index : s.curve.temperatureIndex = -1
  places : ∀ p ∈ s.stored, p = (-2, -1)
  handled : s.stored = [] ↔ ∀ call ∈ calls, ¬call.Handles

theorem atSentinel_step {calls : List Call} {s s' : CurveState} {call : Call}
    (h : AtSentinel calls s) (hstep : CurveStep s call s') : AtSentinel (calls ++ [call]) s' := by
  obtain ⟨hcall⟩ := hstep
  obtain ⟨hcurve, hcase⟩ := processAll_sentinel h.index hcall
  have hindex := (congrArg Curve.temperatureIndex hcurve).trans h.index
  rcases hcase with ⟨hhandles, hstored⟩ | ⟨hhandles, hstored⟩
  · rw [hstored, Option.toList_some]
    refine ⟨hindex, ?_, ?_⟩
    · intro p hp
      rcases List.mem_append.mp hp with hold | hnew
      · exact h.places p hold
      · exact List.mem_singleton.mp hnew
    · exact iff_of_false (by simp) fun hnone => hnone call (by simp) hhandles
  · rw [hstored, Option.toList_none, List.append_nil]
    refine ⟨hindex, h.places, ?_⟩
    rw [List.forall_mem_append, List.forall_mem_singleton, and_iff_left hhandles]
    exact h.handled

/-- Every message of a run is stored in front of the array. -/
theorem atSentinel_run {calls : List Call} {s : CurveState}
    (hrun : Run CurveStep .start calls s) : AtSentinel calls s :=
  hrun.invariant ⟨rfl, nofun, iff_of_true rfl nofun⟩ fun _ _ _ _ => atSentinel_step

/--
**The curve stays in its array exactly as long as no message has been handled.**  A call that
takes a message shorter than a dataset is not among them: it stores to the same two places, but
what it decodes behind the payload is not followed here.
-/
theorem curve_inArray_iff (calls : List Call) (s : CurveState)
    (hrun : Run CurveStep .start calls s) :
    InArray s.stored ↔ ∀ call ∈ calls, ¬call.Handles := by
  have hsentinel := atSentinel_run hrun
  rw [← hsentinel.handled]
  constructor
  · intro h
    cases hstored : s.stored with
    | nil => rfl
    | cons p rest =>
        have hp : p = (-2, -1) := hsentinel.places p (by simp [hstored])
        have hplace := (h 0 (-2) (-1) (by rw [hstored, hp]; rfl)).2.2.1
        omega
  · intro h k x y hk
    rw [h] at hk
    cases hk

/-- A call that finds a message and its event. -/
def messageCall (result : Int) : Call :=
  { cbData :=
      { clientMode := false, clientSensorBias := zeroBias, eventQueue := [.message]
        messageQueue := [wholeMessage] }
    result }

/-- A message that cannot be printed is not stored. -/
theorem curve_inArray_unprinted :
    ∃ s, Run CurveStep .start [messageCall (-1)] s ∧ InArray s.stored := by
  have hrun : Run CurveStep .start [messageCall (-1)] _ := Run.single (.call rfl)
  refine ⟨_, hrun, (curve_inArray_iff _ _ hrun).mpr ?_⟩
  intro call hcall
  rw [List.mem_singleton.mp hcall]
  exact fun h => absurd h.2 (by decide)

/-- The first message is stored at -2 and -1. -/
theorem curve_outside :
    ∃ s, Run CurveStep .start [messageCall 0] s ∧ s.stored = [(-2, -1)] ∧
      ¬InArray s.stored := by
  have hrun : Run CurveStep .start [messageCall 0] _ := Run.single (.call rfl)
  refine ⟨_, hrun, rfl, fun h => ?_⟩
  exact absurd (h 0 (-2) (-1) rfl).2.2.1 (by decide)

end Mpu6050.Client
