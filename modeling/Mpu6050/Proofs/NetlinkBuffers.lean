/-
What becomes of the buffers of netlink messages.

A call of `i2c_mpu6050_netlink_forward` gets at most one buffer, and there are three ways for
it to go: none was to be had; it is freed at `error1`, after a header that was begun has been
cancelled at `error2`; or it is handed to `genlmsg_multicast`, which consumes it whatever it
returns.  No way frees it twice, and none forgets it, so over any number of calls every buffer
has been consumed once.
-/
import Mpu6050.Lib.Ledger
import Mpu6050.Proofs.Consumers

namespace Mpu6050

open Ledger

/-- A buffer lives from `genlmsg_new` until it is freed, or handed to `genlmsg_multicast`. -/
def bufferBracket : Bracket BufferStep where
  opens step := decide (step = .new)
  closes
    | .free => true
    | .multicast _ => true
    | _ => false

/-- One call: the results of the kernel's calls, and the data of the slot. -/
structure ForwardCall where
  results : ForwardResults
  data : Data

/-- What a call got and returned: the number of its buffer, if there was one to be had. -/
structure ForwardReturn where
  call : ForwardCall
  buffer : Option Nat
  value : Int

/-- The buffers allocated so far, what was done to each, and what every call returned. -/
structure BufferLog where
  allocated : Nat
  log : List (Nat × BufferStep)
  returned : List ForwardReturn

/-- Before the first call. -/
def BufferLog.start : BufferLog := { allocated := 0, log := [], returned := [] }

/-- One more call, its buffer numbered by those allocated before. -/
def BufferLog.forward (s : BufferLog) (call : ForwardCall) : BufferLog :=
  let (value, steps) := netlinkForward call.results call.data
  { allocated := if call.results.genlmsgNew then s.allocated + 1 else s.allocated
    log := s.log ++ steps.map fun step => (s.allocated, step)
    returned := s.returned ++
      [{ call, value, buffer := if call.results.genlmsgNew then some s.allocated else none }] }

/-- The buffer was handed to `genlmsg_multicast`, and got through. -/
def BufferLog.Delivered (s : BufferLog) (r : ForwardReturn) : Prop :=
  (∃ b carried, r.buffer = some b ∧ (b, .multicast carried) ∈ s.log) ∧
    r.call.results.genlmsgMulticast = 0

/--
Every buffer has been consumed, and once; what was multicast carries each attribute, and
once; and a call returned 0 exactly if its message was delivered.
-/
structure BuffersConsumed (s : BufferLog) : Prop where
  consumed : Settled bufferBracket s.allocated s.log
  whole : ∀ b carried, (b, .multicast carried) ∈ s.log →
    ∀ attr, (carried.map Prod.fst).count attr = 1
  numbered : ∀ r ∈ s.returned, ∀ b, r.buffer = some b → b < s.allocated
  value : ∀ r ∈ s.returned, r.value = 0 ↔ s.Delivered r

/-! ### One call -/

/-- The attributes put are the seven there are. -/
theorem netlinkAttributes_count (sample : Sample (BitVec 16)) (attr : NetlinkAttribute) :
    ((netlinkAttributes sample).map Prod.fst).count attr = 1 := by
  cases attr <;> rfl

/-- What is entered for a new buffer is about no other. -/
theorem mem_entered_iff {log : List (Nat × BufferStep)} {steps : List BufferStep} {n b : Nat}
    {step : BufferStep} :
    (b, step) ∈ log ++ steps.map (fun step => (n, step))
      ↔ (b, step) ∈ log ∨ n = b ∧ step ∈ steps := by
  rw [List.mem_append]
  refine or_congr_right ?_
  simp only [List.mem_map, Prod.mk.injEq]
  constructor
  · rintro ⟨_, hmem, hn, rfl⟩
    exact ⟨hn, hmem⟩
  · rintro ⟨hn, hmem⟩
    exact ⟨step, hmem, hn, rfl⟩

section

variable {s : BufferLog} {call : ForwardCall}

/-- A call that gets no buffer. -/
theorem forward_none (h : BuffersConsumed s) (hnew : call.results.genlmsgNew = false)
    (hforward : netlinkForward call.results call.data = (enomem.val, [])) :
    BuffersConsumed (s.forward call) := by
  have hs : s.forward call = { s with
      returned := s.returned ++ [{ call, value := enomem.val, buffer := none }] } := by
    unfold BufferLog.forward
    rw [hforward]
    simp [hnew]
  rw [hs]
  refine ⟨h.consumed, h.whole, ?_, ?_⟩
  · rw [List.forall_mem_append, List.forall_mem_singleton]
    exact ⟨h.numbered, nofun⟩
  · rw [List.forall_mem_append, List.forall_mem_singleton]
    refine ⟨h.value, iff_of_false (show enomem.val ≠ 0 by decide) ?_⟩
    rintro ⟨⟨b, carried, hb, -⟩, -⟩
    cases hb

/-- A call that gets one, and lives its life to the end. -/
theorem forward_new (h : BuffersConsumed s) (hnew : call.results.genlmsgNew = true) {value : Int}
    {steps : List BufferStep} (hforward : netlinkForward call.results call.data = (value, steps))
    (hlife : Life bufferBracket steps)
    (hwhole : ∀ carried, .multicast carried ∈ steps →
      ∀ attr, (carried.map Prod.fst).count attr = 1)
    (hvalue : value = 0 ↔ (∃ carried, .multicast carried ∈ steps) ∧
      call.results.genlmsgMulticast = 0) : BuffersConsumed (s.forward call) := by
  have hs : s.forward call =
      { allocated := s.allocated + 1
        log := s.log ++ steps.map fun step => (s.allocated, step)
        returned := s.returned ++ [{ call, value, buffer := some s.allocated }] } := by
    unfold BufferLog.forward
    rw [hforward]
    simp [hnew]
  rw [hs]
  refine ⟨h.consumed.enter hlife, ?_, ?_, ?_⟩
  · intro b carried hmem
    rcases mem_entered_iff.mp hmem with hold | ⟨-, hsteps⟩
    · exact h.whole b carried hold
    · exact hwhole carried hsteps
  · rw [List.forall_mem_append, List.forall_mem_singleton]
    refine ⟨fun r hr b hb => Nat.lt_succ_of_lt (h.numbered r hr b hb), fun b hb => ?_⟩
    rw [← Option.some.inj hb]
    exact Nat.lt_succ_self _
  · rw [List.forall_mem_append, List.forall_mem_singleton]
    constructor
    · intro r hr
      rw [h.value r hr]
      refine and_congr_left fun _ => exists_congr fun b => exists_congr fun carried =>
        and_congr_right fun hb => ?_
      rw [mem_entered_iff, or_iff_left]
      exact fun hnew => Nat.ne_of_gt (h.numbered r hr b hb) hnew.1
    · rw [hvalue]
      refine and_congr_left fun _ => ?_
      constructor
      · intro ⟨carried, hsteps⟩
        exact ⟨s.allocated, carried, rfl, mem_entered_iff.mpr (Or.inr ⟨rfl, hsteps⟩)⟩
      · intro ⟨b, carried, hb, hmem⟩
        rcases mem_entered_iff.mp hmem with hold | ⟨-, hsteps⟩
        · rw [← Option.some.inj hb] at hold
          exact absurd (h.consumed.lt_of_mem hold) (Nat.lt_irrefl _)
        · exact ⟨carried, hsteps⟩

/-- **One more call leaves every buffer consumed.** -/
theorem forward_consumed (h : BuffersConsumed s) (call : ForwardCall) :
    BuffersConsumed (s.forward call) := by
  rcases netlinkForward_cases call.results call.data with
    ⟨hnew, hforward⟩ | ⟨hnew, -, err, between, herr, hbetween, hforward⟩ | ⟨hnew, -, hforward⟩
  · exact forward_none h hnew hforward
  · have hno : ∀ carried, BufferStep.multicast carried ∉ .new :: between ++ [.free] := by
      rcases hbetween with rfl | rfl <;> simp
    refine forward_new h hnew hforward (.lived rfl rfl ?_) ?_ ?_
    · rcases hbetween with rfl | rfl <;> simp [bufferBracket]
    · exact fun carried hmem => absurd hmem (hno carried)
    · exact iff_of_false herr fun ⟨⟨carried, hmem⟩, _⟩ => hno carried hmem
  · generalize hattrs : netlinkAttributes (deviceExtractData call.data) = attrs at hforward
    have hlife : Life bufferBracket (.new :: [] ++ [.multicast attrs]) := .lived rfl rfl nofun
    refine forward_new h hnew hforward hlife ?_ ?_
    · intro carried hmem
      obtain rfl : carried = attrs := by simpa using hmem
      rw [← hattrs]
      exact netlinkAttributes_count _
    · exact (and_iff_right ⟨attrs, by simp⟩).symm

end

/--
**Over any number of calls, whichever of their steps fail, every buffer is consumed once, only
whole records are multicast, and a call returns 0 exactly if its record was delivered.**
-/
theorem buffers_consumed (calls : List ForwardCall) :
    BuffersConsumed (calls.foldl BufferLog.forward .start) := by
  have hrun : ∀ s, BuffersConsumed s → BuffersConsumed (calls.foldl BufferLog.forward s) := by
    induction calls with
    | nil => exact fun _ h => h
    | cons call rest ih => exact fun s h => ih _ (forward_consumed h call)
  exact hrun .start ⟨settled_nil bufferBracket, nofun, nofun, nofun⟩

end Mpu6050
