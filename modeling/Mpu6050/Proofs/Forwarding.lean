/-
When a forwarding thread sends every sample once.

Neither thread remembers what it has sent.  Each looks at the slot at `ringbufferpos`,
sends it if it is in use, and leaves it in use; the place it could have gone on from is
commented out in the source.  So a thread that comes round twice before the handler has
run again sends the same sample twice.

The samples sent are told apart by the run that recorded them, which each slot is given
beside the ring.  Seen so, the two sides are a feed that is only looked at: a run of the
handler records, an iteration that gets its sample out polls, and everything known of
such feeds carries over.
-/
import Mpu6050.Driver.Threads
import Mpu6050.Lib.Latest
import Mpu6050.Proofs.Freshness

namespace Mpu6050

open Runs

/-- The operation is one iteration of the thread's loop. -/
def Forwarder.Iterates : Forwarder → Op → Prop
  | .netlink, .netlink _ => True
  | .server, .server _ => True
  | _, _ => False

/-- An iteration that finds a sample gets it out: every call before the last one works. -/
def Op.Delivers : Op → Prop
  | .netlink results =>
    results.genlmsgNew = true ∧ results.genlmsgPut = true ∧
      (∀ attr, results.nlaPutU16 attr = 0) ∧ 0 ≤ results.genlmsgEnd
  | .server sk => sk = true
  | _ => False

/-- What the thread makes of a slot. -/
def Forwarder.emission (thread : Forwarder) (entry : RingbufferEntry) : Emission :=
  match thread with
  | .netlink => .message (netlinkAttributes (deviceExtractData entry.data))
  | .server => .datagram { buffer := entry.data, length := entry.size }

/-- The slot holds a sample: the run that wrote it succeeded. -/
def Recorded (entry : RingbufferEntry) : Prop :=
  entry.used = true ∧ 0 ≤ entry.size

/-- The driver, with what was recorded and what was sent, in order. -/
structure ForwardState where
  driver : DriverState
  recorded : List RingbufferEntry
  /-- The run that recorded what is in a slot. -/
  author : Fin ringbufferSize → Option Nat
  forwarded : List (Emission × Option Nat)

/-- The run that recorded the sample at `ringbufferpos`. -/
def ForwardState.source (s : ForwardState) : Option Nat :=
  match ringbufferIndex s.driver.client.ringbufferpos with
  | .ok k => s.author k
  | .error _ => none

/-- A successful run of the handler, with `nofifo` as it is at the time, or an iteration of
the thread. -/
inductive ForwardStep (thread : Forwarder) (s : ForwardState) : Op → ForwardState → Prop
  | record (nofifo : Int) {work : ReadWork} {driver : DriverState} {k : Fin ringbufferSize}
      (hstep : opStep nofifo s.driver (.handler work) = .ok (driver, []))
      (hk : ringbufferIndex driver.client.ringbufferpos = .ok k)
      (hsample : Recorded (driver.client.ringbuffer k)) :
      ForwardStep thread s (.handler work)
        { s with
          driver
          recorded := s.recorded ++ [driver.client.ringbuffer k]
          author := Function.update s.author k (some s.recorded.length) }
  | iterate (nofifo : Int) {op : Op} {driver : DriverState} {emitted : List Emission}
      (hop : thread.Iterates op) (hstep : opStep nofifo s.driver op = .ok (driver, emitted)) :
      ForwardStep thread s op
        { s with driver, forwarded := s.forwarded ++ emitted.map fun e => (e, s.source) }

/-- The driver as `i2c_mpu6050_probe` sets it up, with nothing recorded or sent. -/
def ForwardState.start : ForwardState :=
  { driver := probedState, recorded := [], author := fun _ => none, forwarded := [] }

/-- What was sent is part of what was recorded, in the order in which it was recorded, and
no run's sample is sent twice. -/
def ForwardedOnce (thread : Forwarder) (s : ForwardState) : Prop :=
  s.forwarded.Sublist (s.recorded.zipIdx.map fun p => (thread.emission p.1, some p.2))

instance decidableDelivers : (op : Op) → Decidable op.Delivers
  | .netlink results =>
    have : Decidable (∀ attr, results.nlaPutU16 attr = 0) :=
      decidable_of_iff _ forall_attribute.symm
    inferInstanceAs (Decidable (_ ∧ _ ∧ _ ∧ _))
  | .server sk => inferInstanceAs (Decidable (sk = true))
  | .handler _ => inferInstanceAs (Decidable False)
  | .clear => inferInstanceAs (Decidable False)
  | .sysfsRead _ _ => inferInstanceAs (Decidable False)

/-- A run of the handler records, an iteration that gets its sample out polls. -/
def Op.event : Op → Option Latest.Event
  | .handler _ => some .record
  | op => if op.Delivers then some .poll else none

/-! ### What an iteration sends -/

theorem netlinkForward_emission (results : ForwardResults) (data : Data) :
    (netlinkForward results data).2.filterMap BufferStep.emission
      = if (Op.netlink results).Delivers
        then [.message (netlinkAttributes (deviceExtractData data))] else [] := by
  rcases netlinkForward_cases results data with
    ⟨hnew, hforward⟩ | ⟨-, hnot, err, between, -, hbetween, hforward⟩ | ⟨hnew, hput, hforward⟩
  · have hnot : ¬(Op.netlink results).Delivers := fun h => by
      rw [h.1] at hnew
      cases hnew
    rw [hforward, if_neg hnot]
    rfl
  · rw [hforward, if_neg fun h : (Op.netlink results).Delivers => hnot h.2]
    rcases hbetween with rfl | rfl <;> rfl
  · rw [hforward, if_pos (show (Op.netlink results).Delivers from ⟨hnew, hput⟩)]
    rfl

theorem Forwarder.iterates_iff {thread : Forwarder} {op : Op} :
    thread.Iterates op ↔ (thread = .netlink ∧ ∃ results, op = .netlink results) ∨
      (thread = .server ∧ ∃ sk, op = .server sk) := by
  cases thread <;> cases op <;> simp [Forwarder.Iterates]

/-- **An iteration sends the slot at the position, if it is in use and the calls work.** -/
theorem opStep_iterate {nofifo : Int} {thread : Forwarder} {op : Op} {s s' : DriverState}
    {emitted : List Emission} {k : Fin ringbufferSize} (hop : thread.Iterates op)
    (hk : ringbufferIndex s.client.ringbufferpos = .ok k)
    (hused : (s.client.ringbuffer k).used = true)
    (hstep : opStep nofifo s op = .ok (s', emitted)) :
    emitted = if op.Delivers then [thread.emission (s.client.ringbuffer k)] else [] := by
  have hval := ringbufferIndex_val hk
  have hpos : ¬s.client.ringbufferpos = -1 := by omega
  have hlook : ¬(s.client.ringbuffer k).used = false := by simp [hused]
  rcases Forwarder.iterates_iff.mp hop with ⟨rfl, results, rfl⟩ | ⟨rfl, sk, rfl⟩
  · obtain ⟨steps, hrun, hpure⟩ := bind_ok.mp hstep
    cases hpure
    rw [netlinkRun, if_neg hpos, hk] at hrun
    obtain rfl : (netlinkForward results (s.client.ringbuffer k).data).2 = steps :=
      Except.ok.inj ((if_neg hlook).symm.trans hrun)
    exact netlinkForward_emission results _
  · obtain ⟨datagram, hrun, hpure⟩ := bind_ok.mp hstep
    cases hpure
    rw [serverRun, if_neg hpos, hk] at hrun
    obtain rfl : serverSend sk (s.client.ringbuffer k).data (s.client.ringbuffer k).size
        = datagram := Except.ok.inj ((if_neg hlook).symm.trans hrun)
    by_cases hsk : sk = true
    · rw [if_pos (show (Op.server sk).Delivers from hsk), hsk]
      rfl
    · rw [if_neg (show ¬(Op.server sk).Delivers from hsk), Bool.eq_false_iff.mpr hsk]
      rfl

/-- Before the first sample there is nothing to send. -/
theorem opStep_iterate_none {nofifo : Int} {thread : Forwarder} {op : Op} {s s' : DriverState}
    {emitted : List Emission} (hop : thread.Iterates op) (hpos : s.client.ringbufferpos = -1)
    (hstep : opStep nofifo s op = .ok (s', emitted)) : emitted = [] := by
  rcases Forwarder.iterates_iff.mp hop with ⟨rfl, results, rfl⟩ | ⟨rfl, sk, rfl⟩
  · obtain ⟨steps, hrun, hpure⟩ := bind_ok.mp hstep
    cases hpure
    rw [netlinkRun, if_pos hpos] at hrun
    cases hrun
    rfl
  · obtain ⟨datagram, hrun, hpure⟩ := bind_ok.mp hstep
    cases hpure
    rw [serverRun, if_pos hpos] at hrun
    cases hrun
    rfl

/-! ### The thread's side is a feed -/

/-- The driver's state seen as a feed. -/
structure Feeds (thread : Forwarder) (s : ForwardState) (feed : Latest.Feed Emission) :
    Prop where
  pos : PosInRange s.driver.client
  recorded : feed.recorded = s.recorded.map thread.emission
  forwarded : s.forwarded = feed.emitted.map fun p => (p.1, some p.2)
  /-- The position is the sentinel until something is recorded. -/
  sentinel : s.recorded = [] → s.driver.client.ringbufferpos = -1
  /-- From then on it is where the newest sample is. -/
  newest : ∀ earlier entry, s.recorded = earlier ++ [entry] →
    ∃ k, ringbufferIndex s.driver.client.ringbufferpos = .ok k ∧
      s.driver.client.ringbuffer k = entry ∧ entry.used = true ∧
      s.author k = some earlier.length

theorem feeds_start (thread : Forwarder) : Feeds thread .start Latest.Feed.empty := by
  refine ⟨by decide, rfl, rfl, fun _ => rfl, ?_⟩
  intro earlier entry hlast
  exact absurd hlast.symm (by simp [ForwardState.start])

theorem feeds_record {thread : Forwarder} {s : ForwardState} {driver : DriverState}
    {k : Fin ringbufferSize} {feed : Latest.Feed Emission} (h : Feeds thread s feed)
    (hk : ringbufferIndex driver.client.ringbufferpos = .ok k)
    (hsample : Recorded (driver.client.ringbuffer k)) :
    Feeds thread
      { s with
        driver
        recorded := s.recorded ++ [driver.client.ringbuffer k]
        author := Function.update s.author k (some s.recorded.length) }
      { feed with
        recorded := feed.recorded ++ [thread.emission (driver.client.ringbuffer k)] } := by
  have hval := ringbufferIndex_val hk
  have := k.isLt
  refine ⟨⟨?_, ?_⟩, by simp [h.recorded], h.forwarded, by simp, ?_⟩
  · show -1 ≤ driver.client.ringbufferpos
    omega
  · show driver.client.ringbufferpos < ringbufferSize
    omega
  · intro earlier entry hlast
    obtain ⟨rfl, hentry⟩ := List.append_inj' hlast rfl
    obtain rfl : driver.client.ringbuffer k = entry := by simpa using hentry
    exact ⟨k, hk, rfl, hsample.1, Function.update_self ..⟩

/-- What an iteration sends is what a poll of the feed emits, if it gets out. -/
theorem sent_eq_newest {nofifo : Int} {thread : Forwarder} {s : ForwardState} {op : Op}
    {driver : DriverState} {emitted : List Emission} {feed : Latest.Feed Emission}
    (h : Feeds thread s feed) (hop : thread.Iterates op)
    (hstep : opStep nofifo s.driver op = .ok (driver, emitted)) :
    (emitted.map fun e => (e, s.source))
      = (if op.Delivers then feed.newest.toList else []).map fun p => (p.1, some p.2) := by
  rcases List.eq_nil_or_concat s.recorded with hnil | ⟨earlier, entry, hlast⟩
  · have hnone : feed.newest = none := by
      rw [Latest.Feed.newest, h.recorded, hnil]
      rfl
    rw [opStep_iterate_none hop (h.sentinel hnil) hstep, hnone]
    simp
  · rw [List.concat_eq_append] at hlast
    obtain ⟨k, hk, hentry, hused, hauthor⟩ := h.newest earlier entry hlast
    have hsource : s.source = some earlier.length := by
      unfold ForwardState.source
      rw [hk]
      exact hauthor
    have hnewest : feed.newest = some (thread.emission entry, earlier.length) := by
      rw [Latest.Feed.newest, h.recorded, hlast, List.map_append, List.map_singleton,
        Latest.zipIdx_snoc, List.getLast?_concat, List.length_map]
    rw [opStep_iterate hop hk (by rw [hentry]; exact hused) hstep, hnewest, hsource, hentry]
    by_cases hdelivers : op.Delivers
    · rw [if_pos hdelivers, if_pos hdelivers]
      rfl
    · rw [if_neg hdelivers, if_neg hdelivers]
      rfl

theorem event_iterate {thread : Forwarder} {op : Op} (hop : thread.Iterates op) :
    op.event = if op.Delivers then some .poll else none := by
  rcases Forwarder.iterates_iff.mp hop with ⟨rfl, results, rfl⟩ | ⟨rfl, sk, rfl⟩ <;> rfl

theorem feeds_step {thread : Forwarder} {s s' : ForwardState} {op : Op}
    {feed : Latest.Feed Emission} (h : Feeds thread s feed)
    (hstep : ForwardStep thread s op s') :
    ∃ feed', ViewedStep Latest.Step feed op.event feed' ∧ Feeds thread s' feed' := by
  cases hstep with
  | record nofifo hstep hk hsample => exact ⟨_, Latest.Step.record _, feeds_record h hk hsample⟩
  | @iterate nofifo op driver emitted hop hstep =>
      have hsent := sent_eq_newest h hop hstep
      have hsame : driver = s.driver := by
        rcases Forwarder.iterates_iff.mp hop with ⟨rfl, results, rfl⟩ | ⟨rfl, sk, rfl⟩ <;>
          exact opStep_consumer (by simp) hstep
      rw [event_iterate hop, hsame, hsent]
      by_cases hdelivers : op.Delivers
      · rw [if_pos hdelivers, if_pos hdelivers]
        refine ⟨_, Latest.Step.poll, h.pos, h.recorded, ?_, h.sentinel, h.newest⟩
        rw [List.map_append, h.forwarded]
      · rw [if_neg hdelivers, if_neg hdelivers]
        refine ⟨feed, rfl, h.pos, h.recorded, ?_, h.sentinel, h.newest⟩
        rw [List.map_nil, List.append_nil]
        exact h.forwarded

/-- The feed loses nothing of what the thread's record says. -/
theorem forwardedOnce_iff_once {thread : Forwarder} {s : ForwardState}
    {feed : Latest.Feed Emission} (h : Feeds thread s feed) :
    ForwardedOnce thread s ↔ feed.Once := by
  have hrecorded : (s.recorded.zipIdx.map fun p => (thread.emission p.1, some p.2))
      = feed.recorded.zipIdx.map fun p => (p.1, some p.2) := by
    rw [h.recorded, List.zipIdx_map, List.map_map]
    rfl
  unfold ForwardedOnce Latest.Feed.Once
  rw [h.forwarded, hrecorded]
  constructor
  · intro hsub
    have hback := hsub.map fun p : Emission × Option Nat => (p.1, p.2.getD 0)
    simpa [List.map_map, Function.comp_def] using hback
  · exact fun hsub => hsub.map _

/--
**A thread sends every sample once, in order, exactly as long as no two of its iterations
get a sample out with no run of the handler between them.**  A run of the handler is one that
stays in its slot; where one leaves it, the operations are followed up to there.
-/
theorem forwardedOnce_iff (thread : Forwarder) (ops : List Op) (s : ForwardState)
    (hrun : Run (ForwardStep thread) .start ops s) :
    ForwardedOnce thread s ↔ ¬Latest.Repolled (ops.filterMap Op.event) := by
  obtain ⟨feed, hfeed, hfeeds⟩ :=
    hrun.simulates (feeds_start thread) fun _ _ _ _ hmid hstep => feeds_step hmid hstep
  rw [forwardedOnce_iff_once hfeeds]
  exact Latest.once_iff hfeed

/-- Calls that all work. -/
def deliveringCalls : ForwardResults :=
  { genlmsgNew := true, genlmsgPut := true, nlaPutU16 := fun _ => 0, genlmsgEnd := 0
    genlmsgMulticast := 0 }

/-- One sample, and one iteration. -/
theorem forwardedOnce_single :
    ∃ s, Run (ForwardStep .server) .start [.handler fullRead, .server true] s ∧
      s.forwarded.length = 1 ∧ ForwardedOnce .server s := by
  have hrun : ∃ s, Run (ForwardStep .server) .start [.handler fullRead, .server true] s ∧
      s.forwarded.length = 1 :=
    ⟨_, (Run.single (.record 1 rfl rfl ⟨rfl, by decide⟩)).snoc (.iterate 1 trivial rfl), rfl⟩
  obtain ⟨s, hrun, hlength⟩ := hrun
  refine ⟨s, hrun, hlength, (forwardedOnce_iff .server _ s hrun).mpr ?_⟩
  show ¬Latest.Repolled ([.record] ++ [.poll])
  rw [Latest.repolled_poll, not_or]
  refine ⟨?_, Latest.polled_record []⟩
  rw [← List.nil_append [Latest.Event.record], Latest.repolled_record]
  exact Latest.not_repolled_nil

/-- One sample, and two iterations of either thread before the next. -/
theorem forwarded_twice :
    (∃ s, Run (ForwardStep .netlink) .start
        [.handler fullRead, .netlink deliveringCalls, .netlink deliveringCalls] s ∧
      ¬ForwardedOnce .netlink s) ∧
    (∃ s, Run (ForwardStep .server) .start
        [.handler fullRead, .server true, .server true] s ∧
      ¬ForwardedOnce .server s) := by
  constructor
  · refine ⟨_, ((Run.single (.record 1 rfl rfl ⟨rfl, by decide⟩)).snoc
      (.iterate 1 trivial rfl)).snoc (.iterate 1 trivial rfl), fun honce => ?_⟩
    have hle : 2 ≤ 1 := honce.length_le
    omega
  · refine ⟨_, ((Run.single (.record 1 rfl rfl ⟨rfl, by decide⟩)).snoc
      (.iterate 1 trivial rfl)).snoc (.iterate 1 trivial rfl), fun honce => ?_⟩
    have hle : 2 ≤ 1 := honce.length_le
    omega

end Mpu6050
