/-
When the client's two queues stay in step.

Every message is announced by an event in the other queue, and `process_cb` goes by the
events: it takes a message for each event that announces one, without looking whether
there is any.  That is safe while there are as many such events as messages.

Two functions do not keep to it.  `idle_finalize_ui_cb` throws the messages away and
leaves the events that announce them; and `calibrate_clicked_gtk_cb` takes any event for
a sign that there is a message.  `step_safe_iff` says that these are the only two ways
out, and `queues_in_step` carries it through a run.
-/
import Mpu6050.Lib.Runs
import Mpu6050.Proofs.Decoding

namespace Mpu6050.Client

open Runs

/-- As many events that announce a message as there are messages. -/
def InStep (cb : CBData) : Prop :=
  cb.eventQueue.count .message = cb.messageQueue.length

/-- Nothing is thrown away but what is not there, and nothing is looked for because of an
event that does not announce it. -/
def Orderly (s : ClientState) : Operation → Prop
  | .idleFinalizeUi => s.cbData.messageQueue = []
  | .calibrateClicked _ =>
    s.cbData.clientMode = true → s.cbData.eventQueue = [] ∨ s.cbData.messageQueue ≠ []
  | _ => True

/-- The operation finds what it takes, and leaves the queues in step. -/
def SafeStep (s : ClientState) (op : Operation) : Prop :=
  step s op ≠ .error .emptyQueue ∧ ∀ s', step s op = .ok s' → InStep s'.cbData

theorem safeStep_ok {s s' : ClientState} {op : Operation} (hstep : step s op = .ok s')
    (h : InStep s'.cbData) : SafeStep s op := by
  refine ⟨fun hc => ?_, fun s'' hs'' => ?_⟩
  · rw [hstep] at hc
    cases hc
  · rw [hstep] at hs''
    cases hs''
    exact h

theorem safeStep_error {s : ClientState} {op : Operation} {e : Failure}
    (hstep : step s op = .error e) (he : e ≠ .emptyQueue) : SafeStep s op := by
  refine ⟨fun hc => ?_, fun s' hs' => ?_⟩
  · rw [hstep] at hc
    cases hc
    exact he rfl
  · rw [hstep] at hs'
    cases hs'

theorem not_safeStep {s : ClientState} {op : Operation}
    (hstep : step s op = .error .emptyQueue) : ¬SafeStep s op :=
  fun h => h.1 hstep

/-! ### What an operation can do -/

/-- Decoding does not touch the queues. -/
theorem extractData_error {m : Message} {e : Failure} (h : m.extractData = .error e) :
    e ≠ .emptyQueue := by
  rcases Nat.lt_or_ge m.length deviceBlockLength with hshort | hlong
  · rw [extractData_short hshort] at h
    cases h
    simp
  · obtain ⟨values, hvalues⟩ := extractData_ok hlong
    rw [hvalues] at h
    cases h

/-- A message is queued with its event if it was duplicated to be shown, and else not at all. -/
theorem step_notifyMessage (s : ClientState) (m : Message) (duplicated : Bool) :
    (∃ e, e ≠ .emptyQueue ∧ step s (.notifyMessage m duplicated) = .error e) ∨
    ((!s.consoleMode && duplicated) = false ∧
      ∃ s', s'.cbData = s.cbData ∧ step s (.notifyMessage m duplicated) = .ok s') ∨
    ((!s.consoleMode && duplicated) = true ∧
      step s (.notifyMessage m duplicated) = .ok { s with
        cbData := { s.cbData.pushEvent .message with
          messageQueue := m :: s.cbData.messageQueue } }) := by
  cases hsession : s.sessionData with
  | none =>
      refine Or.inl ⟨.assertion, by simp, ?_⟩
      simp only [step, notifyMessage, hsession]
      rfl
  | some sessionData =>
      by_cases hconsole : s.consoleMode = true
      · -- the message is only printed
        have hstep : step s (.notifyMessage m duplicated) = m.extractData.map fun _ => s := by
          simp only [step, notifyMessage, hsession, hconsole, if_true]
          cases m.extractData <;> rfl
        cases hread : m.extractData with
        | error e =>
            rw [hread] at hstep
            exact Or.inl ⟨e, extractData_error hread, hstep⟩
        | ok values =>
            rw [hread] at hstep
            exact Or.inr (Or.inl ⟨by simp [hconsole], s, rfl, hstep⟩)
      · cases duplicated with
        | false =>
            refine Or.inr (Or.inl ⟨Bool.and_false _, { s with
              sessionData := some { droppedFrames := sessionData.droppedFrames + 1 } }, rfl, ?_⟩)
            simp only [step, notifyMessage, hsession, hconsole]
            rfl
        | true =>
            refine Or.inr (Or.inr ⟨by simp [hconsole], ?_⟩)
            simp only [step, notifyMessage, hsession, hconsole]
            rfl

/-- An event that announces no message is thrown away. -/
theorem processEvent_other {cb : CBData} {e : Event} {events : List Event}
    (hevents : cb.eventQueue = e :: events) (hne : e ≠ .message) :
    processEvent cb
      = .ok ({ cb with eventQueue := events }, if e = .invalid then .stop else .continue) := by
  unfold processEvent
  rw [hevents]
  cases e with
  | message => exact absurd rfl hne
  | invalid => rfl
  | connect => rfl
  | disconnect => rfl
  | sessionMessage => rfl

theorem count_tail_of_head_ne {events : List Event} (h : events.head? ≠ some .message) :
    events.tail.count .message = events.count .message := by
  cases events with
  | nil => rfl
  | cons e events => exact (List.count_cons_of_ne (by simpa using h)).symm

/-- The next event is taken, and the next message with it if the event announces one. -/
theorem step_processCb (s : ClientState) :
    (s.cbData.eventQueue.head? ≠ some .message ∧
      step s .processCb
        = .ok { s with cbData := { s.cbData with eventQueue := s.cbData.eventQueue.tail } }) ∨
    ∃ events, s.cbData.eventQueue = .message :: events ∧
      ((s.cbData.messageQueue = [] ∧ step s .processCb = .error .emptyQueue) ∨
        ∃ m messages, s.cbData.messageQueue = m :: messages ∧
          step s .processCb = .ok { s with
            cbData := { s.cbData with eventQueue := events, messageQueue := messages } }) := by
  cases hevents : s.cbData.eventQueue with
  | nil =>
      have hstep : step s .processCb = .ok s := by
        simp only [step, processEvent, hevents]
        rfl
      refine Or.inl ⟨nofun, ?_⟩
      rw [hstep, List.tail_nil, ← hevents]
  | cons e events =>
      by_cases hmessage : e = .message
      · subst hmessage
        refine Or.inr ⟨events, rfl, ?_⟩
        simp only [step, processEvent, hevents]
        cases hmessages : s.cbData.messageQueue with
        | nil => exact Or.inl ⟨rfl, rfl⟩
        | cons m messages => exact Or.inr ⟨m, messages, rfl, rfl⟩
      · refine Or.inl ⟨by simpa using hmessage, ?_⟩
        rw [step, processEvent_other hevents hmessage]
        rfl

/-- A click leaves the queues as they are, and finds a message if there is any event. -/
theorem step_calibrateClicked (s : ClientState) (result : Int) :
    (s.cbData.clientMode = true ∧ s.cbData.eventQueue ≠ [] ∧ s.cbData.messageQueue = [] ∧
      step s (.calibrateClicked result) = .error .emptyQueue) ∨
    ((s.cbData.clientMode = true → s.cbData.eventQueue = [] ∨ s.cbData.messageQueue ≠ []) ∧
      ((∃ e, e ≠ .emptyQueue ∧ step s (.calibrateClicked result) = .error e) ∨
        ∃ bias, step s (.calibrateClicked result)
          = .ok { s with cbData := { s.cbData with clientSensorBias := bias } })) := by
  by_cases hclient : s.cbData.clientMode = true
  · by_cases hevents : s.cbData.eventQueue = []
    · refine Or.inr ⟨fun _ => Or.inl hevents, Or.inr ⟨zeroBias, ?_⟩⟩
      simp only [step, calibrateClicked, hclient, hevents]
      rfl
    · cases hmessages : s.cbData.messageQueue with
      | nil =>
          refine Or.inl ⟨hclient, hevents, rfl, ?_⟩
          simp only [step, calibrateClicked, hclient, if_neg hevents, hmessages]
          rfl
      | cons m messages =>
          have hstep : step s (.calibrateClicked result) = m.extractData.map fun values =>
              { s with cbData := { s.cbData with clientSensorBias := restBias values } } := by
            simp only [step, calibrateClicked, hclient, if_neg hevents, hmessages]
            cases m.extractData <;> rfl
          refine Or.inr ⟨fun _ => Or.inr (by simp), ?_⟩
          cases hread : m.extractData with
          | error e =>
              rw [hread] at hstep
              exact Or.inl ⟨e, extractData_error hread, hstep⟩
          | ok values =>
              rw [hread] at hstep
              exact Or.inr ⟨restBias values, hstep⟩
  · refine Or.inr ⟨fun hc => absurd hc hclient, Or.inl ⟨.assertion, by simp, ?_⟩⟩
    simp only [step, calibrateClicked, hclient]
    rfl

/-! ### Putting in -/

theorem inStep_pushEvent {cb : CBData} {e : Event} (h : InStep cb) (he : e ≠ .message) :
    InStep (cb.pushEvent e) := by
  unfold InStep CBData.pushEvent
  rw [List.count_append, List.count_singleton, if_neg (by simpa using he)]
  exact h

theorem inStep_notifyMessage {cb : CBData} (h : InStep cb) (m : Message) :
    InStep { cb.pushEvent .message with messageQueue := m :: cb.messageQueue } := by
  unfold InStep CBData.pushEvent
  rw [List.count_append, List.count_singleton_self, List.length_cons]
  exact congrArg (· + 1) h

theorem safe_notifyMessage {s : ClientState} (h : InStep s.cbData) (m : Message)
    (duplicated : Bool) : SafeStep s (.notifyMessage m duplicated) := by
  rcases step_notifyMessage s m duplicated with ⟨e, he, hstep⟩ | ⟨-, s', hs', hstep⟩ | ⟨-, hstep⟩
  · exact safeStep_error hstep he
  · exact safeStep_ok hstep (hs' ▸ h)
  · exact safeStep_ok hstep (inStep_notifyMessage h m)

/-! ### Taking out -/

theorem safe_processCb {s : ClientState} (h : InStep s.cbData) : SafeStep s .processCb := by
  unfold InStep at h
  rcases step_processCb s with ⟨hother, hstep⟩ | ⟨events, hevents, hrest⟩
  · refine safeStep_ok hstep ?_
    unfold InStep
    rw [count_tail_of_head_ne hother]
    exact h
  · rw [hevents, List.count_cons_self] at h
    rcases hrest with ⟨hnone, -⟩ | ⟨m, messages, hmessages, hstep⟩
    · rw [hnone] at h
      cases h
    · rw [hmessages] at h
      exact safeStep_ok hstep (Nat.succ.inj h)

/-! ### The two that do not ask -/

theorem safe_calibrateClicked_iff {s : ClientState} (result : Int) (h : InStep s.cbData) :
    SafeStep s (.calibrateClicked result) ↔ Orderly s (.calibrateClicked result) := by
  rcases step_calibrateClicked s result with
    ⟨hclient, hevents, hnone, hstep⟩ | ⟨horderly, ⟨e, he, hstep⟩ | ⟨bias, hstep⟩⟩
  · refine iff_of_false (not_safeStep hstep) fun horderly => ?_
    exact (horderly hclient).elim hevents fun hsome => hsome hnone
  · exact iff_of_true (safeStep_error hstep he) horderly
  · exact iff_of_true (safeStep_ok hstep h) horderly

theorem safe_idleFinalizeUi_iff {s : ClientState} (h : InStep s.cbData) :
    SafeStep s .idleFinalizeUi ↔ Orderly s .idleFinalizeUi := by
  unfold InStep at h
  constructor
  · intro hsafe
    have hcount : s.cbData.eventQueue.count .message = 0 := hsafe.2 _ rfl
    exact List.eq_nil_of_length_eq_zero (h.symm.trans hcount)
  · intro hnone
    have hnone : s.cbData.messageQueue = [] := hnone
    rw [hnone] at h
    exact safeStep_ok rfl h

/-- **From queues in step, a step is safe exactly if it is orderly.** -/
theorem step_safe_iff {s : ClientState} (h : InStep s.cbData) (op : Operation) :
    SafeStep s op ↔ Orderly s op := by
  cases op with
  | start sessionData =>
      exact iff_of_true (safeStep_ok rfl (inStep_pushEvent h (by simp))) trivial
  | notifyMessage m duplicated => exact iff_of_true (safe_notifyMessage h m duplicated) trivial
  | notifySessionMessage =>
      exact iff_of_true (safeStep_ok rfl (inStep_pushEvent h (by simp))) trivial
  | sessionEnd => exact iff_of_true (safeStep_ok rfl (inStep_pushEvent h (by simp))) trivial
  | processCb => exact iff_of_true (safe_processCb h) trivial
  | calibrateClicked result => exact safe_calibrateClicked_iff result h
  | idleFinalizeUi => exact safe_idleFinalizeUi_iff h

/--
**The queues stay in step as long as nothing is thrown away that is there, and nothing is
looked for that is not.**  And in every state that such a run comes to, these are exactly
the operations that find what they take and leave the queues in step.  A run ends where a
message shorter than a dataset is printed or calibrated by; neither touches the queues.
-/
theorem queues_in_step (consoleMode clientMode : Bool) (bias : SensorBias)
    (ops : List Operation) (s : ClientState)
    (hrun : Run (Guarded Step Orderly) (initialState consoleMode clientMode bias) ops s) :
    InStep s.cbData ∧ ∀ op, SafeStep s op ↔ Orderly s op := by
  have hinStep : InStep s.cbData := by
    refine Run.invariant (P := fun _ s => InStep s.cbData) ?_ ?_ hrun
    · exact (rfl : ([] : List Event).count .message = ([] : List Message).length)
    · intro _ mid op s' hmid hlast
      exact ((step_safe_iff hmid op).mpr hlast.1).2 s' hlast.2
  exact ⟨hinStep, step_safe_iff hinStep⟩

/-- A message with a whole dataset. -/
def wholeMessage : Message :=
  { dataBlock := List.replicate 14 7, rdPtr := 0, wrPtr := 14
    rd_le_wr := Nat.zero_le _, wr_le_size := Nat.le_refl _ }

/-- The next message, with other values in it. -/
def nextMessage : Message :=
  { dataBlock := List.replicate 14 8, rdPtr := 0, wrPtr := 14
    rd_le_wr := Nat.zero_le _, wr_le_size := Nat.le_refl _ }

/-- A session with one message, which is looked at and taken before the end. -/
theorem queues_in_step_session :
    ∃ s, Run (Guarded Step Orderly) (initialState false true zeroBias)
        [.start ⟨0⟩, .notifyMessage wholeMessage true, .calibrateClicked 0, .processCb, .processCb,
          .idleFinalizeUi, .sessionEnd] s ∧
      s.cbData.eventQueue = [.disconnect] ∧ InStep s.cbData := by
  have hrun : Run (Guarded Step Orderly) (initialState false true zeroBias)
      [.start ⟨0⟩, .notifyMessage wholeMessage true, .calibrateClicked 0, .processCb, .processCb,
        .idleFinalizeUi, .sessionEnd] _ :=
    ((((((Run.single ⟨trivial, rfl⟩).snoc ⟨trivial, rfl⟩).snoc
      ⟨fun _ => Or.inr (List.cons_ne_nil _ _), rfl⟩).snoc ⟨trivial, rfl⟩).snoc
      ⟨trivial, rfl⟩).snoc ⟨rfl, rfl⟩).snoc ⟨trivial, rfl⟩
  exact ⟨_, hrun, rfl, (queues_in_step false true zeroBias _ _ hrun).1⟩

/-- A message flushed, and its event left behind; a click before the first message. -/
theorem queues_out_of_step :
    (∃ s, Run Step (initialState false true zeroBias)
        [.start ⟨0⟩, .notifyMessage wholeMessage true, .idleFinalizeUi, .processCb] s ∧
      ¬InStep s.cbData ∧ step s .processCb = .error .emptyQueue) ∧
    ∃ s, Run Step (initialState false true zeroBias) [.start ⟨0⟩] s ∧
      step s (.calibrateClicked 0) = .error .emptyQueue := by
  have hflushed : Run Step (initialState false true zeroBias)
      [.start ⟨0⟩, .notifyMessage wholeMessage true, .idleFinalizeUi, .processCb] _ :=
    (((Run.single (by rfl)).snoc (by rfl)).snoc (by rfl)).snoc (by rfl)
  have hclicked : Run Step (initialState false true zeroBias) [.start ⟨0⟩] _ := Run.single rfl
  refine ⟨⟨_, hflushed, fun h => ?_, rfl⟩, ⟨_, hclicked, rfl⟩⟩
  cases h

end Mpu6050.Client
