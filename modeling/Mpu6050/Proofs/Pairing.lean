/-
Which message goes with which event.

Every message that is notified is announced by an event, and `process_cb` takes a message for
each such event.  The events are put in at the back and the messages at the front, and both are
taken from the front.  So the message taken is the one that was announced if it is the only
one; if there are two, it is the later one, for the event of the earlier.

The queues do not say which message an event is of.  A run is traced by a box that numbers the
messages as they come; `Traces` says that what is in the box is what is in the queues.
-/
import Mpu6050.Lib.Pairs
import Mpu6050.Proofs.ClientQueues

namespace Mpu6050.Client

open Runs Pairs

/-- The client, and a trace of its messages. -/
structure Traced where
  client : ClientState
  box : Box Message

/-- What an operation does to the messages and the events of them. -/
def track (s : ClientState) (op : Operation) (b : Box Message) : Box Message :=
  match op with
  | .notifyMessage m duplicated => if !s.consoleMode && duplicated then b.put m else b
  | .processCb => if s.cbData.eventQueue.head? = some .message then b.take else b
  | _ => b

/-- An operation of the client, other than the finalisation, and its trace. -/
structure TracedStep (t : Traced) (op : Operation) (t' : Traced) : Prop where
  notFinal : op ≠ .idleFinalizeUi
  client : Step t.client op t'.client
  box : t'.box = track t.client op t.box

/-- The client before its first session. -/
def Traced.start (consoleMode clientMode : Bool) (bias : SensorBias) : Traced :=
  { client := initialState consoleMode clientMode bias, box := .empty }

/-- `process_cb` takes a message only if no other one waits. -/
def TakesAlone (t : Traced) (op : Operation) : Prop :=
  op = .processCb → t.client.cbData.eventQueue.head? = some .message →
    t.client.cbData.messageQueue.length ≤ 1

/-- The box holds what the queues hold. -/
structure Traces (t : Traced) : Prop where
  messages : t.box.items.map Prod.snd = t.client.cbData.messageQueue
  events : t.client.cbData.eventQueue.count .message = t.box.notices.length
  kept : t.box.Kept

/-! ### One operation -/

/-- What an operation other than the finalisation can do to the queues. -/
inductive Moved (s : ClientState) (op : Operation) (s' : ClientState) (b : Box Message) : Prop
  | put {m : Message} (hmessages : s'.cbData.messageQueue = m :: s.cbData.messageQueue)
      (hevents : s'.cbData.eventQueue = s.cbData.eventQueue ++ [.message])
      (hbox : track s op b = b.put m)
  | taken {m : Message} (hop : op = .processCb)
      (hmessages : s.cbData.messageQueue = m :: s'.cbData.messageQueue)
      (hevents : s.cbData.eventQueue = .message :: s'.cbData.eventQueue)
      (hbox : track s op b = b.take)
  | left (hmessages : s'.cbData.messageQueue = s.cbData.messageQueue)
      (hevents : s'.cbData.eventQueue.count .message = s.cbData.eventQueue.count .message)
      (hbox : track s op b = b)

theorem moved_pushEvent {s s' : ClientState} {op : Operation} {e : Event} {b : Box Message}
    (hs' : s'.cbData = s.cbData.pushEvent e) (he : e ≠ .message) (hbox : track s op b = b) :
    Moved s op s' b := by
  refine .left (by rw [hs']; rfl) ?_ hbox
  rw [hs', CBData.pushEvent, List.count_append, List.count_singleton, if_neg (by simpa using he)]
  rfl

theorem moved_notifyMessage {s s' : ClientState} {m : Message} {duplicated : Bool}
    (h : step s (.notifyMessage m duplicated) = .ok s') (b : Box Message) :
    Moved s (.notifyMessage m duplicated) s' b := by
  rcases step_notifyMessage s m duplicated with
    ⟨e, -, hstep⟩ | ⟨hnot, mid, hmid, hstep⟩ | ⟨hqueued, hstep⟩
  · rw [hstep] at h
    cases h
  · rw [hstep] at h
    cases h
    exact .left (by rw [hmid]) (by rw [hmid]) (by simp [track, hnot])
  · rw [hstep] at h
    cases h
    exact .put rfl rfl (if_pos hqueued)

theorem moved_processCb {s s' : ClientState} (h : step s .processCb = .ok s')
    (b : Box Message) : Moved s .processCb s' b := by
  rcases step_processCb s with ⟨hother, hstep⟩ | ⟨events, hevents, ⟨-, hstep⟩ | hrest⟩
  · rw [hstep] at h
    cases h
    exact .left rfl (count_tail_of_head_ne hother) (if_neg hother)
  · rw [hstep] at h
    cases h
  · obtain ⟨m, messages, hmessages, hstep⟩ := hrest
    rw [hstep] at h
    cases h
    exact .taken rfl hmessages hevents (if_pos (by rw [hevents]; rfl))

/-- Whoever looks at a message leaves it where it is. -/
theorem moved_calibrateClicked {s s' : ClientState} {result : Int}
    (h : step s (.calibrateClicked result) = .ok s') (b : Box Message) :
    Moved s (.calibrateClicked result) s' b := by
  rcases step_calibrateClicked s result with ⟨-, -, -, hstep⟩ | ⟨-, ⟨e, -, hstep⟩ | ⟨bias, hstep⟩⟩
  · rw [hstep] at h
    cases h
  · rw [hstep] at h
    cases h
  · rw [hstep] at h
    cases h
    exact .left rfl rfl rfl

/-- **Only two operations touch the messages**, and they do what they do in the box. -/
theorem moved_step {s s' : ClientState} {op : Operation} (hop : op ≠ .idleFinalizeUi)
    (h : Step s op s') (b : Box Message) : Moved s op s' b := by
  cases op with
  | start sessionData =>
      cases h
      exact moved_pushEvent rfl (by decide) rfl
  | notifyMessage m duplicated => exact moved_notifyMessage h b
  | notifySessionMessage =>
      cases h
      exact moved_pushEvent rfl (by decide) rfl
  | sessionEnd =>
      cases h
      exact moved_pushEvent rfl (by decide) rfl
  | processCb => exact moved_processCb h b
  | calibrateClicked result => exact moved_calibrateClicked h b
  | idleFinalizeUi => exact absurd rfl hop

/-- What is next in the box is next in the queues. -/
theorem Traces.take {t : Traced} (h : Traces t) {m : Message} {messages : List Message}
    {events : List Event} (hmessages : t.client.cbData.messageQueue = m :: messages)
    (hevents : t.client.cbData.eventQueue = .message :: events) :
    ∃ notice notices number items, t.box.notices = notice :: notices ∧
      t.box.items = (number, m) :: items ∧ items.map Prod.snd = messages ∧
      notices.length = events.count .message := by
  have hitems := h.messages.trans hmessages
  have hlength := h.events
  rw [hevents, List.count_cons_self] at hlength
  rcases h.kept.nil_or_cons with ⟨-, hnone⟩ | ⟨notice, notices, item, items, hn, hi⟩
  · rw [hnone] at hitems
    cases hitems
  · rw [hi] at hitems
    rw [hn] at hlength
    obtain ⟨number, m'⟩ := item
    obtain ⟨rfl, hrest⟩ : m' = m ∧ items.map Prod.snd = messages := List.cons.inj hitems
    exact ⟨notice, notices, number, items, hn, hi, hrest, (Nat.succ.inj hlength).symm⟩

/-- **The box keeps to the queues.** -/
theorem traces_step {t t' : Traced} {op : Operation} (h : Traces t)
    (hstep : TracedStep t op t') : Traces t' := by
  obtain ⟨hop, hclient, hbox⟩ := hstep
  cases moved_step hop hclient t.box with
  | @put m hmessages hevents htrack =>
      rw [htrack] at hbox
      constructor
      · rw [hbox, hmessages, ← h.messages]
        rfl
      · rw [hbox, hevents, List.count_append, h.events]
        simp [Box.put]
      · rw [hbox]
        exact h.kept.put m
  | @taken m _ hmessages hevents htrack =>
      rw [htrack] at hbox
      obtain ⟨notice, notices, number, items, hnotices, hitems, hrest, hcount⟩ :=
        h.take hmessages hevents
      have hkept := h.kept.take
      rw [take_cons hnotices hitems] at hbox hkept
      constructor
      · rw [hbox, ← hrest]
      · rw [hbox, ← hcount]
      · rw [hbox]
        exact hkept
  | left hmessages hevents htrack =>
      rw [htrack] at hbox
      constructor
      · rw [hbox, hmessages, h.messages]
      · rw [hbox, hevents, h.events]
      · rw [hbox]
        exact h.kept

/-- **The message that `process_cb` has to handle is the one that leaves the box.** -/
theorem taken_processEvent {t : Traced} (h : Traces t) {cb : CBData} {m : Message}
    (htick : processEvent t.client.cbData = .ok (cb, .message m)) :
    ∃ notice number, (track t.client .processCb t.box).taken
      = t.box.taken ++ [(notice, number, m)] := by
  cases hevents : t.client.cbData.eventQueue with
  | nil =>
      rw [processEvent, hevents] at htick
      cases htick
  | cons e events =>
      by_cases hmessage : e = .message
      · subst hmessage
        cases hmessages : t.client.cbData.messageQueue with
        | nil =>
            simp only [processEvent, hevents, hmessages] at htick
            cases htick
        | cons m' messages =>
            simp only [processEvent, hevents, hmessages] at htick
            cases htick
            obtain ⟨notice, notices, number, items, hnotices, hitems, -, -⟩ :=
              h.take hmessages hevents
            refine ⟨notice, number, ?_⟩
            rw [track, if_pos (by rw [hevents]; rfl), take_cons hnotices hitems]
      · rw [processEvent_other hevents hmessage] at htick
        by_cases hinvalid : e = .invalid
        · rw [if_pos hinvalid] at htick
          cases htick
        · rw [if_neg hinvalid] at htick
          cases htick

/-! ### Runs -/

variable {consoleMode clientMode : Bool} {bias : SensorBias}

/-- An operation of the client, traced. -/
theorem TracedStep.next {t : Traced} {op : Operation} {s' : ClientState}
    (hop : op ≠ .idleFinalizeUi) (h : Step t.client op s') :
    TracedStep t op { client := s', box := track t.client op t.box } := ⟨hop, h, rfl⟩

/-- Every run of the client has its trace. -/
theorem exists_traced {ops : List Operation} {s : ClientState}
    (hrun : Run (Guarded Step fun _ op => op ≠ .idleFinalizeUi)
      (initialState consoleMode clientMode bias) ops s) :
    ∃ b, Run TracedStep (.start consoleMode clientMode bias) ops { client := s, box := b } := by
  induction hrun with
  | nil => exact ⟨.empty, .nil⟩
  | snoc _ hstep ih =>
      obtain ⟨b, hb⟩ := ih
      exact ⟨_, hb.snoc (.next hstep.1 hstep.2)⟩

theorem traces_start : Traces (.start consoleMode clientMode bias) := ⟨rfl, rfl, kept_empty⟩

theorem traces_run {ops : List Operation} {t : Traced}
    (hrun : Run TracedStep (.start consoleMode clientMode bias) ops t) : Traces t :=
  Run.invariant (P := fun _ t => Traces t) traces_start
    (fun _ _ _ _ h hstep => traces_step h hstep) hrun

/-- The items in the box, in the order in which they are there, and those taken. -/
structure InPairs (t : Traced) : Prop where
  traces : Traces t
  stacked : t.box.Stacked
  paired : t.box.Paired

/-- **A message taken alone is the one its event was for.** -/
theorem inPairs_step {t t' : Traced} {op : Operation} (h : InPairs t)
    (hstep : Guarded TracedStep TakesAlone t op t') : InPairs t' := by
  obtain ⟨htraces, hstacked, hpaired⟩ := h
  obtain ⟨halone, hstep⟩ := hstep
  have htraces' := traces_step htraces hstep
  obtain ⟨hop, hclient, hbox⟩ := hstep
  cases moved_step hop hclient t.box with
  | @put m hmessages hevents htrack =>
      rw [htrack] at hbox
      refine ⟨htraces', ?_, ?_⟩
      · rw [hbox]
        exact hstacked.put m
      · rw [hbox]
        exact hpaired
  | taken hop' hmessages hevents htrack =>
      have hlength := halone hop' (by rw [hevents]; rfl)
      rw [← htraces.messages, List.length_map] at hlength
      obtain ⟨hs, hp⟩ := htraces.kept.take_alone hstacked hpaired hlength
      rw [htrack] at hbox
      exact ⟨htraces', hbox ▸ hs, hbox ▸ hp⟩
  | left hmessages hevents htrack =>
      rw [htrack] at hbox
      exact ⟨htraces', hbox ▸ hstacked, hbox ▸ hpaired⟩

theorem inPairs_run {ops : List Operation} {t : Traced}
    (hrun : Run (Guarded TracedStep TakesAlone) (.start consoleMode clientMode bias) ops t) :
    InPairs t :=
  Run.invariant (P := fun _ t => InPairs t) ⟨traces_start, stacked_empty, paired_empty⟩
    (fun _ _ _ _ h hstep => inPairs_step h hstep) hrun

/-- What was paired before stays as it is. -/
theorem paired_of_step {t t' : Traced} {op : Operation} (h : Traces t)
    (hstep : TracedStep t op t') (hpaired : t'.box.Paired) : t.box.Paired := by
  obtain ⟨hop, hclient, hbox⟩ := hstep
  rw [hbox] at hpaired
  cases moved_step hop hclient t.box with
  | put _ _ htrack =>
      rw [htrack] at hpaired
      exact hpaired
  | taken _ _ _ htrack =>
      rw [htrack] at hpaired
      exact h.kept.paired_of_take hpaired
  | left _ _ htrack => rwa [htrack] at hpaired

/-- **A message that is the one its event was for was taken alone.** -/
theorem takesAlone_of_paired {t t' : Traced} {op : Operation} (h : InPairs t)
    (hstep : TracedStep t op t') (hpaired : t'.box.Paired) : TakesAlone t op := by
  intro hop hevent
  subst hop
  rw [hstep.box, track, if_pos hevent] at hpaired
  rw [← h.traces.messages, List.length_map]
  exact h.traces.kept.alone_of_paired h.stacked hpaired

/--
**Events and messages stay paired, and the samples in order, exactly in the runs in which
no message is taken while a second one waits.**
-/
theorem paired_iff (consoleMode clientMode : Bool) (bias : SensorBias) (ops : List Operation)
    (t : Traced) (hrun : Run TracedStep (.start consoleMode clientMode bias) ops t) :
    t.box.Paired ∧ t.box.InOrder ↔
      Run (Guarded TracedStep TakesAlone) (.start consoleMode clientMode bias) ops t := by
  rw [(traces_run hrun).kept.inOrder_iff, and_self_iff]
  constructor
  · intro hpaired
    induction hrun with
    | nil => exact .nil
    | @snoc ops mid t op hbefore hstep ih =>
        have hmid := ih (paired_of_step (traces_run hbefore) hstep hpaired)
        exact hmid.snoc ⟨takesAlone_of_paired (inPairs_run hmid) hstep hpaired, hstep⟩
  · intro hguarded
    exact (inPairs_run hguarded).paired

/-- Two messages, the second one notified after the first one was taken. -/
theorem paired_one_by_one :
    ∃ t, Run TracedStep (.start false true zeroBias)
        [.start ⟨0⟩, .processCb, .notifyMessage wholeMessage true, .processCb,
          .notifyMessage nextMessage true, .processCb] t ∧
      t.box.taken = [(0, 0, wholeMessage), (1, 1, nextMessage)] ∧
      t.box.Paired ∧ t.box.InOrder := by
  have hrun : Run (Guarded TracedStep TakesAlone) (.start false true zeroBias)
      [.start ⟨0⟩, .processCb, .notifyMessage wholeMessage true, .processCb,
        .notifyMessage nextMessage true, .processCb] _ :=
    (((((Run.single ⟨nofun, .next nofun rfl⟩).snoc
      ⟨fun _ => nofun, .next nofun rfl⟩).snoc ⟨nofun, .next nofun rfl⟩).snoc
      ⟨fun _ _ => by decide, .next nofun rfl⟩).snoc ⟨nofun, .next nofun rfl⟩).snoc
      ⟨fun _ _ => by decide, .next nofun rfl⟩
  exact ⟨_, hrun.of_guarded, rfl, (paired_iff false true zeroBias _ _ hrun.of_guarded).mpr hrun⟩

/-- Two messages, and the second one is taken for the first one's event. -/
theorem paired_crossed :
    ∃ t, Run TracedStep (.start false true zeroBias)
        [.start ⟨0⟩, .processCb, .notifyMessage wholeMessage true,
          .notifyMessage nextMessage true, .processCb] t ∧
      t.box.taken = [(0, 1, nextMessage)] ∧ ¬ t.box.Paired ∧ ¬ t.box.InOrder := by
  obtain ⟨t, hrun, htaken⟩ : ∃ t, Run TracedStep (.start false true zeroBias)
      [.start ⟨0⟩, .processCb, .notifyMessage wholeMessage true,
        .notifyMessage nextMessage true, .processCb] t ∧
      t.box.taken = [(0, 1, nextMessage)] :=
    ⟨_, ((((Run.single (.next nofun rfl)).snoc (.next nofun rfl)).snoc (.next nofun rfl)).snoc
      (.next nofun rfl)).snoc (.next nofun rfl), rfl⟩
  refine ⟨t, hrun, htaken, fun hpaired => ?_, fun horder => ?_⟩
  · have hnumber : 1 = 0 := hpaired (0, 1, nextMessage) (by simp [htaken])
    cases hnumber
  · rw [Box.InOrder, htaken] at horder
    exact absurd horder (by decide)

end Mpu6050.Client
