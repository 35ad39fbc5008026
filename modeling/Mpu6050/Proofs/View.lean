/-
What the callbacks of the user interface do, each in one lemma.

`process_cb` either finds no message, and leaves all but the event queue as it was, or takes
the first one, shows its 14 bytes and releases it (`TickWay`).  An operation touches neither
the camera nor, but for a click, the bias (`operate_effect`).

With exact numbers the functions are those of `Client.Queues` and `Client.Curve`, on every
message that these follow to its end (`processTick_exact`, `calibrateView_exact`).
-/
import Mpu6050.Client.View
import Mpu6050.Lib.Runs
import Mpu6050.Proofs.ClientQueues

namespace Mpu6050.Client

open Runs

/-! ### Computations that may fail -/

theorem bind_eq_ok {α β : Type} {x : Except Failure α} {f : α → Except Failure β} {b : β} :
    (x >>= f) = .ok b ↔ ∃ a, x = .ok a ∧ f a = .ok b := by
  cases x with
  | error e =>
      constructor
      · intro h
        cases h
      · rintro ⟨a, h, -⟩
        cases h
  | ok a =>
      constructor
      · exact fun h => ⟨a, rfl, h⟩
      · rintro ⟨a', h, hf⟩
        cases h
        exact hf

theorem map_eq_ok {α β : Type} {x : Except Failure α} {f : α → β} {b : β} :
    x.map f = .ok b ↔ ∃ a, x = .ok a ∧ f a = b := by
  cases x with
  | error e =>
      constructor
      · intro h
        cases h
      · rintro ⟨a, h, -⟩
        cases h
  | ok a =>
      constructor
      · intro h
        cases h
        exact ⟨a, rfl, rfl⟩
      · rintro ⟨a', h, rfl⟩
        cases h
        rfl

/-! ### What is decoded -/

theorem data_ok_iff {m : Message} :
    (∃ data, m.data = .ok data) ↔ m.rdPtr + ringbufferDataSize ≤ m.dataBlock.length := by
  unfold Message.data
  constructor
  · rintro ⟨data, h⟩
    by_contra hnot
    rw [dif_neg hnot] at h
    cases h
  · intro h
    exact ⟨_, dif_pos h⟩

/-- The bytes of a message are those of its data block. -/
theorem data_eq {m : Message} {data : Data} (h : m.data = .ok data) (i : Fin ringbufferDataSize) :
    m.dataBlock[m.rdPtr + i.val]? = some (data i) := by
  unfold Message.data at h
  split at h
  · cases h
    exact List.getElem?_eq_getElem _
  · cases h

theorem byteAt_block {m : Message} {i : Nat} {b : U8} (h : m.byteAt i = .ok b) :
    m.dataBlock[m.rdPtr + i]? = some b := by
  unfold Message.byteAt at h
  split at h
  · cases h
    exact List.getElem?_eq_getElem _
  · cases h

theorem readBytes_block {m : Message} {n i : Nat} {bs : List U8} (h : m.readBytes n i = .ok bs) :
    ∀ j < n, m.dataBlock[m.rdPtr + (i + j)]? = bs[j]? := by
  induction n generalizing i bs with
  | zero => exact fun j hj => absurd hj (Nat.not_lt_zero j)
  | succ n ih =>
      rw [Message.readBytes] at h
      obtain ⟨b, hb, h⟩ := bind_eq_ok.mp h
      obtain ⟨rest, hrest, h⟩ := bind_eq_ok.mp h
      cases h
      intro j hj
      cases j with
      | zero => exact byteAt_block hb
      | succ j =>
          have hnext := ih hrest j (Nat.lt_of_succ_lt_succ hj)
          rw [List.getElem?_cons_succ, ← hnext]
          congr 2
          omega

/-- A payload of 14 bytes is what is decoded. -/
theorem extractData_data {m : Message} {raw : Sample ℚ} (h : m.extractData = .ok raw) :
    ∃ data, m.data = .ok data ∧ raw = extractData data := by
  have hlong : deviceBlockLength ≤ m.length := extractData_ok_iff.mp ⟨raw, h⟩
  have hsize : m.rdPtr + ringbufferDataSize ≤ m.dataBlock.length := by
    have hle := m.wr_le_size
    have hlong : 14 ≤ m.wrPtr - m.rdPtr := hlong
    show m.rdPtr + 14 ≤ m.dataBlock.length
    omega
  obtain ⟨data, hdata⟩ := data_ok_iff.mpr hsize
  refine ⟨data, hdata, ?_⟩
  obtain ⟨bs, hbs, hpure⟩ := bind_eq_ok.mp h
  obtain rfl := Except.ok.inj hpure
  congr 1
  funext i
  have hbyte := readBytes_block hbs i.val i.isLt
  rw [Nat.zero_add, data_eq hdata i] at hbyte
  rw [← hbyte]
  rfl

/-! ### `process_cb` -/

section

variable {F : Type} {fl : Floats F} {s s' : ViewState F}

/-- The two ways of a call: no message, or one. -/
inductive TickWay (fl : Floats F) (result : Int) (s : ViewState F) : Ticked F → Prop
  | idle {cbData : CBData} {continues : Bool}
      (hevent : processEvent s.client.cbData
        = .ok (cbData, if continues then .continue else .stop)) :
      TickWay fl result s (.idle cbData s.camera continues)
  | shown {cbData : CBData} {m : Message} {data : Data}
      (hevent : processEvent s.client.cbData = .ok (cbData, .message m))
      (hsize : m.size = streamBufferSize) (hdata : m.data = .ok data) :
      TickWay fl result s
        (showMessage fl result s cbData m (fl.values cbData.clientMode s.bias data))

theorem processTick_way {result : Int} {ticked : Ticked F}
    (h : processTick fl result s = .ok ticked) : TickWay fl result s ticked := by
  obtain ⟨⟨cbData, tick⟩, hevent, hrest⟩ := bind_eq_ok.mp h
  cases tick with
  | «continue» =>
      cases hrest
      exact .idle hevent
  | stop =>
      cases hrest
      exact .idle hevent
  | message m =>
      simp only at hrest
      split at hrest
      · cases hrest
      next hsize =>
        obtain ⟨data, hdata, rfl⟩ := map_eq_ok.mp hrest
        exact .shown hevent (not_not.mp hsize) hdata

/-- The second way is taken whenever there is a message that can be decoded. -/
theorem processTick_message {result : Int} {cbData : CBData} {m : Message} {data : Data}
    (hevent : processEvent s.client.cbData = .ok (cbData, .message m))
    (hsize : m.size = streamBufferSize) (hdata : m.data = .ok data) :
    processTick fl result s
      = .ok (showMessage fl result s cbData m (fl.values cbData.clientMode s.bias data)) := by
  refine bind_eq_ok.mpr ⟨_, hevent, ?_⟩
  simp only [if_neg (not_not.mpr hsize), hdata]
  rfl

@[simp] theorem showMessage_cbData (result : Int) (cbData : CBData) (m : Message)
    (values : Sample F) : (showMessage fl result s cbData m values).cbData = cbData := by
  unfold showMessage
  split <;> rfl

@[simp] theorem showMessage_shown (result : Int) (cbData : CBData) (m : Message)
    (values : Sample F) : (showMessage fl result s cbData m values).shown = some values := by
  unfold showMessage
  split <;> rfl

@[simp] theorem showMessage_released (result : Int) (cbData : CBData) (m : Message)
    (values : Sample F) : (showMessage fl result s cbData m values).released = [m] := by
  unfold showMessage
  split <;> rfl

/-- The message that is taken, if one is. -/
def Tick.taken : Tick → List Message
  | .message m => [m]
  | _ => []

/-- What `process_cb` takes while it holds the lock. -/
theorem processEvent_ok {cb cb' : CBData} {tick : Tick} (h : processEvent cb = .ok (cb', tick)) :
    (cb'.clientMode = cb.clientMode ∧ cb'.clientSensorBias = cb.clientSensorBias) ∧
      cb.messageQueue = tick.taken ++ cb'.messageQueue := by
  unfold processEvent at h
  split at h
  case h_5 =>
    split at h
    · cases h
    · next m messages hmessages =>
        cases h
        exact ⟨⟨rfl, rfl⟩, hmessages⟩
  all_goals
    cases h
    exact ⟨⟨rfl, rfl⟩, rfl⟩

theorem step_of_event {s : ClientState} {cb : CBData} {tick : Tick}
    (h : processEvent s.cbData = .ok (cb, tick)) :
    step s .processCb = .ok { s with cbData := cb } := by
  show (processEvent s.cbData).map _ = _
  rw [h]
  rfl

/-- The mode stays, what is taken is released, and the queues take the step of `process_cb`. -/
theorem processTick_queues {result : Int} {ticked : Ticked F}
    (h : processTick fl result s = .ok ticked) :
    ticked.cbData.clientMode = s.client.cbData.clientMode ∧
      s.client.cbData.messageQueue = ticked.released ++ ticked.cbData.messageQueue ∧
      step s.client .processCb = .ok { s.client with cbData := ticked.cbData } := by
  cases processTick_way h with
  | @idle cbData continues hevent =>
      obtain ⟨⟨hmode, -⟩, hqueue⟩ := processEvent_ok hevent
      have hnone : (if continues then Tick.continue else Tick.stop).taken = [] := by
        cases continues <;> rfl
      rw [hnone] at hqueue
      exact ⟨hmode, hqueue, step_of_event hevent⟩
  | shown hevent =>
      obtain ⟨⟨hmode, -⟩, hqueue⟩ := processEvent_ok hevent
      rw [showMessage_cbData, showMessage_released]
      exact ⟨hmode, hqueue, step_of_event hevent⟩

/-- What is shown are the 14 bytes of the first message, less the bias in client mode. -/
theorem processTick_shown {result : Int} {ticked : Ticked F}
    (h : processTick fl result s = .ok ticked) {values : Sample F}
    (hshown : ticked.shown = some values) :
    ∃ m data, s.client.cbData.messageQueue.head? = some m ∧ m.size = streamBufferSize ∧
      m.data = .ok data ∧ values = fl.values s.client.cbData.clientMode s.bias data := by
  cases processTick_way h with
  | idle => cases hshown
  | @shown cbData m data hevent hsize hdata =>
      obtain ⟨⟨hmode, -⟩, hqueue⟩ := processEvent_ok hevent
      rw [showMessage_shown] at hshown
      cases hshown
      refine ⟨m, data, ?_, hsize, hdata, by rw [hmode]⟩
      rw [hqueue]
      rfl

/-- The camera is turned by what is shown, if there is a text to show. -/
theorem processTick_camera {result : Int} {ticked : Ticked F}
    (h : processTick fl result s = .ok ticked) :
    ticked.camera = match ticked.shown with
      | none => s.camera
      | some values => if result < 0 then s.camera else s.camera.turn fl (fl.angles values) := by
  cases processTick_way h with
  | idle => rfl
  | shown =>
      rw [showMessage_shown]
      unfold showMessage
      split <;> rfl

/-- A call that comes back is a step, with what it shows and releases. -/
theorem tick_step {result : Int} {ticked : Ticked F} {shown : Option (Sample F)}
    {released : List Message} (h : processTick fl result s = .ok ticked)
    (hshown : ticked.shown = shown) (hreleased : ticked.released = released) :
    ViewStep fl s (.tick result shown released)
      { s with client := { s.client with cbData := ticked.cbData }, camera := ticked.camera } := by
  subst hshown hreleased
  exact .tick h

/-! ### The other operations -/

/-- What an operation makes of the messages that wait. -/
def WaitingAfter (consoleMode : Bool) (op : Operation) (before after : List Message) : Prop :=
  match op with
  | .notifyMessage m true => after = if consoleMode then before else m :: before
  | .idleFinalizeUi => after = []
  | _ => after = before

/-- What an operation changes, and what it leaves. -/
structure OperateEffect (s : ViewState F) (op : Operation) (s' : ViewState F) : Prop where
  console : s'.client.consoleMode = s.client.consoleMode
  mode : s'.client.cbData.clientMode = s.client.cbData.clientMode
  bias : (∀ result, op ≠ .calibrateClicked result) → s'.bias = s.bias
  waiting : WaitingAfter s.client.consoleMode op s.client.cbData.messageQueue
    s'.client.cbData.messageQueue
  camera : s'.camera = s.camera
  temperatureIndex : s'.temperatureIndex = s.temperatureIndex

/-- A click that finds an event and a message that can be decoded. -/
theorem calibrateView_message {m : Message} {messages : List Message} {data : Data}
    (hclient : s.client.cbData.clientMode = true) (hevents : s.client.cbData.eventQueue ≠ [])
    (hqueue : s.client.cbData.messageQueue = m :: messages) (hdata : m.data = .ok data) :
    calibrateView fl s = .ok { s with bias := fl.restBias (fl.extractData data) } := by
  unfold calibrateView
  rw [if_neg (by simp [hclient]), if_neg hevents, hqueue]
  exact map_eq_ok.mpr ⟨data, hdata, rfl⟩

/-- A click sets the bias by the next message, or to nothing. -/
theorem calibrateView_ok (h : calibrateView fl s = .ok s') :
    ∃ bias, s' = { s with bias } ∧
      (s.client.cbData.eventQueue = [] ∧ bias = fl.zeroBias ∨
        ∃ m data, s.client.cbData.messageQueue.head? = some m ∧ m.data = .ok data ∧
          bias = fl.restBias (fl.extractData data)) := by
  unfold calibrateView at h
  split at h
  · cases h
  split at h
  next hevents =>
    cases h
    exact ⟨_, rfl, Or.inl ⟨hevents, rfl⟩⟩
  split at h
  · cases h
  next m messages hqueue =>
    obtain ⟨data, hdata, rfl⟩ := map_eq_ok.mp h
    exact ⟨_, rfl, Or.inr ⟨m, data, by rw [hqueue]; rfl, hdata, rfl⟩⟩

theorem notifyView_effect {m : Message} {duplicated : Bool}
    (h : notifyView m duplicated s = .ok s') :
    OperateEffect s (.notifyMessage m duplicated) s' := by
  unfold notifyView at h
  split at h
  next hconsole =>
    split at h
    · cases h
    obtain ⟨data, -, rfl⟩ := map_eq_ok.mp h
    refine ⟨rfl, rfl, fun _ => rfl, ?_, rfl, rfl⟩
    cases duplicated with
    | false => rfl
    | true => exact (if_pos hconsole).symm
  next hconsole =>
    obtain ⟨client, hstep, rfl⟩ := map_eq_ok.mp h
    simp only [step, notifyMessage, if_neg hconsole] at hstep
    split at hstep
    · cases hstep
    cases duplicated with
    | false =>
        cases hstep
        exact ⟨rfl, rfl, fun _ => rfl, rfl, rfl, rfl⟩
    | true =>
        cases hstep
        exact ⟨rfl, rfl, fun _ => rfl, (if_neg hconsole).symm, rfl, rfl⟩

theorem operate_effect {op : Operation} (hop : op ≠ .processCb)
    (h : operate fl s op = .ok s') : OperateEffect s op s' := by
  cases op with
  | start | notifySessionMessage | sessionEnd | idleFinalizeUi =>
      cases h
      exact ⟨rfl, rfl, fun _ => rfl, rfl, rfl, rfl⟩
  | notifyMessage m duplicated => exact notifyView_effect h
  | processCb => exact absurd rfl hop
  | calibrateClicked result =>
      obtain ⟨bias, rfl, -⟩ := calibrateView_ok h
      exact ⟨rfl, rfl, fun hclick => absurd rfl (hclick result), rfl, rfl, rfl⟩

/-- The client takes the step of the operation, or stays as it is. -/
theorem operate_client {op : Operation} (h : operate fl s op = .ok s') :
    step s.client op = .ok s'.client ∨ s'.client = s.client := by
  cases op with
  | start | notifySessionMessage | sessionEnd | idleFinalizeUi =>
      cases h
      exact Or.inl rfl
  | processCb =>
      obtain ⟨client, hstep, rfl⟩ := map_eq_ok.mp h
      exact Or.inl hstep
  | calibrateClicked result =>
      obtain ⟨bias, rfl, -⟩ := calibrateView_ok h
      exact Or.inr rfl
  | notifyMessage m duplicated =>
      have hnotify : notifyView m duplicated s = .ok s' := h
      unfold notifyView at hnotify
      split at hnotify
      · split at hnotify
        · cases hnotify
        · obtain ⟨data, -, rfl⟩ := map_eq_ok.mp hnotify
          exact Or.inr rfl
      · obtain ⟨client, hstep, rfl⟩ := map_eq_ok.mp hnotify
        exact Or.inl hstep

/-- A message in the queue has been there, or has just arrived. -/
theorem operate_mem_queue {op : Operation} (hop : op ≠ .processCb)
    (h : operate fl s op = .ok s') :
    ∀ m ∈ s'.client.cbData.messageQueue, m ∈ s.client.cbData.messageQueue ∨
      ∃ duplicated, op = .notifyMessage m duplicated := by
  intro m hm
  have hwaiting := (operate_effect hop h).waiting
  cases op with
  | start | notifySessionMessage | sessionEnd | calibrateClicked => exact Or.inl (hwaiting ▸ hm)
  | idleFinalizeUi => exact absurd (hwaiting ▸ hm) List.not_mem_nil
  | processCb => exact absurd rfl hop
  | notifyMessage m' duplicated =>
      cases duplicated with
      | false => exact Or.inl (hwaiting ▸ hm)
      | true =>
          have hm : m ∈ if s.client.consoleMode then s.client.cbData.messageQueue
              else m' :: s.client.cbData.messageQueue := hwaiting ▸ hm
          split at hm
          · exact Or.inl hm
          · rcases List.mem_cons.mp hm with rfl | hm
            · exact Or.inr ⟨true, rfl⟩
            · exact Or.inl hm

end

/-! ### With exact numbers -/

section

variable {s : ViewState ℚ}

theorem store_temperatureIndex (c : Curve) (i : Int) (value : ℚ) :
    (c.store i value).temperatureIndex = c.temperatureIndex := by
  unfold Curve.store
  split <;> rfl

/-- The two places are those of `temperatureStores`. -/
theorem storeTemperature_places (t : ℚ) (c : Curve) :
    [(storeTemperature t c).2.1, (storeTemperature t c).2.2]
      = (exactFloats.temperatureStores c.temperatureIndex t).map Prod.fst := by
  unfold storeTemperature
  simp only [store_temperatureIndex]
  rfl

/-- **Where `processCb` comes back, so does `processTick`, with its queues and its values;** and
what it does besides is what `processAll` does. -/
theorem processTick_exact {cb : CBData} {values : Option (Sample ℚ)} (result : Int)
    {curve : Curve} (hbias : s.bias = s.client.cbData.clientSensorBias.toBias)
    (hindex : s.temperatureIndex = curve.temperatureIndex)
    (h : processCb s.client.cbData = .ok (cb, values)) :
    ∃ ticked p, processTick exactFloats result s = .ok ticked ∧
      processAll result s.client.cbData curve = .ok p ∧
      ticked.cbData = cb ∧ p.cbData = cb ∧ ticked.shown = values ∧
      ticked.continues = p.continues ∧
      ticked.stored.map Prod.fst = p.stored.elim [] fun places => [places.1, places.2] := by
  obtain ⟨⟨cbData, tick⟩, hevent, hrest⟩ := bind_eq_ok.mp h
  cases tick with
  | «continue» | stop =>
      cases hrest
      exact ⟨_, _, bind_eq_ok.mpr ⟨_, hevent, rfl⟩, bind_eq_ok.mpr ⟨_, hevent, rfl⟩,
        rfl, rfl, rfl, rfl, rfl⟩
  | message m =>
      obtain ⟨shown, hshown, hpure⟩ := bind_eq_ok.mp hrest
      cases hpure
      have hmessage := hshown
      unfold processMessage at hmessage
      split at hmessage
      · cases hmessage
      next hsize =>
        obtain ⟨raw, hraw, rfl⟩ := map_eq_ok.mp hmessage
        obtain ⟨data, hdata, rfl⟩ := extractData_data hraw
        have hvalues : exactFloats.values cb.clientMode s.bias data
            = if cb.clientMode then cb.clientSensorBias.correct (extractData data)
              else extractData data := by
          rw [hbias, ← (processEvent_ok hevent).1.2]
          rfl
        have htick := @processTick_message _ exactFloats s result _ _ _ hevent
          (not_not.mp hsize) hdata
        rw [hvalues] at htick
        by_cases hresult : result < 0
        · refine ⟨_, { cbData := cb, curve, stored := none, continues := false }, htick,
            bind_eq_ok.mpr ⟨_, hevent, bind_eq_ok.mpr ⟨_, hshown, if_pos hresult⟩⟩, ?_⟩
          rw [showMessage, if_pos hresult]
          exact ⟨rfl, rfl, rfl, rfl, rfl⟩
        · refine ⟨_, _, htick,
            bind_eq_ok.mpr ⟨_, hevent, bind_eq_ok.mpr ⟨_, hshown, if_neg hresult⟩⟩, ?_⟩
          rw [showMessage, if_neg hresult, hindex]
          exact ⟨rfl, rfl, rfl, rfl, (storeTemperature_places _ curve).symm⟩

/-- And where `calibrateClicked` does, so does `calibrateView`, with its bias. -/
theorem calibrateView_exact {cb : CBData} {result : Int} {returned : Bool}
    (h : calibrateClicked result s.client.cbData = .ok (cb, returned)) :
    calibrateView exactFloats s = .ok { s with bias := cb.clientSensorBias.toBias } := by
  unfold calibrateClicked at h
  split at h
  · cases h
  next hclient =>
    have hmode : s.client.cbData.clientMode = true := by simpa using hclient
    simp only at h
    split at h
    next hevents =>
      cases h
      unfold calibrateView
      rw [if_neg hclient, if_pos hevents]
      rfl
    next hevents =>
      split at h
      · cases h
      next m messages hqueue =>
        obtain ⟨raw, hraw, hpair⟩ := map_eq_ok.mp h
        obtain ⟨data, hdata, rfl⟩ := extractData_data hraw
        cases hpair
        exact calibrateView_message hmode hevents hqueue hdata

end

end Mpu6050.Client
