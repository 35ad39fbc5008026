/-
Which messages the client can decode.

`extract_data` reads 14 bytes from where the payload starts, so it stays inside exactly
if the payload has that many (`extractData_ok`, `extractData_short`).  None of its callers
makes sure of that.  The event handler and `calibrate_clicked_gtk_cb` ask nothing of the
message; `process_cb` asserts that its size is 14, which is that of the data block, and a
data block of 14 bytes may hold a shorter datagram.  So the three agree on the messages
whose data block is 14 bytes large and full, and on no others.
-/
import Mpu6050.Client.Queues

namespace Mpu6050.Client

/-! ### The 14 bytes -/

theorem byteAt_ok {m : Message} {i : Nat} (h : i < m.length) : ∃ b, m.byteAt i = .ok b := by
  have hlt : m.rdPtr + i < m.wrPtr := by
    unfold Message.length at h
    omega
  exact ⟨_, dif_pos hlt⟩

theorem byteAt_outside {m : Message} {i : Nat} (h : m.length ≤ i) :
    m.byteAt i = .error (.outside i) := by
  have hge : ¬m.rdPtr + i < m.wrPtr := by
    unfold Message.length at h
    omega
  exact dif_neg hge

theorem readBytes_ok {m : Message} {n i : Nat} (h : i + n ≤ m.length) :
    ∃ bs, m.readBytes n i = .ok bs := by
  induction n generalizing i with
  | zero => exact ⟨[], rfl⟩
  | succ n ih =>
      obtain ⟨b, hb⟩ := byteAt_ok (show i < m.length by omega)
      obtain ⟨bs, hbs⟩ := ih (show i + 1 + n ≤ m.length by omega)
      refine ⟨b :: bs, ?_⟩
      rw [Message.readBytes, hb]
      show (m.readBytes n (i + 1) >>= fun bs => pure (b :: bs)) = _
      rw [hbs]
      rfl

/-- The first byte outside is the one after the payload. -/
theorem readBytes_outside {m : Message} {n i : Nat} (hi : i ≤ m.length)
    (h : m.length < i + n) : m.readBytes n i = .error (.outside m.length) := by
  induction n generalizing i with
  | zero => omega
  | succ n ih =>
      rw [Message.readBytes]
      rcases Nat.lt_or_ge i m.length with hlt | hge
      · obtain ⟨b, hb⟩ := byteAt_ok hlt
        rw [hb]
        show (m.readBytes n (i + 1) >>= fun bs => pure (b :: bs)) = _
        rw [ih hlt (by omega)]
        rfl
      · rw [byteAt_outside hge, Nat.le_antisymm hi hge]
        rfl

theorem extractData_ok {m : Message} (h : deviceBlockLength ≤ m.length) :
    ∃ values, m.extractData = .ok values := by
  obtain ⟨bs, hbs⟩ := readBytes_ok (show 0 + deviceBlockLength ≤ m.length by omega)
  refine ⟨Client.extractData fun i => (bs[i.val]?).getD 0, ?_⟩
  rw [Message.extractData, hbs]
  rfl

theorem extractData_short {m : Message} (h : m.length < deviceBlockLength) :
    m.extractData = .error (.outside m.length) := by
  rw [Message.extractData, readBytes_outside (Nat.zero_le _) (by omega)]
  rfl

theorem extractData_ok_iff {m : Message} :
    (∃ values, m.extractData = .ok values) ↔ deviceBlockLength ≤ m.length := by
  constructor
  · intro ⟨values, hvalues⟩
    by_contra hc
    rw [extractData_short (Nat.lt_of_not_le hc)] at hvalues
    cases hvalues
  · exact extractData_ok

/-! ### The three places -/

/-- A place that decodes a message. -/
inductive Place
  | notify
  | processCb
  | calibrateClicked

/-- The place, when it is the message's turn there, reads inside its payload and reaches no
assertion that fails: it comes back. -/
def DecodesInside (m : Message) : Place → Prop
  | .notify => ∀ (s : ClientState) (duplicated : Bool), s.consoleMode = true →
    s.sessionData.isSome = true → ∃ r, notifyMessage m duplicated s = .ok r
  | .processCb => ∀ cb cb' : CBData, processEvent cb = .ok (cb', .message m) →
    ∃ r, processCb cb = .ok r
  | .calibrateClicked => ∀ (cb : CBData) (messages : List Message) (result : Int),
    cb.clientMode = true → cb.eventQueue ≠ [] → cb.messageQueue = m :: messages →
    ∃ r, calibrateClicked result cb = .ok r

theorem map_ok_iff {α β : Type} {x : Except Failure α} {f : α → β} :
    (∃ b, x.map f = .ok b) ↔ ∃ a, x = .ok a := by
  cases x with
  | error e =>
      constructor
      · rintro ⟨b, hb⟩
        cases hb
      · rintro ⟨a, ha⟩
        cases ha
  | ok a => exact iff_of_true ⟨f a, rfl⟩ ⟨a, rfl⟩

theorem notifyMessage_ok_iff {m : Message} {duplicated : Bool} {s : ClientState}
    (hconsole : s.consoleMode = true) (hsession : s.sessionData.isSome = true) :
    (∃ r, notifyMessage m duplicated s = .ok r) ↔ deviceBlockLength ≤ m.length := by
  obtain ⟨sessionData, hsession⟩ := Option.isSome_iff_exists.mp hsession
  simp only [notifyMessage, hsession, hconsole, if_true]
  rw [map_ok_iff, extractData_ok_iff]

theorem processMessage_ok_iff {m : Message} {cb : CBData} :
    (∃ r, processMessage cb m = .ok r)
      ↔ m.size = streamBufferSize ∧ deviceBlockLength ≤ m.length := by
  unfold processMessage
  by_cases hsize : m.size = streamBufferSize
  · rw [if_neg (not_not.mpr hsize), map_ok_iff, extractData_ok_iff]
    exact (and_iff_right hsize).symm
  · rw [if_pos hsize]
    refine iff_of_false ?_ fun hc => hsize hc.1
    rintro ⟨r, hr⟩
    cases hr

theorem processCb_ok_iff {m : Message} {cb cb' : CBData}
    (htick : processEvent cb = .ok (cb', .message m)) :
    (∃ r, processCb cb = .ok r) ↔ m.size = streamBufferSize ∧ deviceBlockLength ≤ m.length := by
  have hprocess : processCb cb = (processMessage cb' m).map fun values => (cb', some values) := by
    unfold processCb
    rw [htick]
    cases hvalues : processMessage cb' m with
    | error e => simp only [bind, Except.bind, hvalues, Except.map]
    | ok values => simp only [bind, Except.bind, hvalues, Except.map]; rfl
  rw [hprocess, map_ok_iff, processMessage_ok_iff]

theorem calibrateClicked_ok_iff {m : Message} {cb : CBData} {messages : List Message}
    {result : Int} (hclient : cb.clientMode = true) (hevents : cb.eventQueue ≠ [])
    (hmessages : cb.messageQueue = m :: messages) :
    (∃ r, calibrateClicked result cb = .ok r) ↔ deviceBlockLength ≤ m.length := by
  simp only [calibrateClicked, hclient, if_neg hevents, hmessages]
  exact map_ok_iff.trans extractData_ok_iff

/-- A client in which it is the message's turn at each of the places. -/
def busyClient (m : Message) : ClientState :=
  { consoleMode := true, sessionData := some { droppedFrames := 0 }
    cbData := { clientMode := true, clientSensorBias := zeroBias, eventQueue := [.message]
                messageQueue := [m] } }

theorem decodesInside_notify_iff (m : Message) :
    DecodesInside m .notify ↔ deviceBlockLength ≤ m.length := by
  constructor
  · intro h
    exact (notifyMessage_ok_iff rfl rfl).mp (h (busyClient m) true rfl rfl)
  · intro h s duplicated hconsole hsession
    exact (notifyMessage_ok_iff hconsole hsession).mpr h

theorem decodesInside_processCb_iff (m : Message) :
    DecodesInside m .processCb ↔ m.size = streamBufferSize ∧ deviceBlockLength ≤ m.length := by
  constructor
  · intro h
    exact (processCb_ok_iff rfl).mp (h (busyClient m).cbData _ rfl)
  · intro h cb cb' htick
    exact (processCb_ok_iff htick).mpr h

theorem decodesInside_calibrateClicked_iff (m : Message) :
    DecodesInside m .calibrateClicked ↔ deviceBlockLength ≤ m.length := by
  constructor
  · intro h
    exact (calibrateClicked_ok_iff rfl (List.cons_ne_nil _ _) rfl).mp
      (h (busyClient m).cbData [] 0 rfl (List.cons_ne_nil _ _) rfl)
  · intro h cb messages result hclient hevents hmessages
    exact (calibrateClicked_ok_iff hclient hevents hmessages).mpr h

/-- The payload is no longer than the data block. -/
theorem length_le_size (m : Message) : m.length ≤ m.size := by
  have := m.wr_le_size
  unfold Message.length Message.size
  omega

/--
**A message is decoded inside its payload at every place exactly if its data block is 14
bytes large and its payload fills it.**  The two places that assert nothing are content
with a payload of 14 bytes or more in a data block of any size.
-/
theorem decodesInside_iff (m : Message) :
    ((∀ place, DecodesInside m place)
      ↔ m.size = streamBufferSize ∧ m.length = streamBufferSize) ∧
    (DecodesInside m .notify ↔ streamBufferSize ≤ m.length) ∧
    (DecodesInside m .processCb ↔ m.size = streamBufferSize ∧ streamBufferSize ≤ m.length) ∧
    (DecodesInside m .calibrateClicked ↔ streamBufferSize ≤ m.length) := by
  refine ⟨?_, decodesInside_notify_iff m, decodesInside_processCb_iff m,
    decodesInside_calibrateClicked_iff m⟩
  constructor
  · intro h
    obtain ⟨hsize, hlength⟩ := (decodesInside_processCb_iff m).mp (h .processCb)
    exact ⟨hsize, Nat.le_antisymm (hsize ▸ length_le_size m) hlength⟩
  · intro ⟨hsize, hlength⟩ place
    have hle : deviceBlockLength ≤ m.length := Nat.le_of_eq hlength.symm
    cases place with
    | notify => exact (decodesInside_notify_iff m).mpr hle
    | processCb => exact (decodesInside_processCb_iff m).mpr ⟨hsize, hle⟩
    | calibrateClicked => exact (decodesInside_calibrateClicked_iff m).mpr hle

/-- Four bytes of a datagram in a buffer for 14. -/
def shortMessage : Message :=
  { dataBlock := List.replicate 14 7, rdPtr := 0, wrPtr := 4
    rd_le_wr := Nat.zero_le _, wr_le_size := Nat.le_add_right 4 10 }

/-- None of the places decodes it inside its payload. -/
theorem shortMessage_read_outside :
    shortMessage.size = streamBufferSize ∧ ∀ place, ¬DecodesInside shortMessage place := by
  refine ⟨rfl, fun place h => ?_⟩
  cases place with
  | notify =>
      obtain ⟨r, hr⟩ := h (busyClient shortMessage) true rfl rfl
      cases hr
  | processCb =>
      obtain ⟨r, hr⟩ := h (busyClient shortMessage).cbData _ rfl
      cases hr
  | calibrateClicked =>
      obtain ⟨r, hr⟩ :=
        h (busyClient shortMessage).cbData [] 0 rfl (List.cons_ne_nil _ _) rfl
      cases hr

end Mpu6050.Client
