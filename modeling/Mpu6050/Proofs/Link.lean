/-
Every number on the screen was read from the chip.

The driver, the network and the client each have a part in what is shown, and each could spoil
it: the ring with a slot written half, the network by losing, repeating and reordering, the
client by decoding from the wrong place.  Reading registers, none of them does.  The invariant
is the same on every leg of the way: what is on it is what one read of the registers brought
(`LinkOk`).  A read that brought less than a dataset is sent as it is, and the client decodes 14
bytes whatever has come; but what it decodes begins with what was read (`shown_was_read`).  The
order only the network can spoil: the driver sends its reads as they were made (`sent_in_order`).

And given complete reads and orderly operations, the client is never at a loss (`tick_returns`).
-/
import Mpu6050.Client.Link
import Mpu6050.Proofs.ReadHistory
import Mpu6050.Proofs.View

namespace Mpu6050.Client

open Runs

/-! ### The bytes of a message -/

theorem payload_length (m : Message) : m.payload.length = m.length := by
  have := m.wr_le_size
  unfold Message.payload Message.length
  rw [List.length_take, List.length_drop]
  omega

/-- What is decoded begins with the payload. -/
theorem data_beginsWith {m : Message} {data : Data} (h : m.data = .ok data) :
    BeginsWith data (.bytes m.payload) := by
  intro i hi
  have hbyte := data_eq h i
  have hpayload : m.payload[i.val]? = m.dataBlock[m.rdPtr + i.val]? := by
    have hlt : i.val < m.length := by rw [← payload_length]; exact hi
    unfold Message.payload
    rw [List.getElem?_take_of_lt hlt, List.getElem?_drop]
  rw [hbyte, List.getElem?_eq_getElem hi] at hpayload
  exact (Option.some.inj hpayload).symm

/-- The data of a dataset's bytes. -/
def dataset (bs : List U8) : Data := fun i => (bs[i.val]?).getD 0

/-- And of a whole dataset it is nothing else. -/
theorem eq_dataset {data : Data} {bs : List U8} (h : BeginsWith data (.bytes bs))
    (hlen : bs.length = deviceBlockLength) : data = dataset bs := by
  funext i
  have hi : i.val < bs.length := by rw [hlen]; exact i.isLt
  rw [h i hi, dataset, List.getElem?_eq_getElem hi]
  rfl

/-! ### From the ring to the network -/

/-- The bytes are what one read of the registers brought. -/
def WasRead (ops : List Op) (bs : List U8) : Prop := BlockAnswer.bytes bs ∈ registerReads ops

theorem WasRead.append {ops : List Op} {bs : List U8} (h : WasRead ops bs) (more : List Op) :
    WasRead (ops ++ more) bs := by
  unfold WasRead registerReads
  rw [List.filterMap_append]
  exact List.mem_append_left _ h

/-- A read brings no more than a dataset. -/
theorem registerReads_length {ops : List Op} {bs : List U8}
    (h : BlockAnswer.bytes bs ∈ registerReads ops) : bs.length ≤ deviceBlockLength := by
  obtain ⟨op, -, hread⟩ := List.mem_filterMap.mp h
  cases op with
  | handler work =>
      obtain ⟨answer, -, hanswer⟩ := Option.map_eq_some_iff.mp hread
      exact length_le_blockLength hanswer
  | clear | sysfsRead | netlink | server => cases hread

/-- The slot at the position holds the newest read. -/
theorem newest_records {log : ReadLog} {cd : ClientData} {k : Fin ringbufferSize}
    (h : HoldsLog log cd) (hk : ringbufferIndex cd.ringbufferpos = .ok k) :
    ∃ a, log[log.length - 1]? = some a ∧ Records a (cd.ringbuffer k) := by
  have hval := ringbufferIndex_val hk
  have hpos := h.pos_eq
  unfold RingLog.newest at hpos
  by_cases hnil : log.length = 0
  · rw [if_pos hnil] at hpos
    omega
  · rw [if_neg hnil] at hpos
    have hlast : log.length - 1 < log.length := by omega
    refine ⟨log[log.length - 1], List.getElem?_eq_getElem hlast, ?_⟩
    exact h.recent (log.length - 1) _ k (List.getElem?_eq_getElem hlast)
      (by show log.length ≤ log.length - 1 + 64; omega) (by omega)

/-- What a slot sends is the read it records. -/
theorem sent_records {entry : RingbufferEntry} {a : BlockAnswer × Bool} {payload : List U8}
    (hrecords : Records a entry) (hlength : ∀ bs, a.1 = .bytes bs → bs.length ≤ deviceBlockLength)
    (hpayload : Datagram.payload { buffer := entry.data, length := entry.size } = some payload) :
    a.1 = .bytes payload := by
  obtain ⟨answer, mark⟩ := a
  unfold Datagram.payload at hpayload
  by_cases hneg : entry.size < 0
  · rw [if_pos hneg] at hpayload
    cases hpayload
  rw [if_neg hneg] at hpayload
  cases hpayload
  have hsize : entry.size = answer.result := hrecords.size
  cases answer with
  | fail e =>
      have hfail : entry.size = e.val := hsize
      exact absurd e.property.2 (by omega)
  | bytes bs =>
      have hlen : entry.size.toNat = bs.length := by
        have hbytes : entry.size = bs.length := hsize
        omega
      have hshort : bs.length ≤ 14 := hlength bs rfl
      refine congrArg BlockAnswer.bytes (List.ext_getElem ?_ ?_)
      · show bs.length = ((List.ofFn entry.data).take entry.size.toNat).length
        rw [List.length_take, List.length_ofFn, hlen]
        show bs.length = min bs.length 14
        omega
      · intro i h1 h2
        rw [List.getElem_take, List.getElem_ofFn]
        exact (hrecords.data ⟨i, by show i < 14; omega⟩ h1).symm

/-- The bytes are those of the newest read, and the ring has not been cleared since. -/
structure IsNewest (ops : List Op) (bs : List U8) : Prop where
  read : (registerReads ops)[(registerReads ops).length - 1]? = some (.bytes bs)
  kept : ¬ClearedAfter ops (registerReads ops).length

theorem IsNewest.wasRead {ops : List Op} {bs : List U8} (h : IsNewest ops bs) : WasRead ops bs :=
  List.mem_of_getElem? h.read

/-- What the server thread sends is the newest read. -/
theorem server_sends {ops : List Op} {s s' : DriverState} {sk : Bool} {nofifo : Int}
    {emitted : List Emission} (h : HoldsLog (readLog ops) s.client)
    (hstep : opStep nofifo s (.server sk) = .ok (s', emitted)) {payload : List U8}
    (hpayload : payload ∈ emitted.filterMap Emission.sent) : IsNewest ops payload := by
  obtain ⟨datagram, hrun, hpure⟩ := bind_ok.mp hstep
  cases hpure
  obtain ⟨e, he, hsent⟩ := List.mem_filterMap.mp hpayload
  obtain ⟨d, hd, rfl⟩ := List.mem_map.mp he
  obtain ⟨k, hk, hused, rfl⟩ := serverRun_emits hrun hd
  obtain ⟨a, ha, hrecords⟩ := newest_records h hk
  have hlog : (readLog ops).length = (registerReads ops).length := by
    rw [← readLog_reads, List.length_map]
  have hread : (registerReads ops)[(registerReads ops).length - 1]? = some a.1 := by
    rw [← hlog, ← readLog_reads, List.getElem?_map, ha]
    rfl
  have hpos : 0 < (registerReads ops).length := by
    have hlt := (List.getElem?_eq_some_iff.mp hread).1
    omega
  refine ⟨?_, ?_⟩
  · rw [hread, sent_records hrecords (fun bs hbs => registerReads_length
      (hbs ▸ List.mem_of_getElem? hread)) hsent]
  · have hmark := readLog_mark ops _ a ha
    rw [hlog, Nat.sub_add_cancel hpos] at hmark
    exact hmark.mp (hrecords.used.symm.trans hused)

/-- The server thread sends, and at most one datagram at a time; no other operation does. -/
theorem emitted_sent {ops : List Op} {s s' : DriverState} {op : Op} {nofifo : Int}
    {emitted : List Emission} (h : HoldsLog (readLog ops) s.client)
    (hstep : opStep nofifo s op = .ok (s', emitted)) :
    emitted.filterMap Emission.sent = [] ∨
      ∃ payload, emitted.filterMap Emission.sent = [payload] ∧ IsNewest ops payload ∧
        op.registerRead = none := by
  cases op with
  | server sk =>
      obtain ⟨datagram, -, hpure⟩ := bind_ok.mp hstep
      have hemitted : emitted = datagram.toList.map .datagram :=
        (congrArg Prod.snd (Except.ok.inj hpure)).symm
      cases hsent : emitted.filterMap Emission.sent with
      | nil => exact Or.inl rfl
      | cons payload rest =>
          have hnil : rest = [] := by
            have hlen := congrArg List.length hsent
            have hle := List.length_filterMap_le Emission.sent emitted
            have hone : emitted.length ≤ 1 := by
              rw [hemitted, List.length_map]
              cases datagram <;> simp
            rw [List.length_cons] at hlen
            exact List.eq_nil_of_length_eq_zero (by omega)
          refine Or.inr ⟨payload, by rw [hnil], ?_, rfl⟩
          exact server_sends h hstep (hsent ▸ List.mem_cons_self ..)
  | handler work =>
      rw [(opStep_handler_ok (posInRange_of_holds h) hstep).1]
      exact Or.inl rfl
  | clear =>
      cases hstep
      exact Or.inl rfl
  | sysfsRead offset count =>
      obtain ⟨⟨text, ret⟩, -, hpure⟩ := bind_ok.mp hstep
      cases hpure
      cases text with
      | none => exact Or.inl rfl
      | some text => exact Or.inl rfl
  | netlink results =>
      obtain ⟨steps, -, hpure⟩ := bind_ok.mp hstep
      cases hpure
      refine Or.inl (List.filterMap_eq_nil_iff.mpr fun e he => ?_)
      obtain ⟨step, -, hmessage⟩ := List.mem_filterMap.mp he
      cases step with
      | multicast attrs =>
          cases hmessage
          rfl
      | new | cancel | free => cases hmessage

/-- What any operation of the driver sends was read. -/
theorem emitted_wasRead {ops : List Op} {s s' : DriverState} {op : Op} {nofifo : Int}
    {emitted : List Emission} (h : HoldsLog (readLog ops) s.client)
    (hstep : opStep nofifo s op = .ok (s', emitted)) {payload : List U8}
    (hpayload : payload ∈ emitted.filterMap Emission.sent) : WasRead ops payload := by
  rcases emitted_sent h hstep with hnone | ⟨payload', hone, hnewest, -⟩
  · rw [hnone] at hpayload
    exact absurd hpayload List.not_mem_nil
  · rw [hone, List.mem_singleton] at hpayload
    exact hpayload ▸ hnewest.wasRead

/-! ### In order -/

/-- Each was read, at a place no earlier than that of the one before. -/
def ReadInOrder (reads : List BlockAnswer) (sent : List (List U8)) : Prop :=
  ∃ places : List Nat, places.Pairwise (· ≤ ·) ∧
    places.map (fun i => reads[i]?) = sent.map fun bs => some (.bytes bs)

theorem readInOrder_nil (reads : List BlockAnswer) : ReadInOrder reads [] :=
  ⟨[], .nil, rfl⟩

/-- A place is one of the reads'. -/
theorem place_lt {reads : List BlockAnswer} {sent : List (List U8)} {places : List Nat}
    (h : places.map (fun i => reads[i]?) = sent.map fun bs => some (.bytes bs)) {i : Nat}
    (hi : i ∈ places) : i < reads.length := by
  have hmem : reads[i]? ∈ sent.map fun bs => some (BlockAnswer.bytes bs) :=
    h ▸ List.mem_map_of_mem hi
  obtain ⟨bs, -, hbs⟩ := List.mem_map.mp hmem
  exact (List.getElem?_eq_some_iff.mp hbs.symm).1

/-- More reads leave the places as they are. -/
theorem ReadInOrder.append {reads : List BlockAnswer} {sent : List (List U8)}
    (h : ReadInOrder reads sent) (more : List BlockAnswer) : ReadInOrder (reads ++ more) sent := by
  obtain ⟨places, hsorted, hread⟩ := h
  refine ⟨places, hsorted, hread ▸ List.map_congr_left fun i hi => ?_⟩
  exact List.getElem?_append_left (place_lt hread hi)

/-- And one more that is sent is the newest. -/
theorem ReadInOrder.snoc {reads : List BlockAnswer} {sent : List (List U8)} {bs : List U8}
    (h : ReadInOrder reads sent) (hlast : reads[reads.length - 1]? = some (.bytes bs)) :
    ReadInOrder reads (sent ++ [bs]) := by
  obtain ⟨places, hsorted, hread⟩ := h
  refine ⟨places ++ [reads.length - 1], ?_, ?_⟩
  · refine List.pairwise_append.mpr ⟨hsorted, List.pairwise_singleton _ _, ?_⟩
    intro i hi j hj
    have hlt := place_lt hread hi
    rw [List.mem_singleton.mp hj]
    omega
  · rw [List.map_append, List.map_append, hread]
    simp [hlast]

/-! ### To the screen -/

/-- The data begin with what one read brought, and are that if it was a whole dataset. -/
def FromRead (ops : List Op) (data : Data) : Prop :=
  ∃ bs, WasRead ops bs ∧ BeginsWith data (.bytes bs) ∧
    (bs.length = deviceBlockLength → data = dataset bs)

/-- What a message is decoded from was read, if its payload was. -/
theorem WasRead.decoded {ops : List Op} {m : Message} {data : Data} (h : WasRead ops m.payload)
    (hdata : m.data = .ok data) : FromRead ops data :=
  ⟨m.payload, h, data_beginsWith hdata, eq_dataset (data_beginsWith hdata)⟩

section

variable {F : Type} {fl : Floats F}

/-- A bias that was read: the first one, none, or that of data that were read. -/
def BiasRead (fl : Floats F) (bias : Bias F) (ops : List Op) (b : Bias F) : Prop :=
  b = bias ∨ b = fl.zeroBias ∨ ∃ data, FromRead ops data ∧ b = fl.restBias (fl.extractData data)

/-- Values that were read, in client mode less a bias that was read. -/
def ValuesRead (fl : Floats F) (clientMode : Bool) (bias : Bias F) (ops : List Op)
    (values : Sample F) : Prop :=
  ∃ data, FromRead ops data ∧ ∃ b, BiasRead fl bias ops b ∧ values = fl.values clientMode b data

theorem FromRead.append {ops : List Op} {data : Data} (h : FromRead ops data) (more : List Op) :
    FromRead (ops ++ more) data := by
  obtain ⟨bs, hread, hbegins⟩ := h
  exact ⟨bs, hread.append more, hbegins⟩

theorem BiasRead.append {bias b : Bias F} {ops : List Op} (h : BiasRead fl bias ops b)
    (more : List Op) : BiasRead fl bias (ops ++ more) b := by
  rcases h with h | h | ⟨data, hdata, h⟩
  · exact Or.inl h
  · exact Or.inr (Or.inl h)
  · exact Or.inr (Or.inr ⟨data, hdata.append more, h⟩)

theorem ValuesRead.append {clientMode : Bool} {bias : Bias F} {ops : List Op} {values : Sample F}
    (h : ValuesRead fl clientMode bias ops values) (more : List Op) :
    ValuesRead fl clientMode bias (ops ++ more) values := by
  obtain ⟨data, hdata, b, hb, hvalues⟩ := h
  exact ⟨data, hdata.append more, b, hb.append more, hvalues⟩

/-! ### The whole way -/

/-- On every leg of the way there is what was read, and nothing else. -/
structure LinkOk (fl : Floats F) (clientMode : Bool) (bias : Bias F) (ops : List Op)
    (s : LinkState F) : Prop where
  driver : HoldsLog (readLog ops) s.driver.client
  sent : ∀ payload ∈ s.sent, WasRead ops payload
  queued : ∀ m ∈ s.view.client.cbData.messageQueue, WasRead ops m.payload
  mode : s.view.client.cbData.clientMode = clientMode
  bias : BiasRead fl bias ops s.view.bias

variable {clientMode : Bool} {bias : Bias F} {ops : List Op} {s : LinkState F} {nofifo : Int}

theorem linkOk_driver (hmode : nofifo ≠ 0) (h : LinkOk fl clientMode bias ops s) {op : Op}
    {driver : DriverState} {emitted : List Emission}
    (hstep : opStep nofifo s.driver op = .ok (driver, emitted)) :
    LinkOk fl clientMode bias (ops ++ [op])
      { s with driver, sent := s.sent ++ emitted.filterMap Emission.sent } := by
  refine ⟨?_, ?_, fun m hm => (h.queued m hm).append [op], h.mode, h.bias.append [op]⟩
  · rw [readLog_snoc]
    exact holds_step hmode h.driver ⟨emitted, hstep⟩
  · intro payload hpayload
    rcases List.mem_append.mp hpayload with hpayload | hpayload
    · exact (h.sent payload hpayload).append [op]
    · exact (emitted_wasRead h.driver hstep hpayload).append [op]

/-- A read of the file leaves the log as it is. -/
theorem readLog_sysfsRead (ops : List Op) (offset : Int) (count : Nat) :
    readLog (ops ++ [.sysfsRead offset count]) = readLog ops := by
  rw [readLog_snoc]
  exact List.append_nil _

theorem linkOk_stray (h : LinkOk fl clientMode bias ops s) (offset : Int) (count : Nat) :
    LinkOk fl clientMode bias (ops ++ [.sysfsRead offset count]) s := by
  refine ⟨?_, fun payload hpayload => (h.sent payload hpayload).append _,
    fun m hm => (h.queued m hm).append _, h.mode, h.bias.append _⟩
  rw [readLog_sysfsRead]
  exact h.driver

/-- An operation of the client keeps what is on the way, if what it adds is on its way. -/
theorem linkOk_operate (h : LinkOk fl clientMode bias ops s) {op : Operation} {view : ViewState F}
    (hop : op ≠ .processCb)
    (hadds : ∀ m duplicated, op = .notifyMessage m duplicated → m.payload ∈ s.sent)
    (hstep : operate fl s.view op = .ok view) :
    LinkOk fl clientMode bias ops { s with view } := by
  have heffect := operate_effect hop hstep
  refine ⟨h.driver, h.sent, ?_, heffect.mode.trans h.mode, ?_⟩
  · intro m hm
    rcases operate_mem_queue hop hstep m hm with hm | ⟨duplicated, hnotify⟩
    · exact h.queued m hm
    · exact h.sent _ (hadds m duplicated hnotify)
  · by_cases hclick : ∃ result, op = .calibrateClicked result
    · obtain ⟨result, rfl⟩ := hclick
      obtain ⟨b, rfl, ⟨-, hzero⟩ | ⟨m, data, hhead, hdata, hbias⟩⟩ := calibrateView_ok hstep
      · exact Or.inr (Or.inl hzero)
      · exact Or.inr (Or.inr
          ⟨data, (h.queued m (List.mem_of_mem_head? hhead)).decoded hdata, hbias⟩)
    · show BiasRead fl bias ops view.bias
      rw [heffect.bias fun result hop => hclick ⟨result, hop⟩]
      exact h.bias

/-- A tick keeps it too, and shows what was read. -/
theorem linkOk_tick (h : LinkOk fl clientMode bias ops s) {result : Int} {ticked : Ticked F}
    (htick : processTick fl result s.view = .ok ticked) :
    LinkOk fl clientMode bias ops { s with view := { s.view with
        client := { s.view.client with cbData := ticked.cbData }, camera := ticked.camera } } ∧
      ∀ values, ticked.shown = some values → ValuesRead fl clientMode bias ops values := by
  obtain ⟨hmode, hqueue, -⟩ := processTick_queues htick
  refine ⟨⟨h.driver, h.sent, ?_, hmode.trans h.mode, h.bias⟩, fun values hshown => ?_⟩
  · exact fun m hm => h.queued m (hqueue ▸ List.mem_append_right _ hm)
  · obtain ⟨m, data, hhead, -, hdata, hvalues⟩ := processTick_shown htick hshown
    refine ⟨data, (h.queued m (List.mem_of_mem_head? hhead)).decoded hdata, _, h.bias, ?_⟩
    rw [hvalues, h.mode]

/-- Everything shown so far was read. -/
def ShownRead (fl : Floats F) (clientMode : Bool) (bias : Bias F) (es : List (LinkEvent F)) :
    Prop :=
  ∀ result values released, .view (.tick result (some values) released) ∈ es →
    ValuesRead fl clientMode bias (driverOps es) values

theorem driverOps_snoc (es : List (LinkEvent F)) (event : LinkEvent F) :
    driverOps (es ++ [event]) = driverOps es ++ event.op.toList := by
  unfold driverOps
  rw [List.filterMap_append]
  cases h : event.op <;> simp [h]

/-- One more event, which shows what was read if it shows anything. -/
theorem ShownRead.snoc {es : List (LinkEvent F)} (h : ShownRead fl clientMode bias es)
    {event : LinkEvent F}
    (hshown : ∀ result values released, event = .view (.tick result (some values) released) →
      ValuesRead fl clientMode bias (driverOps es) values) :
    ShownRead fl clientMode bias (es ++ [event]) := by
  intro result values released hmem
  rw [driverOps_snoc]
  rcases List.mem_append.mp hmem with hmem | hmem
  · exact (h result values released hmem).append _
  · exact (hshown result values released (List.mem_singleton.mp hmem).symm).append _

theorem linkOk_step (hmode : nofifo ≠ 0) {es : List (LinkEvent F)} {s' : LinkState F}
    {event : LinkEvent F} (h : LinkOk fl clientMode bias (driverOps es) s)
    (hshown : ShownRead fl clientMode bias es) (hstep : LinkStep fl nofifo s event s') :
    LinkOk fl clientMode bias (driverOps (es ++ [event])) s' ∧
      ShownRead fl clientMode bias (es ++ [event]) := by
  rw [driverOps_snoc]
  cases hstep with
  | driver hstep => exact ⟨linkOk_driver hmode h hstep, hshown.snoc nofun⟩
  | @stray offset count => exact ⟨linkOk_stray h offset count, hshown.snoc nofun⟩
  | @deliver m duplicated view hsent hstep =>
      refine ⟨?_, hshown.snoc nofun⟩
      simp only [LinkEvent.op, Option.toList_none, List.append_nil]
      have hoperate : operate fl s.view (.notifyMessage m duplicated) = .ok view := hstep
      refine linkOk_operate h ?_ ?_ hoperate
      · nofun
      · rintro m' duplicated' ⟨⟩
        exact hsent
  | @view event view hlocal hstep =>
      simp only [LinkEvent.op, Option.toList_none, List.append_nil]
      cases hstep with
      | @operation op client hop hstep =>
          refine ⟨linkOk_operate h hop ?_ hstep, hshown.snoc nofun⟩
          rintro m duplicated rfl
          exact hlocal.elim
      | motion | key =>
          exact ⟨⟨h.driver, h.sent, h.queued, h.mode, h.bias⟩, hshown.snoc nofun⟩
      | @tick result ticked htick =>
          obtain ⟨hok, hvalues⟩ := linkOk_tick h htick
          refine ⟨hok, hshown.snoc ?_⟩
          intro result' values released heq
          injection heq with heq
          injection heq with _ hvalues'
          exact hvalues values hvalues'

/--
**Every number shown begins with what was read from the chip.**  Reading registers, in every order
of the driver's operations, with a network that may lose, repeat and reorder, and in every order
of the client's: the values a tick of `process_cb` has to show are those of 14 bytes that begin
with the bytes of one read, and are these if it brought a whole dataset; and in client mode
less a bias that is the first one, none, or that of such bytes.
-/
theorem shown_was_read (fl : Floats F) (nofifo : Int) (hmode : nofifo ≠ 0)
    (consoleMode clientMode : Bool) (bias : Bias F) {es : List (LinkEvent F)} {s : LinkState F}
    (hrun : Run (LinkStep fl nofifo) (initialLink fl consoleMode clientMode bias) es s)
    {result : Int} {values : Sample F} {released : List Message}
    (hshown : .view (.tick result (some values) released) ∈ es) :
    ∃ data, FromRead (driverOps es) data ∧ ∃ b, BiasRead fl bias (driverOps es) b ∧
      values = fl.values clientMode b data := by
  have hinvariant : LinkOk fl clientMode bias (driverOps es) s ∧
      ShownRead fl clientMode bias es := by
    refine hrun.invariant (P := fun es s => LinkOk fl clientMode bias (driverOps es) s ∧
      ShownRead fl clientMode bias es) ⟨⟨?_, fun _ h => absurd h List.not_mem_nil,
        fun _ h => absurd h List.not_mem_nil, rfl, Or.inl rfl⟩, nofun⟩ ?_
    · exact RingLog.Holds.nil fun _ => rfl
    · exact fun es mid event s' hmid hstep => linkOk_step hmode hmid.1 hmid.2 hstep
  exact hinvariant.2 result values released hshown

end

/-- One register read that brings less than a dataset. -/
def shortRead : ReadWork :=
  { now := 1, count := .word 0, answers := [.bytes (List.replicate 4 7)] }

/-- From a short read to the screen. -/
theorem shown_was_read_short :
    ∃ es s values released, Run (LinkStep exactFloats 1)
        (initialLink exactFloats false true exactFloats.zeroBias) es s ∧
      .view (.tick 1 (some values) released) ∈ es ∧
      ∃ data, FromRead (driverOps es) data ∧
        ∃ b, BiasRead exactFloats exactFloats.zeroBias (driverOps es) b ∧
          values = exactFloats.correct b (exactFloats.extractData data) := by
  have hrun : ∃ s values released, Run (LinkStep exactFloats 1)
      (initialLink exactFloats false true exactFloats.zeroBias)
      [.driver (.sysfsRead 0 10), .driver (.handler shortRead), .driver (.server true),
        .view (.operation (.start ⟨0⟩)), .deliver shortMessage true, .view (.tick 0 none []),
        .view (.tick 1 (some values) released)] s := by
    refine ⟨_, _, _, ((((((Run.single (.stray rfl)).snoc (.driver rfl)).snoc (.driver rfl)).snoc
      (.view trivial (@ViewStep.operation _ exactFloats _ _ (.start ⟨0⟩) nofun rfl))).snoc
      (.deliver ?_ rfl)).snoc (.view trivial (@tick_step _ _ _ 0 _ none [] rfl rfl rfl))).snoc
      (.view trivial (@tick_step _ _ _ 1 _ (some _) _ rfl rfl rfl))⟩
    exact List.mem_singleton_self _
  obtain ⟨s, values, released, hrun⟩ := hrun
  have hshown : LinkEvent.view (.tick 1 (some values) released) ∈
      [.driver (.sysfsRead 0 10), .driver (.handler shortRead), .driver (.server true),
        .view (.operation (.start ⟨0⟩)), .deliver shortMessage true, .view (.tick 0 none []),
        .view (.tick 1 (some values) released)] := by simp
  exact ⟨_, s, values, released, hrun, hshown,
    shown_was_read exactFloats 1 (by decide) false true exactFloats.zeroBias hrun hshown⟩

/-! ### Nothing overtaken -/

section

variable {F : Type} {fl : Floats F} {s : LinkState F} {nofifo : Int}

/-- The driver's side: the ring holds the reads, and they have been sent in order. -/
structure SentOk (ops : List Op) (s : LinkState F) : Prop where
  driver : HoldsLog (readLog ops) s.driver.client
  sent : ReadInOrder (registerReads ops) s.sent

theorem sentOk_driver (hmode : nofifo ≠ 0) {ops : List Op} (h : SentOk ops s) {op : Op}
    {driver : DriverState} {emitted : List Emission}
    (hstep : opStep nofifo s.driver op = .ok (driver, emitted)) :
    SentOk (ops ++ [op]) { s with driver, sent := s.sent ++ emitted.filterMap Emission.sent } := by
  refine ⟨?_, ?_⟩
  · rw [readLog_snoc]
    exact holds_step hmode h.driver ⟨emitted, hstep⟩
  · rw [registerReads_snoc]
    rcases emitted_sent h.driver hstep with hnone | ⟨payload, hone, hnewest, hop⟩
    · rw [hnone, List.append_nil]
      exact h.sent.append _
    · rw [hone, hop, Option.toList_none, List.append_nil]
      exact h.sent.snoc hnewest.read

theorem sentOk_step (hmode : nofifo ≠ 0) {es : List (LinkEvent F)} {s' : LinkState F}
    {event : LinkEvent F} (h : SentOk (driverOps es) s) (hstep : LinkStep fl nofifo s event s') :
    SentOk (driverOps (es ++ [event])) s' := by
  rw [driverOps_snoc]
  cases hstep with
  | driver hstep => exact sentOk_driver hmode h hstep
  | stray =>
      refine ⟨?_, ?_⟩
      · rw [LinkEvent.op, Option.toList_some, readLog_sysfsRead]
        exact h.driver
      · rw [LinkEvent.op, Option.toList_some, registerReads_snoc]
        exact h.sent.append _
  | deliver | view =>
      simp only [LinkEvent.op, Option.toList_none, List.append_nil]
      exact ⟨h.driver, h.sent⟩

/--
**No read overtakes another.**  Reading registers, in every order of the driver's operations,
the reads that fail included: the datagrams are reads of the chip in the order they were made,
some left out and some repeated.  What is sent next is the newest read, and only as long as
the ring has not been cleared since.
-/
theorem sent_in_order (fl : Floats F) (nofifo : Int) (hmode : nofifo ≠ 0)
    (consoleMode clientMode : Bool) (bias : Bias F) {es : List (LinkEvent F)} {s : LinkState F}
    (hrun : Run (LinkStep fl nofifo) (initialLink fl consoleMode clientMode bias) es s) :
    ReadInOrder (registerReads (driverOps es)) s.sent ∧
      ∀ sk driver emitted, opStep nofifo s.driver (.server sk) = .ok (driver, emitted) →
        ∀ payload ∈ emitted.filterMap Emission.sent, IsNewest (driverOps es) payload := by
  have hok : SentOk (driverOps es) s := by
    refine hrun.invariant (P := fun es s => SentOk (driverOps es) s)
      ⟨?_, readInOrder_nil _⟩ fun es mid event s' hmid hstep => sentOk_step hmode hmid hstep
    exact RingLog.Holds.nil fun _ => rfl
  exact ⟨hok.sent, fun sk driver emitted hstep payload => server_sends hok.driver hstep⟩

/-- A read that fails comes in between. -/
theorem sent_in_order_failed :
    ∃ s, Run (LinkStep exactFloats 1) (initialLink exactFloats false true exactFloats.zeroBias)
      [.driver (.handler fullRead), .driver (.server true), .driver (.handler failedRead),
        .driver (.server true), .driver (.handler fullRead), .driver (.server true)] s ∧
      s.sent.length = 2 ∧
      ReadInOrder (registerReads [.handler fullRead, .server true, .handler failedRead,
        .server true, .handler fullRead, .server true]) s.sent := by
  have hrun : ∃ s, Run (LinkStep exactFloats 1)
      (initialLink exactFloats false true exactFloats.zeroBias)
      [.driver (.handler fullRead), .driver (.server true), .driver (.handler failedRead),
        .driver (.server true), .driver (.handler fullRead), .driver (.server true)] s ∧
      s.sent.length = 2 :=
    ⟨_, (((((Run.single (.driver rfl)).snoc (.driver rfl)).snoc (.driver rfl)).snoc
      (.driver rfl)).snoc (.driver rfl)).snoc (.driver rfl), by decide⟩
  obtain ⟨s, hrun, hlength⟩ := hrun
  exact ⟨s, hrun, hlength,
    (sent_in_order exactFloats 1 (by decide) false true exactFloats.zeroBias hrun).1⟩

end

/-! ### Never at a loss -/

section

variable {F : Type} {fl : Floats F} {s : LinkState F} {nofifo : Int}

/-- The handler is given complete data, the library gives a message a data block of the size of
a dataset, and the client's operations are orderly. -/
def Untroubled (nofifo : Int) (s : LinkState F) : LinkEvent F → Prop
  | .driver op => CompleteOp nofifo s.driver op
  | .deliver m _ => m.size = streamBufferSize
  | .view (.operation op) => Orderly s.view.client op
  | .view _ => True

/-- A message that brought a whole dataset. -/
structure Whole (m : Message) : Prop where
  size : m.size = streamBufferSize
  long : deviceBlockLength ≤ m.length

theorem Whole.data {m : Message} (h : Whole m) : ∃ data, m.data = .ok data := by
  refine data_ok_iff.mpr ?_
  have hlong : 14 ≤ m.wrPtr - m.rdPtr := h.long
  have hle := m.wr_le_size
  show m.rdPtr + 14 ≤ m.dataBlock.length
  omega

/-- The client has what it needs: whole messages, each announced, and nothing else in the event
queue that would stop it. -/
structure Fed (view : ViewState F) : Prop where
  queued : ∀ m ∈ view.client.cbData.messageQueue, Whole m
  inStep : InStep view.client.cbData
  valid : .invalid ∉ view.client.cbData.eventQueue
  temperatureIndex : view.temperatureIndex = -1

/-- Only whole datasets are on the way. -/
structure LinkWhole (s : LinkState F) : Prop where
  driver : SlotComplete s.driver
  sent : ∀ payload ∈ s.sent, payload.length = deviceBlockLength
  fed : Fed s.view

/-! ### What a call of `process_cb` leaves -/

/-- It is at a loss only for a message that was announced. -/
theorem processEvent_error {cb : CBData} {e : Failure} (h : processEvent cb = .error e) :
    0 < cb.eventQueue.count .message ∧ cb.messageQueue = [] := by
  unfold processEvent at h
  split at h
  case h_5 hevents =>
    split at h
    · next hnone =>
        rw [hevents, List.count_cons_self]
        exact ⟨Nat.succ_pos _, hnone⟩
    · cases h
  all_goals cases h

/-- What is left of the events was there before. -/
theorem processEvent_events {cb cb' : CBData} {tick : Tick}
    (h : processEvent cb = .ok (cb', tick)) : cb'.eventQueue <:+ cb.eventQueue := by
  unfold processEvent at h
  split at h
  case h_1 =>
    cases h
    exact List.suffix_refl _
  case h_5 hevents =>
    split at h
    · cases h
    · cases h
      rw [hevents]
      exact List.suffix_cons _ _
  all_goals
    next hevents =>
      cases h
      rw [hevents]
      exact List.suffix_cons _ _

/-- It stops for an event that is not valid. -/
theorem processEvent_stop {cb cb' : CBData} (h : processEvent cb = .ok (cb', .stop)) :
    .invalid ∈ cb.eventQueue := by
  unfold processEvent at h
  split at h
  case h_5 =>
    split at h
    · cases h
    · cases h
  case h_6 hevents =>
    rw [hevents]
    exact List.mem_cons_self ..
  all_goals cases h

/-- A call that comes back as it should: it returns `TRUE` but when it cannot print what it has
to show, what it stores goes to the two places before `temperature`, and what it releases was a
whole message. -/
structure Returned (result : Int) (ticked : Ticked F) : Prop where
  continues : ticked.continues = false ↔ ticked.shown.isSome ∧ result < 0
  stored : ∀ place ∈ ticked.stored, place.1 = -2 ∨ place.1 = -1
  released : ∀ m ∈ ticked.released, Whole m

theorem returned_showMessage {view : ViewState F} (hindex : view.temperatureIndex = -1)
    (result : Int) (cbData : CBData) {m : Message} (hm : Whole m) (values : Sample F) :
    Returned result (showMessage fl result view cbData m values) := by
  by_cases hresult : result < 0
  · rw [showMessage, if_pos hresult]
    exact ⟨iff_of_true rfl ⟨rfl, hresult⟩, fun place hplace => absurd hplace List.not_mem_nil,
      fun m' hm' => List.mem_singleton.mp hm' ▸ hm⟩
  · rw [showMessage, if_neg hresult]
    refine ⟨iff_of_false Bool.noConfusion fun h => hresult h.2, fun place hplace => ?_,
      fun m' hm' => List.mem_singleton.mp hm' ▸ hm⟩
    simp only [Floats.temperatureStores, hindex, List.mem_cons, List.not_mem_nil, or_false]
      at hplace
    rcases hplace with rfl | rfl
    · exact Or.inl rfl
    · exact Or.inr rfl

/-- A client that has what it needs comes back. -/
theorem processTick_returns {view : ViewState F} (h : Fed view) (result : Int) :
    ∃ ticked, processTick fl result view = .ok ticked ∧ Returned result ticked := by
  cases hevent : processEvent view.client.cbData with
  | error e =>
      obtain ⟨hannounced, hnone⟩ := processEvent_error hevent
      have hinStep := h.inStep
      rw [InStep, hnone] at hinStep
      exact absurd hinStep (Nat.ne_of_gt hannounced)
  | ok p =>
      obtain ⟨cbData, tick⟩ := p
      cases tick with
      | «continue» =>
          exact ⟨_, bind_eq_ok.mpr ⟨_, hevent, rfl⟩, iff_of_false nofun nofun, nofun, nofun⟩
      | stop => exact absurd (processEvent_stop hevent) h.valid
      | message m =>
          have hm : Whole m := h.queued m ((processEvent_ok hevent).2 ▸ List.mem_cons_self ..)
          obtain ⟨data, hdata⟩ := hm.data
          exact ⟨_, processTick_message hevent hm.size hdata,
            returned_showMessage h.temperatureIndex result cbData hm _⟩

/-- And so does a click that is orderly. -/
theorem calibrateView_returns {view : ViewState F} (h : Fed view)
    (hclient : view.client.cbData.clientMode = true)
    (horderly : view.client.cbData.eventQueue = [] ∨ view.client.cbData.messageQueue ≠ []) :
    ∃ view', calibrateView fl view = .ok view' := by
  by_cases hevents : view.client.cbData.eventQueue = []
  · unfold calibrateView
    rw [hclient]
    exact ⟨_, if_pos hevents⟩
  · obtain ⟨m, messages, hqueue⟩ := List.exists_cons_of_ne_nil (horderly.resolve_left hevents)
    obtain ⟨data, hdata⟩ := (h.queued m (hqueue ▸ List.mem_cons_self ..)).data
    exact ⟨_, calibrateView_message hclient hevents hqueue hdata⟩

/-! ### The whole way -/

theorem payload_of_complete {ts : Transfers} {e : Emission} {payload : List U8}
    (h : e.Complete ts) (hsent : e.sent = some payload) : payload.length = deviceBlockLength := by
  cases e with
  | datagram d =>
      have hlen : d.length = 14 := h.1
      have hpayload : d.payload = some payload := hsent
      unfold Datagram.payload at hpayload
      rw [if_neg (by omega), hlen] at hpayload
      cases hpayload
      simp
  | message | line => cases hsent

/-- No operation announces what is not valid. -/
theorem step_valid {s s' : ClientState} {op : Operation} (hop : op ≠ .processCb)
    (hstep : step s op = .ok s') (h : .invalid ∉ s.cbData.eventQueue) :
    .invalid ∉ s'.cbData.eventQueue := by
  have hpush : ∀ e : Event, e ≠ .invalid → .invalid ∉ (s.cbData.pushEvent e).eventQueue := by
    intro e he hmem
    rcases List.mem_append.mp hmem with hmem | hmem
    · exact h hmem
    · exact he (List.mem_singleton.mp hmem).symm
  cases op with
  | start | notifySessionMessage | sessionEnd =>
      cases hstep
      exact hpush _ nofun
  | idleFinalizeUi =>
      cases hstep
      exact h
  | processCb => exact absurd rfl hop
  | notifyMessage m duplicated =>
      rcases step_notifyMessage s m duplicated with
        ⟨e, -, herror⟩ | ⟨-, s'', hsame, hok⟩ | ⟨-, hok⟩
      · rw [herror] at hstep
        cases hstep
      · rw [hok] at hstep
        cases hstep
        rw [hsame]
        exact h
      · rw [hok] at hstep
        cases hstep
        exact hpush .message nofun
  | calibrateClicked result =>
      rcases step_calibrateClicked s result with ⟨-, -, -, herror⟩ | ⟨-, ⟨e, -, herror⟩ | ⟨b, hok⟩⟩
      · rw [herror] at hstep
        cases hstep
      · rw [herror] at hstep
        cases hstep
      · rw [hok] at hstep
        cases hstep
        exact h

theorem fed_operate {view view' : ViewState F} (h : Fed view) {op : Operation}
    (hop : op ≠ .processCb) (horderly : Orderly view.client op)
    (hadds : ∀ m duplicated, op = .notifyMessage m duplicated → Whole m)
    (hstep : operate fl view op = .ok view') : Fed view' := by
  have hqueued : ∀ m ∈ view'.client.cbData.messageQueue, Whole m := by
    intro m hm
    rcases operate_mem_queue hop hstep m hm with hm | ⟨duplicated, hnotify⟩
    · exact h.queued m hm
    · exact hadds m duplicated hnotify
  have hindex := (operate_effect hop hstep).temperatureIndex.trans h.temperatureIndex
  rcases operate_client hstep with hclient | hclient
  · exact ⟨hqueued, ((step_safe_iff h.inStep op).mpr horderly).2 _ hclient,
      step_valid hop hclient h.valid, hindex⟩
  · exact ⟨hqueued, hclient ▸ h.inStep, hclient ▸ h.valid, hindex⟩

theorem fed_tick {view : ViewState F} (h : Fed view) {result : Int} {ticked : Ticked F}
    (htick : processTick fl result view = .ok ticked) :
    Fed { view with
      client := { view.client with cbData := ticked.cbData }, camera := ticked.camera } := by
  obtain ⟨-, hqueue, hstep⟩ := processTick_queues htick
  have hevents : ticked.cbData.eventQueue <:+ view.client.cbData.eventQueue := by
    cases processTick_way htick with
    | idle hevent => exact processEvent_events hevent
    | shown hevent =>
        rw [showMessage_cbData]
        exact processEvent_events hevent
  refine ⟨fun m hm => h.queued m (hqueue ▸ List.mem_append_right _ hm), ?_,
    fun hinvalid => h.valid (hevents.subset hinvalid), h.temperatureIndex⟩
  exact (safe_processCb h.inStep).2 _ hstep

theorem linkWhole_step {s' : LinkState F} {event : LinkEvent F} (h : LinkWhole s)
    (hok : Untroubled nofifo s event) (hstep : LinkStep fl nofifo s event s') : LinkWhole s' := by
  cases hstep with
  | @driver op driver emitted hstep =>
      refine ⟨slotComplete_step h.driver hok ⟨emitted, hstep⟩, ?_, h.fed⟩
      intro payload hpayload
      rcases List.mem_append.mp hpayload with hpayload | hpayload
      · exact h.sent payload hpayload
      · obtain ⟨e, he, hsent⟩ := List.mem_filterMap.mp hpayload
        exact payload_of_complete (emission_complete h.driver hstep e he) hsent
  | stray => exact h
  | @deliver m duplicated view hsent hstep =>
      have hoperate : operate fl s.view (.notifyMessage m duplicated) = .ok view := hstep
      refine ⟨h.driver, h.sent, fed_operate h.fed ?_ ?_ ?_ hoperate⟩
      · nofun
      · trivial
      · rintro m' duplicated' ⟨⟩
        have hlen := h.sent _ hsent
        rw [payload_length] at hlen
        exact ⟨hok, hlen.ge⟩
  | @view event view hlocal hstep =>
      cases hstep with
      | motion | key => exact ⟨h.driver, h.sent, h.fed.1, h.fed.2, h.fed.3, h.fed.4⟩
      | tick htick => exact ⟨h.driver, h.sent, fed_tick h.fed htick⟩
      | @operation op view hop hstep =>
          refine ⟨h.driver, h.sent, fed_operate h.fed hop hok ?_ hstep⟩
          rintro m duplicated rfl
          exact hlocal.elim

/--
**Given complete reads, the client is never at a loss.**  In every order of the driver's
operations, with a network that may lose, repeat and reorder, and in every order of the
client's own that is orderly, as long as each message comes in a data block of a dataset's
size: `process_cb` comes back each time it is called, with `TRUE` unless it cannot print the
values of its message; it stores nothing but before `temperature`, and what it releases had a
whole dataset in it.  And `calibrate_clicked_gtk_cb` comes back on a client that calibrates.
-/
theorem tick_returns (fl : Floats F) (nofifo : Int) (consoleMode clientMode : Bool)
    (bias : Bias F) {es : List (LinkEvent F)} {s : LinkState F}
    (hrun : Run (Guarded (LinkStep fl nofifo) (Untroubled nofifo))
      (initialLink fl consoleMode clientMode bias) es s) :
    (∀ result, ∃ ticked, processTick fl result s.view = .ok ticked ∧ Returned result ticked) ∧
      ∀ result, s.view.client.cbData.clientMode = true →
        Orderly s.view.client (.calibrateClicked result) →
        ∃ view, operate fl s.view (.calibrateClicked result) = .ok view := by
  have hinit : LinkWhole (initialLink fl consoleMode clientMode bias) :=
    ⟨slotComplete_probed, fun _ h => absurd h List.not_mem_nil,
      fun _ h => absurd h List.not_mem_nil, (rfl : ([] : List Event).count .message = 0),
      List.not_mem_nil, rfl⟩
  have hwhole : LinkWhole s := hrun.guarded_invariant hinit
    fun mid event s' hmid hok hstep => linkWhole_step hmid hok hstep
  exact ⟨processTick_returns hwhole.fed, fun result hclient horderly =>
    calibrateView_returns hwhole.fed hclient (horderly hclient)⟩

/-- A full read on its way to the screen, and the tick that takes it. -/
theorem tick_returns_whole :
    ∃ es s, Run (Guarded (LinkStep exactFloats 1) (Untroubled 1))
        (initialLink exactFloats false true exactFloats.zeroBias) es s ∧
      s.view.client.cbData.messageQueue = [wholeMessage] ∧
      ∃ ticked, processTick exactFloats (-1) s.view = .ok ticked ∧ Returned (-1) ticked := by
  have hrun : ∃ s, Run (Guarded (LinkStep exactFloats 1) (Untroubled 1))
      (initialLink exactFloats false true exactFloats.zeroBias)
      [.driver (.handler fullRead), .driver (.server true), .view (.operation (.start ⟨0⟩)),
        .deliver wholeMessage true] s ∧ s.view.client.cbData.messageQueue = [wholeMessage] := by
    refine ⟨_, (((Run.single ⟨⟨_, rfl, _, rfl, rfl⟩, .driver rfl⟩).snoc ⟨trivial, .driver rfl⟩).snoc
      ⟨trivial, .view trivial (@ViewStep.operation _ exactFloats _ _ (.start ⟨0⟩) nofun rfl)⟩).snoc
      ⟨rfl, .deliver ?_ rfl⟩, rfl⟩
    exact List.mem_singleton_self _
  obtain ⟨s, hrun, hqueue⟩ := hrun
  exact ⟨_, s, hrun, hqueue,
    (tick_returns exactFloats 1 false true exactFloats.zeroBias hrun).1 (-1)⟩

end

end Mpu6050.Client
