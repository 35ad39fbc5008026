/-
When every sample that leaves the driver is a complete, fresh one.

A consumer takes the slot at `ringbufferpos` if it is marked used, and asks no more of
it.  So what leaves the driver is complete exactly as far as a used slot is, and that
is decided by the handler run that filled it.  A run with `nofifo` leaves its slot in
use whatever became of its one read.  A run in FIFO mode leaves it in use when the
total reaches the count, but each read is stored from the start of `data`, so the
bytes are all there only if one read brought all of them.

`CompleteWork` is that condition on what a run is given.  `doLoop_complete` and
`doLoop_incomplete` show that the loop needs exactly that; `slotComplete_step` carries
it through the clear and the consumers, which can only take `used` away; and
`emissions_complete` puts both together for runs of the system of any length.
-/
import Mpu6050.Driver.System
import Mpu6050.Lib.Runs
import Mpu6050.Proofs.Consumers
import Mpu6050.Proofs.SlotBounds

namespace Mpu6050

open Runs

/-- Every byte of `data` came with one of the transfers, and there is nothing else in them. -/
def FreshSample (ts : Transfers) (data : Data) : Prop :=
  (∀ i : Fin ringbufferDataSize, ∃ bs ∈ ts, bs[i.val]? = some (data i)) ∧
    ts.flatten = List.ofFn data

/-- The sample a consumer emits is made of the 14 bytes that `ts` brought. -/
def Emission.Complete (ts : Transfers) : Emission → Prop
  | .datagram d => d.length = ringbufferDataSize ∧ FreshSample ts d.buffer
  | .message attrs =>
    ∃ data, FreshSample ts data ∧ attrs = netlinkAttributes (deviceExtractData data)
  | .line text => ∃ data, FreshSample ts data ∧ text = printedLine data

/-- The read that completes the count is the first that brings anything, and brings all of it. -/
def CompletesSlot (count before : Int) (n : Nat) : Prop :=
  n ≤ ringbufferDataSize ∧ (count ≤ before + n → before = 0 ∧ n = ringbufferDataSize)

/-- What a run has to be given to leave a complete sample, or none. -/
def CompleteWork (nofifo : Int) (work : ReadWork) : Prop :=
  if nofifo = 0 then EachRead (CompletesSlot work.count.value) work.count.value 0 work.answers
  else ∃ answer ∈ work.answers.head?, ∃ bs,
    smbusReadI2cBlockData deviceBlockLength answer = .bytes bs ∧ bs.length = ringbufferDataSize

/-- The condition on the operations of a run: the handler's are given complete data. -/
def CompleteOp (nofifo : Int) (_ : DriverState) : Op → Prop
  | .handler work => CompleteWork nofifo work
  | _ => True

/-! ### One block that fills the slot -/

theorem freshSample_block {bs : List U8} (h : bs.length = ringbufferDataSize) (data : Data) :
    FreshSample [bs] fun i => (bs[i.val]?).getD (data i) := by
  refine ⟨?_, ?_⟩
  · intro i
    have hi : i.val < bs.length := by rw [h]; exact i.isLt
    exact ⟨bs, by simp, by simp [List.getElem?_eq_getElem hi]⟩
  · apply List.ext_getElem
    · simp [h]
    · intro i h1 h2
      have hi : i < bs.length := by simpa using h1
      rw [List.getElem_ofFn]
      simp only [List.flatten_singleton, List.getElem?_eq_getElem hi, Option.getD_some]

/-- Pieces that are all shorter than the slot leave its last byte uncovered. -/
theorem not_freshSample_short {ts : Transfers} {data : Data}
    (h : ∀ bs ∈ ts, bs.length < ringbufferDataSize) : ¬FreshSample ts data := by
  rintro ⟨hcover, -⟩
  obtain ⟨bs, hbs, hlast⟩ := hcover ⟨13, by decide⟩
  have hlt : 13 < bs.length := by
    by_contra hc
    rw [List.getElem?_eq_none (by show bs.length ≤ 13; omega)] at hlast
    cases hlast
  have : bs.length < 14 := h bs hbs
  omega

/-! ### The loop -/

/-- A used slot is complete: its size is a dataset's, and its data is what was read. -/
def EntryComplete (entry : RingbufferEntry) (ts : Transfers) : Prop :=
  entry.used = true → entry.size = ringbufferDataSize ∧ FreshSample ts entry.data

theorem doLoop_complete (count : Int) (answers : List BlockAnswer) :
    ∀ (entry : RingbufferEntry) (ts : Transfers), entry.size = ts.flatten.length →
      entry.size < count → EachRead (CompletesSlot count) count entry.size answers →
      ∀ entry' ts', doLoop count answers entry ts = .ok (entry', ts') →
        EntryComplete entry' ts' := by
  induction answers with
  | nil =>
      intro entry ts _ hlt _ entry' ts' hrun
      rw [doLoop_nil hlt] at hrun
      cases hrun
  | cons answer rest ih =>
      intro entry ts hsize hlt hreads entry' ts' hrun
      cases hread : smbusReadI2cBlockData count answer with
      | fail e =>
          rw [doLoop_fail hlt hread] at hrun
          cases hrun
          intro hused
          cases hused
      | bytes bs =>
          obtain ⟨⟨hshort, hcomplete⟩, hrest⟩ := (eachRead_bytes hlt hread).mp hreads
          rw [doLoop_bytes hlt hread hshort] at hrun
          by_cases hmore : entry.size + bs.length < count
          · refine ih (fillEntry entry bs) (ts ++ [bs]) ?_ hmore hrest entry' ts' hrun
            simp [hsize]
          · -- the completing read: nothing was read before it, and it fills the slot
            obtain ⟨hbefore, hlen⟩ := hcomplete (by omega)
            rw [doLoop_done (show ¬(fillEntry entry bs).size < count from hmore)] at hrun
            cases hrun
            intro _
            refine ⟨by rw [fillEntry_size, hbefore, hlen]; rfl, ?_⟩
            have hflat : ts.flatten = [] := List.eq_nil_of_length_eq_zero (by omega)
            obtain ⟨hcover, hall⟩ := freshSample_block hlen entry.data
            refine ⟨fun i => ?_, ?_⟩
            · obtain ⟨bs', hbs', hget⟩ := hcover i
              exact ⟨bs', by simp at hbs'; simp [hbs'], hget⟩
            · rw [List.flatten_append, hflat]
              exact hall

/-- A loop that returns although a read broke the condition has left the slot in use, and spoilt. -/
theorem doLoop_incomplete (count : Int) (answers : List BlockAnswer) :
    ∀ (entry : RingbufferEntry) (ts : Transfers), entry.used = true →
      entry.size = ts.flatten.length → entry.size < count →
      ¬EachRead (CompletesSlot count) count entry.size answers →
      ∀ entry' ts', doLoop count answers entry ts = .ok (entry', ts') →
        entry'.used = true ∧ ¬EntryComplete entry' ts' := by
  induction answers with
  | nil => intro entry ts _ _ _ hreads; exact absurd trivial hreads
  | cons answer rest ih =>
      intro entry ts hused hsize hlt hreads entry' ts' hrun
      cases hread : smbusReadI2cBlockData count answer with
      | fail e => exact absurd (eachRead_fail hread) hreads
      | bytes bs =>
          by_cases hshort : bs.length ≤ ringbufferDataSize
          · rw [doLoop_bytes hlt hread hshort] at hrun
            rw [eachRead_bytes hlt hread] at hreads
            by_cases hmore : entry.size + bs.length < count
            · refine ih (fillEntry entry bs) (ts ++ [bs]) hused (by simp [hsize]) hmore ?_
                entry' ts' hrun
              intro hrest
              exact hreads ⟨⟨hshort, fun hc => absurd hmore (by omega)⟩, hrest⟩
            · rw [doLoop_done (show ¬(fillEntry entry bs).size < count from hmore)] at hrun
              cases hrun
              refine ⟨hused, ?_⟩
              intro hcomplete
              obtain ⟨hfull, hfresh⟩ := hcomplete hused
              have hfull' : entry.size + bs.length = 14 := hfull
              refine hreads ⟨⟨hshort, fun _ => ?_⟩, eachRead_done hmore⟩
              -- were anything read before, every piece would be short of the slot
              by_contra hc
              have hbefore : 0 < entry.size := by
                rcases Nat.eq_zero_or_pos ts.flatten.length with hz | hp
                · exact absurd ⟨by omega, by show bs.length = 14; omega⟩ hc
                · omega
              refine not_freshSample_short ?_ hfresh
              intro bs' hbs'
              rcases List.mem_append.mp hbs' with hold | hnew
              · have : bs'.length ≤ ts.flatten.length :=
                  List.Sublist.length_le (List.sublist_flatten_of_mem hold)
                show bs'.length < 14
                omega
              · rw [List.mem_singleton.mp hnew]
                show bs.length < 14
                omega
          · rw [doLoop_overflow hlt hread hshort] at hrun
            cases hrun

/-! ### A run -/

theorem readFifo_complete {work : ReadWork} {entry entry' : RingbufferEntry} {ts : Transfers}
    (hreads : EachRead (CompletesSlot work.count.value) work.count.value 0 work.answers)
    (hrun : readFifo work (claimEntry work entry) = .ok (entry', ts)) :
    EntryComplete entry' ts := by
  rw [readFifo_eq, deviceFifoCount_value] at hrun
  by_cases hcount : work.count.value ≤ 0
  · rw [if_pos hcount] at hrun
    cases hrun
    intro hused
    cases hused
  · rw [if_neg hcount] at hrun
    exact doLoop_complete _ _ _ [] rfl (show (0 : Int) < work.count.value by omega) hreads
      _ _ hrun

theorem readFifo_incomplete {work : ReadWork} {entry entry' : RingbufferEntry} {ts : Transfers}
    (hreads : ¬EachRead (CompletesSlot work.count.value) work.count.value 0 work.answers)
    (hrun : readFifo work (claimEntry work entry) = .ok (entry', ts)) :
    entry'.used = true ∧ ¬EntryComplete entry' ts := by
  have hpos : 0 < work.count.value := by
    by_contra hc
    exact hreads (eachRead_done hc)
  rw [readFifo_eq, deviceFifoCount_value, if_neg (by omega)] at hrun
  exact doLoop_incomplete _ _ _ [] rfl rfl hpos hreads _ _ hrun

theorem readRegisters_complete_iff {work : ReadWork} {entry entry' : RingbufferEntry}
    {ts : Transfers} (hrun : readRegisters work (claimEntry work entry) = .ok (entry', ts)) :
    entry'.used = true ∧ (EntryComplete entry' ts ↔ ∃ answer ∈ work.answers.head?, ∃ bs,
      smbusReadI2cBlockData deviceBlockLength answer = .bytes bs ∧
        bs.length = ringbufferDataSize) := by
  unfold readRegisters at hrun
  cases hanswers : work.answers with
  | nil => rw [hanswers] at hrun; cases hrun
  | cons answer rest =>
      rw [hanswers] at hrun
      simp only [List.head?_cons, Option.mem_some_iff, exists_eq_left']
      cases hread : smbusReadI2cBlockData deviceBlockLength answer with
      | fail e =>
          simp only [hread] at hrun
          cases hrun
          refine ⟨rfl, ?_, by rintro ⟨bs, hbs, -⟩; cases hbs⟩
          intro hcomplete
          have hsize : e.val = 14 := (hcomplete rfl).1
          have := e.property.2
          omega
      | bytes bs =>
          have hshort : bs.length ≤ ringbufferDataSize := length_le_blockLength hread
          simp only [hread, storeBlock_ok hshort] at hrun
          cases hrun
          refine ⟨rfl, ?_, ?_⟩
          · intro hcomplete
            have hsize : (bs.length : Int) = 14 := (hcomplete rfl).1
            exact ⟨bs, rfl, by show bs.length = 14; omega⟩
          · rintro ⟨bs', hbs', hlen⟩ -
            cases hbs'
            exact ⟨by show (bs.length : Int) = _; rw [hlen], freshSample_block hlen _⟩

/-- **A run leaves a complete sample, or none, exactly if it was given complete data.** -/
theorem readEntry_complete_iff {nofifo : Int} {work : ReadWork} {entry entry' : RingbufferEntry}
    {ts : Transfers} (hrun : readEntry nofifo work entry = .ok (entry', ts)) :
    EntryComplete entry' ts ↔ CompleteWork nofifo work := by
  unfold readEntry at hrun
  unfold CompleteWork
  by_cases hfifo : nofifo = 0
  · rw [if_pos hfifo] at hrun ⊢
    constructor
    · intro hcomplete
      by_contra hc
      exact (readFifo_incomplete hc hrun).2 hcomplete
    · exact fun hreads => readFifo_complete hreads hrun
  · rw [if_neg hfifo] at hrun ⊢
    exact (readRegisters_complete_iff hrun).2

/-- A slot that is not complete is in use. -/
theorem EntryComplete.of_unused {entry : RingbufferEntry} {ts : Transfers}
    (h : entry.used = false) : EntryComplete entry ts := by
  intro hused
  rw [h] at hused
  cases hused

/-! ### The system -/

/-- The slot the consumers look at is complete. -/
structure SlotComplete (s : DriverState) : Prop where
  pos : PosInRange s.client
  slot : ∀ k, ringbufferIndex s.client.ringbufferpos = .ok k →
    EntryComplete (s.client.ringbuffer k) s.transfers

theorem slotComplete_probed : SlotComplete probedState :=
  ⟨by decide, fun k hk => by cases hk⟩

/-- What a handler run does to the state of the system. -/
theorem opStep_handler_ok {nofifo : Int} {work : ReadWork} {s s' : DriverState}
    {emitted : List Emission} (hpos : PosInRange s.client)
    (hstep : opStep nofifo s (.handler work) = .ok (s', emitted)) :
    emitted = [] ∧ ∃ k entry, (k.val : Int) = nextPos s.client.ringbufferpos ∧
      readEntry nofifo work (s.client.ringbuffer k) = .ok (entry, s'.transfers) ∧
      s'.client = { s.client.setEntry k entry with ringbufferpos := k.val } := by
  obtain ⟨⟨client, ts⟩, hrun, hpure⟩ := bind_ok.mp hstep
  cases hpure
  obtain ⟨k, entry, hk, hread, heq⟩ := wqReadHandler_ok hpos hrun
  exact ⟨rfl, k, entry, hk, hread, heq⟩

/-- A consumer leaves the state as it is. -/
theorem opStep_consumer {nofifo : Int} {s s' : DriverState} {op : Op} {emitted : List Emission}
    (hop : (∀ work, op ≠ .handler work) ∧ op ≠ .clear)
    (hstep : opStep nofifo s op = .ok (s', emitted)) : s' = s := by
  cases op with
  | handler work => exact absurd rfl (hop.1 work)
  | clear => exact absurd rfl hop.2
  | sysfsRead offset count => obtain ⟨_, -, hpure⟩ := bind_ok.mp hstep; cases hpure; rfl
  | netlink results => obtain ⟨_, -, hpure⟩ := bind_ok.mp hstep; cases hpure; rfl
  | server sk => obtain ⟨_, -, hpure⟩ := bind_ok.mp hstep; cases hpure; rfl

/-- The slot at the position a run has just set is the one it wrote. -/
theorem setEntry_at {cd : ClientData} {k k' : Fin ringbufferSize} {entry : RingbufferEntry}
    (h : ringbufferIndex (k.val : Int) = .ok k') :
    (cd.setEntry k entry).ringbuffer k' = entry := by
  rw [ringbufferIndex_natCast] at h
  cases h
  exact Function.update_self ..

theorem slotComplete_step {nofifo : Int} {s s' : DriverState} {op : Op} (h : SlotComplete s)
    (hop : CompleteOp nofifo s op) (hstep : OpStep nofifo s op s') : SlotComplete s' := by
  obtain ⟨emitted, hstep⟩ := hstep
  cases op with
  | handler work =>
      obtain ⟨-, k, entry, -, hread, heq⟩ := opStep_handler_ok h.pos hstep
      refine ⟨?_, ?_⟩
      · rw [heq]
        refine ⟨?_, ?_⟩
        · show -1 ≤ (k.val : Int)
          omega
        · have := k.isLt
          show (k.val : Int) < ringbufferSize
          omega
      · intro k' hk'
        rw [heq] at hk' ⊢
        show EntryComplete ((s.client.setEntry k entry).ringbuffer k') _
        rw [setEntry_at hk']
        exact (readEntry_complete_iff hread).mpr hop
  | clear =>
      cases hstep
      exact ⟨h.pos, fun k hk => EntryComplete.of_unused rfl⟩
  | sysfsRead | netlink | server =>
      rw [opStep_consumer (by simp) hstep]
      exact h

/-! ### What the consumers emit -/

/-- What is emitted while the slot is complete is complete. -/
theorem emission_complete {nofifo : Int} {s s' : DriverState} {op : Op}
    {emitted : List Emission} (h : SlotComplete s)
    (hstep : opStep nofifo s op = .ok (s', emitted)) :
    ∀ e ∈ emitted, e.Complete s.transfers := by
  intro e he
  cases op with
  | handler work =>
      rw [(opStep_handler_ok h.pos hstep).1] at he
      simp at he
  | clear =>
      cases hstep
      simp at he
  | sysfsRead offset count =>
      obtain ⟨⟨text, ret⟩, hrun, hpure⟩ := bind_ok.mp hstep
      cases hpure
      obtain ⟨t, ht, rfl⟩ := List.mem_map.mp he
      obtain ⟨k, hk, hused, rfl⟩ := ringbufferRead_emits hrun ht
      exact ⟨_, (h.slot k hk hused).2, rfl⟩
  | netlink results =>
      obtain ⟨steps, hrun, hpure⟩ := bind_ok.mp hstep
      cases hpure
      obtain ⟨k, hk, hused, rfl⟩ := netlinkRun_emits hrun he
      exact ⟨_, (h.slot k hk hused).2, rfl⟩
  | server sk =>
      obtain ⟨datagram, hrun, hpure⟩ := bind_ok.mp hstep
      cases hpure
      obtain ⟨d, hd, rfl⟩ := List.mem_map.mp he
      obtain ⟨k, hk, hused, rfl⟩ := serverRun_emits hrun hd
      exact h.slot k hk hused

/-- After a run that was not given complete data, the next datagram is not a complete sample. -/
theorem datagram_incomplete {nofifo : Int} {work : ReadWork} {s s' : DriverState}
    {emitted : List Emission} (hpos : PosInRange s.client)
    (hwork : ¬CompleteWork nofifo work)
    (hstep : opStep nofifo s (.handler work) = .ok (s', emitted)) :
    ∃ e, opStep nofifo s' (.server true) = .ok (s', [e]) ∧ ¬e.Complete s'.transfers := by
  obtain ⟨-, k, entry, -, hread, heq⟩ := opStep_handler_ok hpos hstep
  have hincomplete : ¬EntryComplete entry s'.transfers :=
    fun hc => hwork ((readEntry_complete_iff hread).mp hc)
  have hused : entry.used = true := by
    by_contra hc
    exact hincomplete (EntryComplete.of_unused (by simpa using hc))
  have hindex : ringbufferIndex s'.client.ringbufferpos = .ok k := by
    rw [heq]
    exact ringbufferIndex_natCast k
  have hentry : s'.client.ringbuffer k = entry := by
    rw [heq]
    exact Function.update_self ..
  refine ⟨.datagram { buffer := entry.data, length := entry.size }, ?_, ?_⟩
  · have hrun := serverRun_of_used hindex (by rw [hentry]; exact hused)
    rw [hentry] at hrun
    show (serverRun true s'.client >>= _) = _
    rw [hrun]
    rfl
  · intro hc
    exact hincomplete fun _ => hc

/--
**Every sample that leaves the driver is complete and fresh, in every run whose handler
runs are given complete data.**  And no weaker condition would do: after a handler run
that is not, and that returns, the next datagram is not a complete sample.
-/
theorem emissions_complete (nofifo : Int) :
    (∀ ops s, Run (Guarded (OpStep nofifo) (CompleteOp nofifo)) probedState ops s →
      ∀ op s' emitted, opStep nofifo s op = .ok (s', emitted) →
        ∀ e ∈ emitted, e.Complete s.transfers) ∧
    (∀ s work s' emitted, PosInRange s.client → ¬CompleteWork nofifo work →
      opStep nofifo s (.handler work) = .ok (s', emitted) →
      ∃ e, opStep nofifo s' (.server true) = .ok (s', [e]) ∧ ¬e.Complete s'.transfers) := by
  refine ⟨?_, fun s work s' emitted hpos hwork hstep => datagram_incomplete hpos hwork hstep⟩
  intro ops s hrun op s' emitted hstep
  have hslot : SlotComplete s :=
    hrun.guarded_invariant slotComplete_probed
      fun _ _ _ hmid hok hs => slotComplete_step hmid hok hs
  exact emission_complete hslot hstep

/-- One register read that brings all 14 bytes. -/
def fullRead : ReadWork :=
  { now := 1, count := .word 0, answers := [.bytes (List.replicate 14 7)] }

/-- One register read that fails. -/
def failedRead : ReadWork :=
  { now := 1, count := .word 0, answers := [.fail eio] }

/-- A full read and the datagram after it; a failed read and the datagram after it. -/
theorem emissions_complete_full :
    (∃ s, opStep 1 probedState (.handler fullRead) = .ok (s, []) ∧
      ∃ e, opStep 1 s (.server true) = .ok (s, [e]) ∧ e.Complete s.transfers) ∧
    (∃ s, opStep 1 probedState (.handler failedRead) = .ok (s, []) ∧
      ∃ e, opStep 1 s (.server true) = .ok (s, [e]) ∧ ¬e.Complete s.transfers) := by
  refine ⟨⟨_, rfl, _, rfl, ?_⟩, ⟨_, rfl, ?_⟩⟩
  · refine (emissions_complete 1).1 [.handler fullRead] _ ?_ (.server true) _ _ rfl _
      (List.mem_singleton.mpr rfl)
    exact Run.single ⟨⟨_, rfl, _, rfl, rfl⟩, _, rfl⟩
  · refine (emissions_complete 1).2 probedState failedRead _ [] (by decide) ?_ rfl
    rintro ⟨answer, hanswer, bs, hbs, -⟩
    cases hanswer
    cases hbs

/-- A register read that fails leaves a slot from which a datagram of -5 bytes is sent. -/
theorem negative_datagram :
    ∃ s e, opStep 1 probedState (.handler failedRead) = .ok (s, []) ∧
      opStep 1 s (.server true) = .ok (s, [.datagram e]) ∧ e.length = -5 ∧
      ¬(Emission.datagram e).Complete s.transfers := by
  refine ⟨_, _, rfl, rfl, rfl, ?_⟩
  rintro ⟨hlength, -⟩
  cases hlength

end Mpu6050
