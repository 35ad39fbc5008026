/-
Reading registers, the ring keeps the last 64 reads.

With `nofifo` set every run of the handler takes one slot and makes one read, and
records the result whatever it is.  The abstract view of the ring is then a log: a run
appends its read, marked as current, and a clear takes the mark off everything logged
so far.  `logStep` is that view, and `holds_step` is the refinement: the ring's cells
hold the end of the log, as `RingLog.Holds` has it, and every operation of the driver
keeps it so.

What is left is about the log alone.  Entry `j` is the read of run `j`, and it carries
the mark exactly if no clear came after that run.

No operation is ever stuck here, so that every order of them has its run (`exists_run`): a slot has
room for what one read brings, and the position stays in the ring.  A read of the file before
the first sample looks outside the ring, but writes nothing there (`RingStep.stray`).
-/
import Mathlib.Data.List.Induction
import Mpu6050.Lib.RingLog
import Mpu6050.Proofs.Freshness

namespace Mpu6050

open Runs

/-- What a run of the handler reads from the registers. -/
def Op.registerRead : Op → Option BlockAnswer
  | .handler work => work.answers.head?.map (smbusReadI2cBlockData deviceBlockLength)
  | _ => none

/-- The reads of the runs among the operations, in order. -/
def registerReads (ops : List Op) : List BlockAnswer := ops.filterMap Op.registerRead

/-- The block read of a run returns something, be it an error. -/
def Op.Answered : Op → Prop
  | .handler work => work.answers ≠ []
  | _ => True

/-- One operation after another.  A read of the file at -1 takes what lies before the ring for
a slot; whatever that makes it print, it changes nothing. -/
inductive RingStep (nofifo : Int) (s : DriverState) : Op → DriverState → Prop
  | op {op : Op} {s' : DriverState} (h : OpStep nofifo s op s') : RingStep nofifo s op s'
  | stray {offset : Int} {count : Nat} (h : s.client.ringbufferpos = -1) :
      RingStep nofifo s (.sysfsRead offset count) s

/-- A clear among the operations comes after run `j`. -/
def ClearedAfter (ops : List Op) (j : Nat) : Prop :=
  ∃ before after, ops = before ++ .clear :: after ∧ j ≤ (registerReads before).length

/-- The log: the reads, each with the mark that no clear has come since. -/
abbrev ReadLog := List (BlockAnswer × Bool)

/-- What an operation does to the log. -/
def logStep (log : ReadLog) : Op → ReadLog
  | .clear => log.map fun a => (a.1, false)
  | op => log ++ op.registerRead.toList.map fun answer => (answer, true)

/-- The log of the operations. -/
def readLog (ops : List Op) : ReadLog := ops.foldl logStep []

/-- The data of a slot begins with the bytes that were read. -/
def BeginsWith (data : Data) : BlockAnswer → Prop
  | .fail _ => True
  | .bytes bs => ∀ (i : Fin ringbufferDataSize) (h : i.val < bs.length), data i = bs[i.val]

/-- A slot records a read. -/
structure Records (a : BlockAnswer × Bool) (entry : RingbufferEntry) : Prop where
  size : entry.size = a.1.result
  data : BeginsWith entry.data a.1
  used : entry.used = a.2

/-- A slot that was never written. -/
def Unused (entry : RingbufferEntry) : Prop := entry.used = false

/-- The ring holds the end of a log. -/
abbrev HoldsLog (log : ReadLog) (cd : ClientData) : Prop :=
  RingLog.Holds ringbufferSize Records Unused log cd.ringbufferpos cd.ringbuffer

/-! ### The driver refines the log -/

theorem nextPos_eq_advance (pos : Int) : nextPos pos = RingLog.advance ringbufferSize pos := rfl

theorem posInRange_of_holds {log : ReadLog} {cd : ClientData} (h : HoldsLog log cd) :
    PosInRange cd := by
  have := RingLog.newest_lt (N := ringbufferSize) (by decide) log.length
  rw [← h.pos_eq] at this
  exact this

/-- A register read records itself in the slot, whatever its result. -/
theorem readRegisters_records {work : ReadWork} {entry entry' : RingbufferEntry} {ts : Transfers}
    (hrun : readRegisters work (claimEntry work entry) = .ok (entry', ts)) :
    ∃ answer, (Op.handler work).registerRead = some answer ∧ Records (answer, true) entry' := by
  unfold readRegisters at hrun
  cases hanswers : work.answers with
  | nil => rw [hanswers] at hrun; cases hrun
  | cons answer rest =>
      rw [hanswers] at hrun
      simp only [Op.registerRead, hanswers, List.head?_cons, Option.map_some]
      refine ⟨_, rfl, ?_⟩
      cases hread : smbusReadI2cBlockData deviceBlockLength answer with
      | fail e =>
          simp only [hread] at hrun
          cases hrun
          exact ⟨rfl, trivial, rfl⟩
      | bytes bs =>
          simp only [hread, storeBlock_ok (length_le_blockLength hread)] at hrun
          cases hrun
          refine ⟨rfl, ?_, rfl⟩
          intro i h
          simp [h]

theorem holds_step {nofifo : Int} (hmode : nofifo ≠ 0) {log : ReadLog} {s s' : DriverState}
    {op : Op} (h : HoldsLog log s.client) (hstep : OpStep nofifo s op s') :
    HoldsLog (logStep log op) s'.client := by
  obtain ⟨emitted, hstep⟩ := hstep
  cases op with
  | handler work =>
      obtain ⟨-, k, entry, hk, hread, heq⟩ := opStep_handler_ok (posInRange_of_holds h) hstep
      rw [readEntry, if_neg hmode] at hread
      obtain ⟨answer, hanswer, hrecords⟩ := readRegisters_records hread
      have hpush := h.push (hk.trans (nextPos_eq_advance _)) hrecords
      rw [← nextPos_eq_advance, ← hk] at hpush
      have hlog : logStep log (.handler work) = log ++ [(answer, true)] := by
        simp [logStep, hanswer]
      rw [heq, hlog]
      exact hpush
  | clear =>
      cases hstep
      exact h.map _ (fun e => { e with used := false })
        (fun a b hab => ⟨hab.size, hab.data, rfl⟩) (fun _ _ => rfl)
  | sysfsRead | netlink | server =>
      rw [opStep_consumer (by simp) hstep]
      simpa [logStep, Op.registerRead] using h

theorem holds_ringStep {nofifo : Int} (hmode : nofifo ≠ 0) {log : ReadLog} {s s' : DriverState}
    {op : Op} (h : HoldsLog log s.client) (hstep : RingStep nofifo s op s') :
    HoldsLog (logStep log op) s'.client := by
  cases hstep with
  | op hstep => exact holds_step hmode h hstep
  | stray => simpa [logStep, Op.registerRead] using h

/-- **The ring holds the end of the log after every run.** -/
theorem holds_run {nofifo : Int} (hmode : nofifo ≠ 0) {ops : List Op} {s : DriverState}
    (hrun : Run (RingStep nofifo) probedState ops s) : HoldsLog (readLog ops) s.client := by
  refine Run.invariant (P := fun ops s => HoldsLog (readLog ops) s.client) ?_ ?_ hrun
  · exact RingLog.Holds.nil fun _ => rfl
  · intro ops mid op s' hmid hstep
    unfold readLog
    rw [List.foldl_append]
    exact holds_ringStep hmode hmid hstep

/-! ### Every order has its run -/

theorem readRegisters_ok {work : ReadWork} (hanswers : work.answers ≠ [])
    (entry : RingbufferEntry) : ∃ p, readRegisters work entry = .ok p := by
  obtain ⟨answer, rest, hcons⟩ := List.exists_cons_of_ne_nil hanswers
  unfold readRegisters
  simp only [hcons]
  cases hread : smbusReadI2cBlockData deviceBlockLength answer with
  | fail e => exact ⟨_, rfl⟩
  | bytes bs =>
      simp only [storeBlock_ok (length_le_blockLength hread)]
      exact ⟨_, rfl⟩

/-- An operation whose block read has an answer can be made, wherever the position is. -/
theorem ringStep_exists {nofifo : Int} (hmode : nofifo ≠ 0) {s : DriverState} {op : Op}
    (h : PosInRange s.client) (hanswered : op.Answered) : ∃ s', RingStep nofifo s op s' := by
  cases op with
  | handler work =>
      obtain ⟨k, -, heq⟩ := wqReadHandler_eq nofifo work h
      obtain ⟨p, hp⟩ := readRegisters_ok hanswered (claimEntry work (s.client.ringbuffer k))
      rw [readEntry, if_neg hmode, hp] at heq
      exact ⟨_, .op ⟨[], bind_ok.mpr ⟨_, heq, rfl⟩⟩⟩
  | clear => exact ⟨_, .op ⟨[], rfl⟩⟩
  | sysfsRead offset count =>
      by_cases hpos : s.client.ringbufferpos = -1
      · exact ⟨s, .stray hpos⟩
      · obtain ⟨r, hr⟩ := ringbufferRead_ok offset count h hpos
        exact ⟨s, .op ⟨_, bind_ok.mpr ⟨r, hr, rfl⟩⟩⟩
  | netlink results =>
      obtain ⟨steps, hsteps⟩ := netlinkRun_ok results h
      exact ⟨s, .op ⟨_, bind_ok.mpr ⟨steps, hsteps, rfl⟩⟩⟩
  | server sk =>
      obtain ⟨datagram, hdatagram⟩ := serverRun_ok sk h
      exact ⟨s, .op ⟨_, bind_ok.mpr ⟨datagram, hdatagram, rfl⟩⟩⟩

/-- **Every order of operations has its run.** -/
theorem exists_run {nofifo : Int} (hmode : nofifo ≠ 0) {ops : List Op}
    (hanswered : ∀ op ∈ ops, op.Answered) : ∃ s, Run (RingStep nofifo) probedState ops s := by
  induction ops using List.reverseRecOn with
  | nil => exact ⟨_, .nil⟩
  | append_singleton ops op ih =>
      obtain ⟨hbefore, hlast⟩ := List.forall_mem_append.mp hanswered
      obtain ⟨mid, hmid⟩ := ih hbefore
      have hrange := posInRange_of_holds (holds_run hmode hmid)
      obtain ⟨s', hstep⟩ := ringStep_exists hmode hrange (hlast op List.mem_cons_self)
      exact ⟨s', hmid.snoc hstep⟩

/-! ### What the log says -/

@[simp] theorem registerReads_snoc (ops : List Op) (op : Op) :
    registerReads (ops ++ [op]) = registerReads ops ++ op.registerRead.toList := by
  unfold registerReads
  rw [List.filterMap_append]
  cases h : op.registerRead <;> simp [h]

theorem readLog_snoc (ops : List Op) (op : Op) :
    readLog (ops ++ [op]) = logStep (readLog ops) op := by
  unfold readLog
  rw [List.foldl_append]
  rfl

/-- A clear after run `j` is an earlier one, or the last operation. -/
theorem clearedAfter_snoc (ops : List Op) (op : Op) (j : Nat) :
    ClearedAfter (ops ++ [op]) j
      ↔ ClearedAfter ops j ∨ (op = .clear ∧ j ≤ (registerReads ops).length) :=
  split_snoc (P := fun before _ => j ≤ (registerReads before).length)

/-- Only a run that has been made can have been cleared after. -/
theorem clearedAfter_le {ops : List Op} {j : Nat} (h : ClearedAfter ops j) :
    j ≤ (registerReads ops).length := by
  obtain ⟨before, after, heq, hj⟩ := h
  rw [heq]
  unfold registerReads at hj ⊢
  rw [List.filterMap_append, List.length_append]
  omega

/-- The log without its marks is the reads. -/
theorem readLog_reads (ops : List Op) : (readLog ops).map Prod.fst = registerReads ops := by
  induction ops using List.reverseRecOn with
  | nil => rfl
  | append_singleton ops op ih =>
      rw [readLog_snoc, registerReads_snoc, ← ih]
      cases op <;> simp [logStep, Op.registerRead, Function.comp_def]

/-- **An entry carries its mark exactly if no clear came after its run.** -/
theorem readLog_mark (ops : List Op) :
    ∀ (i : Nat) (a : BlockAnswer × Bool), (readLog ops)[i]? = some a →
      (a.2 = true ↔ ¬ClearedAfter ops (i + 1)) := by
  induction ops using List.reverseRecOn with
  | nil => intro i a h; simp [readLog] at h
  | append_singleton ops op ih =>
      intro i a h
      have hlen : (readLog ops).length = (registerReads ops).length := by
        rw [← readLog_reads, List.length_map]
      rw [readLog_snoc] at h
      rw [clearedAfter_snoc]
      by_cases hop : op = .clear
      · subst hop
        simp only [logStep, List.getElem?_map, Option.map_eq_some_iff] at h
        obtain ⟨a', ha', rfl⟩ := h
        have hi : i < (readLog ops).length := (List.getElem?_eq_some_iff.mp ha').1
        simp only [Bool.false_eq_true, false_iff, not_not]
        exact Or.inr ⟨trivial, by omega⟩
      · have hstep : logStep (readLog ops) op
            = readLog ops ++ op.registerRead.toList.map fun answer => (answer, true) := by
          cases op <;> first | rfl | exact absurd rfl hop
        rw [hstep] at h
        simp only [hop, false_and, or_false]
        rcases Nat.lt_or_ge i (readLog ops).length with hlt | hge
        · rw [List.getElem?_append_left hlt] at h
          exact ih i a h
        · -- the entry of the run just made
          rw [List.getElem?_append_right hge, List.getElem?_map, Option.map_eq_some_iff] at h
          obtain ⟨answer, -, rfl⟩ := h
          simp only [true_iff]
          intro hc
          have := clearedAfter_le hc
          omega

/--
**The ring keeps the last 64 reads.**  Every order of register reads, clears and consumers has
its run.  After `n` register reads in it the position is that of read `n`; the slot of each of
the last 64 reads has its result for a size, begins with its bytes, and is in use exactly if no
clear came after it; and a slot whose turn has not come is unused.
-/
theorem ring_keeps_last_reads (nofifo : Int) (hmode : nofifo ≠ 0) (ops : List Op) :
    ((∀ op ∈ ops, op.Answered) → ∃ s, Run (RingStep nofifo) probedState ops s) ∧
    ∀ s, Run (RingStep nofifo) probedState ops s →
      (s.client.ringbufferpos = if (registerReads ops).length = 0 then (-1 : Int)
        else (((registerReads ops).length - 1) % 64 : Nat)) ∧
      (∀ (j : Nat) (answer : BlockAnswer) (k : Fin ringbufferSize), 1 ≤ j →
        (registerReads ops).length ≤ j + 63 → (registerReads ops)[j - 1]? = some answer →
        k.val = (j - 1) % 64 →
        (s.client.ringbuffer k).size = answer.result ∧
        BeginsWith (s.client.ringbuffer k).data answer ∧
        ((s.client.ringbuffer k).used = true ↔ ¬ClearedAfter ops j)) ∧
      (∀ k : Fin ringbufferSize, (registerReads ops).length ≤ k.val →
        (s.client.ringbuffer k).used = false) := by
  refine ⟨exists_run hmode, ?_⟩
  intro s hrun
  have hholds := holds_run hmode hrun
  have hlen : (readLog ops).length = (registerReads ops).length := by
    rw [← readLog_reads, List.length_map]
  refine ⟨?_, ?_, ?_⟩
  · rw [← hlen]
    exact hholds.pos_eq
  · intro j answer k hj hrecent hanswer hk
    rw [← readLog_reads, List.getElem?_map, Option.map_eq_some_iff] at hanswer
    obtain ⟨a, ha, rfl⟩ := hanswer
    have hrecords := hholds.recent (j - 1) a k ha
      (by show (readLog ops).length ≤ j - 1 + 64; omega) hk
    have hmark := readLog_mark ops (j - 1) a ha
    rw [Nat.sub_add_cancel hj] at hmark
    refine ⟨hrecords.size, hrecords.data, ?_⟩
    rw [hrecords.used, hmark]
  · intro k hk
    exact hholds.blank k (by omega)

/-- A read of the file too early, a full read, a clear, and a read that fails. -/
theorem ring_keeps_last_reads_three :
    ∃ s, Run (RingStep 1) probedState
        [.sysfsRead 0 4096, .handler fullRead, .clear, .handler failedRead] s ∧
      s.client.ringbufferpos = 1 ∧
      (s.client.ringbuffer 0).size = 14 ∧ (s.client.ringbuffer 1).size = -5 := by
  obtain ⟨hexists, hall⟩ := ring_keeps_last_reads 1 (by decide)
    [.sysfsRead 0 4096, .handler fullRead, .clear, .handler failedRead]
  obtain ⟨s, hrun⟩ := hexists (by simp [Op.Answered, fullRead, failedRead])
  obtain ⟨hpos, hslots, -⟩ := hall s hrun
  exact ⟨s, hrun, hpos,
    (hslots 1 _ 0 (by decide) (by decide) rfl rfl).1,
    (hslots 2 _ 1 (by decide) (by decide) rfl rfl).1⟩

end Mpu6050
