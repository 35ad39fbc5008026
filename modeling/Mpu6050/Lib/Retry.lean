/-
Programming a device again and again.

A driver carries out its list of updates whenever the device is to be used, and may be
stopped by a failing write each time; in between it resets the device, or fails to.  What
the registers hold is then always a beginning of the list carried out on what a reset
leaves (`Partway`), however often that happens: an attempt takes up where the last one was
stopped, and one that is not stopped leaves what the whole list would have left at
once.
-/
import Mpu6050.Lib.Faults

namespace Registers

variable {A V E : Type} [DecidableEq A]

/-- A beginning of the updates has been carried out on `base`. -/
def Partway (us : List (Update A V)) (base file : A → V) : Prop :=
  ∃ p, p <+: us ∧ file = applyAll p base

variable {us : List (Update A V)} {base : A → V}

theorem partway_base : Partway us base base := ⟨[], List.nil_prefix, rfl⟩

/-- One beginning after another is the longer of the two. -/
theorem applyAll_prefix {p q : List (Update A V)} (h : Retryable us) (hp : p <+: us)
    (hq : q <+: us) (file : A → V) :
    applyAll q (applyAll p file) = applyAll (if p.length ≤ q.length then q else p) file := by
  by_cases hlen : p.length ≤ q.length
  · rw [if_pos hlen]
    exact applyAll_retry (h.sublist hq.sublist) (List.prefix_of_prefix_length_le hp hq hlen) file
  · rw [if_neg hlen]
    have hqp : q <+: p := List.prefix_of_prefix_length_le hq hp (by omega)
    have hsettled := (h.sublist hp.sublist).settled file
    exact applyAll_settled fun u hu => hsettled u (hqp.subset hu)

/-- What a run of updates leaves, if its reads succeed, and that it is all of them unless
the run reports an error. -/
theorem runAll_prefix_all {decode : Except E V → V} (hdecode : ∀ v, decode (.ok v) = v)
    (faults : Faults E) (us : List (Update A V)) (bus : Bus A V E)
    (hreads : ∀ t ∈ made bus (runAll faults decode us bus).2, ¬t.IsFailedRead)
    (hdone : (runAll faults decode us bus).1 = none) :
    (runAll faults decode us bus).2.file = applyAll us bus.file := by
  induction us generalizing bus with
  | nil => rfl
  | cons u us ih =>
      obtain ⟨ts, hts⟩ := runAll_log_cons faults decode u us bus
      have hread : faults bus.log.length = none := by
        cases hfault : faults bus.log.length with
        | none => rfl
        | some e =>
            rw [Bus.read_error _ hfault] at hts
            exact absurd trivial (hreads _ (mem_made_of_log hts))
      cases hchange : u.change (bus.file u.addr) with
      | none =>
          have hrun : runAll faults decode (u :: us) bus
              = runAll faults decode us (bus.readBack u.addr) := by
            rw [runAll_cons, u.run_skip hdecode hread hchange]
          rw [hrun, made_runAll_append (show (bus.readBack u.addr).log = _ from rfl)] at hreads
          rw [hrun] at hdone ⊢
          rw [ih _ (fun t ht => hreads t (List.mem_append_right _ ht)) hdone,
            show applyAll (u :: us) bus.file = applyAll us (u.apply bus.file) from rfl,
            Update.apply_of_none hchange]
          rfl
      | some v =>
          cases hwrite : faults (bus.readBack u.addr).log.length with
          | some e =>
              rw [runAll_cons, u.run_change hdecode hread hchange,
                Bus.write_error _ _ hwrite] at hdone
              cases hdone
          | none =>
              have hrun : runAll faults decode (u :: us) bus
                  = runAll faults decode us ((bus.readBack u.addr).written u.addr v) := by
                rw [runAll_cons, u.run_change hdecode hread hchange, Bus.write_ok _ _ hwrite]
              rw [hrun, made_runAll_append (List.append_assoc ..)] at hreads
              rw [hrun] at hdone ⊢
              rw [ih _ (fun t ht => hreads t (List.mem_append_right _ ht)) hdone,
                show applyAll (u :: us) bus.file = applyAll us (u.apply bus.file) from rfl,
                Update.apply_of_some hchange]
              rfl

/-- **A further attempt leaves a beginning of the updates too.** -/
theorem Partway.again {decode : Except E V → V} (hdecode : ∀ v, decode (.ok v) = v)
    (h : Retryable us) {faults : Faults E} {bus : Bus A V E} (hfile : Partway us base bus.file)
    (hreads : ∀ t ∈ made bus (runAll faults decode us bus).2, ¬t.IsFailedRead) :
    Partway us base (runAll faults decode us bus).2.file := by
  obtain ⟨p, hp, hpfile⟩ := hfile
  obtain ⟨q, hq, hqfile⟩ := runAll_prefix hdecode faults us bus hreads
  refine ⟨if p.length ≤ q.length then q else p, ?_, ?_⟩
  · split
    · exact hq
    · exact hp
  · rw [hqfile, hpfile, applyAll_prefix h hp hq]

/-- **An attempt that is not stopped leaves what all the updates would have.** -/
theorem Partway.finished {decode : Except E V → V} (hdecode : ∀ v, decode (.ok v) = v)
    (h : Retryable us) {faults : Faults E} {bus : Bus A V E} (hfile : Partway us base bus.file)
    (hreads : ∀ t ∈ made bus (runAll faults decode us bus).2, ¬t.IsFailedRead)
    (hdone : (runAll faults decode us bus).1 = none) :
    (runAll faults decode us bus).2.file = applyAll us base := by
  obtain ⟨p, hp, hpfile⟩ := hfile
  rw [runAll_prefix_all hdecode faults us bus hreads hdone, hpfile, applyAll_retry h hp]

/-! ### Which registers are written -/

/-- Every write goes to one of these registers. -/
def WritesWithin (regs : List A) (ts : List (Transfer A V E)) : Prop :=
  ∀ a v result, Transfer.write a v result ∈ ts → a ∈ regs

omit [DecidableEq A] in
theorem WritesWithin.append {regs : List A} {ts ts' : List (Transfer A V E)}
    (h : WritesWithin regs ts) (h' : WritesWithin regs ts') : WritesWithin regs (ts ++ ts') := by
  intro a v result hmem
  rcases List.mem_append.mp hmem with hmem | hmem
  · exact h a v result hmem
  · exact h' a v result hmem

omit [DecidableEq A] in
theorem writesWithin_read (regs : List A) (a : A) (result : Except E V) :
    WritesWithin regs [Transfer.read a result] := by
  intro b v result' hmem
  cases List.mem_singleton.mp hmem

omit [DecidableEq A] in
theorem writesWithin_write {regs : List A} {a : A} (ha : a ∈ regs) (v : V) (result : Option E) :
    WritesWithin regs [Transfer.write a v result] := by
  intro b v' result' hmem
  cases List.mem_singleton.mp hmem
  exact ha

/-- The registers a bus has written lie among `regs`, and the others hold what they held. -/
structure Confined (regs : List A) (base : A → V) (bus : Bus A V E) : Prop where
  writes : WritesWithin regs bus.log
  others : ∀ a ∉ regs, bus.file a = base a

variable {regs : List A} {bus : Bus A V E}

omit [DecidableEq A] in
theorem Confined.read (h : Confined regs base bus) (faults : Faults E) (a : A) :
    Confined regs base (bus.read faults a).2 :=
  ⟨h.writes.append (writesWithin_read regs a _), h.others⟩

theorem Confined.write (h : Confined regs base bus) (faults : Faults E) {a : A} (ha : a ∈ regs)
    (v : V) : Confined regs base (bus.write faults a v).2 := by
  refine ⟨h.writes.append (writesWithin_write ha v _), fun b hb => ?_⟩
  have hne : b ≠ a := fun hba => hb (hba ▸ ha)
  unfold Bus.write
  cases faults bus.log.length with
  | none => exact (Function.update_of_ne hne v bus.file).trans (h.others b hb)
  | some e => exact h.others b hb

theorem Confined.run (h : Confined regs base bus) (faults : Faults E) (decode : Except E V → V)
    {u : Update A V} (hu : u.addr ∈ regs) : Confined regs base (u.run faults decode bus).2 := by
  rw [u.run_eq]
  cases u.change (decode (bus.read faults u.addr).1) with
  | none => exact h.read faults u.addr
  | some v => exact (h.read faults u.addr).write faults hu v

/-- **Updates write to their own registers, whatever fails.** -/
theorem Confined.runAll (h : Confined regs base bus) (faults : Faults E)
    (decode : Except E V → V) {us : List (Update A V)} (hus : ∀ u ∈ us, u.addr ∈ regs) :
    Confined regs base (runAll faults decode us bus).2 := by
  induction us generalizing bus with
  | nil => exact h
  | cons u us ih =>
      have hrun := h.run faults decode (hus u (List.mem_cons_self ..))
      rw [runAll_cons]
      rcases hstep : u.run faults decode bus with ⟨_ | e, bus'⟩
      · rw [hstep] at hrun
        exact ih hrun fun w hw => hus w (List.mem_cons_of_mem u hw)
      · rw [hstep] at hrun
        exact hrun

end Registers
