/-
Programming a file of registers over a bus that fails.

Two questions about a list of updates under a schedule of faults.

  * Which error comes out, and when.  The updates stop at the first write that fails,
    but they look at no read: what a failed read returned is decoded, acted on and
    perhaps written back.  `reported_iff` says that a list of updates reports its errors
    exactly when the first transfer that fails is not a read.
  * What is left behind.  With reads that succeed, a run stopped by a failing write has
    carried out a prefix of its updates.  `applyAll_retry` says when carrying out
    all of them after any prefix comes to the same as carrying them out once.

Which transfers a run makes before its first fault is decided by the register file it
starts from, and `plan` lists them.
-/
import Mpu6050.Lib.Registers
import Mathlib.Data.List.Induction

namespace Registers

variable {A V E : Type}

/-- The error of a transfer, if it failed. -/
def Transfer.error : Transfer A V E → Option E
  | .read _ (.error e) => some e
  | .read _ (.ok _) => none
  | .write _ _ result => result

/-- A read that failed. -/
def Transfer.IsFailedRead : Transfer A V E → Prop
  | .read _ (.error _) => True
  | _ => False

/--
A run that made the transfers `made` has reported their errors: it succeeded only if
they all did, a transfer that failed is the last one and its error the outcome, and no
write follows a failed read, from whose result it would have been computed.
-/
structure Reported (outcome : Option E) (made : List (Transfer A V E)) : Prop where
  success : outcome = none → ∀ t ∈ made, t.error = none
  stops : ∀ before t after e, made = before ++ t :: after → t.error = some e →
    after = [] ∧ outcome = some e
  unused : ∀ before after a e b v result,
    made ≠ before ++ .read a (.error e) :: .write b v result :: after

/-- The two kinds of transfer. -/
inductive Direction
  | read
  | write
deriving DecidableEq

/--
No read is the first of the planned transfers to fail: `n` is the number of the first of
them.
-/
def NoReadFailsFirst (faults : Faults E) (n : Nat) (planned : List Direction) : Prop :=
  ∀ k, planned[k]? = some .read → (∀ j < k, faults (n + j) = none) → faults (n + k) = none

theorem noReadFailsFirst_nil (faults : Faults E) (n : Nat) : NoReadFailsFirst faults n [] := by
  intro k hk
  simp at hk

/-- The transfers before the next one, counted from the one before. -/
theorem none_before_succ {faults : Faults E} {n k : Nat} (hfirst : faults n = none)
    (h : ∀ j < k, faults (n + 1 + j) = none) : ∀ j < k + 1, faults (n + j) = none := by
  intro j hj
  by_cases hzero : j = 0
  · rw [hzero]
    exact hfirst
  · rw [show n + j = n + 1 + (j - 1) by omega]
    exact h (j - 1) (by omega)

/-- A planned transfer that succeeds is not the first to fail. -/
theorem noReadFailsFirst_tail {faults : Faults E} {n : Nat} {d : Direction}
    {planned : List Direction} (hfirst : faults n = none)
    (h : NoReadFailsFirst faults n (d :: planned)) : NoReadFailsFirst faults (n + 1) planned := by
  intro k hk hbefore
  rw [show n + 1 + k = n + (k + 1) by omega]
  exact h (k + 1) (by simpa using hk) (none_before_succ hfirst hbefore)

theorem noReadFailsFirst_cons {faults : Faults E} {n : Nat} {d : Direction}
    {planned : List Direction} (hread : d = .read → faults n = none)
    (h : faults n = none → NoReadFailsFirst faults (n + 1) planned) :
    NoReadFailsFirst faults n (d :: planned) := by
  intro k hk hbefore
  by_cases hzero : k = 0
  · subst hzero
    exact hread (by simpa using hk)
  · obtain ⟨k, rfl⟩ := Nat.exists_eq_succ_of_ne_zero hzero
    rw [show n + k.succ = n + 1 + k by omega]
    refine h (hbefore 0 (by omega)) k (by simpa using hk) (fun j hj => ?_)
    rw [show n + 1 + j = n + (j + 1) by omega]
    exact hbefore (j + 1) (by omega)

theorem noReadFailsFirst_read {faults : Faults E} {n : Nat} {planned : List Direction} :
    NoReadFailsFirst faults n (.read :: planned)
      ↔ faults n = none ∧ NoReadFailsFirst faults (n + 1) planned := by
  constructor
  · intro h
    have hfirst : faults n = none := h 0 rfl (fun j hj => absurd hj (Nat.not_lt_zero j))
    exact ⟨hfirst, noReadFailsFirst_tail hfirst h⟩
  · intro ⟨hfirst, hrest⟩
    exact noReadFailsFirst_cons (fun _ => hfirst) (fun _ => hrest)

theorem noReadFailsFirst_write {faults : Faults E} {n : Nat} {planned : List Direction} :
    NoReadFailsFirst faults n (.write :: planned)
      ↔ (faults n = none → NoReadFailsFirst faults (n + 1) planned) :=
  ⟨fun h hfirst => noReadFailsFirst_tail hfirst h, noReadFailsFirst_cons (fun hc => by cases hc)⟩

/-! ### What a run reports -/

theorem reported_nil : Reported (none : Option E) ([] : List (Transfer A V E)) := by
  refine ⟨fun _ t ht => absurd ht List.not_mem_nil, ?_, ?_⟩
  · intro before t after e h
    simp at h
  · intro before after a e b v result h
    simp at h

/-- A transfer that succeeds leaves nothing to report. -/
theorem reported_cons {outcome : Option E} {t : Transfer A V E} {ts : List (Transfer A V E)}
    (ht : t.error = none) : Reported outcome (t :: ts) ↔ Reported outcome ts := by
  constructor
  · intro h
    refine ⟨fun hnone s hs => h.success hnone s (List.mem_cons_of_mem t hs), ?_, ?_⟩
    · intro before s after e heq herr
      exact h.stops (t :: before) s after e (by rw [heq]; rfl) herr
    · intro before after a e b v result heq
      exact h.unused (t :: before) after a e b v result (by rw [heq]; rfl)
  · intro h
    refine ⟨?_, ?_, ?_⟩
    · intro hnone s hs
      rcases List.mem_cons.mp hs with rfl | hs
      · exact ht
      · exact h.success hnone s hs
    · intro before s after e heq herr
      rcases List.cons_eq_append_iff.mp heq with ⟨-, hs⟩ | ⟨rest, -, hs⟩
      · rw [(List.cons.inj hs).1, ht] at herr
        cases herr
      · exact h.stops rest s after e hs herr
    · intro before after a e b v result heq
      rcases List.cons_eq_append_iff.mp heq with ⟨-, hs⟩ | ⟨rest, -, hs⟩
      · rw [← (List.cons.inj hs).1] at ht
        cases ht
      · exact h.unused rest after a e b v result hs

/-- A failed transfer that is not the last one is not reported. -/
theorem not_reported_of_more {outcome : Option E} (before : List (Transfer A V E))
    {after : List (Transfer A V E)} {t : Transfer A V E} {e : E} (ht : t.error = some e)
    (hmore : after ≠ []) :
    ¬Reported outcome (before ++ t :: after) :=
  fun h => hmore (h.stops before t after e rfl ht).1

/-- Transfers that succeed leave nothing to report. -/
theorem reported_append {outcome : Option E} {before ts : List (Transfer A V E)}
    (h : ∀ t ∈ before, t.error = none) : Reported outcome (before ++ ts) ↔ Reported outcome ts := by
  induction before with
  | nil => exact Iff.rfl
  | cons t before ih =>
      rw [List.cons_append, reported_cons (h t (List.mem_cons_self ..))]
      exact ih fun s hs => h s (List.mem_cons_of_mem t hs)

/-- A failed write that is the last transfer is reported by its error. -/
theorem reported_write (a : A) (v : V) (e : E) :
    Reported (some e) [Transfer.write a v (some e)] := by
  refine ⟨nofun, ?_, ?_⟩
  · intro before t after e' heq herr
    rcases List.cons_eq_append_iff.mp heq with ⟨-, hs⟩ | ⟨rest, -, hs⟩
    · obtain ⟨rfl, rfl⟩ := List.cons.inj hs
      exact ⟨rfl, herr⟩
    · simp at hs
  · intro before after b e' b' v' result heq
    rcases List.cons_eq_append_iff.mp heq with ⟨-, hs⟩ | ⟨rest, -, hs⟩
    · cases (List.cons.inj hs).1
    · simp at hs

variable [DecidableEq A]

/-- The transfers a run from `file` makes as long as none fails. -/
def plan : List (Update A V) → (A → V) → List Direction
  | [], _ => []
  | u :: us, file =>
      .read :: match u.change (file u.addr) with
        | none => plan us file
        | some v => .write :: plan us (Function.update file u.addr v)

/-- The transfers made between two states of the bus. -/
def made (before after : Bus A V E) : List (Transfer A V E) := after.log.drop before.log.length

omit [DecidableEq A] in
theorem made_eq {before after : Bus A V E} {ts : List (Transfer A V E)}
    (h : after.log = before.log ++ ts) : made before after = ts := by
  unfold made
  rw [h, List.drop_left]

/-! ### The two transfers of one update -/

/-- The bus after a read that succeeds. -/
def Bus.readBack (bus : Bus A V E) (a : A) : Bus A V E :=
  { bus with log := bus.log ++ [.read a (.ok (bus.file a))] }

omit [DecidableEq A] in
theorem Bus.read_ok {faults : Faults E} {bus : Bus A V E} (a : A)
    (h : faults bus.log.length = none) :
    bus.read faults a = (.ok (bus.file a), bus.readBack a) := by
  unfold Bus.read
  rw [h]
  rfl

omit [DecidableEq A] in
theorem Bus.read_error {faults : Faults E} {bus : Bus A V E} (a : A) {e : E}
    (h : faults bus.log.length = some e) :
    bus.read faults a = (.error e, { bus with log := bus.log ++ [.read a (.error e)] }) := by
  unfold Bus.read
  rw [h]

/-- The bus after a write that succeeds. -/
def Bus.written (bus : Bus A V E) (a : A) (v : V) : Bus A V E :=
  { file := Function.update bus.file a v, log := bus.log ++ [.write a v none] }

theorem Bus.write_ok {faults : Faults E} {bus : Bus A V E} (a : A) (v : V)
    (h : faults bus.log.length = none) : bus.write faults a v = (none, bus.written a v) := by
  unfold Bus.write
  rw [h]
  rfl

theorem Bus.write_error {faults : Faults E} {bus : Bus A V E} (a : A) (v : V) {e : E}
    (h : faults bus.log.length = some e) :
    bus.write faults a v
      = (some e, { bus with log := bus.log ++ [.write a v (some e)] }) := by
  unfold Bus.write
  rw [h]

omit [DecidableEq A] in
theorem Bus.read_log (faults : Faults E) (bus : Bus A V E) (a : A) :
    (bus.read faults a).2.log = bus.log ++ [.read a (bus.read faults a).1] := rfl

theorem Bus.write_log (faults : Faults E) (bus : Bus A V E) (a : A) (v : V) :
    (bus.write faults a v).2.log
      = bus.log ++ [.write a v (bus.write faults a v).1] := rfl

/-- An update reads first, and goes on from what the read returned. -/
theorem Update.run_eq (faults : Faults E) (decode : Except E V → V) (u : Update A V)
    (bus : Bus A V E) :
    u.run faults decode bus
      = match u.change (decode (bus.read faults u.addr).1) with
        | none => (none, (bus.read faults u.addr).2)
        | some v => (bus.read faults u.addr).2.write faults u.addr v := rfl

/-- Read, and nothing to change. -/
theorem Update.run_skip {faults : Faults E} {decode : Except E V → V}
    (hdecode : ∀ v, decode (.ok v) = v) (u : Update A V) {bus : Bus A V E}
    (hread : faults bus.log.length = none) (hchange : u.change (bus.file u.addr) = none) :
    u.run faults decode bus = (none, bus.readBack u.addr) := by
  rw [u.run_eq, Bus.read_ok _ hread, hdecode, hchange]

/-- Read, and written back. -/
theorem Update.run_change {faults : Faults E} {decode : Except E V → V}
    (hdecode : ∀ v, decode (.ok v) = v) (u : Update A V) {bus : Bus A V E} {v : V}
    (hread : faults bus.log.length = none) (hchange : u.change (bus.file u.addr) = some v) :
    u.run faults decode bus = (bus.readBack u.addr).write faults u.addr v := by
  rw [u.run_eq, Bus.read_ok _ hread, hdecode, hchange]

theorem runAll_cons (faults : Faults E) (decode : Except E V → V) (u : Update A V)
    (us : List (Update A V)) (bus : Bus A V E) :
    runAll faults decode (u :: us) bus
      = match u.run faults decode bus with
        | (some e, bus) => (some e, bus)
        | (none, bus) => runAll faults decode us bus := rfl

/-- The transfers of an update: its read, and its write if there is one. -/
theorem Update.run_log (faults : Faults E) (decode : Except E V → V) (u : Update A V)
    (bus : Bus A V E) :
    ∃ ts, (u.run faults decode bus).2.log
      = bus.log ++ .read u.addr (bus.read faults u.addr).1 :: ts := by
  rw [u.run_eq]
  cases u.change (decode (bus.read faults u.addr).1) with
  | none => exact ⟨[], rfl⟩
  | some v =>
      refine ⟨[.write u.addr v ((bus.read faults u.addr).2.write faults u.addr v).1], ?_⟩
      show (bus.log ++ [_]) ++ [_] = _
      rw [List.append_assoc]
      rfl

/-- A run only adds to the log. -/
theorem runAll_grows (faults : Faults E) (decode : Except E V → V) (us : List (Update A V))
    (bus : Bus A V E) :
    ∃ rest, (runAll faults decode us bus).2.log = bus.log ++ rest := by
  induction us generalizing bus with
  | nil => exact ⟨[], (List.append_nil _).symm⟩
  | cons u us ih =>
      obtain ⟨ts, hts⟩ := u.run_log faults decode bus
      rw [runAll_cons]
      rcases hrun : u.run faults decode bus with ⟨outcome, bus'⟩
      rw [hrun] at hts
      cases outcome with
      | some e => exact ⟨_, hts⟩
      | none =>
          obtain ⟨rest, hrest⟩ := ih bus'
          exact ⟨_ ++ rest, by rw [← List.append_assoc, ← hts]; exact hrest⟩

/-- The transfers of the first update come first. -/
theorem runAll_cons_log (faults : Faults E) (decode : Except E V → V) (u : Update A V)
    (us : List (Update A V)) (bus : Bus A V E) :
    ∃ rest, (runAll faults decode (u :: us) bus).2.log
      = (u.run faults decode bus).2.log ++ rest := by
  rw [runAll_cons]
  rcases u.run faults decode bus with ⟨outcome, bus'⟩
  cases outcome with
  | some e => exact ⟨[], (List.append_nil _).symm⟩
  | none => exact runAll_grows faults decode us bus'

/-- A list of updates that is not empty starts with the read of its first one. -/
theorem runAll_log_cons (faults : Faults E) (decode : Except E V → V) (u : Update A V)
    (us : List (Update A V)) (bus : Bus A V E) :
    ∃ ts, (runAll faults decode (u :: us) bus).2.log
      = bus.log ++ .read u.addr (bus.read faults u.addr).1 :: ts := by
  obtain ⟨rest, hrest⟩ := runAll_cons_log faults decode u us bus
  obtain ⟨ts, hts⟩ := u.run_log faults decode bus
  exact ⟨ts ++ rest, by rw [hrest, hts, List.append_assoc, List.cons_append]⟩

/-! ### When a list of updates reports its errors -/

/-- A read that fails is never reported: what it returned is used, or dropped. -/
theorem not_reported_of_read_error {faults : Faults E} {decode : Except E V → V}
    {u : Update A V} {us : List (Update A V)} {bus : Bus A V E} {e : E}
    (h : faults bus.log.length = some e) :
    ¬Reported (runAll faults decode (u :: us) bus).1
      (made bus (runAll faults decode (u :: us) bus).2) := by
  cases hchange : u.change (decode (.error e)) with
  | none =>
      -- nothing is written: the next update follows, or the run ends as if all were well
      have hrun : runAll faults decode (u :: us) bus = runAll faults decode us
          { bus with log := bus.log ++ [.read u.addr (.error e)] } := by
        rw [runAll_cons, u.run_eq, Bus.read_error _ h]
        simp only [hchange]
      cases us with
      | nil =>
          rw [hrun, made_eq (show _ = bus.log ++ [.read u.addr (.error e)] from rfl)]
          intro hrep
          cases hrep.success rfl _ (List.mem_cons_self ..)
      | cons w ws =>
          obtain ⟨ts, hts⟩ := runAll_log_cons faults decode w ws
            { bus with log := bus.log ++ [.read u.addr (.error e)] }
          rw [hrun, made_eq (hts.trans (List.append_assoc ..))]
          exact not_reported_of_more [] rfl (List.cons_ne_nil _ _)
  | some v =>
      obtain ⟨rest, hrest⟩ := runAll_cons_log faults decode u us bus
      rw [u.run_eq, Bus.read_error _ h] at hrest
      simp only [hchange, Bus.write_log, List.append_assoc] at hrest
      rw [made_eq hrest]
      exact not_reported_of_more [] rfl (List.cons_ne_nil _ _)

/-- The transfers made before a run are made first. -/
theorem made_runAll_append {faults : Faults E} {decode : Except E V → V}
    {us : List (Update A V)} {bus bus' : Bus A V E} {ts : List (Transfer A V E)}
    (h : bus'.log = bus.log ++ ts) :
    made bus (runAll faults decode us bus').2
      = ts ++ made bus' (runAll faults decode us bus').2 := by
  obtain ⟨rest, hrest⟩ := runAll_grows faults decode us bus'
  rw [made_eq hrest]
  refine made_eq ?_
  rw [hrest, h, List.append_assoc]

/-- **A list of updates reports its errors exactly when no read is the first to fail.** -/
theorem reported_iff {decode : Except E V → V} (hdecode : ∀ v, decode (.ok v) = v)
    (faults : Faults E) (us : List (Update A V)) (bus : Bus A V E) :
    Reported (runAll faults decode us bus).1 (made bus (runAll faults decode us bus).2)
      ↔ NoReadFailsFirst faults bus.log.length (plan us bus.file) := by
  induction us generalizing bus with
  | nil =>
      rw [show made bus (runAll faults decode [] bus).2 = [] from
        made_eq (List.append_nil _).symm]
      exact iff_of_true reported_nil (noReadFailsFirst_nil _ _)
  | cons u us ih =>
      unfold plan
      rw [noReadFailsFirst_read]
      cases hread : faults bus.log.length with
      | some e => exact iff_of_false (not_reported_of_read_error hread) (fun h => nomatch h.1)
      | none =>
          have hlength : (bus.readBack u.addr).log.length = bus.log.length + 1 := by
            simp [Bus.readBack]
          rw [runAll_cons]
          cases hchange : u.change (bus.file u.addr) with
          | none =>
              rw [u.run_skip hdecode hread hchange]
              simp only
              rw [made_runAll_append rfl, List.singleton_append, reported_cons rfl, ih, hlength]
              exact ⟨fun h => ⟨trivial, h⟩, And.right⟩
          | some v =>
              rw [u.run_change hdecode hread hchange, noReadFailsFirst_write, ← hlength]
              cases hwrite : faults (bus.readBack u.addr).log.length with
              | some e =>
                  rw [Bus.write_error _ _ hwrite]
                  simp only
                  rw [show made bus _ = [.read u.addr (.ok (bus.file u.addr)),
                    .write u.addr v (some e)] from made_eq (List.append_assoc ..),
                    reported_cons rfl]
                  exact iff_of_true (reported_write _ _ _) ⟨trivial, nofun⟩
              | none =>
                  rw [Bus.write_ok _ _ hwrite]
                  simp only
                  rw [made_runAll_append (List.append_assoc ..), List.singleton_append,
                    List.cons_append, reported_cons rfl, List.singleton_append,
                    reported_cons rfl, ih]
                  simp [Bus.readBack, Bus.written]

/-! ### What a run that was stopped leaves behind -/

omit [DecidableEq A] in
theorem mem_made_of_log {before after : Bus A V E} {t : Transfer A V E}
    {ts : List (Transfer A V E)} (h : after.log = before.log ++ t :: ts) :
    t ∈ made before after := by
  rw [made_eq h]
  exact List.mem_cons_self ..

/-- Nothing changed leaves the register file as it was. -/
theorem Update.apply_of_none {u : Update A V} {file : A → V} (h : u.change (file u.addr) = none) :
    u.apply file = file := by
  unfold Update.apply Update.settle
  rw [h, Option.getD_none, Function.update_eq_self]

theorem Update.apply_of_some {u : Update A V} {file : A → V} {v : V}
    (h : u.change (file u.addr) = some v) : u.apply file = Function.update file u.addr v := by
  unfold Update.apply Update.settle
  rw [h, Option.getD_some]

/-- **If its reads succeed, a run has carried out a prefix of its updates.** -/
theorem runAll_prefix {decode : Except E V → V} (hdecode : ∀ v, decode (.ok v) = v)
    (faults : Faults E) (us : List (Update A V)) (bus : Bus A V E)
    (hreads : ∀ t ∈ made bus (runAll faults decode us bus).2, ¬t.IsFailedRead) :
    ∃ p, p <+: us ∧ (runAll faults decode us bus).2.file = applyAll p bus.file := by
  induction us generalizing bus with
  | nil => exact ⟨[], List.prefix_refl _, rfl⟩
  | cons u us ih =>
      obtain ⟨ts, hts⟩ := runAll_log_cons faults decode u us bus
      have hread : faults bus.log.length = none := by
        cases hfault : faults bus.log.length with
        | none => rfl
        | some e =>
            rw [Bus.read_error _ hfault] at hts
            exact absurd trivial (hreads _ (mem_made_of_log hts))
      -- what is left to show once the update is carried out
      have hrest : ∀ bus' : Bus A V E, (∃ ts, bus'.log = bus.log ++ ts) →
          bus'.file = u.apply bus.file →
          runAll faults decode (u :: us) bus = runAll faults decode us bus' →
          ∃ p, p <+: u :: us ∧ (runAll faults decode (u :: us) bus).2.file
            = applyAll p bus.file := by
        intro bus' ⟨made', hlog⟩ hfile hrun
        rw [hrun, made_runAll_append hlog] at hreads
        obtain ⟨p, hp, hpfile⟩ := ih bus' fun t ht => hreads t (List.mem_append_right _ ht)
        refine ⟨u :: p, List.cons_prefix_cons.mpr ⟨rfl, hp⟩, ?_⟩
        rw [hrun, hpfile, hfile]
        rfl
      cases hchange : u.change (bus.file u.addr) with
      | none =>
          refine hrest (bus.readBack u.addr) ⟨_, rfl⟩ (Update.apply_of_none hchange).symm ?_
          rw [runAll_cons, u.run_skip hdecode hread hchange]
      | some v =>
          cases hwrite : faults (bus.readBack u.addr).log.length with
          | some e =>
              refine ⟨[], List.nil_prefix, ?_⟩
              rw [runAll_cons, u.run_change hdecode hread hchange, Bus.write_error _ _ hwrite]
              rfl
          | none =>
              refine hrest ((bus.readBack u.addr).written u.addr v) ⟨_, List.append_assoc ..⟩
                (Update.apply_of_some hchange).symm ?_
              rw [runAll_cons, u.run_change hdecode hread hchange, Bus.write_ok _ _ hwrite]

/-- An update finds nothing left to do in its register. -/
def Update.Settled (u : Update A V) (file : A → V) : Prop := u.settle (file u.addr) = file u.addr

theorem Update.Settled.apply_eq {u : Update A V} {file : A → V} (h : u.Settled file) :
    u.apply file = file := by
  unfold Update.apply
  rw [h, Function.update_eq_self]

/--
Updates that can be retried: each finds nothing to do after itself, nor does it after a
later one has run, if it did not before.
-/
structure Retryable (us : List (Update A V)) : Prop where
  idempotent : ∀ u ∈ us, ∀ v, u.settle (u.settle v) = u.settle v
  keeps : us.Pairwise fun u w => u.addr = w.addr →
    ∀ v, u.settle v = v → u.settle (w.settle v) = w.settle v

omit [DecidableEq A] in
theorem Retryable.sublist {us ws : List (Update A V)} (h : Retryable us) (hsub : ws.Sublist us) :
    Retryable ws :=
  ⟨fun u hu => h.idempotent u (hsub.subset hu), h.keeps.sublist hsub⟩

/-- A later update of another register, or of the same one, leaves it settled. -/
theorem Update.Settled.after {u w : Update A V} {file : A → V} (h : u.Settled file)
    (hkeep : u.addr = w.addr → ∀ v, u.settle v = v → u.settle (w.settle v) = w.settle v) :
    u.Settled (w.apply file) := by
  unfold Update.Settled Update.apply
  by_cases haddr : u.addr = w.addr
  · rw [haddr, Function.update_self]
    refine hkeep haddr _ ?_
    rw [← haddr]
    exact h
  · rw [Function.update_of_ne haddr]
    exact h

/-- After a prefix of them, every update of the prefix is settled. -/
theorem Retryable.settled {p : List (Update A V)} (h : Retryable p) (file : A → V) :
    ∀ u ∈ p, u.Settled (applyAll p file) := by
  induction p using List.reverseRecOn with
  | nil => exact fun u hu => absurd hu List.not_mem_nil
  | append_singleton p w ih =>
      intro u hu
      rw [show applyAll (p ++ [w]) file = w.apply (applyAll p file) from by
        simp [applyAll, List.foldl_append]]
      rcases List.mem_append.mp hu with hu | hu
      · have hpair := (List.pairwise_append.mp h.keeps).2.2 u hu w (List.mem_singleton_self w)
        exact (ih (h.sublist (List.sublist_append_left p [w])) u hu).after hpair
      · rw [List.mem_singleton.mp hu]
        unfold Update.Settled Update.apply
        rw [Function.update_self]
        exact h.idempotent w (List.mem_append_right _ (List.mem_singleton_self w)) _

/-- Settled updates do nothing. -/
theorem applyAll_settled {p : List (Update A V)} {file : A → V} (h : ∀ u ∈ p, u.Settled file) :
    applyAll p file = file := by
  induction p with
  | nil => rfl
  | cons u p ih =>
      show applyAll p (u.apply file) = file
      rw [(h u (List.mem_cons_self ..)).apply_eq]
      exact ih fun w hw => h w (List.mem_cons_of_mem u hw)

/-- **After any prefix of retryable updates, all of them do what they would have done.** -/
theorem applyAll_retry {us p : List (Update A V)} (h : Retryable us) (hp : p <+: us)
    (file : A → V) : applyAll us (applyAll p file) = applyAll us file := by
  obtain ⟨rest, rfl⟩ := hp
  have hsettled := (h.sublist (List.sublist_append_left p rest)).settled file
  have happend : ∀ file, applyAll (p ++ rest) file = applyAll rest (applyAll p file) :=
    fun file => List.foldl_append
  rw [happend, happend, applyAll_settled hsettled]

end Registers
