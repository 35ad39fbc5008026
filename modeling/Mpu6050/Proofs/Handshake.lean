/-
When the stop handshake is safe.

`fini` takes a cleared flag to mean that the thread is gone.  In fact the flag is clear
in two ranges of the thread's program: at its end, and before it has set the flag at
all.  A test made in the second range frees the record under a thread that is about to
start.  Two more exits break the meaning of the flag: `allow_signal` failing, which
returns with the flag up, and `send_sig` failing, which frees without any wait.

With these three left out the flag is up exactly in the range of the program where the
thread still uses the record (`Tracked`), and the handshake is safe.  Each of the three
can be continued to a state that is not.
-/
import Mpu6050.Driver.Threads

namespace Mpu6050

open Runs

/-- The thread touches the record no more once it is freed, and has lowered the flag if it
has returned. -/
structure Handshake.Safe (f : Forwarder) (s : Handshake) : Prop where
  untouched : s.freed = true → ∀ e s', threadStep f s e = some s' → e.touches f = false
  lowered : s.thread = .returned → s.running = false

/-- The part of the thread's program before the flag is set. -/
def ThreadPc.Early (pc : ThreadPc) : Prop := pc = .start ∨ pc = .set

/-- The thread makes no more steps. -/
def ThreadPc.Over (pc : ThreadPc) : Prop := pc = .returned ∨ pc = .dead

instance : DecidablePred ThreadPc.Early :=
  fun pc => inferInstanceAs (Decidable (pc = .start ∨ pc = .set))

instance : DecidablePred ThreadPc.Over :=
  fun pc => inferInstanceAs (Decidable (pc = .returned ∨ pc = .dead))

/-- The condition on a step: `fini` does not test the flag before the thread has set it,
`allow_signal` succeeds, and `send_sig` fails only for a thread that is gone. -/
def HandshakeOk (s : Handshake) : HandshakeEvent → Prop
  | .fini .testRunning => ¬s.thread.Early
  | .fini (.sendSig ok) => ok = true ∨ s.thread.Over
  | .thread (.allowSignal ok) => ok = true
  | _ => True

/-! ### What the flag means -/

/-- The flag is up from where the thread sets it to where it lowers it, and once `fini` is
past the wait the thread is gone. -/
structure Tracked (s : Handshake) : Prop where
  running : s.running = true ↔ ¬s.thread.Early ∧ s.thread ≠ .returned
  gone : s.fini ≠ .signal → s.fini ≠ .wait → s.thread.Over
  freed : s.freed = true → s.fini = .done

theorem tracked_created : Tracked createdHandshake :=
  ⟨by simp [createdHandshake, ThreadPc.Early], by simp [createdHandshake],
    by simp [createdHandshake]⟩

/-- A thread that is over makes no step. -/
theorem threadStep_of_over {f : Forwarder} {s s' : Handshake} {e : ThreadEvent}
    (h : s.thread.Over) : threadStep f s e ≠ some s' := by
  unfold threadStep
  rcases h with h | h <;> rw [h] <;> simp

/-- A step of the thread leaves `fini` and the record where they are. -/
theorem threadStep_frame {f : Forwarder} {s s' : Handshake} {e : ThreadEvent}
    (h : threadStep f s e = some s') : s'.fini = s.fini ∧ s'.freed = s.freed := by
  unfold threadStep at h
  split at h <;> (try split at h) <;> (try split at h) <;> cases h <;> exact ⟨rfl, rfl⟩

/-- The flag goes up and down with the thread's own steps, unless `allow_signal` fails. -/
theorem threadStep_running {f : Forwarder} {s s' : Handshake} {e : ThreadEvent}
    (hrun : s.running = true ↔ ¬s.thread.Early ∧ s.thread ≠ .returned)
    (hok : HandshakeOk s (.thread e)) (h : threadStep f s e = some s') :
    s'.running = true ↔ ¬s'.thread.Early ∧ s'.thread ≠ .returned := by
  obtain ⟨thread, fini, running, freed⟩ := s
  unfold threadStep at h
  dsimp only at hrun h
  split at h
  case h_1 =>
    have hlow : running = false := by simpa [ThreadPc.Early] using hrun
    cases h
    simp [hlow, ThreadPc.Early]
  case h_3 ok =>
    have htrue : ok = true := hok
    subst htrue
    cases h
    cases f <;> simpa [ThreadPc.Early, Forwarder.afterAllow] using hrun
  case h_7 pending =>
    cases h
    cases f <;> cases pending <;> simpa [ThreadPc.Early, Forwarder.afterLoop] using hrun
  case h_2 | h_10 => cases h; simp [ThreadPc.Early]
  case h_4 ok => cases h; cases ok <;> simpa [ThreadPc.Early] using hrun
  case h_6 ok => cases h; cases ok <;> simpa [ThreadPc.Early] using hrun
  case h_9 socket returns =>
    cases returns <;> cases socket <;> simp only [Bool.false_eq_true, if_true, if_false] at h <;>
      cases h <;> simpa [ThreadPc.Early] using hrun
  case h_11 => cases h
  all_goals
    cases h
    simpa [ThreadPc.Early] using hrun

theorem tracked_thread {f : Forwarder} {s s' : Handshake} {e : ThreadEvent} (hs : Tracked s)
    (hok : HandshakeOk s (.thread e)) (h : threadStep f s e = some s') : Tracked s' := by
  obtain ⟨hfini, hfreed⟩ := threadStep_frame h
  refine ⟨threadStep_running hs.running hok h, ?_, ?_⟩
  · rw [hfini]
    intro hsignal hwait
    exact absurd h (threadStep_of_over (hs.gone hsignal hwait))
  · rw [hfini, hfreed]
    exact hs.freed

/-- Leaving the wait, `fini` knows that the thread has returned. -/
theorem tracked_fini {s s' : Handshake} {e : FiniEvent} (hs : Tracked s)
    (hok : HandshakeOk s (.fini e)) (h : finiStep s e = some s') : Tracked s' := by
  unfold finiStep at h
  split at h
  next ok hsignal =>
    cases h
    refine ⟨hs.running, ?_, ?_⟩
    · intro _ hwait
      rcases (hok : ok = true ∨ s.thread.Over) with rfl | hover
      · exact absurd rfl hwait
      · exact hover
    · intro hfreed
      exact absurd (hsignal.symm.trans (hs.freed hfreed)) (by decide)
  next hwait =>
    cases h
    refine ⟨hs.running, ?_, ?_⟩
    · intro _ hnot
      by_cases hrunning : s.running = true
      · exact absurd (if_pos hrunning) hnot
      · -- the flag is down and was set before, so it has been lowered
        refine Or.inl (Decidable.byContradiction fun hret => ?_)
        exact hrunning (hs.running.mpr ⟨hok, hret⟩)
    · intro hfreed
      exact absurd (hwait.symm.trans (hs.freed hfreed)) (by decide)
  next hfree =>
    cases h
    refine ⟨hs.running, fun _ _ => hs.gone (by rw [hfree]; decide) (by rw [hfree]; decide), ?_⟩
    intro hfreed
    exact absurd (hfree.symm.trans (hs.freed hfreed)) (by decide)
  next hfree =>
    cases h
    exact ⟨hs.running, fun _ _ => hs.gone (by rw [hfree]; decide) (by rw [hfree]; decide),
      fun _ => rfl⟩
  next => cases h

theorem tracked_step {f : Forwarder} {s s' : Handshake} {e : HandshakeEvent} (hs : Tracked s)
    (hok : HandshakeOk s e) (h : HandshakeStep f s e s') : Tracked s' := by
  cases e with
  | thread e => exact tracked_thread hs hok h
  | fini e => exact tracked_fini hs hok h

theorem tracked_run {f : Forwarder} {es : List HandshakeEvent} {s : Handshake}
    (hrun : Run (Guarded (HandshakeStep f) HandshakeOk) createdHandshake es s) : Tracked s :=
  hrun.guarded_invariant tracked_created fun _ _ _ hs hok h => tracked_step hs hok h

theorem Tracked.safe {s : Handshake} (hs : Tracked s) (f : Forwarder) : s.Safe f := by
  refine ⟨?_, ?_⟩
  · intro hfreed e s' h
    have hdone := hs.freed hfreed
    have hover := hs.gone (by rw [hdone]; decide) (by rw [hdone]; decide)
    exact absurd h (threadStep_of_over hover)
  · intro hret
    rw [← Bool.not_eq_true, hs.running]
    exact fun h => h.2 hret

/-! ### Each of the steps left out can go wrong -/

/-- What the thread does next touches the record. -/
def TouchesNext (f : Forwarder) (s : Handshake) : Prop :=
  ∃ e s', threadStep f s e = some s' ∧ e.touches f = true

theorem not_safe_of_touchesNext {f : Forwarder} {s : Handshake} (hfreed : s.freed = true)
    (h : TouchesNext f s) : ¬s.Safe f := by
  obtain ⟨e, s', hstep, htouches⟩ := h
  intro hsafe
  rw [hsafe.untouched hfreed e s' hstep] at htouches
  cases htouches

/-- Everywhere but at the signal and in the loop a thread touches the record next. -/
theorem touchesNext {f : Forwarder} {s : Handshake} (hallow : s.thread ≠ .allow)
    (hloop : s.thread ≠ .loop) (hbody : s.thread ≠ .body) (hover : ¬s.thread.Over) :
    TouchesNext f s := by
  obtain ⟨thread, fini, running, freed⟩ := s
  cases thread with
  | start => exact ⟨.testRunning, _, rfl, rfl⟩
  | set => exact ⟨.setRunning, _, rfl, rfl⟩
  | allow => exact absurd rfl hallow
  | create => exact ⟨.sockCreate true, _, rfl, rfl⟩
  | address => exact ⟨.setAddress, _, rfl, rfl⟩
  | connect => exact ⟨.connect true, _, rfl, rfl⟩
  | loop => exact absurd rfl hloop
  | body => exact absurd rfl hbody
  | release socket => exact ⟨.sockRelease true, _, rfl, rfl⟩
  | clear => exact ⟨.clearRunning, _, rfl, rfl⟩
  | returned => exact absurd (Or.inl rfl) hover
  | dead => exact absurd (Or.inr rfl) hover

/-- At the head of the loop a pending signal takes the thread to where it touches the record. -/
theorem touch_from_loop (f : Forwarder) {s : Handshake} (h : s.thread = .loop) :
    ∃ e s', threadStep f s e = some s' ∧ s'.freed = s.freed ∧ TouchesNext f s' := by
  refine ⟨.signalPending true, { s with thread := f.afterLoop }, ?_, rfl, ?_⟩
  · unfold threadStep
    rw [h]
    rfl
  · cases f <;> exact touchesNext (by simp [Forwarder.afterLoop]) (by simp [Forwarder.afterLoop])
      (by simp [Forwarder.afterLoop]) (by simp [Forwarder.afterLoop, ThreadPc.Over])

/-- **A thread that is not over will touch the record again.** -/
theorem exists_touch (f : Forwarder) {s : Handshake} (h : ¬s.thread.Over) :
    ∃ es s', Run (HandshakeStep f) s es s' ∧ s'.freed = s.freed ∧ TouchesNext f s' := by
  have hfrom : ∀ {e : ThreadEvent} {mid : Handshake}, threadStep f s e = some mid →
      mid.thread = .loop →
      ∃ es s', Run (HandshakeStep f) s es s' ∧ s'.freed = s.freed ∧ TouchesNext f s' := by
    intro e mid hstep hloop
    obtain ⟨e', s', hstep', hfreed, htouch⟩ := touch_from_loop f hloop
    refine ⟨[HandshakeEvent.thread e] ++ [.thread e'], s', ?_, ?_, htouch⟩
    · exact (Run.single hstep).snoc hstep'
    · rw [hfreed]
      exact (threadStep_frame hstep).2
  by_cases hbody : s.thread = .body
  · have hstep : threadStep f s (.forward false) = some { s with thread := .loop } := by
      unfold threadStep
      rw [hbody]
    exact hfrom hstep rfl
  by_cases hallow : s.thread = .allow
  · have hstep : threadStep f s (.allowSignal true) = some { s with thread := f.afterAllow } := by
      unfold threadStep
      rw [hallow]
      rfl
    cases f with
    | netlink => exact hfrom hstep rfl
    | server =>
        refine ⟨[.thread (.allowSignal true)], _, Run.single hstep, rfl, ?_⟩
        exact ⟨.sockCreate true, _, rfl, rfl⟩
  by_cases hloop : s.thread = .loop
  · obtain ⟨e, s', hstep, hfreed, htouch⟩ := touch_from_loop f hloop
    exact ⟨[.thread e], s', Run.single hstep, hfreed, htouch⟩
  · exact ⟨[], s, .nil, rfl, touchesNext hallow hloop hbody h⟩

/-- Once `fini` is going to free the record, a thread that is not over will not be safe. -/
theorem unsafe_of_freeServer (f : Forwarder) {s : Handshake} (hover : ¬s.thread.Over)
    (hfini : s.fini = .freeServer) :
    ∃ es s', Run (HandshakeStep f) s es s' ∧ ¬s'.Safe f := by
  have hstep : HandshakeStep f s (.fini .freeServer) { s with fini := .done, freed := true } := by
    show finiStep s .freeServer = _
    unfold finiStep
    rw [hfini]
  obtain ⟨es, s', hrun, hfreed, htouch⟩ :=
    exists_touch f (s := { s with fini := .done, freed := true }) hover
  exact ⟨_, s', (Run.single hstep).trans hrun, not_safe_of_touchesNext hfreed htouch⟩

theorem unsafe_of_freeThread (f : Forwarder) {s : Handshake} (hover : ¬s.thread.Over)
    (hfini : s.fini = .freeThread) :
    ∃ es s', Run (HandshakeStep f) s es s' ∧ ¬s'.Safe f := by
  have hstep : HandshakeStep f s (.fini .freeThread) { s with fini := .freeServer } := by
    show finiStep s .freeThread = _
    unfold finiStep
    rw [hfini]
  obtain ⟨es, s', hrun, hunsafe⟩ := unsafe_of_freeServer f (s := { s with fini := .freeServer })
    hover rfl
  exact ⟨_, s', (Run.single hstep).trans hrun, hunsafe⟩

theorem allowSignal_step {f : Forwarder} {s s' : Handshake} {ok : Bool}
    (h : threadStep f s (.allowSignal ok) = some s') :
    s.thread = .allow ∧ s' = { s with thread := if ok then f.afterAllow else .returned } := by
  cases hpc : s.thread <;> simp only [threadStep, hpc] at h <;> cases h
  exact ⟨rfl, rfl⟩

theorem sendSig_step {s s' : Handshake} {ok : Bool} (h : finiStep s (.sendSig ok) = some s') :
    s' = { s with fini := if ok then .wait else .freeServer } := by
  cases hpc : s.fini <;> simp only [finiStep, hpc] at h <;> cases h
  rfl

theorem testRunning_step {s s' : Handshake} (h : finiStep s .testRunning = some s') :
    s' = { s with fini := if s.running then .wait else .freeThread } := by
  cases hpc : s.fini <;> simp only [finiStep, hpc] at h <;> cases h
  rfl

/-- **Every step the condition leaves out can be continued to a state that is not safe.** -/
theorem unsafe_of_not_ok {f : Forwarder} {s s' : Handshake} {e : HandshakeEvent} (hs : Tracked s)
    (hnot : ¬HandshakeOk s e) (hstep : HandshakeStep f s e s') :
    ∃ es s'', Run (HandshakeStep f) s' es s'' ∧ ¬s''.Safe f := by
  cases e with
  | thread e =>
      cases e with
      | allowSignal ok =>
          have hfalse : ok = false := by simpa [HandshakeOk] using hnot
          subst hfalse
          obtain ⟨hpc, rfl⟩ := allowSignal_step hstep
          have hup : s.running = true := hs.running.mpr (by simp [hpc, ThreadPc.Early])
          refine ⟨[], _, .nil, ?_⟩
          intro hsafe
          exact Bool.noConfusion (hup.symm.trans (hsafe.lowered rfl))
      | _ => exact absurd trivial hnot
  | fini e =>
      cases e with
      | sendSig ok =>
          obtain ⟨hok, hover⟩ := not_or.mp hnot
          have hfalse : ok = false := by simpa using hok
          subst hfalse
          rw [sendSig_step hstep]
          exact unsafe_of_freeServer f hover rfl
      | testRunning =>
          have hearly : s.thread.Early := Decidable.not_not.mp hnot
          have hlow : s.running = false := by
            rw [← Bool.not_eq_true, hs.running]
            exact fun h => h.1 hearly
          have hover : ¬s.thread.Over := by
            rcases hearly with h | h <;> rw [h] <;> simp [ThreadPc.Over]
          rw [testRunning_step hstep, hlow]
          exact unsafe_of_freeThread f hover rfl
      | _ => exact absurd trivial hnot

/-! ### The handshake -/

/--
**The handshake is safe in every run in which `fini` does not test the flag before the
thread has set it, `allow_signal` succeeds, and `send_sig` fails only for a thread that
is gone.**  A run that takes any other step can go on to a state that is not safe.
-/
theorem handshake_safe (f : Forwarder) :
    (∀ es s, Run (Guarded (HandshakeStep f) HandshakeOk) createdHandshake es s → s.Safe f) ∧
    (∀ es s e s', Run (Guarded (HandshakeStep f) HandshakeOk) createdHandshake es s →
      HandshakeStep f s e s' → ¬HandshakeOk s e →
      ∃ es' s'', Run (HandshakeStep f) s' es' s'' ∧ ¬s''.Safe f) := by
  refine ⟨?_, ?_⟩
  · intro es s hrun
    exact (tracked_run hrun).safe f
  · intro es s e s' hrun hstep hnot
    exact unsafe_of_not_ok (tracked_run hrun) hnot hstep

instance (s : Handshake) : DecidablePred (HandshakeOk s)
  | .fini .testRunning => inferInstanceAs (Decidable (¬s.thread.Early))
  | .fini (.sendSig ok) => inferInstanceAs (Decidable (ok = true ∨ s.thread.Over))
  | .thread (.allowSignal ok) => inferInstanceAs (Decidable (ok = true))
  | .fini .freeThread | .fini .freeServer => isTrue trivial
  | .thread .testRunning | .thread .setRunning | .thread (.sockCreate _) => isTrue trivial
  | .thread .setAddress | .thread (.connect _) | .thread (.signalPending _) => isTrue trivial
  | .thread (.forward _) | .thread (.sockRelease _) | .thread .clearRunning => isTrue trivial

/-- A step that meets the condition. -/
def okStep (f : Forwarder) (s : Handshake) (e : HandshakeEvent) : Option Handshake :=
  if HandshakeOk s e then handshakeStep f s e else none

theorem guarded_of_okStep {f : Forwarder} {s s' : Handshake} {e : HandshakeEvent}
    (h : okStep f s e = some s') : Guarded (HandshakeStep f) HandshakeOk s e s' := by
  unfold okStep at h
  split at h
  next hok => exact ⟨hok, h⟩
  next => cases h

/-- The UDP thread is stopped while it waits for samples. -/
theorem handshake_safe_server :
    ∃ s : Handshake, s.freed = true ∧ s.thread = .returned ∧ s.Safe .server :=
  ⟨_, rfl, rfl, (handshake_safe .server).1
    [.thread .testRunning, .thread .setRunning, .thread (.allowSignal true),
      .thread (.sockCreate true), .thread .setAddress, .thread (.connect true),
      .fini (.sendSig true), .thread (.signalPending false), .fini .testRunning,
      .thread (.forward true), .thread (.signalPending true), .thread (.sockRelease true),
      .fini .testRunning, .thread .clearRunning, .fini .testRunning, .fini .freeThread,
      .fini .freeServer]
    { thread := .returned, fini := .done, running := false, freed := true }
    (Run.of_exec (fun _ _ _ => guarded_of_okStep) (by rfl))⟩

/-- `fini` runs before the thread has executed its first instruction, and the thread then
tests the flag of a record that has been freed; and `allow_signal` fails, and the thread
returns with the flag up. -/
theorem freed_before_start :
    (∃ s, Run (HandshakeStep .netlink) createdHandshake
        [.fini (.sendSig true), .fini .testRunning, .fini .freeThread, .fini .freeServer] s ∧
      s.freed = true ∧ s.thread = .start ∧ ¬s.Safe .netlink) ∧
    (∃ s, Run (HandshakeStep .server) createdHandshake
        [.fini (.sendSig true), .fini .testRunning, .fini .freeThread, .fini .freeServer] s ∧
      s.freed = true ∧ s.thread = .start ∧ ¬s.Safe .server) ∧
    (∃ s, Run (HandshakeStep .server) createdHandshake
        [.thread .testRunning, .thread .setRunning, .thread (.allowSignal false)] s ∧
      s.thread = .returned ∧ s.running = true ∧ ¬s.Safe .server) := by
  have hearly : ∀ f, TouchesNext f
      { thread := .start, fini := .done, running := false, freed := true } :=
    fun f => ⟨.testRunning, _, rfl, rfl⟩
  refine ⟨⟨_, Run.of_exec (fun _ _ _ h => h) rfl, rfl, rfl, ?_⟩,
    ⟨_, Run.of_exec (fun _ _ _ h => h) rfl, rfl, rfl, ?_⟩,
    ⟨_, Run.of_exec (fun _ _ _ h => h) rfl, rfl, rfl, ?_⟩⟩
  · exact not_safe_of_touchesNext rfl (hearly .netlink)
  · exact not_safe_of_touchesNext rfl (hearly .server)
  · intro hsafe
    cases hsafe.lowered rfl

end Mpu6050
