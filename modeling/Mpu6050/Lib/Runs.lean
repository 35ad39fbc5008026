/-
Runs of a transition system, and the one induction every safety proof uses.

A system is a relation `step s e s'` between states, labelled by events.  A run
is the list of the events taken, in order, and it grows at its end, so that what
holds of a run can speak of the whole history that led to a state.

`Run.invariant` is the rule: what holds of the empty history and survives one
more event holds of every history.  `Guarded` restricts a system to the steps
that meet a condition on the state before and the event, which is how a result
that needs a condition on every step of a run is stated.

A run of one system may be seen as a run of another, simpler one, whose events are some
of its own: `Run.simulates` carries a relation between the states along.

And where part of the state is not touched by some of the events, it is that of the history
without them (`foldl_purged`).
-/
import Mathlib.Logic.Relation

namespace Runs

variable {S E : Type}

/-- `Run step s es s'`: the events `es`, in this order, take `s` to `s'`. -/
inductive Run (step : S → E → S → Prop) (s : S) : List E → S → Prop
  | nil : Run step s [] s
  | snoc {es : List E} {mid s' : S} {e : E}
      (h : Run step s es mid) (hstep : step mid e s') : Run step s (es ++ [e]) s'

/-- The steps of a system that meet a condition on the state before and the event. -/
def Guarded (step : S → E → S → Prop) (ok : S → E → Prop) (s : S) (e : E) (s' : S) : Prop :=
  ok s e ∧ step s e s'

variable {step : S → E → S → Prop}

/-- **What one more event preserves, every run preserves.**  The property may
speak of the events taken so far as well as of the state they led to. -/
theorem Run.invariant {P : List E → S → Prop} {s : S} (hinit : P [] s)
    (hstep : ∀ es mid e s', P es mid → step mid e s' → P (es ++ [e]) s')
    {es : List E} {s' : S} (h : Run step s es s') : P es s' := by
  induction h with
  | nil => exact hinit
  | snoc _ hlast ih => exact hstep _ _ _ _ ih hlast

/-- One step is a run. -/
theorem Run.single {s s' : S} {e : E} (h : step s e s') : Run step s [e] s' :=
  Run.nil.snoc h

/-- One run after another. -/
theorem Run.trans {s mid s' : S} {es es' : List E} (h : Run step s es mid)
    (h' : Run step mid es' s') : Run step s (es ++ es') s' := by
  induction h' with
  | nil => rw [List.append_nil]; exact h
  | snoc _ hstep ih => rw [← List.append_assoc]; exact ih.snoc hstep

/-- A run computed event by event. -/
theorem Run.of_exec {next : S → E → Option S}
    (hnext : ∀ s e s', next s e = some s' → step s e s') {es : List E} {s s' : S}
    (h : es.foldlM next s = some s') : Run step s es s' := by
  induction es generalizing s with
  | nil => cases h; exact .nil
  | cons e es ih =>
      rw [List.foldlM_cons] at h
      obtain ⟨mid, hmid, hrest⟩ := Option.bind_eq_some_iff.mp h
      exact (Run.single (hnext _ _ _ hmid)).trans (ih hrest)

/-- A state property kept by every guarded step holds at the end of a guarded run. -/
theorem Run.guarded_invariant {ok : S → E → Prop} {Inv : S → Prop} {s : S} (hinit : Inv s)
    (hkeep : ∀ mid e s', Inv mid → ok mid e → step mid e s' → Inv s')
    {es : List E} {s' : S} (h : Run (Guarded step ok) s es s') : Inv s' :=
  Run.invariant (P := fun _ s' => Inv s') hinit
    (fun _ mid e s' hmid hstep => hkeep mid e s' hmid hstep.1 hstep.2) h

/-- A guarded run is a run. -/
theorem Run.of_guarded {ok : S → E → Prop} {s : S} {es : List E} {s' : S}
    (h : Run (Guarded step ok) s es s') : Run step s es s' := by
  induction h with
  | nil => exact .nil
  | snoc _ hlast ih => exact ih.snoc hlast.2

/-! ### Histories -/

/-- Where an event stands in a history that has grown by one: further back, or at the end. -/
theorem split_snoc {es : List E} {e x : E} {P : List E → List E → Prop} :
    (∃ before after, es ++ [e] = before ++ x :: after ∧ P before after)
      ↔ (∃ before after, es = before ++ x :: after ∧ P before (after ++ [e])) ∨
        (e = x ∧ P es []) := by
  constructor
  · intro ⟨before, after, heq, hP⟩
    rcases List.eq_nil_or_concat after with rfl | ⟨after', e', rfl⟩
    · obtain ⟨hes, he⟩ := List.append_inj' heq rfl
      rw [← hes] at hP
      exact Or.inr ⟨by simpa using he, hP⟩
    · have heq' : es ++ [e] = (before ++ x :: after') ++ [e'] := by simpa using heq
      obtain ⟨hes, he⟩ := List.append_inj' heq' rfl
      rw [show e' = e by simpa using he.symm, List.concat_eq_append] at hP
      exact Or.inl ⟨before, after', hes, hP⟩
  · rintro (⟨before, after, heq, hP⟩ | ⟨rfl, hP⟩)
    · exact ⟨before, after ++ [e], by rw [heq]; simp, hP⟩
    · exact ⟨es, [], rfl, hP⟩

/-! ### One system seen as another -/

section

variable {S' E' : Type} {step' : S' → E' → S' → Prop} {view : E → Option E'}

/-- The step that an event stands for, if it stands for one. -/
def ViewedStep (step' : S' → E' → S' → Prop) (a : S') : Option E' → S' → Prop
  | none, a' => a' = a
  | some e, a' => step' a e a'

/-- **What is simulated step by step is simulated run by run.** -/
theorem Run.simulates {R : S → S' → Prop} {s : S} {a : S'} (hinit : R s a)
    (hstep : ∀ mid e s' b, R mid b → step mid e s' →
      ∃ b', ViewedStep step' b (view e) b' ∧ R s' b')
    {es : List E} {s' : S} (h : Run step s es s') :
    ∃ a', Run step' a (es.filterMap view) a' ∧ R s' a' := by
  induction h with
  | nil => exact ⟨a, .nil, hinit⟩
  | @snoc es mid s' e _ hlast ih =>
      obtain ⟨b, hrun, hb⟩ := ih
      obtain ⟨b', hview, hb'⟩ := hstep mid e s' b hb hlast
      refine ⟨b', ?_, hb'⟩
      rw [List.filterMap_append]
      cases he : view e with
      | none =>
          rw [he] at hview
          obtain rfl : b' = b := hview
          simpa [he] using hrun
      | some e' =>
          rw [he] at hview
          simpa [he] using hrun.snoc hview

end

/-! ### Events that an observer does not see -/

/-- **What the other events do not touch is the same without them,** if those that are kept
compute it from itself. -/
theorem foldl_purged {O : Type} {next : S → E → S} (observe : S → O) {keep : E → Bool}
    {es : List E}
    (hkept : ∀ e ∈ es, keep e = true → ∀ s s', observe s = observe s' →
      observe (next s e) = observe (next s' e))
    (hother : ∀ e ∈ es, keep e = false → ∀ s, observe (next s e) = observe s)
    {s s' : S} (h : observe s = observe s') :
    observe (es.foldl next s) = observe ((es.filter keep).foldl next s') := by
  induction es generalizing s s' with
  | nil => exact h
  | cons e es ih =>
      have hmem : e ∈ e :: es := List.mem_cons_self ..
      have hrest : ∀ {s s' : S}, observe s = observe s' →
          observe (es.foldl next s) = observe ((es.filter keep).foldl next s') :=
        ih (fun e' he' => hkept e' (List.mem_cons_of_mem e he'))
          (fun e' he' => hother e' (List.mem_cons_of_mem e he'))
      rw [List.foldl_cons, List.filter_cons]
      cases hkeep : keep e with
      | true => exact hrest (hkept e hmem hkeep s s' h)
      | false => exact hrest ((hother e hmem hkeep s).trans h)

end Runs
