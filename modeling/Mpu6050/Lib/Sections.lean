/-
Threads that share data, and one lock.

A program says what a thread may do next: take the lock, work on the shared data, or give
the lock back.  Nothing in the machine keeps a thread from working without the lock or from
giving back a lock it does not hold.  That it never does either is a property of the program
alone, which marks its places as inside or outside (`Disciplined`): it comes inside by taking
the lock, leaves by giving it back, and works inside only.

For such a program the lock says who is inside (`Exclusive`).  So the work of one section is
not interrupted by another's, and any interleaving of any number of threads does to the
shared data what the same sections do one after another, in the order in which they end
(`serializable`).
-/
import Mathlib.Logic.Function.Basic
import Mpu6050.Lib.Runs

namespace Sections

open Runs

variable {T σ L E : Type}

/-- What a thread may do next, from where it is. -/
structure Program (σ L E : Type) where
  /-- It takes the lock. -/
  acquire : L → L → Prop
  /-- It works on the shared data, and hands something out. -/
  access : σ → L → List E → σ → L → Prop
  /-- It gives the lock back. -/
  release : L → L → Prop

/-- The shared data, who has the lock, and where each thread is. -/
structure State (T σ L : Type) where
  shared : σ
  lock : Option T
  locals : T → L

/-- A step is one thread's. -/
inductive Event (T E : Type)
  | acquire (t : T)
  | access (t : T) (out : List E)
  | release (t : T)

/-- What is handed out. -/
def Event.out : Event T E → List E
  | .access _ out => out
  | _ => []

/-- The thread whose step it is. -/
def Event.thread : Event T E → T
  | .acquire t | .access t _ | .release t => t

/-- The thread whose section ends. -/
def Event.released : Event T E → Option T
  | .release t => some t
  | _ => none

section

variable [DecidableEq T]

/-- A thread is somewhere else now. -/
def State.move (s : State T σ L) (t : T) (l : L) : T → L := Function.update s.locals t l

/-- One step of one thread.  Only taking the lock asks who has it. -/
inductive Step (p : Program σ L E) (s : State T σ L) : Event T E → State T σ L → Prop
  | acquire {t : T} {l : L} (hfree : s.lock = none) (h : p.acquire (s.locals t) l) :
      Step p s (.acquire t) { s with lock := some t, locals := s.move t l }
  | access {t : T} {out : List E} {d : σ} {l : L} (h : p.access s.shared (s.locals t) out d l) :
      Step p s (.access t out) { s with shared := d, locals := s.move t l }
  | release {t : T} {l : L} (h : p.release (s.locals t) l) :
      Step p s (.release t) { s with lock := none, locals := s.move t l }

end

/-- The program works between taking the lock and giving it back, and nowhere else. -/
structure Disciplined (p : Program σ L E) (inside : L → Prop) : Prop where
  acquire : ∀ {l l'}, p.acquire l l' → inside l'
  access : ∀ {d l out d' l'}, p.access d l out d' l' → inside l ∧ inside l'
  release : ∀ {l l'}, p.release l l' → inside l ∧ ¬inside l'

/-- The lock says who is inside. -/
def Exclusive (inside : L → Prop) (s : State T σ L) : Prop :=
  ∀ t, inside (s.locals t) ↔ s.lock = some t

/-- What a thread has done since it took the lock: what it handed out, the data, its place. -/
inductive Entered (p : Program σ L E) (d₀ : σ) : List E → σ → L → Prop
  | acquire {l₀ l : L} (h : p.acquire l₀ l) : Entered p d₀ [] d₀ l
  | access {out new : List E} {d d' : σ} {l l' : L} (h : Entered p d₀ out d l)
      (hstep : p.access d l new d' l') : Entered p d₀ (out ++ new) d' l'

/-- A section from its beginning to its end, as one step of the shared data. -/
def Whole (p : Program σ L E) (d : σ) (e : T × List E) (d' : σ) : Prop :=
  ∃ l l', Entered p d e.2 d' l ∧ p.release l l'

/-- What the shared data has come to: sections one after another, and the one under way. -/
structure Serial (p : Program σ L E) (d₀ : σ) (es : List (Event T E)) (s : State T σ L)
    (whole : List (T × List E)) (d : σ) : Prop where
  run : Run (Whole p) d₀ whole d
  order : whole.map Prod.fst = es.filterMap Event.released
  free : s.lock = none → s.shared = d ∧ es.flatMap Event.out = whole.flatMap Prod.snd
  held : ∀ t, s.lock = some t → ∃ out, Entered p d out s.shared (s.locals t) ∧
    es.flatMap Event.out = whole.flatMap Prod.snd ++ out

section

variable {p : Program σ L E} {inside : L → Prop} {s s' : State T σ L} {e : Event T E}

theorem filterMap_released_snoc {es : List (Event T E)} {e : Event T E}
    (h : e.released = none) :
    (es ++ [e]).filterMap Event.released = es.filterMap Event.released := by
  rw [List.filterMap_append, List.filterMap_cons_none h, List.filterMap_nil, List.append_nil]

theorem flatMap_out_snoc (es : List (Event T E)) (e : Event T E) :
    (es ++ [e]).flatMap Event.out = es.flatMap Event.out ++ e.out := by
  rw [List.flatMap_append, List.flatMap_singleton]

variable [DecidableEq T]

@[simp] theorem move_self (s : State T σ L) (t : T) (l : L) : s.move t l t = l :=
  Function.update_self ..

theorem move_of_ne (s : State T σ L) {t t' : T} (h : t' ≠ t) (l : L) :
    s.move t l t' = s.locals t' :=
  Function.update_of_ne h ..

/-! ### Who is inside -/

/-- A thread that goes on inside leaves the lock saying what it said. -/
theorem exclusive_move {s : State T σ L} (h : Exclusive inside s) {t : T} {l : L} {lock : Option T}
    (hself : inside l ↔ lock = some t) (hother : ∀ t', t' ≠ t → (s.lock = some t' ↔ lock = some t'))
    (d : σ) : Exclusive inside { shared := d, lock := lock, locals := s.move t l } := by
  intro t'
  by_cases ht : t' = t
  · subst ht
    show inside (s.move t' l t') ↔ lock = some t'
    rw [move_self]
    exact hself
  · show inside (s.move t l t') ↔ lock = some t'
    rw [move_of_ne s ht]
    exact (h t').trans (hother t' ht)

theorem exclusive_step (hp : Disciplined p inside) (h : Exclusive inside s)
    (hstep : Step p s e s') : Exclusive inside s' := by
  cases hstep with
  | acquire hfree hacquire =>
      refine exclusive_move h (iff_of_true (hp.acquire hacquire) rfl) (fun t' ht => ?_) _
      rw [hfree]
      exact iff_of_false nofun fun hc => ht (Option.some.inj hc).symm
  | @access t _ _ _ haccess =>
      obtain ⟨hin, hin'⟩ := hp.access haccess
      exact exclusive_move h (iff_of_true hin' ((h t).mp hin)) (fun _ _ => Iff.rfl) _
  | @release t l hrelease =>
      obtain ⟨hin, hout⟩ := hp.release hrelease
      have hself : inside l ↔ (none : Option T) = some t := iff_of_false hout nofun
      refine exclusive_move h hself (fun t' ht => ?_) _
      rw [(h t).mp hin]
      exact iff_of_false (fun hc => ht (Option.some.inj hc).symm) nofun

/-! ### One section after another -/

variable {d₀ d : σ} {es : List (Event T E)} {whole : List (T × List E)}

/-- A thread that takes the lock begins a section where the last one ended. -/
theorem Serial.acquire {t : T} {l : L} (h : Serial p d₀ es s whole d) (hfree : s.lock = none)
    (hacquire : p.acquire (s.locals t) l) :
    Serial p d₀ (es ++ [.acquire t]) { s with lock := some t, locals := s.move t l } whole d := by
  obtain ⟨hshared, hout⟩ := h.free hfree
  refine ⟨h.run, by rw [h.order, filterMap_released_snoc rfl], nofun, ?_⟩
  intro t' ht
  cases ht
  refine ⟨[], ?_, ?_⟩
  · show Entered p d [] s.shared (s.move t l t)
    rw [move_self, hshared]
    exact .acquire hacquire
  · rw [flatMap_out_snoc, hout]
    rfl

/-- A thread that works does so in the section under way. -/
theorem Serial.access {t : T} {out : List E} {d' : σ} {l : L} (h : Serial p d₀ es s whole d)
    (hlock : s.lock = some t) (haccess : p.access s.shared (s.locals t) out d' l) :
    Serial p d₀ (es ++ [.access t out]) { s with shared := d', locals := s.move t l } whole d := by
  obtain ⟨before, hentered, hout⟩ := h.held t hlock
  refine ⟨h.run, by rw [h.order, filterMap_released_snoc rfl], ?_, ?_⟩
  · intro hnone
    have hnone : s.lock = none := hnone
    rw [hlock] at hnone
    cases hnone
  · intro t' ht
    have ht : s.lock = some t' := ht
    rw [hlock] at ht
    cases ht
    refine ⟨before ++ out, ?_, ?_⟩
    · show Entered p d (before ++ out) d' (s.move t l t)
      rw [move_self]
      exact hentered.access haccess
    · rw [flatMap_out_snoc, hout, List.append_assoc]
      rfl

/-- A thread that gives the lock back ends the section under way. -/
theorem Serial.release {t : T} {l : L} (h : Serial p d₀ es s whole d) (hlock : s.lock = some t)
    (hrelease : p.release (s.locals t) l) :
    ∃ whole' d', Serial p d₀ (es ++ [.release t]) { s with lock := none, locals := s.move t l }
      whole' d' := by
  obtain ⟨out, hentered, hout⟩ := h.held t hlock
  refine ⟨whole ++ [(t, out)], s.shared, h.run.snoc ⟨_, l, hentered, hrelease⟩, ?_, ?_, nofun⟩
  · rw [List.map_append, h.order, List.filterMap_append]
    rfl
  · intro _
    refine ⟨rfl, ?_⟩
    rw [flatMap_out_snoc, hout, List.flatMap_append, List.flatMap_singleton]
    exact List.append_nil _

/--
**Every interleaving does what its sections do one after another.**  And only the thread
that has the lock is ever inside.
-/
theorem serializable (hp : Disciplined p inside) (hfree : s.lock = none)
    (hout : ∀ t, ¬inside (s.locals t)) (hrun : Run (Step p) s es s') :
    Exclusive inside s' ∧ ∃ whole d, Serial p s.shared es s' whole d := by
  refine Run.invariant
    (P := fun es s' => Exclusive inside s' ∧ ∃ whole d, Serial p s.shared es s' whole d)
    ⟨fun t => iff_of_false (hout t) ?_, [], s.shared, .nil, rfl, fun _ => ⟨rfl, rfl⟩, ?_⟩ ?_ hrun
  · rw [hfree]
    exact nofun
  · intro t ht
    rw [hfree] at ht
    cases ht
  · intro es mid e s' ⟨hexclusive, whole, d, hserial⟩ hstep
    refine ⟨exclusive_step hp hexclusive hstep, ?_⟩
    cases hstep with
    | acquire hnone hacquire => exact ⟨whole, d, hserial.acquire hnone hacquire⟩
    | @access t _ _ _ haccess =>
        have hlock := (hexclusive t).mp (hp.access haccess).1
        exact ⟨whole, d, hserial.access hlock haccess⟩
    | @release t _ hrelease =>
        exact hserial.release ((hexclusive t).mp (hp.release hrelease).1) hrelease

end

end Sections
