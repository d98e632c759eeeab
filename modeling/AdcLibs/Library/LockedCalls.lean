import AdcLibs.Library.Runs
import Mathlib.Algebra.BigOperators.Group.Finset.Basic
import Mathlib.Data.Fintype.Basic
import Mathlib.Data.List.Basic
import Mathlib.Logic.Function.Basic
import Mathlib.Logic.Relation
import Mathlib.Order.RelClasses

/-!
# Calls under a lock

Threads make calls that work step by step on a state they share.  Where a call takes a
lock when it is entered and gives it back when it is left, every interleaving of the
threads is a sequence of whole calls in the order of their entries, but for the end of
the last call.
-/

namespace LockedCalls

open Runs

universe u v w x y

/-- The code of a call.  It waits where `enter` is `none`, and is at its end where
`advance` is `none`. -/
structure Code (κ : Type u) (π : Type v) (σ : Type w) where
  enter : κ → σ → Option (π × σ)
  advance : π → σ → Option (π × σ)
  leave : π → σ → σ

/-- Where a thread is inside of a call, and the calls it has not entered yet. -/
structure Thread (κ : Type u) (π : Type v) where
  inside : Option π
  calls : List κ

structure System (ι : Type x) (κ : Type u) (π : Type v) (σ : Type w) where
  threads : ι → Thread κ π
  shared : σ

inductive Event (κ : Type u)
  | enter (call : κ)
  | advance
  | leave

variable {ι : Type x} {κ : Type u} {π : Type v} {σ : Type w}

/-- Threads that have calls to make, and have not begun. -/
def start (programs : ι → List κ) (shared : σ) : System ι κ π σ :=
  ⟨fun i => ⟨none, programs i⟩, shared⟩

/-- The calls that were entered, with their threads. -/
def entered (es : List (ι × Event κ)) : List (ι × κ) :=
  es.filterMap fun e =>
    match e.2 with
    | .enter call => some (e.1, call)
    | _ => none

/-! ## Serial runs -/

variable (code : Code κ π σ)

/-- A call goes on alone. -/
def Code.Goes (x y : π × σ) : Prop :=
  Relation.ReflTransGen (fun x y : π × σ => code.advance x.1 x.2 = some y) x y

/-- A call that runs alone, from its entry to its end. -/
def Code.Completes (call : κ) (s s' : σ) : Prop :=
  ∃ x y, code.enter call s = some x ∧ code.Goes x y ∧ code.advance y.1 y.2 = none ∧
    s' = code.leave y.1 y.2

/-- Whole calls, one after another. -/
def Code.Serial (s : σ) (order : List (ι × κ)) (s' : σ) : Prop :=
  Run (fun s (e : ι × κ) s' => code.Completes e.2 s s') s order s'

/-- Between two calls `I` holds of the shared state, and inside of a call `J`, which keeps
the other calls waiting; the steps of a call decrease a rank. -/
structure Code.Locks {ρ : Type y} [LT ρ] (I : σ → Prop) (J : π → σ → Prop) (rank : π → σ → ρ) :
    Prop where
  ready : ∀ {s}, I s → ∀ call, ∃ x, code.enter call s = some x
  enter : ∀ {call s x}, I s → code.enter call s = some x → J x.1 x.2
  waits : ∀ {p s}, J p s → ∀ call, code.enter call s = none
  advance : ∀ {p s x}, J p s → code.advance p s = some x → J x.1 x.2 ∧ rank x.1 x.2 < rank p s
  leave : ∀ {p s}, J p s → code.advance p s = none → I (code.leave p s)

/-- What a run has done so far: whole calls, and the beginning of another one where a
thread is inside. -/
inductive Serialized (I : σ → Prop) (J : π → σ → Prop) (s₀ : σ) :
    List (ι × κ) → System ι κ π σ → Prop
  | between {order : List (ι × κ)} {s : System ι κ π σ} :
      (∀ i, (s.threads i).inside = none) → I s.shared → code.Serial s₀ order s.shared →
      Serialized I J s₀ order s
  | inside {order : List (ι × κ)} {s : System ι κ π σ} {i : ι} {call : κ} {p : π} {s₁ : σ}
      {x : π × σ} :
      (s.threads i).inside = some p → (∀ j, j ≠ i → (s.threads j).inside = none) →
      J p s.shared → code.Serial s₀ order s₁ → code.enter call s₁ = some x →
      code.Goes x (p, s.shared) → Serialized I J s₀ (order ++ [(i, call)]) s

variable {code} {I : σ → Prop} {J : π → σ → Prop} {ρ : Type y} [LT ρ] {rank : π → σ → ρ} {s₀ : σ}
  {order : List (ι × κ)}

theorem Code.Serial.snoc {s s' : σ} {i : ι} {call : κ} (h : code.Serial s₀ order s)
    (hcall : code.Completes call s s') : code.Serial s₀ (order ++ [(i, call)]) s' :=
  run_append_iff.mpr ⟨s, h, .cons hcall (.nil s')⟩

/-- A thread that is inside is alone there. -/
theorem Serialized.inside_eq {s : System ι κ π σ} {i : ι} {p : π}
    (h : Serialized code I J s₀ order s) (hi : (s.threads i).inside = some p) :
    J p s.shared ∧ (∀ j, j ≠ i → (s.threads j).inside = none) ∧
      ∃ before call s₁ x, order = before ++ [(i, call)] ∧ code.Serial s₀ before s₁ ∧
        code.enter call s₁ = some x ∧ code.Goes x (p, s.shared) := by
  cases h with
  | between hnone => exact absurd ((hnone i).symm.trans hi) (Option.some_ne_none p).symm
  | @inside before s j call q s₁ x hj hothers hinv hserial henter hgoes =>
      by_cases heq : i = j
      · subst heq
        obtain rfl : q = p := Option.some.inj (hj.symm.trans hi)
        exact ⟨hinv, hothers, before, call, s₁, x, rfl, hserial, henter, hgoes⟩
      · exact absurd ((hothers i heq).symm.trans hi) (Option.some_ne_none p).symm

/-- A call can be entered only where no thread is inside. -/
theorem Serialized.free (hlocks : code.Locks I J rank) {s : System ι κ π σ} {call : κ}
    {x : π × σ} (h : Serialized code I J s₀ order s)
    (henter : code.enter call s.shared = some x) :
    (∀ i, (s.threads i).inside = none) ∧ I s.shared ∧ code.Serial s₀ order s.shared := by
  cases h with
  | between hnone hinv hserial => exact ⟨hnone, hinv, hserial⟩
  | inside _ _ hinv =>
      rw [hlocks.waits hinv] at henter
      cases henter

theorem entered_cons (e : ι × Event κ) (es : List (ι × Event κ)) :
    entered (e :: es) = entered [e] ++ entered es := by
  rw [entered, entered, entered, ← List.filterMap_append, List.singleton_append]

theorem serialized_start (programs : ι → List κ) (hinv : I s₀) :
    Serialized code I J s₀ [] (start programs s₀) :=
  .between (fun _ => rfl) hinv (.nil s₀)

/-- From inside of a call its end can be reached. -/
theorem Code.Locks.ends [WellFoundedLT ρ] (hlocks : code.Locks I J rank) {p : π} {s : σ}
    (hinv : J p s) : ∃ y, code.Goes (p, s) y ∧ code.advance y.1 y.2 = none := by
  induction hrank : rank p s using WellFoundedLT.induction generalizing p s with
  | _ r ih =>
      cases hadvance : code.advance p s with
      | none => exact ⟨(p, s), .refl, hadvance⟩
      | some x =>
          obtain ⟨hinv', hlt⟩ := hlocks.advance hinv hadvance
          obtain ⟨y, hgoes, hend⟩ := ih _ (hrank ▸ hlt) hinv' rfl
          exact ⟨y, .head hadvance hgoes, hend⟩

/-- What the whole calls lead to lies ahead of the shared state. -/
theorem Serialized.completed [WellFoundedLT ρ] (hlocks : code.Locks I J rank)
    {s : System ι κ π σ} (h : Serialized code I J s₀ order s) :
    ∃ t, code.Serial s₀ order t ∧
      ((∀ i, (s.threads i).inside = none) → s.shared = t) ∧
      (s.shared = t ∨
        ∃ p y, code.Goes (p, s.shared) y ∧ t = code.leave y.1 y.2) := by
  cases h with
  | between _ _ hserial => exact ⟨_, hserial, fun _ => rfl, .inl rfl⟩
  | @inside before s i call p s₁ x hi _ hinv hserial henter hgoes =>
      obtain ⟨y, hrest, hend⟩ := hlocks.ends hinv
      refine ⟨_, hserial.snoc ⟨x, y, henter, hgoes.trans hrest, hend, rfl⟩, fun hnone => ?_,
        .inr ⟨p, y, hrest, rfl⟩⟩
      exact absurd ((hnone i).symm.trans hi) (Option.some_ne_none p).symm

section Interleaving

variable [DecidableEq ι]

/-- The system when a thread has taken a step. -/
def System.set (s : System ι κ π σ) (i : ι) (thread : Thread κ π) (shared : σ) :
    System ι κ π σ :=
  ⟨Function.update s.threads i thread, shared⟩

/-- One of the threads takes a step. -/
inductive Step (code : Code κ π σ) : System ι κ π σ → ι × Event κ → System ι κ π σ → Prop
  | enter {s : System ι κ π σ} {i : ι} {call : κ} {calls : List κ} {x : π × σ} :
      s.threads i = ⟨none, call :: calls⟩ → code.enter call s.shared = some x →
      Step code s (i, .enter call) (s.set i ⟨some x.1, calls⟩ x.2)
  | advance {s : System ι κ π σ} {i : ι} {p : π} {calls : List κ} {x : π × σ} :
      s.threads i = ⟨some p, calls⟩ → code.advance p s.shared = some x →
      Step code s (i, .advance) (s.set i ⟨some x.1, calls⟩ x.2)
  | leave {s : System ι κ π σ} {i : ι} {p : π} {calls : List κ} :
      s.threads i = ⟨some p, calls⟩ → code.advance p s.shared = none →
      Step code s (i, .leave) (s.set i ⟨none, calls⟩ (code.leave p s.shared))

@[simp] theorem set_threads_self (s : System ι κ π σ) (i : ι) (thread : Thread κ π)
    (shared : σ) : (s.set i thread shared).threads i = thread :=
  Function.update_self ..

theorem set_threads_of_ne (s : System ι κ π σ) {i j : ι} (h : j ≠ i) (thread : Thread κ π)
    (shared : σ) : (s.set i thread shared).threads j = s.threads j :=
  Function.update_of_ne h ..

theorem set_others {s : System ι κ π σ} {i : ι} {thread : Thread κ π} {shared : σ}
    (h : ∀ j, j ≠ i → (s.threads j).inside = none) (j : ι) (hj : j ≠ i) :
    ((s.set i thread shared).threads j).inside = none := by
  rw [set_threads_of_ne s hj]
  exact h j hj

/-- A thread that leaves leaves nobody inside. -/
theorem set_all {s : System ι κ π σ} {i : ι} {calls : List κ} {shared : σ}
    (h : ∀ j, j ≠ i → (s.threads j).inside = none) (j : ι) :
    ((s.set i ⟨none, calls⟩ shared).threads j).inside = none := by
  by_cases hj : j = i
  · rw [hj, set_threads_self]
  · exact set_others h j hj

/-- A step of any thread goes on with the sequence of calls. -/
theorem Serialized.step (hlocks : code.Locks I J rank) {s s' : System ι κ π σ}
    {e : ι × Event κ} (h : Serialized code I J s₀ order s) (hstep : Step code s e s') :
    Serialized code I J s₀ (order ++ entered [e]) s' := by
  cases hstep with
  | @enter i call calls x hthread henter =>
      obtain ⟨hnone, hinv, hserial⟩ := h.free hlocks henter
      refine .inside ?_ (set_others fun j _ => hnone j) (hlocks.enter hinv henter) hserial
        henter .refl
      rw [set_threads_self]
  | @advance i p calls x hthread hadvance =>
      obtain ⟨hinv, hothers, before, call, s₁, x₁, rfl, hserial, henter, hgoes⟩ :=
        h.inside_eq (i := i) (p := p) (by rw [hthread])
      rw [show entered [(i, Event.advance)] = ([] : List (ι × κ)) from rfl, List.append_nil]
      refine .inside ?_ (set_others hothers) (hlocks.advance hinv hadvance).1 hserial henter
        (hgoes.tail hadvance)
      rw [set_threads_self]
  | @leave i p calls hthread hend =>
      obtain ⟨hinv, hothers, before, call, s₁, x₁, rfl, hserial, henter, hgoes⟩ :=
        h.inside_eq (i := i) (p := p) (by rw [hthread])
      rw [show entered [(i, Event.leave)] = ([] : List (ι × κ)) from rfl, List.append_nil]
      refine .between (set_all hothers) (hlocks.leave hinv hend)
        (hserial.snoc ⟨x₁, (p, s.shared), henter, hgoes, hend, rfl⟩)

/-- Every interleaving is a sequence of whole calls in the order of their entries, and the
beginning of the last one. -/
theorem Serialized.run (hlocks : code.Locks I J rank) {s t : System ι κ π σ}
    {es : List (ι × Event κ)} (hrun : Run (Step code) s es t)
    (h : Serialized code I J s₀ order s) : Serialized code I J s₀ (order ++ entered es) t := by
  induction hrun generalizing order with
  | nil s =>
      rw [show entered ([] : List (ι × Event κ)) = [] from rfl, List.append_nil]
      exact h
  | @cons s s' t e es hstep _ ih =>
      rw [entered_cons, ← List.append_assoc]
      exact ih (h.step hlocks hstep)

/-! ## The order of the calls -/

/-- The calls of one thread. -/
def callsOf (i : ι) (order : List (ι × κ)) : List κ :=
  (order.filter fun e => e.1 = i).map Prod.snd

theorem callsOf_step {s s' : System ι κ π σ} {e : ι × Event κ} (hstep : Step code s e s')
    (i : ι) : (s.threads i).calls = callsOf i (entered [e]) ++ (s'.threads i).calls := by
  have hsame (j : ι) (thread : Thread κ π) (shared : σ)
      (hj : thread.calls = (s.threads j).calls) :
      (s.threads i).calls = ((s.set j thread shared).threads i).calls := by
    by_cases hij : i = j
    · rw [hij, set_threads_self, hj]
    · rw [set_threads_of_ne s hij]
  cases hstep with
  | @enter j call calls x hthread _ =>
      by_cases hij : i = j
      · subst hij
        rw [set_threads_self, hthread]
        simp [entered, callsOf]
      · rw [set_threads_of_ne s hij]
        simp [entered, callsOf, Ne.symm hij]
  | @advance j p calls x hthread _ => exact hsame j _ _ (by rw [hthread])
  | @leave j p calls hthread _ => exact hsame j _ _ (by rw [hthread])

theorem callsOf_append (i : ι) (before after : List (ι × κ)) :
    callsOf i (before ++ after) = callsOf i before ++ callsOf i after := by
  rw [callsOf, callsOf, callsOf, List.filter_append, List.map_append]

/-- Each thread enters its calls in their order. -/
theorem callsOf_run {s t : System ι κ π σ} {es : List (ι × Event κ)}
    (hrun : Run (Step code) s es t) (i : ι) :
    (s.threads i).calls = callsOf i (entered es) ++ (t.threads i).calls := by
  induction hrun with
  | nil s => rfl
  | @cons s s' t e es hstep _ ih =>
      rw [entered_cons, callsOf_append, List.append_assoc, ← ih, callsOf_step hstep i]

/-! ## Progress -/

/-- A state from which there is no infinite run. -/
def Terminates (code : Code κ π σ) (s : System ι κ π σ) : Prop :=
  Acc (fun s' s => ∃ e, Step code s e s') s

end Interleaving

end LockedCalls
