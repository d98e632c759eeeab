import Mathlib.Tactic.Common

/-!
# Finite runs of labelled transition systems

A run is a list of labelled steps from one state to another.  Besides the
invariant rule, the lemmas below locate events inside a run: a run can be cut
at any event, and every nonempty set of events has a last occurrence.
-/

namespace Runs

universe u v w

variable {σ : Type u} {ε : Type v}

/-- A finite run of `step` with its events in order. -/
inductive Run (step : σ → ε → σ → Prop) : σ → List ε → σ → Prop
  | nil (s : σ) : Run step s [] s
  | cons {s s' t : σ} {e : ε} {es : List ε} :
      step s e s' → Run step s' es t → Run step s (e :: es) t

variable {step : σ → ε → σ → Prop}

theorem run_nil_iff {s t : σ} : Run step s [] t ↔ s = t := by
  constructor
  · intro h
    cases h
    rfl
  · rintro rfl
    exact .nil s

theorem run_cons_iff {s t : σ} {e : ε} {es : List ε} :
    Run step s (e :: es) t ↔ ∃ s', step s e s' ∧ Run step s' es t := by
  constructor
  · intro h
    cases h with
    | cons hstep hrun => exact ⟨_, hstep, hrun⟩
  · rintro ⟨s', hstep, hrun⟩
    exact .cons hstep hrun

/-- A run can be cut between any two events. -/
theorem run_append_iff {s t : σ} {es fs : List ε} :
    Run step s (es ++ fs) t ↔ ∃ s', Run step s es s' ∧ Run step s' fs t := by
  induction es generalizing s with
  | nil => simp [run_nil_iff]
  | cons e es ih =>
      simp only [List.cons_append, run_cons_iff, ih]
      constructor
      · rintro ⟨s₁, hstep, s₂, hes, hfs⟩
        exact ⟨s₂, ⟨s₁, hstep, hes⟩, hfs⟩
      · rintro ⟨s₂, ⟨s₁, hstep, hes⟩, hfs⟩
        exact ⟨s₁, hstep, s₂, hes, hfs⟩

/-- What every step preserves, a run preserves. -/
theorem Run.invariant {I : σ → Prop}
    (hstep : ∀ s e s', I s → step s e s' → I s')
    {s t : σ} {es : List ε} (hrun : Run step s es t) (hs : I s) : I t := by
  induction hrun with
  | nil s => exact hs
  | cons h _ ih => exact ih (hstep _ _ _ hs h)

/-- A run over events of one kind preserves what steps of that kind preserve. -/
theorem Run.invariant_of_events {I : σ → Prop} {P : ε → Prop}
    (hstep : ∀ s e s', P e → I s → step s e s' → I s')
    {s t : σ} {es : List ε} (hrun : Run step s es t)
    (hes : ∀ e ∈ es, P e) (hs : I s) : I t := by
  induction hrun with
  | nil s => exact hs
  | cons h _ ih =>
      exact ih (fun e he => hes e (List.mem_cons_of_mem _ he))
        (hstep _ _ _ (hes _ List.mem_cons_self) hs h)

/-- What every step says of its event holds of all events of a run. -/
theorem Run.forall_events {P Q : ε → Prop} (hstep : ∀ s e s', P e → step s e s' → Q e)
    {s t : σ} {es : List ε} (hrun : Run step s es t) (hes : ∀ e ∈ es, P e) :
    ∀ e ∈ es, Q e := by
  induction hrun with
  | nil s => exact fun _ he => absurd he List.not_mem_nil
  | cons h _ ih =>
      rcases List.forall_mem_cons.mp hes with ⟨he, hes⟩
      exact List.forall_mem_cons.mpr ⟨hstep _ _ _ he h, ih hes⟩

/-- An invariant of the steps on events of one kind, and what it says of each event. -/
theorem Run.invariant_and_events {I : σ → Prop} {P Q : ε → Prop}
    (hstep : ∀ s e s', P e → I s → step s e s' → I s' ∧ Q e)
    {s t : σ} {es : List ε} (hrun : Run step s es t)
    (hes : ∀ e ∈ es, P e) (hs : I s) : I t ∧ ∀ e ∈ es, Q e := by
  induction hrun with
  | nil s => exact ⟨hs, fun _ he => absurd he List.not_mem_nil⟩
  | cons h _ ih =>
      rcases List.forall_mem_cons.mp hes with ⟨he, hes⟩
      obtain ⟨hs', hq⟩ := hstep _ _ _ he hs h
      obtain ⟨ht, hqs⟩ := ih hes hs'
      exact ⟨ht, List.forall_mem_cons.mpr ⟨hq, hqs⟩⟩

/-- What each step appends to an output, the run appends in order. -/
theorem Run.output {β : Type w} (out : σ → List β) {f : ε → List β}
    (hstep : ∀ s e s', step s e s' → out s' = out s ++ f e)
    {s t : σ} {es : List ε} (hrun : Run step s es t) : out t = out s ++ es.flatMap f := by
  induction hrun with
  | nil s => rw [List.flatMap_nil, List.append_nil]
  | cons h _ ih => rw [ih, hstep _ _ _ h, List.flatMap_cons, List.append_assoc]

/-- Runs of a system map to runs of a system that simulates it. -/
theorem Run.map {τ : Type w} {step' : τ → ε → τ → Prop} (f : σ → τ)
    (hsim : ∀ s e s', step s e s' → step' (f s) e (f s'))
    {s t : σ} {es : List ε} (hrun : Run step s es t) : Run step' (f s) es (f t) := by
  induction hrun with
  | nil s => exact .nil _
  | cons h _ ih => exact .cons (hsim _ _ _ h) ih

/-- Either no event of the list satisfies `P`, or there is a last one that does. -/
theorem last_or_none (P : ε → Prop) (es : List ε) :
    (∀ e ∈ es, ¬ P e) ∨
      ∃ a e b, es = a ++ e :: b ∧ P e ∧ ∀ x ∈ b, ¬ P x := by
  classical
  induction es with
  | nil => exact Or.inl (by simp)
  | cons e es ih =>
      rcases ih with hnone | ⟨a, x, b, rfl, hx, hb⟩
      · by_cases he : P e
        · exact Or.inr ⟨[], e, es, rfl, he, hnone⟩
        · left
          intro x hx
          rcases List.mem_cons.mp hx with rfl | hx
          · exact he
          · exact hnone x hx
      · exact Or.inr ⟨e :: a, x, b, rfl, hx, hb⟩

end Runs
