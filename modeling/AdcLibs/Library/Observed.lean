import AdcLibs.Library.Loops

/-!
# Runs that are observed in part

Pre- and postconditions for the iterations of a loop of which only a view is kept: from
every state with the view that satisfies the standing condition, the loop comes to one
with a view that satisfies the postcondition.  What the view leaves out may be anything.
-/

namespace Loops

universe u v

section Observed

variable {σ : Type u} {ν : Type v} (cond : σ → Bool) (body : σ → σ) (ok : σ → Prop)
  (view : σ → ν)

/-- From every state with the view `S` the loop comes to one with a view in `Q`. -/
def Comes (S : ν) (Q : ν → Prop) : Prop :=
  ∀ s, ok s → view s = S → ∃ t, Iterates cond body s t ∧ ok t ∧ Q (view t)

variable {cond body ok view} {S : ν} {P Q : ν → Prop}

theorem Comes.here (h : Q S) : Comes cond body ok view S Q :=
  fun s hok hview => ⟨s, .refl s, hok, hview ▸ h⟩

/-- One iteration. -/
theorem Comes.step (h : ∀ s, ok s → view s = S → cond s = true ∧ ok (body s) ∧
    Comes cond body ok view (view (body s)) Q) : Comes cond body ok view S Q := by
  intro s hok hview
  obtain ⟨hcond, hok', hnext⟩ := h s hok hview
  obtain ⟨t, hiter, hend⟩ := hnext (body s) hok' rfl
  exact ⟨t, .next hcond hiter, hend⟩

theorem Comes.bind (h : Comes cond body ok view S P)
    (h' : ∀ T, P T → Comes cond body ok view T Q) : Comes cond body ok view S Q := by
  intro s hok hview
  obtain ⟨t, hiter, hokt, hP⟩ := h s hok hview
  obtain ⟨u, hiter', hend⟩ := h' _ hP t hokt rfl
  exact ⟨u, hiter.trans hiter', hend⟩

theorem Comes.mono (h : Comes cond body ok view S P) (hPQ : ∀ T, P T → Q T) :
    Comes cond body ok view S Q :=
  h.bind fun T hT => .here (hPQ T hT)

/-- A run that comes to where the loop exits does exit. -/
theorem Comes.exits (h : Comes cond body ok view S P) {R : σ → Prop}
    (hexit : ∀ t, ok t → P (view t) → ∃ u, Exits cond body t u ∧ R u) {s : σ} (hok : ok s)
    (hview : view s = S) : ∃ u, Exits cond body s u ∧ R u := by
  obtain ⟨t, hiter, hokt, hP⟩ := h s hok hview
  obtain ⟨u, hu, hR⟩ := hexit t hokt hP
  exact ⟨u, hiter.exits hu, hR⟩

end Observed

end Loops
