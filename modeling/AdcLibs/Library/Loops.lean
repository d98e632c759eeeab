import Mathlib.Tactic.Common

/-!
# While loops

`while (cond s) s = body s;` over a state type, with fuel for evaluation and as
relations for proofs: the states a loop visits (where the condition holds and
the body runs), the state it exits in, and the rules for invariants, measures,
cycles and projections.
-/

namespace Loops

universe u v

variable {σ : Type u} (cond : σ → Bool) (body : σ → σ)

/-- The loop, with at most `fuel` tests of its condition. -/
def whileFuel : Nat → σ → Option σ
  | 0, _ => none
  | fuel + 1, s => if cond s then whileFuel fuel (body s) else some s

/-- From `s` the loop exits in `t`. -/
inductive Exits : σ → σ → Prop
  | done {s : σ} : cond s = false → Exits s s
  | next {s t : σ} : cond s = true → Exits (body s) t → Exits s t

/-- Iterations of the loop lead from `s` to `t`. -/
inductive Iterates : σ → σ → Prop
  | refl (s : σ) : Iterates s s
  | next {s t : σ} : cond s = true → Iterates (body s) t → Iterates s t

def Terminates (s : σ) : Prop := ∃ t, Exits cond body s t

/-- From `s` the loop runs its body on `t`. -/
def Visits (s t : σ) : Prop := Iterates cond body s t ∧ cond t = true

variable {cond body}

/-! ## Evaluation -/

theorem exits_of_whileFuel {fuel : Nat} {s t : σ}
    (h : whileFuel cond body fuel s = some t) : Exits cond body s t := by
  induction fuel generalizing s with
  | zero => simp [whileFuel] at h
  | succ fuel ih =>
      rw [whileFuel] at h
      split at h
      · next hcond => exact .next hcond (ih h)
      · next hcond =>
          obtain rfl := Option.some.inj h
          exact .done (by simpa using hcond)

/-- Enough fuel gives the exit state. -/
theorem Exits.whileFuel {s t : σ} (h : Exits cond body s t) :
    ∃ n, ∀ fuel, n ≤ fuel → whileFuel cond body fuel s = some t := by
  induction h with
  | done hcond =>
      refine ⟨1, fun fuel hfuel => ?_⟩
      obtain ⟨fuel, rfl⟩ := Nat.exists_eq_add_of_le' hfuel
      simp [Loops.whileFuel, hcond]
  | next hcond _ ih =>
      obtain ⟨n, hn⟩ := ih
      refine ⟨n + 1, fun fuel hfuel => ?_⟩
      obtain ⟨fuel, rfl⟩ := Nat.exists_eq_add_of_le' (Nat.le_of_add_left_le hfuel)
      rw [Loops.whileFuel, if_pos hcond]
      exact hn fuel (by omega)

/-- A loop exits in one state. -/
theorem Exits.unique {s t t' : σ} (h : Exits cond body s t) (h' : Exits cond body s t') :
    t = t' := by
  obtain ⟨n, hn⟩ := h.whileFuel
  obtain ⟨n', hn'⟩ := h'.whileFuel
  have hsame := (hn _ (Nat.le_max_left n n')).symm.trans (hn' _ (Nat.le_max_right n n'))
  exact Option.some.inj hsame

/-! ## Iterations -/

theorem Iterates.trans {s t u : σ} (h : Iterates cond body s t)
    (h' : Iterates cond body t u) : Iterates cond body s u := by
  induction h with
  | refl s => exact h'
  | next hcond _ ih => exact .next hcond (ih h')

theorem Iterates.tail {s t : σ} (h : Iterates cond body s t) (hcond : cond t = true) :
    Iterates cond body s (body t) :=
  h.trans (.next hcond (.refl _))

theorem Exits.iterates {s t : σ} (h : Exits cond body s t) : Iterates cond body s t := by
  induction h with
  | done _ => exact .refl _
  | next hcond _ ih => exact .next hcond ih

theorem Iterates.exits {s t u : σ} (h : Iterates cond body s t) (h' : Exits cond body t u) :
    Exits cond body s u := by
  induction h with
  | refl s => exact h'
  | next hcond _ ih => exact .next hcond (ih h')

/-- An invariant of the body holds after any number of iterations. -/
theorem Iterates.invariant {I : σ → Prop}
    (hbody : ∀ s, I s → cond s = true → I (body s)) {s t : σ}
    (h : Iterates cond body s t) (hs : I s) : I t := by
  induction h with
  | refl s => exact hs
  | next hcond _ ih => exact ih (hbody _ hs hcond)

/-- A loop terminates if it does so after some iterations. -/
theorem Iterates.terminates_iff {s t : σ} (h : Iterates cond body s t) :
    Terminates cond body s ↔ Terminates cond body t := by
  induction h with
  | refl s => exact Iff.rfl
  | next hcond _ ih =>
      rw [← ih]
      constructor
      · rintro ⟨t, ht⟩
        cases ht with
        | done hcond' => simp [hcond] at hcond'
        | next _ ht => exact ⟨t, ht⟩
      · rintro ⟨t, ht⟩
        exact ⟨t, .next hcond ht⟩

/-! ## Termination -/

/-- A measure that decreases under an invariant bounds the tests of the condition, and the
invariant holds at the end. -/
theorem whileFuel_of_measure {I : σ → Prop} (μ : σ → Nat)
    (hbody : ∀ s, I s → cond s = true → I (body s) ∧ μ (body s) < μ s) {fuel : Nat} {s : σ}
    (hs : I s) (hfuel : μ s < fuel) : ∃ t, whileFuel cond body fuel s = some t ∧ I t := by
  induction fuel generalizing s with
  | zero => exact absurd hfuel (Nat.not_lt_zero _)
  | succ fuel ih =>
      rw [whileFuel]
      split
      · next hcond =>
          obtain ⟨hnext, hlt⟩ := hbody s hs hcond
          exact ih hnext (by omega)
      · exact ⟨s, rfl, hs⟩

/-- A measure that decreases under an invariant. -/
theorem terminates_of_measure {I : σ → Prop} (μ : σ → Nat)
    (hbody : ∀ s, I s → cond s = true → I (body s) ∧ μ (body s) < μ s) {s : σ}
    (hs : I s) : Terminates cond body s := by
  obtain ⟨t, ht, -⟩ := whileFuel_of_measure μ hbody hs (Nat.lt_succ_self (μ s))
  exact ⟨t, exits_of_whileFuel ht⟩

/-- A loop that stays where its condition holds never ends. -/
theorem not_terminates_of_invariant {I : σ → Prop}
    (hbody : ∀ s, I s → cond s = true ∧ I (body s)) {s : σ} (hs : I s) :
    ¬ Terminates cond body s := by
  rintro ⟨t, ht⟩
  induction ht with
  | done hcond => simp [(hbody _ hs).1] at hcond
  | next _ _ ih => exact ih (hbody _ hs).2

/-- A loop that comes back to a state never ends. -/
theorem not_terminates_of_cycle {s t : σ} (h : Iterates cond body s t)
    (hcond : cond t = true) (hback : body t = s) : ¬ Terminates cond body s := by
  refine not_terminates_of_invariant
    (I := fun s => ∃ t, Iterates cond body s t ∧ cond t = true ∧ body t = s) ?_
    ⟨t, h, hcond, hback⟩
  rintro s ⟨t, h, hcond, hback⟩
  cases h with
  | refl => exact ⟨hcond, s, by rw [hback]; exact .refl _, hcond, rfl⟩
  | next hconds h => exact ⟨hconds, s, hback ▸ h.tail hcond, hconds, rfl⟩

/-! ## Projections -/

section Projection

variable {τ : Type v} {cond' : τ → Bool} {body' : τ → τ} (f : σ → τ)
  (hcond : ∀ s, cond' (f s) = cond s) (hbody : ∀ s, body' (f s) = f (body s))
include hcond hbody

theorem Iterates.map {s t : σ} (h : Iterates cond body s t) :
    Iterates cond' body' (f s) (f t) := by
  induction h with
  | refl s => exact .refl _
  | next h _ ih => exact .next ((hcond _).trans h) (hbody _ ▸ ih)

/-- Iterations of the projected loop come from iterations of the loop. -/
theorem Iterates.lift {s : σ} {t' : τ} (h : Iterates cond' body' (f s) t') :
    ∃ t, Iterates cond body s t ∧ f t = t' := by
  generalize hs : f s = s' at h
  induction h generalizing s with
  | refl s' => exact ⟨s, .refl s, hs⟩
  | next h _ ih =>
      subst hs
      obtain ⟨t, ht, rfl⟩ := ih (hbody s).symm
      exact ⟨t, .next ((hcond s).symm.trans h) ht, rfl⟩

theorem visits_projection {P : τ → Prop} {s : σ} :
    (∀ t, Visits cond body s t → P (f t)) ↔ ∀ t', Visits cond' body' (f s) t' → P t' := by
  constructor
  · rintro h t' ⟨ht', hc⟩
    obtain ⟨t, ht, rfl⟩ := ht'.lift f hcond hbody
    exact h t ⟨ht, (hcond t).symm.trans hc⟩
  · rintro h t ⟨ht, hc⟩
    exact h _ ⟨ht.map f hcond hbody, (hcond t).trans hc⟩

theorem terminates_projection {s : σ} :
    Terminates cond body s ↔ Terminates cond' body' (f s) := by
  constructor
  · rintro ⟨t, ht⟩
    refine ⟨f t, ?_⟩
    induction ht with
    | done h => exact .done ((hcond _).trans h)
    | next h _ ih => exact .next ((hcond _).trans h) (hbody _ ▸ ih)
  · rintro ⟨t', ht'⟩
    generalize hs : f s = s' at ht'
    induction ht' generalizing s with
    | done h => exact ⟨s, .done ((hcond s).symm.trans (hs ▸ h))⟩
    | next h _ ih =>
        subst hs
        obtain ⟨t, ht⟩ := ih (hbody s).symm
        exact ⟨t, .next ((hcond s).symm.trans h) ht⟩

end Projection

/-! ## Two runs -/

/-- Two runs of a loop that stay related come to the same result. -/
theorem whileFuel_related {α : Type v} {R : σ → σ → Prop} (f : σ → α)
    (hcond : ∀ s s', R s s' → cond s = cond s')
    (hbody : ∀ s s', R s s' → cond s = true → R (body s) (body s'))
    (hresult : ∀ s s', R s s' → f s = f s') (fuel : Nat) {s s' : σ} (h : R s s') :
    (whileFuel cond body fuel s).map f = (whileFuel cond body fuel s').map f := by
  induction fuel generalizing s s' with
  | zero => rfl
  | succ fuel ih =>
      rw [whileFuel, whileFuel, ← hcond s s' h]
      by_cases hgo : cond s = true
      · rw [if_pos hgo, if_pos hgo, ih (hbody s s' h hgo)]
      · rw [if_neg hgo, if_neg hgo, Option.map_some, Option.map_some, hresult s s' h]

/-! ## Bodies that can fail -/

/-- The loop with a body that can fail, and fails as a whole when the body does. -/
def whileChecked {τ : Type v} (cond : τ → Bool) (body : τ → Option τ) : Nat → τ → Option τ
  | 0, _ => none
  | fuel + 1, s => if cond s then (body s).bind (whileChecked cond body fuel) else some s

/-- Rounds that do not fail lead from `s` to `t`. -/
inductive Rounds {τ : Type v} (cond : τ → Bool) (body : τ → Option τ) : τ → τ → Prop
  | refl (s : τ) : Rounds cond body s s
  | next {s s' t : τ} :
      cond s = true → body s = some s' → Rounds cond body s' t → Rounds cond body s t

section Checked

variable {τ : Type v} {cond : τ → Bool} {body body' : τ → Option τ}

theorem rounds_of_whileChecked {fuel : Nat} {s t : τ}
    (h : whileChecked cond body fuel s = some t) : Rounds cond body s t ∧ cond t = false := by
  induction fuel generalizing s with
  | zero => cases h
  | succ fuel ih =>
      rw [whileChecked] at h
      split at h
      · next hcond =>
          obtain ⟨s', hbody, hrest⟩ := Option.bind_eq_some_iff.mp h
          obtain ⟨hrounds, hend⟩ := ih hrest
          exact ⟨.next hcond hbody hrounds, hend⟩
      · next hcond =>
          obtain rfl := Option.some.inj h
          exact ⟨.refl _, by simpa using hcond⟩

theorem Rounds.trans {s t u : τ} (h : Rounds cond body s t) (h' : Rounds cond body t u) :
    Rounds cond body s u := by
  induction h with
  | refl s => exact h'
  | next hcond hbody _ ih => exact .next hcond hbody (ih h')

theorem Rounds.tail {s t u : τ} (h : Rounds cond body s t) (hcond : cond t = true)
    (hbody : body t = some u) : Rounds cond body s u :=
  h.trans (.next hcond hbody (.refl u))

/-- An invariant of the rounds that do not fail. -/
theorem Rounds.invariant {I : τ → Prop}
    (hbody : ∀ s s', I s → cond s = true → body s = some s' → I s') {s t : τ}
    (h : Rounds cond body s t) (hs : I s) : I t := by
  induction h with
  | refl s => exact hs
  | next hcond hnext _ ih => exact ih (hbody _ _ hs hcond hnext)

/-- What holds here, and after the next round of all that follows. -/
theorem forall_rounds {P : τ → Prop} {s : τ} (hs : P s)
    (hnext : cond s = true → ∀ s', body s = some s' → ∀ u, Rounds cond body s' u → P u) :
    ∀ u, Rounds cond body s u → P u := by
  intro u h
  cases h with
  | refl => exact hs
  | next hcond hbody hrest => exact hnext hcond _ hbody u hrest

/-- The rounds end in one state. -/
theorem Rounds.unique {s t t' : τ} (h : Rounds cond body s t) (hend : cond t = false)
    (h' : Rounds cond body s t') (hend' : cond t' = false) : t = t' := by
  induction h with
  | refl s =>
      cases h' with
      | refl => rfl
      | next hcond => simp [hend] at hcond
  | next hcond hbody _ ih =>
      cases h' with
      | refl => simp [hend'] at hcond
      | next _ hbody' hrest =>
          obtain rfl := Option.some.inj (hbody.symm.trans hbody')
          exact ih hend hrest

/-- In a loop that ends, no round fails. -/
theorem Rounds.exists_next {fuel : Nat} {s t u : τ} (h : Rounds cond body s u)
    (hend : whileChecked cond body fuel s = some t) (hcond : cond u = true) :
    ∃ u', body u = some u' := by
  induction h generalizing fuel with
  | refl s =>
      cases fuel with
      | zero => cases hend
      | succ fuel =>
          rw [whileChecked, if_pos hcond] at hend
          obtain ⟨s', hbody, -⟩ := Option.bind_eq_some_iff.mp hend
          exact ⟨s', hbody⟩
  | next hconds hbody _ ih =>
      cases fuel with
      | zero => cases hend
      | succ fuel =>
          rw [whileChecked, if_pos hconds, hbody] at hend
          exact ih hend hcond

/-- A measure that decreases under an invariant under which no round fails. -/
theorem whileChecked_of_measure {I : τ → Prop} (μ : τ → Nat)
    (hbody : ∀ s, I s → cond s = true → ∃ s', body s = some s' ∧ I s' ∧ μ s' < μ s)
    {fuel : Nat} {s : τ} (hs : I s) (hfuel : μ s < fuel) :
    ∃ t, whileChecked cond body fuel s = some t ∧ I t := by
  induction fuel generalizing s with
  | zero => exact absurd hfuel (Nat.not_lt_zero _)
  | succ fuel ih =>
      rw [whileChecked]
      split
      · next hcond =>
          obtain ⟨s', hnext, hinv, hlt⟩ := hbody s hs hcond
          rw [hnext, Option.bind_some]
          exact ih hinv (by omega)
      · exact ⟨s, rfl, hs⟩

/-- A body that fails less often. -/
theorem whileChecked_mono (hbody : ∀ s s', body s = some s' → body' s = some s') {fuel : Nat}
    {s t : τ} (h : whileChecked cond body fuel s = some t) :
    whileChecked cond body' fuel s = some t := by
  induction fuel generalizing s with
  | zero => cases h
  | succ fuel ih =>
      rw [whileChecked] at h ⊢
      split at h
      · next hcond =>
          obtain ⟨s', hnext, hrest⟩ := Option.bind_eq_some_iff.mp h
          rw [if_pos hcond, hbody s s' hnext, Option.bind_some]
          exact ih hrest
      · next hcond =>
          rw [if_neg hcond]
          exact h

end Checked

/-- A body that does not fail where the condition holds is one that cannot fail. -/
theorem whileChecked_eq {τ : Type v} {cond' : τ → Bool} {body' : τ → Option τ} (f : σ → τ)
    (hcond : ∀ s, cond' (f s) = cond s)
    (hbody : ∀ s, cond s = true → body' (f s) = some (f (body s))) (fuel : Nat) (s : σ) :
    whileChecked cond' body' fuel (f s) = (whileFuel cond body fuel s).map f := by
  induction fuel generalizing s with
  | zero => rfl
  | succ fuel ih =>
      rw [whileChecked, whileFuel, hcond]
      by_cases h : cond s = true
      · rw [if_pos h, if_pos h, hbody s h, Option.bind_some, ih]
      · rw [if_neg h, if_neg h, Option.map_some]

end Loops
