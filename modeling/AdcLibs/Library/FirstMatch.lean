import Mathlib.Tactic.Common

/-!
# The index of the first match

A loop that looks through a list returns the index of the first element with some
property, and -1 when there is none.
-/

namespace FirstMatch

universe u

variable {α : Type u}

/-- `r` is the index of the first element with the property `P`, or -1. -/
def IsFirst (P : α → Prop) (l : List α) (r : Int) : Prop :=
  (∃ (i : Nat) (x : α), r = i ∧ l[i]? = some x ∧ P x ∧
    ∀ (j : Nat) (y : α), j < i → l[j]? = some y → ¬ P y) ∨
  (r = -1 ∧ ∀ (j : Nat) (y : α), l[j]? = some y → ¬ P y)

variable {P Q : α → Prop} {l : List α} {r : Int}

theorem IsFirst.nil : IsFirst P [] (-1) := by
  refine .inr ⟨rfl, ?_⟩
  intro j y hy
  simp at hy

theorem IsFirst.head {x : α} (hx : P x) : IsFirst P (x :: l) 0 := by
  refine .inl ⟨0, x, rfl, rfl, hx, ?_⟩
  intro j y hj
  exact absurd hj (Nat.not_lt_zero j)

/-- Behind an element without the property the indices count on. -/
theorem IsFirst.tail {x : α} (hx : ¬ P x) (h : IsFirst P l r) :
    IsFirst P (x :: l) (if r = -1 then -1 else r + 1) := by
  rcases h with ⟨i, y, rfl, hy, hP, hbefore⟩ | ⟨rfl, hnone⟩
  · rw [if_neg (by omega)]
    refine .inl ⟨i + 1, y, rfl, hy, hP, ?_⟩
    intro j z hj hz
    cases j with
    | zero =>
        obtain rfl := Option.some.inj hz
        exact hx
    | succ j => exact hbefore j z (by omega) hz
  · rw [if_pos rfl]
    refine .inr ⟨rfl, ?_⟩
    intro j z hz
    cases j with
    | zero =>
        obtain rfl := Option.some.inj hz
        exact hx
    | succ j => exact hnone j z hz

/--
The first match of a property is that of a stronger one exactly when each of its
matches has a match of the stronger one at or before it.
-/
theorem IsFirst.stronger_iff (himp : ∀ x ∈ l, Q x → P x) (h : IsFirst P l r) :
    IsFirst Q l r ↔ ∀ (j : Nat) (y : α), l[j]? = some y → P y →
      ∃ (i : Nat) (x : α), i ≤ j ∧ l[i]? = some x ∧ Q x := by
  constructor
  · intro hQ j y hy hP
    rcases h with ⟨i, x, rfl, hx, -, hbefore⟩ | ⟨-, hnone⟩
    · rcases hQ with ⟨i', x', hi, hx', hQx, -⟩ | ⟨hi, -⟩
      · obtain rfl : i = i' := by omega
        refine ⟨i, x', ?_, hx', hQx⟩
        by_contra hlt
        exact hbefore j y (by omega) hy hP
      · exact absurd hi (by omega)
    · exact absurd hP (hnone j y hy)
  · intro hall
    rcases h with ⟨i, x, rfl, hx, hPx, hbefore⟩ | ⟨rfl, hnone⟩
    · have hnot (j : Nat) (y : α) (hj : j < i) (hy : l[j]? = some y) : ¬ Q y := fun hQ =>
        hbefore j y hj hy (himp y (List.mem_of_getElem? hy) hQ)
      obtain ⟨i', x', hle, hx', hQx⟩ := hall i x hx hPx
      obtain rfl : i' = i := by
        by_contra hne
        exact hnot i' x' (by omega) hx' hQx
      exact .inl ⟨i', x', rfl, hx', hQx, hnot⟩
    · refine .inr ⟨rfl, ?_⟩
      intro j y hy hQ
      exact hnone j y hy (himp y (List.mem_of_getElem? hy) hQ)

theorem IsFirst.congr (h : IsFirst P l r) (hiff : ∀ x ∈ l, Q x ↔ P x) : IsFirst Q l r := by
  refine (h.stronger_iff fun x hx => (hiff x hx).mp).mpr ?_
  intro j y hy hP
  exact ⟨j, y, Nat.le_refl j, hy, (hiff y (List.mem_of_getElem? hy)).mpr hP⟩

end FirstMatch
