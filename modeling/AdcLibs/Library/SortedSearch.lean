import Mathlib.Order.Lattice
import Mathlib.Tactic.Common

/-!
# Searching a sorted array

A comparator tells on which side of the key an element lies: positive below the
key, zero at it, negative above it.  A search of an array that the comparator
orders gives an element at the key, and nothing only when there is none.
-/

namespace SortedSearch

universe u v

variable {α : Type u} {compar : α → Int} {base : List α}

/-- The elements below the key come first, then those at the key, then those above it. -/
def Ordered (compar : α → Int) (base : List α) : Prop :=
  base.Pairwise fun x y => (compar x ≤ 0 → compar y ≤ 0) ∧ (compar x < 0 → compar y < 0)

/-- What a search may give. -/
def Result (compar : α → Int) (base : List α) : Option α → Prop
  | some x => x ∈ base ∧ compar x = 0
  | none => ∀ x ∈ base, compar x ≠ 0

/-- The function searches every ordered array, given its length. -/
def Searches (search : (α → Int) → List α → Nat → Option α) : Prop :=
  ∀ compar base, Ordered compar base → Result compar base (search compar base base.length)

theorem Result.eq_none {r : Option α} (h : Result compar base r)
    (hnone : ∀ x ∈ base, compar x ≠ 0) : r = none := by
  cases r with
  | none => rfl
  | some x => exact absurd h.2 (hnone x h.1)

/-- The only element at the key is found. -/
theorem Result.eq_some {r : Option α} {x : α} (h : Result compar base r) (hx : x ∈ base)
    (hzero : compar x = 0) (hunique : ∀ y ∈ base, compar y = 0 → y = x) : r = some x := by
  cases r with
  | none => exact absurd hzero (h x hx)
  | some y => rw [hunique y h.1 h.2]

/-- An array that is sorted by a key of its elements. -/
theorem ordered_of_sorted {κ : Type v} [LinearOrder κ] (key : α → κ) {k : κ}
    (hle : ∀ x, compar x ≤ 0 ↔ k ≤ key x) (hlt : ∀ x, compar x < 0 ↔ k < key x)
    (hsorted : base.Pairwise fun x y => key x < key y) : Ordered compar base := by
  refine hsorted.imp ?_
  intro x y hxy
  constructor
  · intro hx
    rw [hle] at hx ⊢
    exact le_trans hx (le_of_lt hxy)
  · intro hx
    rw [hlt] at hx ⊢
    exact lt_trans hx hxy

/-! ## The two halves of an ordered array -/

/-- Before an element below the key, all are below it. -/
theorem Ordered.pos_of_le (h : Ordered compar base) {i j : Nat} {x y : α}
    (hi : base[i]? = some x) (hj : base[j]? = some y) (hij : i ≤ j) (hy : 0 < compar y) :
    0 < compar x := by
  rcases Nat.lt_or_eq_of_le hij with hlt | rfl
  · obtain ⟨hil, rfl⟩ := List.getElem?_eq_some_iff.mp hi
    obtain ⟨hjl, rfl⟩ := List.getElem?_eq_some_iff.mp hj
    have hpair := (List.pairwise_iff_getElem.mp h i j hil hjl hlt).1
    by_contra hnot
    have := hpair (by omega)
    omega
  · obtain rfl := Option.some.inj (hi.symm.trans hj)
    exact hy

/-- Behind an element above the key, all are above it. -/
theorem Ordered.neg_of_le (h : Ordered compar base) {i j : Nat} {x y : α}
    (hi : base[i]? = some x) (hj : base[j]? = some y) (hij : i ≤ j) (hx : compar x < 0) :
    compar y < 0 := by
  rcases Nat.lt_or_eq_of_le hij with hlt | rfl
  · obtain ⟨hil, rfl⟩ := List.getElem?_eq_some_iff.mp hi
    obtain ⟨hjl, rfl⟩ := List.getElem?_eq_some_iff.mp hj
    exact (List.pairwise_iff_getElem.mp h i j hil hjl hlt).2 hx
  · obtain rfl := Option.some.inj (hi.symm.trans hj)
    exact hx

end SortedSearch
