import AdcLibs.Library.LiveHeap
import Mathlib.Tactic.Common

/-!
# Variables that own blocks

Each variable of a family is null or the owner of one live block, no block has two
owners and every live block has one.  A step that works on the block of one variable,
moving, creating or releasing it, keeps this and leaves the other blocks alone.
-/

namespace LiveHeap

universe u v

variable {α : Type u}

@[simp] theorem error_bind {β γ : Type u} (fault : Fault) (f : β → Except Fault γ) :
    (Except.error fault >>= f) = .error fault := rfl

/-- The block at `p` has become the one at `q`; the others are as they were.  For
`p = 0` the block is new, and for `q = 0` it is released. -/
structure Heap.Replaces (p q : Nat) (h h' : Heap α) : Prop where
  fresh : q = 0 ∨ q = p ∨ q ∉ h.live
  live_iff : ∀ a, a ∈ h'.live ↔ a ≠ 0 ∧ (a = q ∨ a ∈ h.live ∧ a ≠ p)
  content_eq : ∀ a, a ≠ 0 → a ∈ h.live → a ≠ p → a ≠ q → h'.content a = h.content a

section Replaces

variable {p q r : Nat} {h h' h'' : Heap α}

theorem Heap.Replaces.refl (hnull : 0 ∉ h.live) (hp : p = 0 ∨ p ∈ h.live) :
    Heap.Replaces p p h h := by
  refine ⟨.inr (.inl rfl), fun a => ?_, fun _ _ _ _ _ => rfl⟩
  constructor
  · intro ha
    refine ⟨fun hzero => hnull (hzero ▸ ha), ?_⟩
    by_cases hap : a = p
    · exact .inl hap
    · exact .inr ⟨ha, hap⟩
  · rintro ⟨hne, rfl | ⟨ha, -⟩⟩
    · exact hp.resolve_left hne
    · exact ha

/-- One replacement after another. -/
theorem Heap.Replaces.trans (hpq : Heap.Replaces p q h h') (hqr : Heap.Replaces q r h' h'') :
    Heap.Replaces p r h h'' := by
  have hother (a : Nat) (ha : a ∈ h.live) (hap : a ≠ p) (hne : a ≠ 0) : a ≠ q := by
    rintro rfl
    rcases hpq.fresh with hq | hq | hq
    · exact hne hq
    · exact hap hq
    · exact hq ha
  refine ⟨?_, fun a => ?_, fun a hne ha hap har => ?_⟩
  · by_cases hr : r = 0
    · exact .inl hr
    · by_cases hrp : r = p
      · exact .inr (.inl hrp)
      · refine .inr (.inr fun hlive => ?_)
        have hrq := hother r hlive hrp hr
        rcases hqr.fresh with h0 | h0 | h0
        · exact hr h0
        · exact hrq h0
        · exact h0 ((hpq.live_iff r).mpr ⟨hr, .inr ⟨hlive, hrp⟩⟩)
  · rw [hqr.live_iff, hpq.live_iff]
    refine and_congr_right fun hne => or_congr_right ?_
    constructor
    · rintro ⟨⟨-, haq | ha⟩, hne'⟩
      · exact absurd haq hne'
      · exact ha
    · rintro ⟨ha, hap⟩
      exact ⟨⟨hne, .inr ⟨ha, hap⟩⟩, hother a ha hap hne⟩
  · have haq := hother a ha hap hne
    rw [hqr.content_eq a hne ((hpq.live_iff a).mpr ⟨hne, .inr ⟨ha, hap⟩⟩) haq har,
      hpq.content_eq a hne ha hap haq]

/-- Changing the contents of a block. -/
theorem Heap.replaces_update (hnull : 0 ∉ h.live) (hp : p ∈ h.live) (a : α) :
    Heap.Replaces p p h { h with content := Function.update h.content p a } := by
  have hsame := Heap.Replaces.refl hnull (.inr hp)
  exact ⟨hsame.fresh, hsame.live_iff, fun b _ _ hb _ => Function.update_of_ne hb _ _⟩

theorem Heap.Replaces.null_notMem (hpq : Heap.Replaces p q h h') : 0 ∉ h'.live :=
  fun hzero => ((hpq.live_iff 0).mp hzero).1 rfl

end Replaces

/-! ## Owners -/

variable {ι : Type v}

/-- Every variable is null or owns one live block, and every live block is owned. -/
structure Owned (ptr : ι → Nat) (h : Heap α) : Prop where
  null : 0 ∉ h.live
  live : ∀ i, ptr i ≠ 0 → ptr i ∈ h.live
  unshared : ∀ i j, ptr i ≠ 0 → ptr i = ptr j → i = j
  owned : ∀ a ∈ h.live, ∃ i, ptr i = a

variable {ptr : ι → Nat} {h h' : Heap α} {i : ι} {q : Nat}

/-- A step on the block of one variable keeps the ownership. -/
theorem Owned.replaces [DecidableEq ι] (howned : Owned ptr h)
    (hstep : Heap.Replaces (ptr i) q h h') :
    Owned (Function.update ptr i q) h' := by
  -- the other variables do not own the old block, nor can the new one be theirs
  have hold (j : ι) (hj : j ≠ i) (hne : ptr j ≠ 0) : ptr j ≠ ptr i := fun hsame =>
    hj (howned.unshared j i hne hsame)
  have hnew (j : ι) (hj : j ≠ i) (hne : ptr j ≠ 0) : ptr j ≠ q := by
    intro hsame
    rcases hstep.fresh with hq | hq | hq
    · exact hne (hsame.trans hq)
    · exact hold j hj hne (hsame.trans hq)
    · exact hq (hsame ▸ howned.live j hne)
  refine ⟨hstep.null_notMem, fun j hj => ?_, fun j k hj hjk => ?_, fun a ha => ?_⟩
  · by_cases hji : j = i
    · subst hji
      rw [Function.update_self] at hj ⊢
      exact (hstep.live_iff q).mpr ⟨hj, .inl rfl⟩
    · rw [Function.update_of_ne hji] at hj ⊢
      exact (hstep.live_iff _).mpr ⟨hj, .inr ⟨howned.live j hj, hold j hji hj⟩⟩
  · by_cases hji : j = i
    · subst hji
      by_cases hki : k = j
      · exact hki.symm
      · rw [Function.update_self] at hj hjk
        rw [Function.update_of_ne hki] at hjk
        exact absurd hjk.symm (hnew k hki (hjk ▸ hj))
    · rw [Function.update_of_ne hji] at hj hjk
      by_cases hki : k = i
      · subst hki
        rw [Function.update_self] at hjk
        exact absurd hjk (hnew j hji hj)
      · rw [Function.update_of_ne hki] at hjk
        exact howned.unshared j k hj hjk
  · obtain ⟨hne, rfl | ⟨ha, hai⟩⟩ := (hstep.live_iff a).mp ha
    · exact ⟨i, Function.update_self i a ptr⟩
    · obtain ⟨j, rfl⟩ := howned.owned a ha
      have hji : j ≠ i := fun hsame => hai (hsame ▸ rfl)
      exact ⟨j, Function.update_of_ne hji q ptr⟩

/-- A step on the block of one variable leaves those of the others alone. -/
theorem Owned.content_of_ne (howned : Owned ptr h) (hstep : Heap.Replaces (ptr i) q h h') {j : ι}
    (hj : j ≠ i) (hne : ptr j ≠ 0) : h'.content (ptr j) = h.content (ptr j) := by
  have hji : ptr j ≠ ptr i := fun hsame => hj (howned.unshared j i hne hsame)
  refine hstep.content_eq _ hne (howned.live j hne) hji fun hsame => ?_
  rcases hstep.fresh with hq | hq | hq
  · exact hne (hsame.trans hq)
  · exact hji (hsame.trans hq)
  · exact hq (hsame ▸ howned.live j hne)

end LiveHeap
