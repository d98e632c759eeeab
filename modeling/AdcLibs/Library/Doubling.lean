import Mathlib.Order.Bounds.Defs
import Mathlib.Algebra.Ring.Nat
import Mathlib.Tactic.Common

/-!
# Doubling

A capacity that starts at `base` and doubles when it is exceeded: how often it has
doubled once it holds `k` elements, one element at a time, and what it is then.
-/

namespace Doubling

/-- `j` doublings of `base` are needed to hold `k` elements. -/
structure Doubled (base k j : Nat) : Prop where
  room : k ≤ base * 2 ^ j
  needed : j = 0 ∨ base * 2 ^ j < 2 * k

variable {base k j : Nat}

/-- One more element, where there is room for it. -/
theorem Doubled.stay (h : Doubled base k j) (hroom : k + 1 ≤ base * 2 ^ j) :
    Doubled base (k + 1) j := by
  refine ⟨hroom, h.needed.imp_right fun hlt => ?_⟩
  omega

/-- One more element in a full area. -/
theorem Doubled.double (h : Doubled base k j) (hk : 1 ≤ k) (hfull : base * 2 ^ j < k + 1) :
    Doubled base (k + 1) (j + 1) := by
  have hroom := h.room
  have hpow : base * 2 ^ (j + 1) = 2 * (base * 2 ^ j) := by
    rw [Nat.pow_succ, ← Nat.mul_assoc, Nat.mul_comm]
  refine ⟨?_, .inr ?_⟩
  · rw [hpow]
    omega
  · rw [hpow]
    omega

/-- Fewer doublings are not enough. -/
theorem Doubled.lt (h : Doubled base k j) {i : Nat} (hi : i < j) : base * 2 ^ i < k := by
  rcases h.needed with rfl | hlt
  · exact absurd hi (Nat.not_lt_zero i)
  · have hpow : base * 2 ^ (i + 1) = 2 * (base * 2 ^ i) := by
      rw [Nat.pow_succ, ← Nat.mul_assoc, Nat.mul_comm]
    have hle : base * 2 ^ (i + 1) ≤ base * 2 ^ j :=
      Nat.mul_le_mul_left base (Nat.pow_le_pow_right (by decide) hi)
    omega

/-- More elements need no fewer doublings. -/
theorem Doubled.mono {k' j' : Nat} (h : Doubled base k j) (h' : Doubled base k' j')
    (hk : k ≤ k') : j ≤ j' := by
  by_contra hlt
  have hfull := h.lt (Nat.lt_of_not_le hlt)
  have hroom := h'.room
  omega

theorem exists_doubled (hbase : 1 ≤ base) (k : Nat) : ∃ j, Doubled base k j := by
  induction k with
  | zero => exact ⟨0, Nat.zero_le _, .inl rfl⟩
  | succ k ih =>
      obtain ⟨j, h⟩ := ih
      by_cases hroom : k + 1 ≤ base * 2 ^ j
      · exact ⟨j, h.stay hroom⟩
      · refine ⟨j + 1, h.double ?_ (Nat.lt_of_not_le hroom)⟩
        have hpos : 1 ≤ base * 2 ^ j := Nat.mul_pos hbase (Nat.two_pow_pos j)
        omega

/-- From a power of two on, the capacity is the least power of two that has room. -/
theorem Doubled.eq_max {m p : Nat} (h : Doubled (2 ^ m) k j)
    (hp : IsLeast {q | k ≤ q ∧ ∃ i, q = 2 ^ i} p) : 2 ^ m * 2 ^ j = max (2 ^ m) p := by
  obtain ⟨⟨hkp, i, rfl⟩, hleast⟩ := hp
  have hle : 2 ^ i ≤ 2 ^ m * 2 ^ j := hleast ⟨h.room, m + j, (Nat.pow_add 2 m j).symm⟩
  rcases Nat.eq_zero_or_pos j with rfl | hj
  · rw [Nat.pow_zero, Nat.mul_one] at hle ⊢
    exact (Nat.max_eq_left hle).symm
  · -- less than `m + j` factors do not make room
    have hmj : m + j ≤ i := by
      by_contra hlt
      have hhalf := h.lt (Nat.sub_one_lt (Nat.ne_of_gt hj))
      have hmono : 2 ^ i ≤ 2 ^ (m + (j - 1)) := Nat.pow_le_pow_right (by decide) (by omega)
      rw [Nat.pow_add] at hmono
      omega
    have hge : 2 ^ m * 2 ^ j ≤ 2 ^ i := by
      rw [← Nat.pow_add]
      exact Nat.pow_le_pow_right (by decide) hmj
    have hbase : 2 ^ m ≤ 2 ^ i := Nat.pow_le_pow_right (by decide) (by omega)
    rw [Nat.max_eq_right hbase]
    exact Nat.le_antisymm hge hle

end Doubling
