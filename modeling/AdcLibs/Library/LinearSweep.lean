import Mathlib.Tactic.Common

/-!
# Linear sweeps

A sequence of variable-length records starts at some address, and each record
tells its own length.  The boundaries of a sweep are the addresses it passes
until it reaches or crosses a stop address.
-/

namespace LinearSweep

/-- The sweep from `start` passes `a`; it goes on while it is below `stop`. -/
inductive Boundary (size : Nat → Nat) (start stop : Nat) : Nat → Prop
  | start : Boundary size start stop start
  | next {a : Nat} : Boundary size start stop a → a < stop →
      Boundary size start stop (a + size a)

variable {size : Nat → Nat} {start stop a : Nat}

theorem Boundary.start_le (h : Boundary size start stop a) : start ≤ a := by
  induction h with
  | start => exact Nat.le_refl _
  | next _ _ ih => omega

/-- A boundary is the start or the end of a record that starts below the stop address. -/
theorem Boundary.eq_start_or_next (h : Boundary size start stop a) :
    a = start ∨ ∃ b, Boundary size start stop b ∧ b < stop ∧ b + size b = a := by
  cases h with
  | start => exact .inl rfl
  | next hb hlt => exact .inr ⟨_, hb, hlt, rfl⟩

/-- The sweep overshoots by less than a record. -/
theorem Boundary.lt_of_size_le {k : Nat} (hsize : ∀ a, size a ≤ k) (hstart : start ≤ stop)
    (hk : 0 < k) (h : Boundary size start stop a) : a < stop + k := by
  cases h with
  | start => omega
  | @next a h ha =>
      have := hsize a
      omega

end LinearSweep
