import Mathlib.Algebra.Ring.Nat
import Mathlib.Tactic.Common

/-!
# Recovering carries from a sum

A ripple-carry adder leaves its carries visible: xoring the sum with the two
summands gives, at every position, the carry that entered it.  The lemmas
below read a single carry off that word and state it as a comparison of
natural numbers, for summands of any width.
-/

namespace CarryBits

variable {w : Nat}

/-- Masking with a single bit tests that bit. -/
theorem and_one_shiftLeft_ne_zero (x : BitVec w) {i : Nat} (hi : i < w) :
    (x &&& 1#w <<< i != 0#w) = x.getLsbD i := by
  rw [← BitVec.twoPow_eq, BitVec.and_twoPow]
  cases x.getLsbD i with
  | false => simp
  | true =>
      have hne : BitVec.twoPow w i ≠ 0#w := by
        intro h
        have hbit := congrArg (fun v => v.getLsbD i) h
        simp [hi] at hbit
      simpa using hne

/-- The sum xored with both summands is the word of carries. -/
theorem getLsbD_sum_xor (x y : BitVec w) (c : Bool) {i : Nat} (hi : i < w) :
    ((x + y + (BitVec.ofBool c).setWidth w) ^^^ x ^^^ y).getLsbD i =
      BitVec.carry i x y c := by
  rw [BitVec.getLsbD_xor, BitVec.getLsbD_xor, BitVec.getLsbD_add_add_bool hi]
  cases x.getLsbD i <;> cases y.getLsbD i <;> simp

/-- The carry into position `i` of a sum of widened words. -/
theorem carry_setWidth {v : Nat} (x y : BitVec w) (c : Bool) {i : Nat}
    (hwv : w ≤ v) :
    BitVec.carry i (x.setWidth v) (y.setWidth v) c =
      decide (2 ^ i ≤ x.toNat % 2 ^ i + y.toNat % 2 ^ i + c.toNat) := by
  have hwiden : ∀ z : BitVec w, (z.setWidth v).toNat = z.toNat := by
    intro z
    rw [BitVec.toNat_setWidth]
    exact Nat.mod_eq_of_lt
      (Nat.lt_of_lt_of_le z.isLt (Nat.pow_le_pow_right Nat.two_pos hwv))
  rw [BitVec.carry, hwiden, hwiden]

/-- A masked carry of a widened sum, as a comparison of natural numbers. -/
theorem masked_carry {v : Nat} (x y : BitVec w) (c : Bool) {i : Nat}
    (hwv : w ≤ v) (hi : i < v) :
    (((x.setWidth v + y.setWidth v + (BitVec.ofBool c).setWidth v) ^^^
        x.setWidth v ^^^ y.setWidth v) &&& 1#v <<< i != 0#v) =
      decide (2 ^ i ≤ x.toNat % 2 ^ i + y.toNat % 2 ^ i + c.toNat) := by
  rw [and_one_shiftLeft_ne_zero _ hi, getLsbD_sum_xor _ _ _ hi, carry_setWidth _ _ _ hwv]

/-- A difference is the sum with the complement and a carry in. -/
theorem sub_eq_add_not_add_one (x y : BitVec w) :
    x - y = x + ~~~y + (BitVec.ofBool true).setWidth w := by
  have hone : (BitVec.ofBool true).setWidth w = 1#w := by
    apply BitVec.eq_of_toNat_eq
    simp
  rw [hone, BitVec.sub_eq_add_neg, BitVec.neg_eq_not_add, BitVec.add_assoc]

/--
The complement of the difference xored with both operands is the word of
missing borrows: bit `i` is set when the low `i` bits of `y` fit into those of `x`.
-/
theorem getLsbD_not_xor_sub (x y : BitVec w) {i : Nat} (hi : i < w) :
    (~~~(x ^^^ (x - y) ^^^ y)).getLsbD i =
      decide (y.toNat % 2 ^ i ≤ x.toNat % 2 ^ i) := by
  have hcarry : (~~~(x ^^^ (x - y) ^^^ y)).getLsbD i = BitVec.carry i x (~~~y) true := by
    rw [sub_eq_add_not_add_one, BitVec.getLsbD_not, BitVec.getLsbD_xor, BitVec.getLsbD_xor,
      BitVec.getLsbD_add_add_bool hi, BitVec.getLsbD_not]
    cases x.getLsbD i <;> cases y.getLsbD i <;> simp [hi]
  have hnot : (~~~y).toNat % 2 ^ i = 2 ^ i - 1 - y.toNat % 2 ^ i := by
    have h := congrArg BitVec.toNat (BitVec.setWidth_not (x := y) (Nat.le_of_lt hi))
    simpa [BitVec.toNat_setWidth, BitVec.toNat_not] using h
  rw [hcarry, BitVec.carry, hnot]
  have hlt := Nat.mod_lt y.toNat (Nat.two_pow_pos i)
  apply decide_eq_decide.mpr
  simp
  omega

end CarryBits
