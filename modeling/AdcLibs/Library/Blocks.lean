import Mathlib.Tactic.Common

/-!
# Blocks of a memory with wrapping addresses

A memory is a function from `w`-bit addresses, a block is a run of consecutive
addresses modulo `2^w`, and `Holds` says which values a block contains.  Blocks
may wrap around the top of the address space.
-/

namespace Blocks

universe u

variable {w : Nat} {β : Type u}

/-- The `n` addresses from `a` on. -/
def block (a : BitVec w) (n : Nat) : List (BitVec w) :=
  (List.range n).map fun i => a + BitVec.ofNat w i

theorem mem_block {a x : BitVec w} {n : Nat} :
    x ∈ block a n ↔ ∃ i < n, a + BitVec.ofNat w i = x := by
  simp [block]

theorem block_succ (a : BitVec w) (n : Nat) : block a (n + 1) = a :: block (a + 1) n := by
  have hshift : ∀ i, a + BitVec.ofNat w (i + 1) = a + 1 + BitVec.ofNat w i := by
    intro i
    rw [BitVec.add_assoc, Nat.add_comm i 1, BitVec.ofNat_add]
    rfl
  rw [block, List.range_succ_eq_map, List.map_cons, List.map_map]
  exact congrArg₂ List.cons (by simp) (List.map_congr_left fun i _ => hshift i)

/-- The offset of an address from the start of a block tells whether it is inside. -/
theorem mem_block_iff_toNat {a x : BitVec w} {n : Nat} :
    x ∈ block a n ↔ (x - a).toNat < n := by
  rw [mem_block]
  constructor
  · rintro ⟨i, hi, rfl⟩
    have hoff : a + BitVec.ofNat w i - a = BitVec.ofNat w i := by
      rw [BitVec.add_comm, BitVec.add_sub_cancel]
    rw [hoff, BitVec.toNat_ofNat]
    exact Nat.lt_of_le_of_lt (Nat.mod_le _ _) hi
  · intro h
    refine ⟨(x - a).toNat, h, ?_⟩
    rw [BitVec.ofNat_toNat, BitVec.setWidth_eq, BitVec.add_comm, BitVec.sub_add_cancel]

/-- The block at `a` contains the values `bs`. -/
def Holds (mem : BitVec w → β) : BitVec w → List β → Prop
  | _, [] => True
  | a, b :: bs => mem a = b ∧ Holds mem (a + 1) bs

instance Holds.decidable [DecidableEq β] (mem : BitVec w → β) :
    (a : BitVec w) → (bs : List β) → Decidable (Holds mem a bs)
  | _, [] => inferInstanceAs (Decidable True)
  | a, b :: bs =>
      have := Holds.decidable mem (a + 1) bs
      inferInstanceAs (Decidable (mem a = b ∧ Holds mem (a + 1) bs))

/-- What a block contains depends on its addresses only. -/
theorem Holds.congr {mem mem' : BitVec w → β} {a : BitVec w} {bs : List β}
    (h : Holds mem a bs) (heq : ∀ x ∈ block a bs.length, mem' x = mem x) :
    Holds mem' a bs := by
  induction bs generalizing a with
  | nil => trivial
  | cons b bs ih =>
      rw [List.length_cons, block_succ] at heq
      exact ⟨(heq a List.mem_cons_self).trans h.1,
        ih h.2 fun x hx => heq x (List.mem_cons_of_mem _ hx)⟩

/-- The value behind a prefix of the block. -/
theorem Holds.get {mem : BitVec w → β} {a : BitVec w} {xs ys : List β} {b : β}
    (h : Holds mem a (xs ++ b :: ys)) : mem (a + BitVec.ofNat w xs.length) = b := by
  induction xs generalizing a with
  | nil => simpa using h.1
  | cons x xs ih =>
      rw [List.length_cons, Nat.add_comm, BitVec.ofNat_add, ← BitVec.add_assoc]
      exact ih h.2

end Blocks
