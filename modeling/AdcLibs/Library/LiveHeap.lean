import Mathlib.Data.Finset.Insert
import Mathlib.Data.Finset.Erase
import Mathlib.Logic.Function.Basic

/-!
# Heaps with explicit live blocks

A heap is the set of its live blocks with their contents; a block is known by
its address, and no block has the address 0.  Accesses and releases fail
when they are given anything else than a live block, except that releasing
the null pointer does nothing.  Where a block has an extent, an access beyond it
fails too.
-/

namespace LiveHeap

universe u

/-- What can go wrong with a pointer. -/
inductive Fault
  | nullAccess
  | deadAccess
  | deadRelease
  | outOfBlock
deriving DecidableEq, Repr

/-- Blocks with contents in `α`. -/
structure Heap (α : Type u) where
  live : Finset Nat
  content : Nat → α

variable {α : Type u}

/-- The heap with a new block at `p`. -/
def Heap.alloc (p : Nat) (a : α) (h : Heap α) : Heap α where
  live := insert p h.live
  content := Function.update h.content p a

def Heap.access (p : Nat) (h : Heap α) : Except Fault α :=
  if p = 0 then .error .nullAccess
  else if p ∈ h.live then .ok (h.content p)
  else .error .deadAccess

def Heap.free (p : Nat) (h : Heap α) : Except Fault (Heap α) :=
  if p = 0 then .ok h
  else if p ∈ h.live then .ok { h with live := h.live.erase p }
  else .error .deadRelease

theorem Heap.access_of_live {p : Nat} {h : Heap α} (hp : p ≠ 0) (hlive : p ∈ h.live) :
    h.access p = .ok (h.content p) := by
  rw [Heap.access, if_neg hp, if_pos hlive]

/-- A new block holds what it was allocated with. -/
theorem Heap.access_alloc_self {p : Nat} (hp : p ≠ 0) (a : α) (h : Heap α) :
    (h.alloc p a).access p = .ok a := by
  rw [Heap.access_of_live hp (Finset.mem_insert_self p h.live)]
  simp only [Heap.alloc, Function.update_self]

/-- Allocation leaves the other blocks alone. -/
theorem Heap.access_alloc_of_ne {p q : Nat} (hne : p ≠ q) (a : α) (h : Heap α) :
    (h.alloc q a).access p = h.access p := by
  have hmem : p ∈ insert q h.live ↔ p ∈ h.live := by
    rw [Finset.mem_insert, or_iff_right hne]
  simp only [Heap.access, Heap.alloc, hmem, Function.update_of_ne hne]

theorem Heap.free_of_live {p : Nat} {h : Heap α} (hp : p ≠ 0) (hlive : p ∈ h.live) :
    h.free p = .ok { h with live := h.live.erase p } := by
  rw [Heap.free, if_neg hp, if_pos hlive]

/-! ## Extents -/

section Extent

variable (extent : α → Nat)

/-- An access to the bytes of a block before `stop`. -/
def Heap.accessTo (p stop : Nat) (h : Heap α) : Except Fault α :=
  (h.access p).bind fun a => if stop ≤ extent a then .ok a else .error .outOfBlock

/-- The heap with the contents of a live block changed, by writing to its bytes before
`stop`. -/
def Heap.modifyTo (p stop : Nat) (f : α → α) (h : Heap α) : Except Fault (Heap α) :=
  (h.accessTo extent p stop).map fun a =>
    { h with content := Function.update h.content p (f a) }

variable {extent} {p stop : Nat} {h : Heap α}

theorem Heap.accessTo_of_le (hp : p ≠ 0) (hlive : p ∈ h.live)
    (hle : stop ≤ extent (h.content p)) : h.accessTo extent p stop = .ok (h.content p) := by
  rw [Heap.accessTo, Heap.access_of_live hp hlive]
  exact if_pos hle

theorem Heap.accessTo_of_lt (hp : p ≠ 0) (hlive : p ∈ h.live)
    (hlt : ¬ stop ≤ extent (h.content p)) :
    h.accessTo extent p stop = .error .outOfBlock := by
  rw [Heap.accessTo, Heap.access_of_live hp hlive]
  exact if_neg hlt

theorem Heap.modifyTo_of_le (hp : p ≠ 0) (hlive : p ∈ h.live)
    (hle : stop ≤ extent (h.content p)) (f : α → α) :
    h.modifyTo extent p stop f =
      .ok { h with content := Function.update h.content p (f (h.content p)) } := by
  rw [Heap.modifyTo, Heap.accessTo_of_le hp hlive hle]
  rfl

theorem Heap.modifyTo_of_lt (hp : p ≠ 0) (hlive : p ∈ h.live)
    (hlt : ¬ stop ≤ extent (h.content p)) (f : α → α) :
    h.modifyTo extent p stop f = .error .outOfBlock := by
  rw [Heap.modifyTo, Heap.accessTo_of_lt hp hlive hlt]
  rfl

end Extent

end LiveHeap
