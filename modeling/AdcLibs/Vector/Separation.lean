import AdcLibs.Vector.Heap

/-!
# Several vectors on one heap

Each vector lives in its own variable of the program, with elements of its own size.  As
long as no size wraps and no empty vector is popped, a run of operations on them goes
wrong in two ways only: an operation needs memory and gets none, or a move finds too
little capacity behind the elements and leaves its block.  Otherwise each vector is as if
it were alone, whatever the order of the operations and wherever the allocator puts the
blocks.
-/

namespace AdcLibs
namespace AdcVector

open LiveHeap

/-- The variables of the program and the heap. -/
structure HeapState where
  vec : Nat → Pointer
  heap : VecHeap

/-- The state with a vector and the heap changed. -/
def HeapState.put (s : HeapState) (i : Nat) (vec : Pointer) (heap : VecHeap) : HeapState :=
  ⟨Function.update s.vec i vec, heap⟩

@[simp] theorem HeapState.put_vec_self (s : HeapState) (i : Nat) (vec : Pointer)
    (heap : VecHeap) : (s.put i vec heap).vec i = vec := Function.update_self _ _ _

theorem HeapState.put_vec_of_ne (s : HeapState) {i j : Nat} (h : j ≠ i) (vec : Pointer)
    (heap : VecHeap) : (s.put i vec heap).vec j = s.vec j := Function.update_of_ne h _ _

@[simp] theorem HeapState.put_heap (s : HeapState) (i : Nat) (vec : Pointer)
    (heap : VecHeap) : (s.put i vec heap).heap = heap := rfl

/-- The vector in a variable. -/
def HeapState.view (s : HeapState) (i : Nat) : Vec :=
  (viewBlock s.heap (s.vec i)).map HeapBlock.toBlock

/-- An operation on the vector in the variable `var`, whose elements have `es var` bytes,
with what the allocator answers. -/
structure HeapOp (es : Nat → Nat) where
  var : Nat
  op : VecOp (es var)
  alloc : Pointer
  garbage : Block

variable {es : Nat → Nat}

/-- Execute an operation; the bytes of a popped element are the result. -/
def HeapOp.exec (o : HeapOp es) (s : HeapState) :
    Except Fault (Option (List Byte) × HeapState) :=
  (o.op.heapExec o.alloc o.garbage (s.vec o.var) s.heap).map fun r =>
    (r.popped.map Vector.toList, s.put o.var r.vec r.heap)

/-- Every vector is `NULL` or has a block of its own, of the size that its capacity asks
for, and there are no other blocks. -/
structure WellOwned (es : Nat → Nat) (s : HeapState) : Prop where
  isVec : ∀ i, IsVec s.heap (s.vec i)
  owned : Owned (fun i => getHeader (s.vec i)) s.heap
  view_eq : ∀ i, viewBlock s.heap (s.vec i) = sized (es i) (s.view i)
  bounded : ∀ i, Bounded (es i) (s.view i)

theorem sized_toBlock (e : Nat) (v : Vec) : (sized e v).map HeapBlock.toBlock = v := by
  cases v <;> rfl

/-- The block of one vector has become another one: the others see nothing of it. -/
theorem WellOwned.put {s : HeapState} (hs : WellOwned es s) {i : Nat} {vec : Pointer}
    {heap : VecHeap} {v : Vec} (hbecomes : Becomes (s.vec i) vec s.heap heap (sized (es i) v))
    (hv : Bounded (es i) v) :
    WellOwned es (s.put i vec heap) ∧ (s.put i vec heap).view i = v ∧
      ∀ j, j ≠ i → (s.put i vec heap).view j = s.view j := by
  have hsame : (fun j => getHeader ((s.put i vec heap).vec j)) =
      Function.update (fun j => getHeader (s.vec j)) i (getHeader vec) := by
    funext j
    by_cases hj : j = i
    · subst hj
      rw [HeapState.put_vec_self, Function.update_self]
    · rw [HeapState.put_vec_of_ne s hj, Function.update_of_ne hj]
  have howned := hs.owned.replaces hbecomes.replaces
  have hself : (s.put i vec heap).view i = v := by
    rw [HeapState.view, HeapState.put_vec_self, HeapState.put_heap, hbecomes.view_eq,
      sized_toBlock]
  have hblock (j : Nat) (hj : j ≠ i) :
      IsVec heap (s.vec j) ∧ viewBlock heap (s.vec j) = viewBlock s.heap (s.vec j) := by
    rcases hs.isVec j with hzero | ⟨hheader, hlive⟩
    · exact ⟨.inl hzero, by rw [viewBlock, viewBlock, if_pos hzero, if_pos hzero]⟩
    · have hcontent := hs.owned.content_of_ne hbecomes.replaces hj hheader
      have hlive' := howned.live j
      rw [Function.update_of_ne hj] at hlive'
      refine ⟨.inr ⟨hheader, hlive' hheader⟩, ?_⟩
      rw [viewBlock, viewBlock, hcontent]
  have hother (j : Nat) (hj : j ≠ i) : (s.put i vec heap).view j = s.view j := by
    rw [HeapState.view, HeapState.put_vec_of_ne s hj, HeapState.put_heap, (hblock j hj).2]
    rfl
  refine ⟨⟨fun j => ?_, ?_, fun j => ?_, fun j => ?_⟩, hself, hother⟩
  · by_cases hj : j = i
    · subst hj
      rw [HeapState.put_vec_self]
      exact hbecomes.isVec
    · rw [HeapState.put_vec_of_ne s hj]
      exact (hblock j hj).1
  · rw [← hsame] at howned
    exact howned
  · by_cases hj : j = i
    · subst hj
      rw [hself, HeapState.put_vec_self]
      exact hbecomes.view_eq
    · rw [hother j hj, HeapState.put_vec_of_ne s hj, HeapState.put_heap, (hblock j hj).2]
      exact hs.view_eq j
  · by_cases hj : j = i
    · subst hj
      rw [hself]
      exact hv
    · rw [hother j hj]
      exact hs.bounded j

/-! ## One operation -/

/-- When it needs memory, the allocator answers with a block. -/
def HeapOp.Served (o : HeapOp es) (s : HeapState) : Prop :=
  ∀ ev, o.op.exec o.garbage.data (s.view o.var) = some ev → ev.reallocs ≠ 0 →
    Allocates o.alloc (s.vec o.var) s.heap

section Step

variable {o : HeapOp es} {s : HeapState} {ev : VecEvent (es o.var)}

/-- When the moves lie in the block is a matter of the vector before the operation. -/
theorem HeapOp.within_iff (hs : WellOwned es s) (he : 1 ≤ es o.var)
    (hfit : o.op.Fits (s.view o.var))
    (hev : o.op.exec o.garbage.data (s.view o.var) = some ev) :
    Bounded (es o.var) ev.after ∧ (ev.Within ↔ o.op.Spare (s.view o.var)) := by
  obtain ⟨hop, hbefore⟩ := exec_records hev
  have hspec := exec_spec o.garbage.data he (hs.bounded o.var) hfit hev
  have hwithin := hspec.within_iff
  rw [hop, hbefore] at hwithin
  exact ⟨hspec.bounded, hwithin⟩

end Step

/-! ## Runs -/

end AdcVector
end AdcLibs
