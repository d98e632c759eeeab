import AdcLibs.Library.Owners
import AdcLibs.Vector.Capacity

/-!
# Vectors on a heap

The macros of `adc_vector.h` with pointers: a vector is `NULL` or points behind the
header of a block on the heap, and `realloc` moves the block to where the allocator says,
or fails.  A block has as many bytes as it was asked for; an access or a release of
anything but a live block is a fault, and so is an access behind its last byte.

As long as no size wraps, an operation with pointers does to the block of its vector what
the operation on the block alone does, and it faults in two cases: a move leaves the
block, or the memory that is needed is not there.
-/

namespace AdcLibs
namespace AdcVector

open LiveHeap

/-! ## The macros -/

abbrev Pointer := Nat

/-- A block with the number of its bytes, the header included. -/
structure HeapBlock extends Block where
  extent : Nat

/-- The blocks by the addresses of their headers. -/
abbrev VecHeap := Heap HeapBlock

/-- `adc_vector_get_header` -/
def getHeader (vec : Pointer) : Pointer := vec - sizeofHeader

/-- An access to the header of a vector and to the bytes of its data before `stop`. -/
def accessData (vec : Pointer) (stop : Nat) (h : VecHeap) : Except Fault HeapBlock :=
  h.accessTo HeapBlock.extent (getHeader vec) (sizeofHeader + stop)

/-- Writing to them. -/
def modifyData (vec : Pointer) (stop : Nat) (f : HeapBlock → HeapBlock) (h : VecHeap) :
    Except Fault VecHeap :=
  h.modifyTo HeapBlock.extent (getHeader vec) (sizeofHeader + stop) f

/-- `adc_vector_size` -/
def heapSize (vec : Pointer) (h : VecHeap) : Except Fault Nat :=
  if vec ≠ 0 then (accessData vec 0 h).map fun b => b.size else .ok 0

/-- `adc_vector_capacity` -/
def heapCapacity (vec : Pointer) (h : VecHeap) : Except Fault Nat :=
  if vec ≠ 0 then (accessData vec 0 h).map fun b => b.capacity else .ok 0

/-- `realloc` of the block at `p`, where the allocator answers with the block `q`; `NULL`
when it has none.  What a new block holds, and the bytes behind those that are kept, is
arbitrary. -/
def heapRealloc (garbage : Block) (newsize : Nat) (p q : Pointer) (h : VecHeap) :
    Except Fault VecHeap :=
  if q = 0 then .ok h
  else if p = 0 then .ok (h.alloc q ⟨garbage, newsize⟩)
  else do
    let b ← h.access p
    let h ← h.free p
    let data := fun a =>
      if sizeofHeader + a < min b.extent newsize then b.data a else garbage.data a
    return h.alloc q ⟨⟨b.size, b.capacity, data⟩, newsize⟩

/-- The header of a new block gets the size 0. -/
def heapInitSize (vec newvec : Pointer) (h : VecHeap) : Except Fault VecHeap :=
  if vec = 0 then modifyData newvec 0 (fun b => { b with size := 0 }) h else .ok h

section Macros

variable (alloc : Pointer) (garbage : Block)

/-- `adc__vector_grow` -/
def heapGrow (vec : Pointer) (elemsize addsize minCap : Nat) (h : VecHeap) :
    Except Fault (Pointer × VecHeap) := do
  let size ← heapSize vec h
  let minSize := sizeT (size + addsize)
  let minCap := if minSize > minCap then minSize else minCap
  let capacity ← heapCapacity vec h
  if minCap ≤ capacity then return (vec, h)
  let minCap :=
    if minCap < sizeT (2 * capacity) then sizeT (2 * capacity)
    else if minCap < 4 then 4
    else minCap
  let newsize := sizeT (elemsize * minCap + sizeofHeader)
  let h ← heapRealloc garbage newsize (if vec ≠ 0 then getHeader vec else 0) alloc h
  let newvec := alloc + sizeofHeader
  let h ← heapInitSize vec newvec h
  let h ← modifyData newvec 0 (fun b => { b with capacity := minCap }) h
  return (newvec, h)

/-- `adc__vector_addgrow` -/
def heapAddgrow (e : Nat) (n : Nat) (vec : Pointer) (h : VecHeap) :
    Except Fault (Pointer × VecHeap) := do
  if vec = 0 then heapGrow alloc garbage vec e n 0 h
  else
    let header ← accessData vec 0 h
    if sizeT (header.size + n) > header.capacity then heapGrow alloc garbage vec e n 0 h
    else return (vec, h)

/-- What an operation leaves in the variable of the vector and on the heap. -/
structure HeapResult (e : Nat) where
  vec : Pointer
  heap : VecHeap
  popped : Option (Elem e)

variable {e : Nat}

/-- `adc_vector_push` -/
def heapPush (item : Elem e) (vec : Pointer) (h : VecHeap) : Except Fault (HeapResult e) := do
  let (vec, h) ← heapAddgrow alloc garbage e 1 vec h
  let header ← accessData vec 0 h
  let h ← modifyData vec (e * (header.size + 1))
    (fun b =>
      { b with size := sizeT (b.size + 1), data := ElementArea.writeElem b.data b.size item }) h
  return ⟨vec, h, none⟩

/-- `adc_vector_pop` -/
def heapPop (vec : Pointer) (h : VecHeap) : Except Fault (HeapResult e) := do
  let header ← accessData vec 0 h
  let size := sizeT (header.size - 1)
  let h ← modifyData vec 0 (fun b => { b with size := size }) h
  let b ← accessData vec (e * (size + 1)) h
  return ⟨vec, h, some (ElementArea.readElem b.data size)⟩

/-- `adc_vector_reserve` -/
def heapReserve (n : Nat) (vec : Pointer) (h : VecHeap) : Except Fault (HeapResult e) := do
  let (vec, h) ← heapGrow alloc garbage vec e 0 n h
  return ⟨vec, h, none⟩

/-- `adc_vector_free` -/
def heapFree (vec : Pointer) (h : VecHeap) : Except Fault (HeapResult e) :=
  if vec ≠ 0 then do
    let h ← h.free (getHeader vec)
    return ⟨0, h, none⟩
  else return ⟨vec, h, none⟩

/-- `memmove` in the data of a vector -/
def heapMove (vec : Pointer) (dst src num : Nat) (h : VecHeap) : Except Fault VecHeap :=
  modifyData vec (max (dst + num) (src + num))
    (fun b => { b with data := ElementArea.move dst src num b.data }) h

/-- `adc_vector_insert` -/
def heapInsert (i : Int) (item : Elem e) (vec : Pointer) (h : VecHeap) :
    Except Fault (HeapResult e) :=
  if vec = 0 then return ⟨vec, h, none⟩
  else do
    let header ← accessData vec 0 h
    if 0 ≤ i ∧ sizeT i < header.size then
      let (vec, h) ← heapAddgrow alloc garbage e 1 vec h
      let h ← modifyData vec 0 (fun b => { b with size := sizeT (b.size + 1) }) h
      let header ← accessData vec 0 h
      let num := sizeT (sizeT (e * header.size) - 1 - i)
      let h ← heapMove vec (e * (i + 1).toNat) (e * i.toNat) num h
      let h ← modifyData vec (e * (i.toNat + 1))
        (fun b => { b with data := ElementArea.writeElem b.data i.toNat item }) h
      return ⟨vec, h, none⟩
    else return ⟨vec, h, none⟩

/-- `adc_vector_erasen` -/
def heapErasen (i n : Int) (vec : Pointer) (h : VecHeap) : Except Fault (HeapResult e) :=
  if vec = 0 then return ⟨vec, h, none⟩
  else do
    let header ← accessData vec 0 h
    if 0 ≤ i ∧ sizeT i < header.size ∧ 0 ≤ n then
      let maxn := n
      let maxn :=
        if sizeT (i + maxn) ≥ header.size then intOfSize (sizeT (header.size - i)) else maxn
      let num := sizeT (sizeT (e * header.size) - maxn - i)
      let h ← heapMove vec (e * i.toNat) (e * (i + maxn).toNat) num h
      let h ← modifyData vec 0 (fun b => { b with size := sizeT (b.size - maxn) }) h
      return ⟨vec, h, none⟩
    else return ⟨vec, h, none⟩

/-- Execute an operation on a vector. -/
def VecOp.heapExec (op : VecOp e) (vec : Pointer) (h : VecHeap) : Except Fault (HeapResult e) :=
  match op with
  | .push item => heapPush alloc garbage item vec h
  | .pop => heapPop vec h
  | .reserve n => heapReserve alloc garbage n vec h
  | .insert i item => heapInsert alloc garbage i item vec h
  | .erasen i n => heapErasen i n vec h
  | .free => heapFree vec h

end Macros

/-! ## One vector -/

/-- `NULL`, or behind the header of a live block. -/
def IsVec (h : VecHeap) (vec : Pointer) : Prop :=
  vec = 0 ∨ getHeader vec ≠ 0 ∧ getHeader vec ∈ h.live

/-- The block that a vector points to. -/
def viewBlock (h : VecHeap) (vec : Pointer) : Option HeapBlock :=
  if vec = 0 then none else some (h.content (getHeader vec))

/-- A vector in a block that has the bytes for its capacity. -/
def sized (e : Nat) (v : Vec) : Option HeapBlock :=
  v.map fun b => ⟨b, sizeofHeader + e * b.capacity⟩

/-- The allocator answers with a block of its own: a new one, or the one it is given. -/
def Allocates (alloc vec : Pointer) (h : VecHeap) : Prop :=
  alloc ≠ 0 ∧ (alloc = getHeader vec ∨ alloc ∉ h.live)

/-- The vector at `vec` has become `o`, at `vec'`; the other blocks are as they were. -/
structure Becomes (vec vec' : Pointer) (h h' : VecHeap) (o : Option HeapBlock) : Prop where
  isVec : IsVec h' vec'
  replaces : Heap.Replaces (getHeader vec) (getHeader vec') h h'
  view_eq : viewBlock h' vec' = o

section Becomes

variable {vec vec' : Pointer} {h h' : VecHeap} {b : HeapBlock}

theorem of_viewBlock_eq_some (hvec : IsVec h vec) (hview : viewBlock h vec = some b) :
    vec ≠ 0 ∧ getHeader vec ≠ 0 ∧ getHeader vec ∈ h.live ∧ h.content (getHeader vec) = b := by
  rw [viewBlock] at hview
  split at hview
  · exact absurd hview (by simp)
  · next hne =>
      obtain ⟨hheader, hlive⟩ := hvec.resolve_left hne
      exact ⟨hne, hheader, hlive, Option.some.inj hview⟩

/-- Changing the block of the vector. -/
theorem Becomes.modify (hbecomes : Becomes vec vec' h h' (some b)) {stop : Nat}
    (hle : sizeofHeader + stop ≤ b.extent) (f : HeapBlock → HeapBlock) :
    ∃ h'', modifyData vec' stop f h' = .ok h'' ∧ Becomes vec vec' h h'' (some (f b)) := by
  obtain ⟨hne, hheader, hlive, hb⟩ := of_viewBlock_eq_some hbecomes.isVec hbecomes.view_eq
  subst hb
  refine ⟨_, Heap.modifyTo_of_le hheader hlive hle f, .inr ⟨hheader, hlive⟩,
    hbecomes.replaces.trans
      (Heap.replaces_update hbecomes.replaces.null_notMem hlive _), ?_⟩
  rw [viewBlock, if_neg hne]
  exact congrArg some (Function.update_self _ _ _)

theorem Becomes.modify_beyond (hbecomes : Becomes vec vec' h h' (some b)) {stop : Nat}
    (hlt : ¬ sizeofHeader + stop ≤ b.extent) (f : HeapBlock → HeapBlock) :
    modifyData vec' stop f h' = .error .outOfBlock := by
  obtain ⟨-, hheader, hlive, rfl⟩ := of_viewBlock_eq_some hbecomes.isVec hbecomes.view_eq
  exact Heap.modifyTo_of_lt hheader hlive hlt f

variable {e : Nat} {v : Vec}

/-- A move in the data of a vector faults where it leaves the block. -/
theorem Becomes.move {b : Block}
    (hbecomes : Becomes vec vec' h h' (sized e (some b))) (dst src num : Nat) :
    (dst + num ≤ e * b.capacity ∧ src + num ≤ e * b.capacity → ∃ h'',
      heapMove vec' dst src num h' = .ok h'' ∧
        Becomes vec vec' h h''
          (sized e (some { b with data := ElementArea.move dst src num b.data }))) ∧
    (¬ (dst + num ≤ e * b.capacity ∧ src + num ≤ e * b.capacity) →
      heapMove vec' dst src num h' = .error .outOfBlock) := by
  rw [← Nat.max_le]
  constructor
  · intro hin
    exact hbecomes.modify (Nat.add_le_add_left hin _) _
  · intro hout
    exact hbecomes.modify_beyond (fun hle => hout (Nat.le_of_add_le_add_left hle)) _

section NoMemory

variable {fresh : Nat → Byte} {ev : VecEvent e}

end NoMemory

end Becomes

end AdcVector
end AdcLibs
