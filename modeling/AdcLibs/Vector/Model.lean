import AdcLibs.Library.ElementArea
import Mathlib.Algebra.Ring.Int.Defs
import Mathlib.Algebra.Ring.Nat

/-!
# The vector of `adc_vector.h`

The macros and `adc__vector_grow`, over elements of `e` bytes.  A vector is `NULL`
or a block: the header and the data area behind it, which is modelled as an
unbounded area of bytes.  Which bytes the library calls are asked for is recorded,
so that it can be compared with the size of the block.

* `size_t` has 64 bits; every `size_t` operation is reduced by `sizeT`.
* The indices and counts of the macros are of type `int` in the tests and are
  integers here; sums of them are exact, as overflow is undefined.
* `realloc` succeeds and keeps the data bytes of the old block; the bytes behind
  them are arbitrary (`fresh`).
* The macro argument `item` is an expression, evaluated on the block where the
  macro uses it.
-/

namespace AdcLibs
namespace AdcVector

open ElementArea

abbrev Byte := BitVec 8

/-- An element of `e` bytes. -/
abbrev Elem (e : Nat) := Vector Byte e

/-- An integer converted to `size_t`. -/
def sizeT (x : Int) : Nat := (x % 2 ^ 64).toNat

/-- A `size_t` converted to `int`. -/
def intOfSize (x : Nat) : Int := (BitVec.ofNat 32 x).toInt

/-- `sizeof(adc_vector_header)` -/
def sizeofHeader : Nat := 16

/-- The header and the data area behind it. -/
structure Block where
  size : Nat
  capacity : Nat
  data : Nat → Byte

/-- A vector; `none` is `NULL`. -/
abbrev Vec := Option Block

/-- A library call with its byte counts; addresses are relative to the data area. -/
inductive LibCall
  | realloc (newsize : Nat)
  | memmove (dst src num : Nat)
  | free
deriving DecidableEq, Repr

/-- `adc_vector_size` -/
def adcVectorSize : Vec → Nat
  | none => 0
  | some b => b.size

/-- `adc_vector_capacity` -/
def adcVectorCapacity : Vec → Nat
  | none => 0
  | some b => b.capacity

/-- The data bytes after `realloc`. -/
def reallocData (fresh : Nat → Byte) (elemsize : Nat) (vec : Vec) : Nat → Byte :=
  match vec with
  | none => fresh
  | some b => fun a => if a < elemsize * b.capacity then b.data a else fresh a

/-- `adc__vector_grow` -/
def adcVectorGrow (fresh : Nat → Byte) (vec : Vec) (elemsize addsize minCap : Nat) :
    Vec × List LibCall :=
  let minSize := sizeT (adcVectorSize vec + addsize)
  let minCap := if minSize > minCap then minSize else minCap
  let capacity := adcVectorCapacity vec
  if minCap ≤ capacity then (vec, [])
  else
    let minCap :=
      if minCap < sizeT (2 * capacity) then sizeT (2 * capacity)
      else if minCap < 4 then 4
      else minCap
    let newsize := sizeT (elemsize * minCap + sizeofHeader)
    (some ⟨adcVectorSize vec, minCap, reallocData fresh elemsize vec⟩, [.realloc newsize])

section Macros

variable {e : Nat} (fresh : Nat → Byte)

/-- `adc__vector_addgrow` -/
def adcVectorAddgrow (e : Nat) (vec : Vec) (n : Nat) : Vec × List LibCall :=
  match vec with
  | none => adcVectorGrow fresh vec e n 0
  | some b =>
      if sizeT (b.size + n) > b.capacity then adcVectorGrow fresh vec e n 0 else (vec, [])

/-- `adc_vector_push`; `none` is a store through `NULL`. -/
def adcVectorPush (item : Block → Elem e) (vec : Vec) : Option (Vec × List LibCall) :=
  let r := adcVectorAddgrow fresh e vec 1
  r.1.map fun b =>
    (some { b with size := sizeT (b.size + 1), data := writeElem b.data b.size (item b) }, r.2)

/-- `adc_vector_pop` on a block. -/
def adcVectorPop (b : Block) : Block × Elem e :=
  let size := sizeT (b.size - 1)
  ({ b with size := size }, readElem b.data size)

/-- `adc_vector_reserve` -/
def adcVectorReserve (e : Nat) (n : Nat) (vec : Vec) : Vec × List LibCall :=
  adcVectorGrow fresh vec e 0 n

/-- `adc_vector_free` -/
def adcVectorFree : Vec → Vec × List LibCall
  | none => (none, [])
  | some _ => (none, [.free])

/-- `adc_vector_insert`; `none` is a store through `NULL`. -/
def adcVectorInsert (i : Int) (item : Block → Elem e) (vec : Vec) :
    Option (Vec × List LibCall) :=
  match vec with
  | none => some (vec, [])
  | some b =>
      if 0 ≤ i ∧ sizeT i < b.size then
        let r := adcVectorAddgrow fresh e vec 1
        r.1.map fun b =>
          let size := sizeT (b.size + 1)
          let num := sizeT (sizeT (e * size) - 1 - i)
          let dst := e * (i + 1).toNat
          let src := e * i.toNat
          let b := { b with size := size, data := move dst src num b.data }
          (some { b with data := writeElem b.data i.toNat (item b) },
            r.2 ++ [.memmove dst src num])
      else some (vec, [])

/-- `adc_vector_erasen` -/
def adcVectorErasen (e : Nat) (i n : Int) (vec : Vec) : Vec × List LibCall :=
  match vec with
  | none => (vec, [])
  | some b =>
      if 0 ≤ i ∧ sizeT i < b.size ∧ 0 ≤ n then
        let maxn := n
        let maxn := if sizeT (i + maxn) ≥ b.size then intOfSize (sizeT (b.size - i)) else maxn
        let num := sizeT (sizeT (e * b.size) - maxn - i)
        let dst := e * i.toNat
        let src := e * (i + maxn).toNat
        (some { b with size := sizeT (b.size - maxn), data := move dst src num b.data },
          [.memmove dst src num])
      else (vec, [])

/-- `adc_vector_erase` -/
def adcVectorErase (e : Nat) (i : Int) (vec : Vec) : Vec × List LibCall :=
  adcVectorErasen e i 0 vec

end Macros

/-! ## Sequences of operations -/

inductive VecOp (e : Nat)
  | push (item : Elem e)
  | pop
  | reserve (n : Nat)
  | insert (i : Int) (item : Elem e)
  | erasen (i n : Int)
  | free

/-- An executed operation. -/
structure VecEvent (e : Nat) where
  op : VecOp e
  before : Vec
  after : Vec
  popped : Option (Elem e)
  calls : List LibCall

variable {e : Nat}

/-- Execute an operation; `none` when it is a pop of an empty vector. -/
def VecOp.exec (fresh : Nat → Byte) (op : VecOp e) (vec : Vec) : Option (VecEvent e) :=
  match op with
  | .push item =>
      (adcVectorPush fresh (fun _ => item) vec).map fun r => ⟨op, vec, r.1, none, r.2⟩
  | .pop =>
      vec.bind fun b =>
        if b.size = 0 then none
        else
          let r : Block × Elem e := adcVectorPop b
          some ⟨op, vec, some r.1, some r.2, []⟩
  | .reserve n =>
      let r := adcVectorReserve fresh e n vec
      some ⟨op, vec, r.1, none, r.2⟩
  | .insert i item =>
      (adcVectorInsert fresh i (fun _ => item) vec).map fun r => ⟨op, vec, r.1, none, r.2⟩
  | .erasen i n =>
      let r := adcVectorErasen e i n vec
      some ⟨op, vec, r.1, none, r.2⟩
  | .free =>
      let r := adcVectorFree vec
      some ⟨op, vec, r.1, none, r.2⟩

/-- Execute a sequence of operations, each with the bytes a reallocation finds. -/
def trace : List (VecOp e × (Nat → Byte)) → Vec → Option (List (VecEvent e) × Vec)
  | [], vec => some ([], vec)
  | (op, fresh) :: ops, vec =>
      (op.exec fresh vec).bind fun ev =>
        (trace ops ev.after).map fun r => (ev :: r.1, r.2)

/-! ## Conversions -/

theorem sizeT_natCast {n : Nat} (h : n < 2 ^ 64) : sizeT n = n := by
  rw [sizeT]
  omega

theorem sizeT_of_nonneg {x : Int} (h : 0 ≤ x) (hlt : x < 2 ^ 64) : sizeT x = x.toNat := by
  rw [sizeT]
  omega

theorem sizeT_lt (x : Int) : sizeT x < 2 ^ 64 := by
  rw [sizeT]
  omega

/-- A conversion to `size_t` is exact where no bits are lost. -/
theorem sizeT_eq_iff (n : Nat) : sizeT n = n ↔ n < 2 ^ 64 := by
  rw [sizeT]
  omega

theorem intOfSize_of_lt {n : Nat} (h : n < 2 ^ 31) : intOfSize n = n := by
  rw [intOfSize, BitVec.toInt_ofNat']
  simp [Int.bmod]
  omega

end AdcVector
end AdcLibs
