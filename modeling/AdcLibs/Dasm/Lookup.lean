import AdcLibs.Dasm.Disassemble

/-!
# Looking up operations

`adc_8080_dasm_find` and `adc_8080_dasm_list` on a disassembly.  `int` values
that went through a `size_t` are cut to 32 bits.
-/

namespace AdcLibs
namespace Dasm

open Cpu

/-- `s_op_notfound` -/
def sOpNotfound : DasmOp where
  opdef := ⟨0x00, "NO DASM", 0, .none, "No disassembly available"⟩
  addr := 0x000
  index := 0

/-- `ADC_8080_DASM_OP_NOTFOUND` -/
def adc8080DasmOpNotfound (op : DasmOp) : Bool :=
  op.opdef.size == 0 && op.addr == 0

/-- `compareops` -/
def compareops (addr : U16) (op : DasmOp) : Int :=
  if addr < op.addr then -1
  else if addr = op.addr then 0
  else 1

/-- The search of `bsearch` between two bounds. -/
def bsearchBetween {α : Type} (compar : α → Int) (base : List α) :
    Nat → Nat → Nat → Option α
  | 0, _, _ => none
  | fuel + 1, low, high =>
      if low < high then
        let mid := (low + high) / 2
        base[mid]?.bind fun x =>
          if compar x = 0 then some x
          else if compar x < 0 then bsearchBetween compar base fuel low mid
          else bsearchBetween compar base fuel (mid + 1) high
      else none

/-- `bsearch` over the first `nmemb` elements; every round removes one at least. -/
def bsearch {α : Type} (compar : α → Int) (base : List α) (nmemb : Nat) : Option α :=
  bsearchBetween compar base nmemb 0 nmemb

/-- `adc_8080_dasm_find`; `none` is `NULL`. -/
def adc8080DasmFind (dasm : Option DasmDisassembly) (addr : U16) : DasmOp :=
  match dasm with
  | none => sOpNotfound
  | some dasm =>
      match bsearch (compareops addr) dasm.ops dasm.numOps with
      | none => sOpNotfound
      | some op => op

/-- A `size_t` stored in an `int`. -/
def intOfSize (n : BitVec 64) : Int :=
  (n.setWidth 32).toInt

/-- What `adc_8080_dasm_list` returns, and the indices of the operations whose addresses it
stores, from `dst[0]` on. -/
structure Listing where
  result : Int
  dst : List Int
deriving DecidableEq, Repr

/-- The loop from `i` to `imax`. -/
def listFrom (i imax : Int) : List Int :=
  (List.range (imax + 1 - i).toNat).map fun (j : Nat) => i + (j : Int)

/-- `adc_8080_dasm_list` -/
def adc8080DasmList (dasm : Option DasmDisassembly) (numLines : Nat) (addr : U16) : Listing :=
  let op := adc8080DasmFind dasm addr
  match adc8080DasmOpNotfound op, dasm with
  | false, some dasm =>
      let n : BitVec 64 := BitVec.ofNat 64 (numLines / 2)
      let imin := intOfSize (BitVec.ofInt 64 op.index - n)
      let imin := if imin < 0 then 0 else imin
      let imax := intOfSize (BitVec.ofInt 64 op.index + n)
      let imax :=
        if (BitVec.ofInt 64 imax).toNat ≥ dasm.numOps then
          intOfSize (BitVec.ofNat 64 dasm.numOps - 1)
        else imax
      ⟨imax - imin, listFrom imin imax⟩
  | _, _ => ⟨0, []⟩

end Dasm
end AdcLibs
