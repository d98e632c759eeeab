import AdcLibs.Dasm.Find
import Mathlib.Algebra.Ring.Int.Defs
import Mathlib.Algebra.Ring.Nat

/-!
# `adc_8080_dasm_list`

Around the operation with index `k` the listing stores the operations from
`k - n` to `k + n`, cut at both ends of the program, where `n` is half of the
number of lines.  These are `2 n + 1` operations when neither end cuts the
window, one more than an even number of lines, and the result is one less than
what is stored.
-/

namespace AdcLibs
namespace Dasm

open Cpu LinearSweep SortedSearch

def intMax : Nat := 2 ^ 31 - 1

/-- The disassembly was built, and neither the end address nor the cursor wrapped. -/
structure BuiltBelowTop (memory : Nat → U8) (programSize : Nat) (orgAddr : U16)
    (d : DasmDisassembly) : Prop where
  built : ∃ fuel, adc8080DasmDisassemble fuel true true (some memory) programSize orgAddr =
    some (some d)
  endBelowTop : orgAddr.toNat + programSize ≤ 0xFFFF
  staysBelowTop : StaysBelowTop memory orgAddr.toNat (orgAddr.toNat + programSize)

variable {memory : Nat → U8} {programSize : Nat} {orgAddr : U16} {d : DasmDisassembly}

theorem BuiltBelowTop.covers (h : BuiltBelowTop memory programSize orgAddr d) :
    Covers memory programSize orgAddr d := by
  obtain ⟨fuel, hd⟩ := h.built
  exact disassemble_covers h.endBelowTop h.staysBelowTop hd

/-! ## `int` and `size_t` -/

theorem intOfSize_ofInt {a : Int} (hmin : -2 ^ 31 ≤ a) (hmax : a < 2 ^ 31) :
    intOfSize (BitVec.ofInt 64 a) = a := by
  have hset : (BitVec.ofInt 64 a).setWidth 32 = BitVec.ofInt 32 a := by
    apply BitVec.eq_of_toNat_eq
    rw [BitVec.toNat_setWidth, BitVec.toNat_ofInt, BitVec.toNat_ofInt]
    omega
  rw [intOfSize, hset]
  exact BitVec.toInt_ofInt_eq_self (by decide) (by omega) (by omega)

theorem ofInt_add_ofNat (a : Int) (n : Nat) :
    BitVec.ofInt 64 a + BitVec.ofNat 64 n = BitVec.ofInt 64 (a + n) := by
  rw [BitVec.ofInt_add, BitVec.ofInt_natCast]

theorem ofInt_sub_ofNat (a : Int) (n : Nat) :
    BitVec.ofInt 64 a - BitVec.ofNat 64 n = BitVec.ofInt 64 (a - n) := by
  rw [BitVec.sub_eq_iff_eq_add, ofInt_add_ofNat, Int.sub_add_cancel]

/-! ## The window -/

/-- The indices `low` to `high` in order. -/
def window (low high : Nat) : List Int :=
  (List.range' low (high + 1 - low)).map Int.ofNat

theorem window_length (low high : Nat) : (window low high).length = high + 1 - low := by
  rw [window, List.length_map, List.length_range']

theorem listFrom_eq_window (low high : Nat) : listFrom low high = window low high := by
  have hcount : ((high : Int) + 1 - low).toNat = high + 1 - low := by omega
  rw [listFrom, window, hcount, List.range'_eq_map_range, List.map_map]
  rfl

/-- The first index of the window around `k`. -/
def windowLow (k numLines : Nat) : Nat := k - numLines / 2

/-- The last index of the window around `k` in a program of `numOps` operations. -/
def windowHigh (numOps k numLines : Nat) : Nat := min (numOps - 1) (k + numLines / 2)

section Bounds

variable {k numLines numOps : Nat}

theorem listMin_eq (hk : k < 0x10000) (hlines : numLines ≤ intMax / 2) :
    (if intOfSize (BitVec.ofInt 64 k - BitVec.ofNat 64 (numLines / 2)) < 0 then 0
      else intOfSize (BitVec.ofInt 64 k - BitVec.ofNat 64 (numLines / 2))) =
      (windowLow k numLines : Int) := by
  rw [intMax] at hlines
  rw [ofInt_sub_ofNat, intOfSize_ofInt (by omega) (by omega), windowLow]
  split <;> omega

theorem listMax_eq (hk : k < numOps) (hops : numOps ≤ 0x10000)
    (hlines : numLines ≤ intMax / 2) :
    (if (BitVec.ofInt 64 (intOfSize (BitVec.ofInt 64 k + BitVec.ofNat 64 (numLines / 2)))).toNat ≥
        numOps then intOfSize (BitVec.ofNat 64 numOps - 1)
      else intOfSize (BitVec.ofInt 64 k + BitVec.ofNat 64 (numLines / 2))) =
      (windowHigh numOps k numLines : Int) := by
  rw [intMax] at hlines
  have hlast : BitVec.ofNat 64 numOps - 1 = BitVec.ofInt 64 ((numOps : Int) - (1 : Nat)) := by
    rw [← ofInt_sub_ofNat, BitVec.ofInt_natCast]
    rfl
  have hhigh : (BitVec.ofInt 64 ((k : Int) + (numLines / 2 : Nat))).toNat = k + numLines / 2 := by
    rw [BitVec.toNat_ofInt]
    omega
  rw [ofInt_add_ofNat, intOfSize_ofInt (by omega) (by omega), hhigh, hlast,
    intOfSize_ofInt (by omega) (by omega), windowHigh]
  split <;> omega

end Bounds

/-- What the listing around an operation of the program is. -/
theorem Covers.list_entry (h : Covers memory programSize orgAddr d) {k numLines : Nat}
    {op : DasmOp} (hop : d.ops[k]? = some op) (hlines : numLines ≤ intMax / 2) :
    adc8080DasmList (some d) numLines op.addr =
      ⟨(windowHigh d.ops.length k numLines : Int) - windowLow k numLines,
        window (windowLow k numLines) (windowHigh d.ops.length k numLines)⟩ := by
  have hlen := h.length_le
  have hk := (List.getElem?_eq_some_iff.mp hop).1
  have hfind : adc8080DasmFind (some d) op.addr = op :=
    h.findBy_entry searches_bsearch hop
  simp only [adc8080DasmList, hfind, h.not_notfound hop, h.index k op hop, h.numOps]
  rw [listMin_eq (by omega) hlines, listMax_eq hk hlen hlines, listFrom_eq_window]

/-- Away from the operations nothing is listed. -/
theorem Covers.list_none (h : Covers memory programSize orgAddr d) {numLines : Nat} {addr : U16}
    (hnone : ∀ op ∈ d.ops, op.addr ≠ addr) :
    adc8080DasmList (some d) numLines addr = ⟨0, []⟩ := by
  have hfind : adc8080DasmFind (some d) addr = sOpNotfound :=
    h.findBy_none searches_bsearch hnone
  simp only [adc8080DasmList, hfind, notfound_sOpNotfound]

theorem window_bounds {k numOps numLines : Nat} (hk : k < numOps) :
    windowLow k numLines ≤ k ∧ k ≤ windowHigh numOps k numLines := by
  rw [windowLow, windowHigh]
  omega

/-- The window holds at most `numLines` operations exactly when the number is odd or one
of the ends of the program cuts the window. -/
theorem window_within_iff {k numOps numLines : Nat} (hk : k < numOps) :
    (window (windowLow k numLines) (windowHigh numOps k numLines)).length ≤ numLines ↔
      numLines % 2 = 1 ∨ k < numLines / 2 ∨ numOps ≤ k + numLines / 2 := by
  rw [window_length, windowLow, windowHigh]
  omega

/--
The listing stays in a buffer of `numLines` entries exactly when no operation
starts at the address, or the number of lines is odd, or fewer than half of
`numLines` operations lie before or behind the operation.
-/
theorem list_within_iff (h : BuiltBelowTop memory programSize orgAddr d) (addr : U16)
    {numLines : Nat} (hlines : numLines ≤ intMax / 2) :
    (∀ j < (adc8080DasmList (some d) numLines addr).dst.length, j < numLines) ↔
      ∀ (k : Nat) (op : DasmOp), d.ops[k]? = some op → op.addr = addr →
        numLines % 2 = 1 ∨ k < numLines / 2 ∨ d.ops.length ≤ k + numLines / 2 := by
  have hbound : (∀ j < (adc8080DasmList (some d) numLines addr).dst.length, j < numLines) ↔
      (adc8080DasmList (some d) numLines addr).dst.length ≤ numLines := by
    constructor
    · intro hall
      by_contra hlong
      exact Nat.lt_irrefl _ (hall numLines (Nat.lt_of_not_le hlong))
    · exact fun hle j hj => Nat.lt_of_lt_of_le hj hle
  rw [hbound]
  by_cases hentry : ∃ (k : Nat) (op : DasmOp), d.ops[k]? = some op ∧ op.addr = addr
  · obtain ⟨k, op, hop, rfl⟩ := hentry
    rw [h.covers.list_entry hop hlines, window_within_iff (List.getElem?_eq_some_iff.mp hop).1]
    constructor
    · intro hcut k' op' hop' haddr
      obtain rfl := h.covers.entry_unique hop' hop haddr
      exact hcut
    · exact fun hall => hall k op hop rfl
  · rw [h.covers.list_none (addr_ne_of_no_entry hentry)]
    exact iff_of_true (Nat.zero_le _) fun k op hop haddr => absurd ⟨k, op, hop, haddr⟩ hentry

theorem builtBelowTop_sample : BuiltBelowTop sampleMemory 16 0x0100 sampleDisassembly where
  built := ⟨8, disassemble_sample⟩
  endBelowTop := by decide
  staysBelowTop := staysBelowTop_sample

/-- Three `NOP`s at 0100h. -/
def threeNops : DasmDisassembly where
  memory := fun _ => 0x00
  programSize := 3
  ops := [⟨sDasmLut 0x00, 0x0100, 0⟩, ⟨sDasmLut 0x00, 0x0101, 1⟩, ⟨sDasmLut 0x00, 0x0102, 2⟩]
  numOps := 3

theorem builtBelowTop_threeNops : BuiltBelowTop (fun _ => 0x00) 3 0x0100 threeNops where
  built := ⟨4, rfl⟩
  endBelowTop := by decide
  staysBelowTop := staysBelowTop_of_le _ (by decide) (by decide)

/-- Three lines around the middle one of three operations. -/
theorem list_within_iff_threeNops :
    BuiltBelowTop (fun _ => 0x00) 3 0x0100 threeNops ∧
      ∀ j < (adc8080DasmList (some threeNops) 3 0x0101).dst.length, j < 3 :=
  ⟨builtBelowTop_threeNops,
    (list_within_iff builtBelowTop_threeNops 0x0101 (by decide)).mpr fun _ _ _ _ => .inl rfl⟩

/-- Two lines around the middle one of three operations take three entries. -/
theorem list_overruns :
    ¬ ∀ (memory : Nat → U8) (programSize : Nat) (orgAddr : U16) (d : DasmDisassembly),
      BuiltBelowTop memory programSize orgAddr d → ∀ (addr : U16) (numLines : Nat),
        numLines ≤ intMax / 2 →
        ∀ j < (adc8080DasmList (some d) numLines addr).dst.length, j < numLines := by
  intro hall
  have hdst : (adc8080DasmList (some threeNops) 2 0x0101).dst = [0, 1, 2] := by decide
  have hlt := hall _ _ _ _ builtBelowTop_threeNops 0x0101 2 (by decide) 2 (by rw [hdst]; decide)
  exact absurd hlt (by decide)

/-! ## What the listing returns -/

/-- The listing around an address as it is documented. -/
structure ListsAround (d : DasmDisassembly) (numLines : Nat) (addr : U16) : Prop where
  notFound : (∀ op ∈ d.ops, op.addr ≠ addr) →
    adc8080DasmList (some d) numLines addr = ⟨0, []⟩
  entries : ∀ (k : Nat) (op : DasmOp), d.ops[k]? = some op → op.addr = addr →
    (adc8080DasmList (some d) numLines addr).dst =
      window (k - numLines / 2) (min (d.ops.length - 1) (k + numLines / 2))
  count : (adc8080DasmList (some d) numLines addr).result =
    (adc8080DasmList (some d) numLines addr).dst.length

/--
The listing is as documented exactly when there is nothing to list: around an
operation the entries are right, and the result is one less than their number.
-/
theorem list_reports_iff (h : BuiltBelowTop memory programSize orgAddr d) (addr : U16)
    {numLines : Nat} (hlines : numLines ≤ intMax / 2) :
    (ListsAround d numLines addr ↔ ∀ op ∈ d.ops, op.addr ≠ addr) ∧
      ∀ (k : Nat) (op : DasmOp), d.ops[k]? = some op → op.addr = addr →
        (adc8080DasmList (some d) numLines addr).dst =
            window (k - numLines / 2) (min (d.ops.length - 1) (k + numLines / 2)) ∧
          (adc8080DasmList (some d) numLines addr).result + 1 =
            (adc8080DasmList (some d) numLines addr).dst.length := by
  have hfound (k : Nat) (op : DasmOp) (hop : d.ops[k]? = some op) (haddr : op.addr = addr) :
      (adc8080DasmList (some d) numLines addr).dst =
          window (k - numLines / 2) (min (d.ops.length - 1) (k + numLines / 2)) ∧
        (adc8080DasmList (some d) numLines addr).result + 1 =
          (adc8080DasmList (some d) numLines addr).dst.length := by
    subst haddr
    have hk := (List.getElem?_eq_some_iff.mp hop).1
    have hbounds : windowLow k numLines ≤ k ∧ k ≤ windowHigh d.ops.length k numLines :=
      window_bounds hk
    rw [h.covers.list_entry hop hlines]
    refine ⟨rfl, ?_⟩
    simp only [window_length]
    omega
  refine ⟨⟨?_, ?_⟩, hfound⟩
  · intro hlists op hop haddr
    obtain ⟨k, hk⟩ := List.mem_iff_getElem?.mp hop
    have hcount := hlists.count
    rw [← (hfound k op hk haddr).2] at hcount
    omega
  · intro hnone
    have hlist : adc8080DasmList (some d) numLines addr = ⟨0, []⟩ := h.covers.list_none hnone
    refine ⟨fun _ => hlist, ?_, ?_⟩
    · intro k op hop haddr
      exact absurd haddr (hnone op (List.mem_of_getElem? hop))
    · rw [hlist]
      rfl

/-- At the end of the sample program nothing is listed; around its fourth operation five are
stored for four lines, and four reported. -/
theorem list_reports_iff_sample :
    ListsAround sampleDisassembly 16 0x0110 ∧
      (adc8080DasmList sampleDisassembly 4 0x0108).dst = [1, 2, 3, 4, 5] ∧
      (adc8080DasmList sampleDisassembly 4 0x0108).result = 4 := by
  obtain ⟨hdst, hresult⟩ := (list_reports_iff builtBelowTop_sample 0x0108
    (show 4 ≤ intMax / 2 by decide)).2 3 ⟨sDasmLut 0x08, 0x0108, 3⟩ rfl rfl
  have hwindow : (adc8080DasmList sampleDisassembly 4 0x0108).dst = [1, 2, 3, 4, 5] := hdst
  have hfive : (adc8080DasmList sampleDisassembly 4 0x0108).result + 1 = 5 := by
    rw [hresult, hwindow]
    rfl
  refine ⟨(list_reports_iff builtBelowTop_sample 0x0110
    (show 16 ≤ intMax / 2 by decide)).1.mpr (by decide), hwindow, ?_⟩
  omega

/-- Around the first of three operations two are stored and one is reported. -/
theorem list_misreports :
    ¬ ∀ (memory : Nat → U8) (programSize : Nat) (orgAddr : U16) (d : DasmDisassembly),
      BuiltBelowTop memory programSize orgAddr d → ∀ (addr : U16) (numLines : Nat),
        numLines ≤ intMax / 2 → ListsAround d numLines addr := by
  intro hall
  have hlisting : adc8080DasmList (some threeNops) 2 0x0100 = ⟨1, [0, 1]⟩ := by decide
  have hcount := (hall _ _ _ _ builtBelowTop_threeNops 0x0100 2 (by decide)).count
  rw [hlisting] at hcount
  exact absurd hcount (by decide)

end Dasm
end AdcLibs
