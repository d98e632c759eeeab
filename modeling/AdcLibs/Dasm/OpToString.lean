import AdcLibs.Dasm.Listing
import AdcLibs.Dasm.Mnemonic

/-!
# What `adc_8080_dasm_op_to_string` reads

The text of an operation, over any way to read memory: with plain reads it is the
text, with logged reads it also tells which indices are read.  The operands of an
operation lie behind its opcode, so those of the last operation are inside the
program exactly when the sweep stops at the end of the program.
-/

namespace AdcLibs
namespace Dasm

open Cpu LinearSweep

/-! ## The text -/

/-- `condbits_to_string` -/
def condbitsToString (op : DasmOp) : String :=
  match op.opdef.condbitsAffected with
  | .cy => "cy"
  | .szacp => "z,s,p,ac"
  | .all => "z,s,p,ac,cy"
  | .none => "none"

/-- The conversion `%-ws` of `snprintf`. -/
def padRight (width : Nat) (s : String) : List Char :=
  s.toList ++ List.replicate (width - s.toList.length) ' '

section Read

variable {m : Type → Type} [Monad m] (read : Nat → m U8)

/-- `mnemonic_to_string`, reading memory by `read`. -/
def mnemonicToStringBy (op : DasmOp) : m String :=
  match op.opdef.size with
  | 1 => pure (String.ofList (op.opdef.mnemonic.toList.take snprintfBufsize))
  | 2 => do
      let byte ← read (op.addr.toNat + 1)
      pure (snprintf snprintfBufsize op.opdef.mnemonic byte.toNat)
  | 3 => do
      let high ← read (op.addr.toNat + 2)
      let low ← read (op.addr.toNat + 1)
      pure (snprintf snprintfBufsize op.opdef.mnemonic (wordFromBytes high low).toNat)
  | _ => pure ""

/-- `adc_8080_dasm_op_to_string`, reading memory by `read`, where `malloc` succeeds. -/
def adc8080DasmOpToStringBy (op : DasmOp) : m String := do
  let mnemonicstr ← mnemonicToStringBy read op
  let condbitsstr := condbitsToString op
  pure (String.ofList (hexText 4 op.addr.toNat ++ "    ".toList ++ padRight 15 mnemonicstr ++
    " ".toList ++ padRight 12 "" ++ "; condbits: ".toList ++ padRight 12 condbitsstr ++
    " description: ".toList ++ padRight 12 op.opdef.desc))

end Read

/-- `adc_8080_dasm_op_to_string` -/
def adc8080DasmOpToString (dasm : DasmDisassembly) (op : DasmOp) : String :=
  Id.run (adc8080DasmOpToStringBy (fun i => pure (dasm.memory i)) op)

/-- A read that is logged. -/
def readLogged (memory : Nat → U8) (i : Nat) : StateM (List Nat) U8 := do
  modify fun log => log ++ [i]
  pure (memory i)

/-- The indices that `adc_8080_dasm_op_to_string` reads, in order. -/
def opToStringReads (dasm : DasmDisassembly) (op : DasmOp) : List Nat :=
  (adc8080DasmOpToStringBy (readLogged dasm.memory) op []).2

theorem mnemonicToStringBy_id (dasm : DasmDisassembly) (op : DasmOp) :
    Id.run (mnemonicToStringBy (fun i => pure (dasm.memory i)) op) = mnemonicToString dasm op := by
  simp only [mnemonicToStringBy, mnemonicToString, mnemonicArg]
  generalize op.opdef.size = n
  rcases n with _ | _ | _ | _ | n <;> rfl

/-- Logging the reads does not change the text. -/
theorem opToString_logged (dasm : DasmDisassembly) (op : DasmOp) :
    (adc8080DasmOpToStringBy (readLogged dasm.memory) op []).1 = adc8080DasmOpToString dasm op := by
  simp only [adc8080DasmOpToString, adc8080DasmOpToStringBy, mnemonicToStringBy]
  split <;> rfl

/-- The operand bytes are read. -/
theorem opToStringReads_eq (dasm : DasmDisassembly) (op : DasmOp) :
    opToStringReads dasm op =
      match op.opdef.size with
      | 2 => [op.addr.toNat + 1]
      | 3 => [op.addr.toNat + 2, op.addr.toNat + 1]
      | _ => [] := by
  simp only [opToStringReads, adc8080DasmOpToStringBy, mnemonicToStringBy]
  generalize op.opdef.size = n
  rcases n with _ | _ | _ | _ | n <;> rfl

/-! ## Inside the program -/

/-- What is read of an operation with one to three bytes stays below `stop` exactly when the
operation does. -/
theorem opToStringReads_lt_iff {dasm : DasmDisassembly} {op : DasmOp} {start stop : Nat}
    (hsize : 1 ≤ op.opdef.size ∧ op.opdef.size ≤ 3) (hstart : start ≤ op.addr.toNat)
    (haddr : op.addr.toNat < stop) :
    (∀ i ∈ opToStringReads dasm op, start ≤ i ∧ i < stop) ↔
      op.addr.toNat + op.opdef.size ≤ stop := by
  rw [opToStringReads_eq]
  obtain ⟨n, hn⟩ : ∃ n, op.opdef.size = n := ⟨_, rfl⟩
  rw [hn] at hsize ⊢
  rcases (by omega : n = 1 ∨ n = 2 ∨ n = 3) with rfl | rfl | rfl
  · simp
    omega
  · simp
    omega
  · simp
    omega

variable {memory : Nat → U8} {programSize : Nat} {orgAddr : U16} {d : DasmDisassembly}

/-- If the sweep stops at the end of the program, every operation ends inside. -/
theorem Covers.ends_inside (h : Covers memory programSize orgAddr d)
    (hend : Boundary (instrSize memory) orgAddr.toNat (orgAddr.toNat + programSize)
      (orgAddr.toNat + programSize)) :
    ∀ op ∈ d.ops, op.addr.toNat + op.opdef.size ≤ orgAddr.toNat + programSize := by
  intro op hop
  obtain ⟨k, hk⟩ := List.mem_iff_getElem?.mp hop
  rcases next_or_last hk with ⟨op', hop'⟩ | hlast
  · rw [← h.next k op op' hk hop']
    exact Nat.le_of_lt (h.addr_lt hop')
  · -- the boundary before the end is the address of the last operation
    rcases hend.eq_start_or_next with hzero | ⟨c, hc, hclt, hstop⟩
    · simp [h.nil (by omega)] at hop
    · obtain ⟨j, op', hop', rfl⟩ := h.entry_of_boundary hc hclt
      rw [← h.size_eq hop'] at hstop
      rcases next_or_last hop' with ⟨op'', hop''⟩ | hlast'
      · have hlt := h.addr_lt hop''
        rw [h.next j op' op'' hop' hop''] at hlt
        omega
      · obtain rfl := Option.some.inj (hlast.symm.trans hlast')
        exact Nat.le_of_eq hstop

/-- If every operation ends inside the program, the last one ends where the program ends. -/
theorem Covers.boundary_end (h : Covers memory programSize orgAddr d)
    (hall : ∀ op ∈ d.ops, op.addr.toNat + op.opdef.size ≤ orgAddr.toNat + programSize) :
    Boundary (instrSize memory) orgAddr.toNat (orgAddr.toNat + programSize)
      (orgAddr.toNat + programSize) := by
  by_cases hzero : programSize = 0
  · rw [hzero, Nat.add_zero]
    exact .start
  · obtain ⟨op, hlast⟩ : ∃ op, d.ops.getLast? = some op := by
      obtain ⟨op, hop, -⟩ := h.first hzero
      exact ⟨_, List.getLast?_eq_some_getLast (List.ne_nil_of_mem (List.mem_of_getElem? hop))⟩
    obtain ⟨k, hk⟩ := List.mem_iff_getElem?.mp (List.mem_of_getLast? hlast)
    have hnext := (h.boundary_of_entry hk).next (h.addr_lt hk)
    rw [← h.size_eq hk] at hnext
    have hle := hall op (List.mem_of_getElem? hk)
    rw [Nat.le_antisymm hle (h.last op hlast).2] at hnext
    exact hnext

/-- Disassembling reads memory inside the program only, and so does printing every operation
of the result. -/
structure ReadsInside (memory : Nat → U8) (programSize : Nat) (orgAddr : U16)
    (d : DasmDisassembly) : Prop where
  disassemble : LoopsVisit memory programSize orgAddr fun addr =>
    orgAddr.toNat ≤ addr.toNat ∧ addr.toNat < orgAddr.toNat + programSize
  opToString : ∀ op ∈ d.ops, ∀ i ∈ opToStringReads d op,
    orgAddr.toNat ≤ i ∧ i < orgAddr.toNat + programSize

/--
Only the program is read exactly when the sweep stops at its end: disassembling
never reads elsewhere, and printing reads elsewhere when the last instruction
goes on behind the end.
-/
theorem reads_inside_iff (fuel : Nat) (hsize : orgAddr.toNat + programSize ≤ 0xFFFD)
    (hbuilt : adc8080DasmDisassemble fuel true true (some memory) programSize orgAddr =
      some (some d)) :
    ReadsInside memory programSize orgAddr d ↔
      Boundary (instrSize memory) orgAddr.toNat (orgAddr.toNat + programSize)
        (orgAddr.toNat + programSize) := by
  have hbelow : StaysBelowTop memory orgAddr.toNat (orgAddr.toNat + programSize) :=
    staysBelowTop_of_le memory (Nat.le_add_right _ _) hsize
  have hcovers := disassemble_covers (by omega) hbelow hbuilt
  have hvisits : LoopsVisit memory programSize orgAddr fun addr =>
      orgAddr.toNat ≤ addr.toNat ∧ addr.toNat < orgAddr.toNat + programSize := by
    have hstop := endAddr_toNat (by omega : orgAddr.toNat + programSize ≤ 0xFFFF)
    rw [loopsVisit_iff]
    rw [← hstop] at hbelow ⊢
    exact fun a ha => visits_of_staysBelowTop hbelow ha
  have hreads (op : DasmOp) (hop : op ∈ d.ops) :
      (∀ i ∈ opToStringReads d op, orgAddr.toNat ≤ i ∧ i < orgAddr.toNat + programSize) ↔
        op.addr.toNat + op.opdef.size ≤ orgAddr.toNat + programSize := by
    obtain ⟨k, hk⟩ := List.mem_iff_getElem?.mp hop
    refine opToStringReads_lt_iff ?_ (hcovers.org_le hk) (hcovers.addr_lt hk)
    rw [hcovers.opdef op hop]
    exact sDasmLut_size _
  constructor
  · intro hinside
    exact hcovers.boundary_end fun op hop => (hreads op hop).mp (hinside.opToString op hop)
  · intro hend
    exact ⟨hvisits, fun op hop => (hreads op hop).mpr (hcovers.ends_inside hend op hop)⟩

/-- A program of three `NOP`s is read alone. -/
theorem reads_inside_iff_threeNops : ReadsInside (fun _ => 0x00) 3 0x0100 threeNops :=
  (reads_inside_iff 4 (by decide) rfl).mpr
    (((Boundary.start.next (by decide)).next (by decide)).next (by decide))

/-- The one-byte program `MVI B` is printed with the byte behind it. -/
theorem reads_operand_outside :
    ¬ ∀ (memory : Nat → U8) (programSize : Nat) (orgAddr : U16) (fuel : Nat)
      (d : DasmDisassembly), orgAddr.toNat + programSize ≤ 0xFFFD →
        adc8080DasmDisassemble fuel true true (some memory) programSize orgAddr =
          some (some d) → ReadsInside memory programSize orgAddr d := by
  intro hall
  have hreads := (hall (fun _ => 0x06) 1 0x0100 2
    ⟨fun _ => 0x06, 1, [⟨sDasmLut 0x06, 0x0100, 0⟩], 1⟩ (by decide) rfl).opToString
    ⟨sDasmLut 0x06, 0x0100, 0⟩ (by decide) 0x0101 (by decide)
  exact absurd hreads.2 (by decide)

end Dasm
end AdcLibs
