import AdcLibs.Cpu.OperandReads
import AdcLibs.Dasm.Listing

/-!
# Runs on a listing

A program runs while its disassembly is looked up at pc.  As long as the bytes of the
program stay and transfers lead to its operations, the lookups show at every step the
instruction at pc, however control flows and whatever interrupts it.  A step that neither
recognizes a request nor is halted executes that instruction, with the operand shown.
-/

namespace AdcLibs
namespace Dasm

universe u

open Cpu Cpu.Reference

section Shown

variable {D : Type u} (E : Env (Ram D)) (programSize : Nat) (orgAddr : U16)
  (d : DasmDisassembly)

/-- An operation of the disassembly starts at the address. -/
def ListedAt (a : U16) : Prop := ∃ op ∈ d.ops, op.addr = a

instance (a : U16) : Decidable (ListedAt d a) :=
  inferInstanceAs (Decidable (∃ op ∈ d.ops, op.addr = a))

/-- The step does not just go on behind its instruction. -/
def Transfers (m : Machine (Ram D)) : Prop :=
  recognizes m.cpu = true ∨ m.cpu.halted = false ∧ (instrAt m).transfers m.cpu = true

instance (m : Machine (Ram D)) : Decidable (Transfers m) :=
  inferInstanceAs (Decidable (_ ∨ _ ∧ _))

/-- The step keeps the bytes of the program, and goes on in the program: with a transfer at
one of its operations, else before its end. -/
structure StaysListed (m : Machine (Ram D)) : Prop where
  kept : ∀ a, ProgramByte orgAddr d a → (stepBody E m).mach.world.mem a = m.world.mem a
  transfer : Transfers m → ListedAt d (stepBody E m).mach.cpu.pc
  inLine : ¬ Transfers m → (stepBody E m).mach.cpu.pc.toNat < orgAddr.toNat + programSize

end Shown

section Run

variable {D : Type u} (self : Ptr) {devices : Devices D} {memory : Nat → U8} {programSize : Nat}
  {orgAddr : U16} {d : DasmDisassembly} {m : Machine (Ram D)}

/-- The program is in memory, and pc at one of its operations. -/
structure OnListing (memory : Nat → U8) (orgAddr : U16) (d : DasmDisassembly)
    (m : Machine (Ram D)) : Prop where
  kept : ∀ a, ProgramByte orgAddr d a → m.world.mem a = memory a.toNat
  listed : ListedAt d m.cpu.pc

/-- The operation at pc has its instruction in memory. -/
theorem OnListing.entry (hbuilt : BuiltBelowTop memory programSize orgAddr d)
    (h : OnListing memory orgAddr d m) :
    ∃ (k : Nat) (op : DasmOp), d.ops[k]? = some op ∧ op.addr = m.cpu.pc ∧
      ∀ i, i < op.opdef.size →
        m.world.mem (op.addr + BitVec.ofNat 16 i) = memory (op.addr.toNat + i) := by
  have hcovers := hbuilt.covers
  obtain ⟨op, hmem, haddr⟩ := h.listed
  obtain ⟨k, hop⟩ := List.mem_iff_getElem?.mp hmem
  refine ⟨k, op, hop, haddr, fun i hi => ?_⟩
  have htop := hbuilt.staysBelowTop _ ((hcovers.boundary_of_entry hop).next (hcovers.addr_lt hop))
  rw [← hcovers.size_eq hop] at htop
  have htoNat : (op.addr + BitVec.ofNat 16 i).toNat = op.addr.toNat + i := by
    rw [BitVec.toNat_add, BitVec.toNat_ofNat]
    omega
  have horg := hcovers.org_le hop
  rw [h.kept _ ⟨by omega, op, hmem, by omega⟩, htoNat]

/-- A step that stays in the program comes to an operation. -/
theorem OnListing.step (hbuilt : BuiltBelowTop memory programSize orgAddr d)
    (h : OnListing memory orgAddr d m)
    (hstays : StaysListed (ramEnv self devices) programSize orgAddr d m) :
    OnListing memory orgAddr d (stepBody (ramEnv self devices) m).mach := by
  refine ⟨fun a ha => (hstays.kept a ha).trans (h.kept a ha), ?_⟩
  by_cases htransfers : Transfers m
  · exact hstays.transfer htransfers
  · have hin := hstays.inLine htransfers
    rw [Transfers, not_or, not_and, Bool.not_eq_true, Bool.not_eq_true] at htransfers
    obtain ⟨hrec, huntaken⟩ := htransfers
    cases hhalted : m.cpu.halted with
    | true =>
        rw [stepBody_idle hrec hhalted]
        exact h.listed
    | false =>
        obtain ⟨k, op, hop, haddr, hbytes⟩ := h.entry hbuilt
        have hcovers := hbuilt.covers
        have hopdef := hcovers.opdef op (List.mem_of_getElem? hop)
        have htop := hbuilt.staysBelowTop _
          ((hcovers.boundary_of_entry hop).next (hcovers.addr_lt hop))
        rw [← hcovers.size_eq hop] at htop
        have hpc : (stepBody (ramEnv self devices) m).mach.cpu.pc =
            op.addr + BitVec.ofNat 16 op.opdef.size := by
          have hfirst := hbytes 0 (hopdef ▸ (sDasmLut_size _).1)
          rw [BitVec.add_zero, Nat.add_zero] at hfirst
          rw [(step_agrees self devices hrec hhalted).inLine (huntaken hhalted), sizeAt, ← haddr,
            hfirst, hopdef]
        have htoNat : (stepBody (ramEnv self devices) m).mach.cpu.pc.toNat =
            op.addr.toNat + op.opdef.size := by
          have hsmall := (sDasmLut_size (memory op.addr.toNat)).2
          rw [← hopdef] at hsmall
          rw [hpc, BitVec.toNat_add, BitVec.toNat_ofNat]
          omega
        rcases next_or_last hop with ⟨op', hop'⟩ | hlast
        · refine ⟨op', List.mem_of_getElem? hop', BitVec.eq_of_toNat_eq ?_⟩
          rw [htoNat, hcovers.next k op op' hop hop']
        · have hend := (hcovers.last op hlast).2
          omega

end Run

end Dasm
end AdcLibs
