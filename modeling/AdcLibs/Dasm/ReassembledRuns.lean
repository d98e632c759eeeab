import AdcLibs.Cpu.OperandReads
import AdcLibs.Dasm.Reassemble

/-!
# Runs of the assembled listing

When the program in memory is disassembled, printed, assembled and put back, the cpu does
the same in every sequence of steps and requests, as long as no second encoding is read as
data.
-/

namespace AdcLibs
namespace Dasm

universe u

open Cpu Cpu.Reference

/-! ## Loading -/

/-- Put bytes into memory from `addr` on. -/
def loadBytes (mem : U16 → U8) (addr : U16) : List U8 → (U16 → U8)
  | [] => mem
  | b :: bytes => loadBytes (Function.update mem addr b) (addr + 1) bytes

/-- Put assembled lines into memory. -/
def loadLines (lines : List AssembledLine) (mem : U16 → U8) : U16 → U8 :=
  lines.foldl (fun mem line => loadBytes mem line.addr line.bytes) mem

/-- What holds of every byte of memory and of every byte loaded holds afterwards. -/
theorem loadBytes_induction {Q : U16 → U8 → Prop} {mem : U16 → U8} {addr : U16}
    {bytes : List U8} (hmem : ∀ a, Q a (mem a))
    (hbytes : ∀ k b, bytes[k]? = some b → Q (addr + BitVec.ofNat 16 k) b) (a : U16) :
    Q a (loadBytes mem addr bytes a) := by
  induction bytes generalizing mem addr with
  | nil => exact hmem a
  | cons b bytes ih =>
      refine ih (fun a => ?_) (fun k c hc => ?_)
      · by_cases heq : a = addr
        · rw [heq, Function.update_self]
          have hfirst := hbytes 0 b rfl
          rwa [BitVec.add_zero] at hfirst
        · rw [Function.update_of_ne heq]
          exact hmem a
      · have hnext := hbytes (k + 1) c hc
        rwa [Nat.add_comm k 1, BitVec.ofNat_add, ← BitVec.add_assoc] at hnext

theorem loadLines_induction {Q : U16 → U8 → Prop} {mem : U16 → U8} {lines : List AssembledLine}
    (hmem : ∀ a, Q a (mem a))
    (hlines : ∀ line ∈ lines, ∀ k b, line.bytes[k]? = some b →
      Q (line.addr + BitVec.ofNat 16 k) b) (a : U16) :
    Q a (loadLines lines mem a) := by
  induction lines generalizing mem with
  | nil => exact hmem a
  | cons line lines ih =>
      obtain ⟨hline, hrest⟩ := List.forall_mem_cons.mp hlines
      exact ih (loadBytes_induction hmem hline) hrest

/-! ## The reloaded program -/

section Reload

variable {D : Type u} {m : Machine (Ram D)} {programSize : Nat} {orgAddr : U16}
  {d : DasmDisassembly} {lines : List AssembledLine}

/-- The machine with assembled lines in memory. -/
def reload (lines : List AssembledLine) (m : Machine (Ram D)) : Machine (Ram D) :=
  { m with world := { m.world with mem := loadLines lines m.world.mem } }

/-- The addresses of the second encodings in a disassembled program. -/
def secondEncodings (m : Machine (Ram D)) (d : DasmDisassembly) : Set U16 :=
  {a | ∃ op ∈ d.ops, op.addr = a ∧ SecondEncoding (m.world.mem a)}

/-- A byte of memory stays, or a second encoding becomes the first one. -/
def Kept (m : Machine (Ram D)) (d : DasmDisassembly) (a : U16) (b : U8) : Prop :=
  b = m.world.mem a ∨
    a ∈ secondEncodings m d ∧ b = (decode (m.world.mem a)).opcode

theorem kept_reencoded {op : DasmOp} (hop : op ∈ d.ops)
    (hopdef : op.opdef = sDasmLut (programMemory m.world op.addr.toNat)) {k : Nat} {b : U8}
    (hb : (reencoded (programMemory m.world) op).bytes[k]? = some b) :
    Kept m d (op.addr + BitVec.ofNat 16 k) b := by
  have hmem (k : Nat) : programMemory m.world (op.addr.toNat + k) =
      m.world.mem (op.addr + BitVec.ofNat 16 k) := by
    rw [programMemory, ofNat_toNat_add]
  have hfirst := hmem 0
  rw [Nat.add_zero, BitVec.add_zero] at hfirst
  cases k with
  | zero =>
      obtain rfl := Option.some.inj hb
      rw [BitVec.add_zero, Kept, hfirst]
      by_cases hsecond : SecondEncoding (m.world.mem op.addr)
      · exact .inr ⟨⟨op, hop, rfl, hsecond⟩, rfl⟩
      · exact .inl ((opcode_decode_iff _).mpr hsecond)
  | succ k =>
      left
      rw [← hmem]
      have hbyte : (opBytes (programMemory m.world) op)[k + 1]? = some b := by
        rw [opBytes_eq_cons hopdef]
        exact hb
      rw [opBytes, bytesAt, List.getElem?_map, Option.map_eq_some_iff] at hbyte
      obtain ⟨j, hj, rfl⟩ := hbyte
      rw [← List.getElem?_eq_some_iff.mp hj |>.2, List.getElem_range]

theorem reload_alike (h : BuiltBelowTop (programMemory m.world) programSize orgAddr d)
    (hlines : assemble (printedListing d) = some lines) :
    m.Alike (secondEncodings m d) Set.univ (reload lines m) := by
  obtain rfl := Option.some.inj (h.assembled.symm.trans hlines)
  have hkept (a : U16) : Kept m d a
      (loadLines (d.ops.map (reencoded (programMemory m.world))) m.world.mem a) := by
    refine loadLines_induction (fun a => .inl rfl) (fun line hline k b hb => ?_) a
    obtain ⟨op, hop, rfl⟩ := List.mem_map.mp hline
    exact kept_reencoded hop (h.covers.opdef op hop) hb
  refine ⟨rfl, rfl, rfl, fun a ha => ?_, fun a _ => ?_⟩
  · rcases hkept a with hsame | ⟨hmem, -⟩
    · exact hsame
    · exact absurd hmem ha
  · rcases hkept a with hsame | ⟨-, hsame⟩
    · exact congrArg decode hsame
    · exact (congrArg decode hsame).trans (decode_opcode_decode _)

/--
Disassembling the program in memory, printing it, assembling the listing and putting it
back does not change what any sequence of steps and requests does, unless a step reads a
second encoding of an instruction as an operand or as data.
-/
theorem reassembled_run (self : Ptr) {devices : Devices D}
    (h : BuiltBelowTop (programMemory m.world) programSize orgAddr d)
    (hlines : assemble (printedListing d) = some lines)
    (hdevices : devices.Ignores (secondEncodings m d)) {cs : List Call}
    (hreads : EachStep (ramEnv self devices) (fun s =>
      ∀ a ∈ operandReads (ramEnv self devices) s, a ∉ secondEncodings m d) cs m) :
    Option.Rel (SameTrace (secondEncodings m d) Set.univ) (runCalls (ramEnv self devices) cs m)
      (runCalls (ramEnv self devices) cs (reload lines m)) :=
  runCalls_alike self hdevices (reload_alike h hlines)
    (hreads.mono fun _ hs => ⟨fun _ _ => .inl trivial, hs⟩)

end Reload

/-- Second encodings of `NOP` in all of memory. -/
def secondNopMachine : Machine (Ram Unit) :=
  { sampleMachine 0x0100 with world := ⟨fun _ => 0x08, (), []⟩ }

def secondNops : DasmDisassembly where
  memory := programMemory secondNopMachine.world
  programSize := 2
  ops := [⟨sDasmLut 0x08, 0x0100, 0⟩, ⟨sDasmLut 0x08, 0x0101, 1⟩]
  numOps := 2

theorem builtBelowTop_secondNops :
    BuiltBelowTop (programMemory secondNopMachine.world) 2 0x0100 secondNops where
  built := ⟨3, rfl⟩
  endBelowTop := by decide
  staysBelowTop := staysBelowTop_of_le _ (by decide) (by decide)

theorem reassembled_run_secondNops :
    Option.Rel (SameTrace (secondEncodings secondNopMachine secondNops) Set.univ)
      (runCalls (ramEnv 0x1000 noDevices) [.step, .step] secondNopMachine)
      (runCalls (ramEnv 0x1000 noDevices) [.step, .step]
        (reload [⟨0x0100, [0x00]⟩, ⟨0x0101, [0x00]⟩] secondNopMachine)) := by
  refine reassembled_run 0x1000 builtBelowTop_secondNops
    builtBelowTop_secondNops.assembled (fun _ _ _ => ⟨fun _ _ _ _ => rfl, fun _ _ _ _ _ => rfl⟩) ?_
  have hfirst : operandReads (ramEnv 0x1000 noDevices) secondNopMachine = [] := rfl
  have hsecond : operandReads (ramEnv 0x1000 noDevices)
      (stepBody (ramEnv 0x1000 noDevices) secondNopMachine).mach = [] := rfl
  refine ⟨fun a ha => absurd (hfirst ▸ ha) List.not_mem_nil, fun r hr => ?_⟩
  obtain ⟨-, rfl⟩ := adc8080CpuStep_eq_some.mp hr
  exact ⟨fun a ha => absurd (hsecond ▸ ha) List.not_mem_nil, fun _ _ => trivial⟩

end Dasm
end AdcLibs
