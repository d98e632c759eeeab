import AdcLibs.Dasm.Table
import AdcLibs.Library.Loops

/-!
# `adc_8080_dasm_disassemble`

The two passes of the disassembler, with their `uint16_t` cursors, and the
specification of each: the count pass counts what the fill pass stores, and
what it stores are consecutive entries from the first address on.
-/

namespace AdcLibs
namespace Dasm

open Cpu Loops

/-- `uint16_t end_addr = program_size + org_addr` -/
def endAddr (programSize : Nat) (orgAddr : U16) : U16 :=
  BitVec.ofNat 16 (programSize + orgAddr.toNat)

/-- `addr += s_dasm_lut[memory[addr]].size` -/
def nextAddr (memory : Nat → U8) (addr : U16) : U16 :=
  addr + BitVec.ofNat 16 (sDasmLut (memory addr.toNat)).size

section Passes

variable (memory : Nat → U8) (stop : U16)

/-- The variables of the count loop. -/
structure CountState where
  addr : U16
  numOps : Nat
deriving DecidableEq, Repr

def countCond (s : CountState) : Bool := s.addr < stop

def countBody (s : CountState) : CountState where
  addr := nextAddr memory s.addr
  numOps := s.numOps + 1

/-- The variables of the fill loop; `ops` are the entries stored so far. -/
structure FillState where
  addr : U16
  i : Int
  ops : List DasmOp
deriving DecidableEq, Repr

def fillCond (s : FillState) : Bool := s.addr < stop

def fillBody (s : FillState) : FillState :=
  let opdef := sDasmLut (memory s.addr.toNat)
  { addr := s.addr + BitVec.ofNat 16 opdef.size
    i := s.i + 1
    ops := s.ops ++ [⟨opdef, s.addr, s.i⟩] }

end Passes

/--
`adc_8080_dasm_disassemble`, with the outcomes of its two `malloc` calls.
The outer `none` means that the fuel of a loop ran out, the inner one is `NULL`.
-/
def adc8080DasmDisassemble (fuel : Nat) (opsAlloc dasmAlloc : Bool)
    (memory : Option (Nat → U8)) (programSize : Nat) (orgAddr : U16) :
    Option (Option DasmDisassembly) :=
  match memory with
  | none => some none
  | some memory =>
      let startAddr := orgAddr
      let stop := endAddr programSize orgAddr
      (whileFuel (countCond stop) (countBody memory) fuel ⟨startAddr, 0⟩).bind fun count =>
        if !opsAlloc then some none
        else
          (whileFuel (fillCond stop) (fillBody memory) fuel ⟨startAddr, 0, []⟩).bind fun fill =>
            if !dasmAlloc then some none
            else some (some ⟨memory, programSize, fill.ops, count.numOps⟩)

/-- Both loops leave their start states. -/
def LoopsTerminate (memory : Nat → U8) (programSize : Nat) (orgAddr : U16) : Prop :=
  let stop := endAddr programSize orgAddr
  Terminates (countCond stop) (countBody memory) ⟨orgAddr, 0⟩ ∧
    Terminates (fillCond stop) (fillBody memory) ⟨orgAddr, 0, []⟩

/-- Every address that a loop visits satisfies `P`. -/
def LoopsVisit (memory : Nat → U8) (programSize : Nat) (orgAddr : U16) (P : U16 → Prop) :
    Prop :=
  let stop := endAddr programSize orgAddr
  (∀ s, Visits (countCond stop) (countBody memory) ⟨orgAddr, 0⟩ s → P s.addr) ∧
    ∀ s, Visits (fillCond stop) (fillBody memory) ⟨orgAddr, 0, []⟩ s → P s.addr

/-! ## The cursor -/

section Cursor

variable {memory : Nat → U8} {stop : U16}

/-- The condition of both loops, on the cursor. -/
def cursorCond (stop addr : U16) : Bool := addr < stop

theorem count_cond (s : CountState) : cursorCond stop s.addr = countCond stop s := rfl

theorem count_body (s : CountState) :
    nextAddr memory s.addr = (countBody memory s).addr := rfl

theorem fill_cond (s : FillState) : cursorCond stop s.addr = fillCond stop s := rfl

theorem fill_body (s : FillState) :
    nextAddr memory s.addr = (fillBody memory s).addr := rfl

/-- Both loops terminate when their cursor does. -/
theorem loopsTerminate_iff {programSize : Nat} {orgAddr : U16} :
    LoopsTerminate memory programSize orgAddr ↔
      Terminates (cursorCond (endAddr programSize orgAddr)) (nextAddr memory) orgAddr := by
  have hcount : Terminates (countCond (endAddr programSize orgAddr)) (countBody memory)
      ⟨orgAddr, 0⟩ ↔
        Terminates (cursorCond (endAddr programSize orgAddr)) (nextAddr memory) orgAddr :=
    terminates_projection CountState.addr count_cond count_body
  have hfill : Terminates (fillCond (endAddr programSize orgAddr)) (fillBody memory)
      ⟨orgAddr, 0, []⟩ ↔
        Terminates (cursorCond (endAddr programSize orgAddr)) (nextAddr memory) orgAddr :=
    terminates_projection FillState.addr fill_cond fill_body
  rw [LoopsTerminate, hcount, hfill, and_self_iff]

theorem loopsVisit_iff {programSize : Nat} {orgAddr : U16} {P : U16 → Prop} :
    LoopsVisit memory programSize orgAddr P ↔
      ∀ a, Visits (cursorCond (endAddr programSize orgAddr)) (nextAddr memory) orgAddr a →
        P a := by
  have hcount : (∀ s, Visits (countCond (endAddr programSize orgAddr)) (countBody memory)
      ⟨orgAddr, 0⟩ s → P s.addr) ↔ ∀ a, Visits (cursorCond (endAddr programSize orgAddr))
        (nextAddr memory) orgAddr a → P a :=
    visits_projection CountState.addr count_cond count_body
  have hfill : (∀ s, Visits (fillCond (endAddr programSize orgAddr)) (fillBody memory)
      ⟨orgAddr, 0, []⟩ s → P s.addr) ↔ ∀ a, Visits (cursorCond (endAddr programSize orgAddr))
        (nextAddr memory) orgAddr a → P a :=
    visits_projection FillState.addr fill_cond fill_body
  rw [LoopsVisit, hcount, hfill, and_self_iff]

end Cursor

/-! ## What the passes compute -/

/-- The entries `ops` from address `a` and index `i` on, each at the address where the
one before it ends, with `b` the address behind the last one. -/
inductive Linked (memory : Nat → U8) (stop : U16) : U16 → Int → List DasmOp → U16 → Prop
  | nil (a : U16) (i : Int) : Linked memory stop a i [] a
  | cons {a b : U16} {i : Int} {ops : List DasmOp} : a < stop →
      Linked memory stop (nextAddr memory a) (i + 1) ops b →
      Linked memory stop a i (⟨sDasmLut (memory a.toNat), a, i⟩ :: ops) b

section Spec

variable {memory : Nat → U8} {stop : U16}

/-- The fill pass appends linked entries up to an address that is not below `stop`. -/
theorem fill_spec {s t : FillState} (h : Exits (fillCond stop) (fillBody memory) s t) :
    ∃ ops, t.ops = s.ops ++ ops ∧ Linked memory stop s.addr s.i ops t.addr ∧
      ¬ t.addr < stop := by
  induction h with
  | done hcond => exact ⟨[], (List.append_nil _).symm, .nil _ _, by simpa [fillCond] using hcond⟩
  | @next s t hcond _ ih =>
      obtain ⟨ops, hops, hlinked, hstop⟩ := ih
      refine ⟨⟨sDasmLut (memory s.addr.toNat), s.addr, s.i⟩ :: ops, ?_,
        .cons (by simpa [fillCond] using hcond) hlinked, hstop⟩
      rw [hops, fillBody, List.append_assoc]
      rfl

/-- The count pass counts the linked entries. -/
theorem count_spec {s t : CountState} {i : Int} {ops : List DasmOp} {b : U16}
    (h : Exits (countCond stop) (countBody memory) s t)
    (hlinked : Linked memory stop s.addr i ops b) (hb : ¬ b < stop) :
    t.numOps = s.numOps + ops.length := by
  induction h generalizing i ops with
  | @done s hcond =>
      cases hlinked with
      | nil => rfl
      | cons hlt _ => simp [countCond, hlt] at hcond
  | @next s t hcond _ ih =>
      cases hlinked with
      | nil => exact absurd (by simpa [countCond] using hcond) hb
      | cons _ hlinked =>
          have hcount := ih hlinked
          rw [hcount]
          simp only [countBody, List.length_cons]
          omega

/-- What the disassembly is when the loops terminate and the allocations succeed. -/
theorem disassemble_spec {programSize : Nat} {orgAddr : U16} {fuel : Nat}
    {d : DasmDisassembly}
    (h : adc8080DasmDisassemble fuel true true (some memory) programSize orgAddr =
      some (some d)) :
    d.memory = memory ∧ d.programSize = programSize ∧ d.numOps = d.ops.length ∧
      ∃ b, Linked memory (endAddr programSize orgAddr) orgAddr 0 d.ops b ∧
        ¬ b < endAddr programSize orgAddr := by
  simp only [adc8080DasmDisassemble, Option.bind_eq_some_iff, Bool.not_true, Bool.false_eq_true,
    if_false, Option.some.injEq] at h
  obtain ⟨count, hcount, fill, hfill, rfl⟩ := h
  obtain ⟨ops, hops, hlinked, hstop⟩ := fill_spec (exits_of_whileFuel hfill)
  have hnum := count_spec (exits_of_whileFuel hcount) hlinked hstop
  rw [List.nil_append] at hops
  refine ⟨rfl, rfl, ?_, _, hops ▸ hlinked, hstop⟩
  simp only [hnum, hops, Nat.zero_add]

/-- What the two passes leave is the disassembly. -/
theorem disassemble_of_passes {programSize : Nat} {orgAddr : U16} {fuel : Nat}
    {count : CountState} {fill : FillState}
    (hcount : whileFuel (countCond (endAddr programSize orgAddr)) (countBody memory) fuel
      ⟨orgAddr, 0⟩ = some count)
    (hfill : whileFuel (fillCond (endAddr programSize orgAddr)) (fillBody memory) fuel
      ⟨orgAddr, 0, []⟩ = some fill) :
    adc8080DasmDisassemble fuel true true (some memory) programSize orgAddr =
      some (some ⟨memory, programSize, fill.ops, count.numOps⟩) := by
  simp only [adc8080DasmDisassemble, hcount, hfill, Option.bind_some, Bool.not_true,
    Bool.false_eq_true, if_false]

/-- When the loops terminate, enough fuel gives a disassembly. -/
theorem disassemble_total {programSize : Nat} {orgAddr : U16}
    (h : LoopsTerminate memory programSize orgAddr) :
    ∃ d n, ∀ fuel, n ≤ fuel →
      adc8080DasmDisassemble fuel true true (some memory) programSize orgAddr =
        some (some d) := by
  obtain ⟨⟨count, hcount⟩, fill, hfill⟩ := h
  obtain ⟨n, hn⟩ := hcount.whileFuel
  obtain ⟨n', hn'⟩ := hfill.whileFuel
  exact ⟨⟨memory, programSize, fill.ops, count.numOps⟩, max n n', fun fuel hfuel =>
    disassemble_of_passes (hn fuel (by omega)) (hn' fuel (by omega))⟩

/-- The disassembly does not depend on the fuel. -/
theorem disassemble_unique {programSize : Nat} {orgAddr : U16} {fuel fuel' : Nat}
    {d d' : DasmDisassembly}
    (h : adc8080DasmDisassemble fuel true true (some memory) programSize orgAddr =
      some (some d))
    (h' : adc8080DasmDisassemble fuel' true true (some memory) programSize orgAddr =
      some (some d')) :
    d = d' := by
  simp only [adc8080DasmDisassemble, Option.bind_eq_some_iff, Bool.not_true, Bool.false_eq_true,
    if_false, Option.some.injEq] at h h'
  obtain ⟨count, hcount, fill, hfill, rfl⟩ := h
  obtain ⟨count', hcount', fill', hfill', rfl⟩ := h'
  rw [(exits_of_whileFuel hcount).unique (exits_of_whileFuel hcount'),
    (exits_of_whileFuel hfill).unique (exits_of_whileFuel hfill')]

end Spec

/--
A program at 0100h with operands of both sizes, a second encoding and transfers:
`LXI B,1234h; MVI A,56h; STA 2000h; *NOP; INR B; JZ 0100h; CALL 0100h`.
-/
def sampleCode : List U8 :=
  [0x01, 0x34, 0x12, 0x3E, 0x56, 0x32, 0x00, 0x20, 0x08, 0x04, 0xCA, 0x00, 0x01,
    0xCD, 0x00, 0x01]

def sampleMemory (a : Nat) : U8 :=
  sampleCode.getD ((a + 0xFF00) % 0x10000) 0x00

def sampleDisassembly : DasmDisassembly where
  memory := sampleMemory
  programSize := 16
  ops := [⟨sDasmLut 0x01, 0x0100, 0⟩, ⟨sDasmLut 0x3E, 0x0103, 1⟩, ⟨sDasmLut 0x32, 0x0105, 2⟩,
    ⟨sDasmLut 0x08, 0x0108, 3⟩, ⟨sDasmLut 0x04, 0x0109, 4⟩, ⟨sDasmLut 0xCA, 0x010A, 5⟩,
    ⟨sDasmLut 0xCD, 0x010D, 6⟩]
  numOps := 7

theorem disassemble_sample :
    adc8080DasmDisassemble 8 true true (some sampleMemory) 16 0x0100 =
      some (some sampleDisassembly) :=
  @disassemble_of_passes sampleMemory 16 0x0100 8 ⟨0x0110, 7⟩
    ⟨0x0110, 7, sampleDisassembly.ops⟩ (by decide +kernel) (by decide +kernel)

end Dasm
end AdcLibs
