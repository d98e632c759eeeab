import AdcLibs.Cpu.Bdos
import AdcLibs.Library.Observed

/-!
# Rules for machine code under the test driver

Pre- and postconditions for the code that a program runs.  A view keeps what the code is
about: pc, the registers it computes with, memory and what was printed.  There are rules
for the instructions, for the console, and for the call of a routine that works below the
stack pointer and returns.
-/

namespace AdcLibs
namespace Cpu

open Blocks Loops Reference

/-! ## Views -/

/-- The registers in use.  Register B and the flags but the sign are left out. -/
@[ext] structure Regs where
  a : U8
  c : U8
  de : U16
  hl : U16
  sign : Bool

/-- What the code is about; the cycles and the interrupt state are left out, too. -/
@[ext] structure View where
  pc : U16
  sp : U16
  regs : Regs
  mem : U16 → U8
  output : List U8

def cpuRegs (cpu : Adc8080Cpu) : Regs where
  a := cpu.ra
  c := cpu.rc
  de := Pair.d.get cpu
  hl := Pair.h.get cpu
  sign := cpu.cfs

def machineView (m : Machine (Ram Console)) : View where
  pc := m.cpu.pc
  sp := m.cpu.sp
  regs := cpuRegs m.cpu
  mem := m.world.mem
  output := m.world.dev.output

def Bench.view (s : Bench) : View := machineView s.mach

/-- The word at an address. -/
def wordAt (mem : U16 → U8) (addr : U16) : U16 := mem (addr + 1) ++ mem addr

/-- Memory with a word put at an address. -/
def putWord (mem : U16 → U8) (addr w : U16) : U16 → U8 :=
  Function.update (Function.update mem addr (w.extractLsb' 0 8)) (addr + 1) (w.extractLsb' 8 8)

theorem wordAt_putWord (mem : U16 → U8) (addr w : U16) : wordAt (putWord mem addr w) addr = w := by
  have hne : addr ≠ addr + 1 := by
    bv_omega
  rw [wordAt, putWord, Function.update_self, Function.update_of_ne hne, Function.update_self,
    append_highByte_lowByte]

/-- The accumulator and the sign of what it holds. -/
def Regs.result (r : Regs) (v : U8) : Regs := { r with a := v, sign := 128 ≤ v.toNat }

/-- Instructions of one byte that only work on registers. -/
def regsEffect : Instr → Regs → Option Regs
  | .mov (.reg .e) (.reg .a), r => some { r with de := r.de.extractLsb' 8 8 ++ r.a }
  | .mov (.reg .a) (.reg .h), r => some { r with a := r.hl.extractLsb' 8 8 }
  | .mov (.reg .a) (.reg .l), r => some { r with a := r.hl.extractLsb' 0 8 }
  | .xchg, r => some { r with de := r.hl, hl := r.de }
  | .rrc, r => some { r with a := r.a.rotateRight 1 }
  | _, _ => none

/-- Instructions on registers with a byte as operand. -/
def byteEffect : Instr → U8 → Regs → Option Regs
  | .mvi (.reg .c), b, r => some { r with c := b }
  | .aluImm .ana, b, r => some (r.result (r.a &&& b))
  | .aluImm .add, b, r => some (r.result (r.a + b))
  | .aluImm .cmp, b, r => some { r.result (r.a - b) with a := r.a }
  | _, _, _ => none

/-- What is known of a word that is pushed. -/
def Pushes : StackPair → Regs → U16 → Prop
  | .b, r, w => w.extractLsb' 0 8 = r.c
  | .d, r, w => w = r.de
  | .h, r, w => w = r.hl
  | .psw, r, w => w.extractLsb' 8 8 = r.a

/-- The registers with a word popped. -/
def popped : StackPair → U16 → Regs → Regs
  | .b, w, r => { r with c := w.extractLsb' 0 8 }
  | .d, w, r => { r with de := w }
  | .h, w, r => { r with hl := w }
  | .psw, w, r => { r with a := w.extractLsb' 8 8, sign := w.getLsbD 7 }

/-! ## Code and stack -/

/-- The address is one of the `n` bytes below the stack pointer. -/
def Below (sp : U16) (n : Nat) (a : U16) : Prop := (sp - 1 - a).toNat < n

/-- Memory changes at most in the `n` bytes below the stack pointer. -/
def Kept (mem : U16 → U8) (sp : U16) (n : Nat) (mem' : U16 → U8) : Prop :=
  ∀ a, ¬ Below sp n a → mem' a = mem a

/-- The code is in memory; `code` says what is where. -/
def InPlace (code : U16 → Option U8) (mem : U16 → U8) : Prop := ∀ a b, code a = some b → mem a = b

/-- No code is in the `n` bytes below the stack pointer. -/
def Room (code : U16 → Option U8) (sp : U16) (n : Nat) : Prop := ∀ a, Below sp n a → code a = none

section Stack

variable {code : U16 → Option U8} {mem mem' mem'' : U16 → U8} {sp : U16} {n k : Nat}

theorem Below.mono {a : U16} (h : Below sp k a) (hle : k ≤ n) : Below sp n a :=
  Nat.lt_of_lt_of_le h hle

/-- Below a lower pointer. -/
theorem Below.of_sub {a : U16} (h : Below (sp - 2) n a) : Below sp (n + 2) a := by
  rw [Below] at h ⊢
  bv_omega

theorem Kept.mono (h : Kept mem sp k mem') (hle : k ≤ n) : Kept mem sp n mem' :=
  fun a ha => h a fun hbelow => ha (hbelow.mono hle)

theorem Kept.trans (h : Kept mem sp n mem') (h' : Kept mem' sp n mem'') : Kept mem sp n mem'' :=
  fun a ha => (h' a ha).trans (h a ha)

theorem Kept.of_sub (h : Kept mem (sp - 2) n mem') : Kept mem sp (n + 2) mem' :=
  fun a ha => h a fun hbelow => ha hbelow.of_sub

/-- The word at the stack pointer is not below it. -/
theorem Kept.word (h : Kept mem sp n mem') (hn : n ≤ 65534) : wordAt mem' sp = wordAt mem sp := by
  have hlow : ¬ Below sp n sp := by
    rw [Below]
    bv_omega
  have hhigh : ¬ Below sp n (sp + 1) := by
    rw [Below]
    bv_omega
  rw [wordAt, wordAt, h _ hlow, h _ hhigh]

theorem kept_putWord (mem : U16 → U8) (sp w : U16) : Kept mem sp 2 (putWord mem (sp - 2) w) := by
  intro a ha
  have hlow : a ≠ sp - 2 := by
    rintro rfl
    exact ha (by rw [Below]; bv_omega)
  have hhigh : a ≠ sp - 2 + 1 := by
    rintro rfl
    exact ha (by rw [Below]; bv_omega)
  rw [putWord, Function.update_of_ne hhigh, Function.update_of_ne hlow]

theorem InPlace.kept (h : InPlace code mem) (hroom : Room code sp n) (hkept : Kept mem sp n mem') :
    InPlace code mem' := by
  intro a b hab
  rw [hkept a fun hbelow => by simp [hroom a hbelow] at hab]
  exact h a b hab

theorem InPlace.word (h : InPlace code mem) {a w : U16} (hlow : code a = some (w.extractLsb' 0 8))
    (hhigh : code (a + 1) = some (w.extractLsb' 8 8)) : wordAt mem a = w := by
  rw [wordAt, h _ _ hlow, h _ _ hhigh, append_highByte_lowByte]

theorem InPlace.holds (h : InPlace code mem) {bs : List U8} {a : U16}
    (hbs : Holds code a (bs.map some)) : Holds mem a bs := by
  induction bs generalizing a with
  | nil => trivial
  | cons b bs ih => exact ⟨h _ _ hbs.1, ih hbs.2⟩

theorem Room.mono (h : Room code sp n) (hle : k ≤ n) : Room code sp k :=
  fun a ha => h a (ha.mono hle)

theorem Room.of_forall (h : ∀ i < n, code (sp - 1 - BitVec.ofNat 16 i) = none) :
    Room code sp n := by
  intro a ha
  have haddr : sp - 1 - BitVec.ofNat 16 (sp - 1 - a).toNat = a := by
    rw [BitVec.ofNat_toNat, BitVec.setWidth_eq]
    bv_omega
  rw [← haddr]
  exact h _ ha

theorem Room.sub (h : Room code sp (n + 2)) : Room code (sp - 2) n :=
  fun a ha => h a ha.of_sub

end Stack

/-! ## Instructions -/

section Rules

variable (self : Ptr)

theorem Loc.store_dev (loc : Loc) (v : U8) (m : Machine (Ram Console)) :
    (loc.store (ramEnv self testDevices) v m).world.dev = m.world.dev := by
  cases loc <;> rfl

/-- Only `OUT` acts on the console. -/
theorem Instr.exec_dev {i : Instr} (hi : i ≠ .out) (m : Machine (Ram Console)) :
    (i.exec (ramEnv self testDevices) m).world.dev = m.world.dev := by
  cases i with
  | out => exact absurd rfl hi
  | mov d s | inr d | dcr d =>
      simp only [Instr.exec, Loc.load_ram_mach]
      exact Loc.store_dev self _ _ _
  | mvi d => exact Loc.store_dev self _ _ _
  | alu op s =>
      simp only [Instr.exec, Loc.load_ram_mach]
      rfl
  | jmpCond cc | callCond cc | retCond cc =>
      simp only [Instr.exec]
      split <;> rfl
  | _ => rfl

variable {self} {s : Bench}

/-- The instruction neither halts the cpu nor acts on the console. -/
structure Quiet (i : Instr) : Prop where
  not_hlt : i ≠ .hlt
  not_out : i ≠ .out

/-- A program runs on. -/
theorem Running.after (h : Running s) {i : Instr} (hquiet : Quiet i) :
    Running (s.after self i) := by
  have hcontrol : (s.after self i).mach.cpu.control =
      { s.mach.cpu.control with int := i.onInt (ready s.mach).cpu.intState } :=
    Instr.exec_control (ramEnv_frames self testDevices) i (ready s.mach)
  have hdev : (s.after self i).mach.world.dev = s.mach.world.dev :=
    Instr.exec_dev self hquiet.not_out (ready s.mach)
  have hint : (i.onInt (ready s.mach).cpu.intState).pending = false ∧
      (i.onInt (ready s.mach).cpu.intState).halted = false := by
    cases i with
    | hlt => exact absurd rfl hquiet.not_hlt
    | _ => exact ⟨h.pending, h.halted⟩
  have hlinks : ∀ cpu : Adc8080Cpu, cpu.HandlersSet ↔ cpu.control.readByte ≠ NULL ∧
      cpu.control.writeByte ≠ NULL ∧ cpu.control.readDevice ≠ NULL ∧
      cpu.control.writeDevice ≠ NULL := fun _ => Iff.rfl
  constructor
  · exact (congrArg (fun c => c.int.pending) hcontrol).trans hint.1
  · exact (congrArg (fun c => c.int.halted) hcontrol).trans hint.2
  · rw [hlinks, hcontrol]
    exact h.handlers
  · rw [hdev]
    exact h.complete
  · rw [hdev]
    exact h.stuck

/-- The byte of a sum on numbers. -/
theorem add_sum (a v : U8) : BitVec.ofNat 8 (a.toNat + v.toNat + Bool.toNat false) = a + v := by
  rw [Bool.toNat_false, Nat.add_zero, BitVec.ofNat_add, BitVec.ofNat_toNat, BitVec.ofNat_toNat,
    BitVec.setWidth_eq, BitVec.setWidth_eq]

theorem sub_difference (a v : U8) :
    BitVec.ofInt 8 (a.toNat - v.toNat - Bool.toNat false) = a - v := by
  have ha := a.isLt
  have hv := v.isLt
  apply BitVec.eq_of_toNat_eq
  rw [BitVec.toNat_ofInt, BitVec.toNat_sub, Bool.toNat_false]
  omega

/-- An instruction with an effect on the view is quiet. -/
theorem quiet_of_effect {α : Type} {f : Instr → Option α} (hhlt : f .hlt = none)
    (hout : f .out = none) {i : Instr} {x : α} (h : f i = some x) : Quiet i := by
  constructor
  · rintro rfl
    rw [hhlt] at h
    cases h
  · rintro rfl
    rw [hout] at h
    cases h

section Effects

variable {i : Instr} {m : Machine (Ram Console)} {r : Regs}

theorem view_regs (heffect : regsEffect i (cpuRegs m.cpu) = some r) :
    machineView (i.exec (ramEnv self testDevices) m) = { machineView m with regs := r } := by
  unfold regsEffect at heffect
  split at heffect
  · -- MOV E,A
    cases heffect
    have hde := congrArg (· ++ m.cpu.ra) (highByte_append m.cpu.rd m.cpu.re).symm
    exact View.ext rfl rfl (Regs.ext rfl rfl hde rfl rfl) rfl rfl
  · -- MOV A,H
    cases heffect
    exact View.ext rfl rfl (Regs.ext (highByte_append _ _).symm rfl rfl rfl rfl) rfl rfl
  · -- MOV A,L
    cases heffect
    exact View.ext rfl rfl (Regs.ext (lowByte_append _ _).symm rfl rfl rfl rfl) rfl rfl
  · -- XCHG
    cases heffect
    rfl
  · -- RRC
    cases heffect
    rfl
  · cases heffect

theorem view_byte (heffect : byteEffect i (m.world.mem m.cpu.pc) (cpuRegs m.cpu) = some r) :
    machineView (i.exec (ramEnv self testDevices) m) =
      { machineView m with pc := m.cpu.pc + 1, regs := r } := by
  unfold byteEffect at heffect
  split at heffect
  · -- MVI C
    cases heffect
    rfl
  · -- ANI
    cases heffect
    rfl
  · -- ADI
    cases heffect
    have hregs := congrArg (cpuRegs m.cpu).result (add_sum m.cpu.ra (m.world.mem m.cpu.pc))
    exact View.ext rfl rfl hregs rfl rfl
  · -- CPI
    cases heffect
    have hregs := congrArg (fun v => { (cpuRegs m.cpu).result v with a := m.cpu.ra })
      (sub_difference m.cpu.ra (m.world.mem m.cpu.pc))
    exact View.ext rfl rfl hregs rfl rfl
  · cases heffect

theorem pushes_get (p : StackPair) (cpu : Adc8080Cpu) : Pushes p (cpuRegs cpu) (p.get cpu) := by
  cases p with
  | b => exact lowByte_append _ _
  | d => rfl
  | h => rfl
  | psw => exact highByte_append _ _

theorem popped_set (p : StackPair) (w : U16) (cpu : Adc8080Cpu) :
    cpuRegs (p.set w cpu) = popped p w (cpuRegs cpu) := by
  cases p with
  | b => rfl
  | d => exact Regs.ext rfl rfl (append_highByte_lowByte _) rfl rfl
  | h => exact Regs.ext rfl rfl rfl (append_highByte_lowByte _) rfl
  | psw => rfl

theorem view_lxi :
    machineView ((Instr.lxi .h).exec (ramEnv self testDevices) m) =
      { machineView m with
        pc := m.cpu.pc + 2
        regs := { cpuRegs m.cpu with hl := wordAt m.world.mem m.cpu.pc } } :=
  View.ext rfl rfl (Regs.ext rfl rfl rfl (append_highByte_lowByte _) rfl) rfl rfl

theorem view_pop (p : StackPair) :
    machineView ((Instr.pop p).exec (ramEnv self testDevices) m) =
      { machineView m with
        sp := m.cpu.sp + 2
        regs := popped p (wordAt m.world.mem m.cpu.sp) (cpuRegs m.cpu) } := by
  cases p with
  | b => rfl
  | d => exact View.ext rfl rfl (popped_set .d _ m.cpu) rfl rfl
  | h => exact View.ext rfl rfl (popped_set .h _ m.cpu) rfl rfl
  | psw => rfl

theorem view_call :
    machineView (Instr.call.exec (ramEnv self testDevices) m) =
      { machineView m with
        pc := wordAt m.world.mem m.cpu.pc
        sp := m.cpu.sp - 2
        mem := putWord m.world.mem (m.cpu.sp - 2) (m.cpu.pc + 2) } := rfl

theorem view_jm :
    machineView ((Instr.jmpCond .m).exec (ramEnv self testDevices) m) =
      { machineView m with
        pc := if m.cpu.cfs then wordAt m.world.mem m.cpu.pc else m.cpu.pc + 2 } := by
  have hholds : Cond.m.holds (fetchWord (ramEnv self testDevices) m).mach.cpu = m.cpu.cfs := rfl
  simp only [Instr.exec, hholds]
  by_cases hsign : m.cpu.cfs = true
  · rw [if_pos hsign, if_pos hsign]
    rfl
  · rw [if_neg hsign, if_neg hsign]
    rfl

end Effects

/-- A running program with the view `S` comes to one with a view in `Q`. -/
def Leads (self : Ptr) (S : View) (Q : View → Prop) : Prop :=
  Comes testCond (testBody self) Running Bench.view S Q

variable {pc sp w w' : U16} {r r' : Regs} {mem : U16 → U8} {output : List U8} {op b : U8}
  {p : StackPair} {Q : View → Prop}

/-- An opcode that keeps the program running. -/
theorem leads_exec {i : Instr} (hop : mem pc = op) (hi : decode op = i) (hquiet : Quiet i)
    (h : ∀ m : Machine (Ram Console), machineView m = ⟨pc + 1, sp, r, mem, output⟩ →
      Leads self (machineView (i.exec (ramEnv self testDevices) m)) Q) :
    Leads self ⟨pc, sp, r, mem, output⟩ Q := by
  refine Comes.step fun s hrun hview => ⟨hrun.cond, ?_⟩
  have hpc : s.mach.cpu.pc = pc := congrArg View.pc hview
  have hmem : s.mach.world.mem = mem := congrArg View.mem hview
  have hbody : testBody self s = s.after self i := by
    rw [hrun.body self, hmem, hpc, hop, hi]
  have hready : machineView (ready s.mach) = ⟨pc + 1, sp, r, mem, output⟩ :=
    congrArg (fun S => { S with pc := S.pc + 1 }) hview
  rw [hbody]
  exact ⟨hrun.after hquiet, h (ready s.mach) hready⟩

/-- Register instructions. -/
theorem leads_regs (hop : mem pc = op) (heffect : regsEffect (decode op) r = some r')
    (h : Leads self ⟨pc + 1, sp, r', mem, output⟩ Q) : Leads self ⟨pc, sp, r, mem, output⟩ Q := by
  have hquiet := quiet_of_effect (f := fun i => regsEffect i r) rfl rfl heffect
  refine leads_exec hop rfl hquiet fun m hview => ?_
  obtain rfl : cpuRegs m.cpu = r := congrArg View.regs hview
  rw [view_regs heffect, hview]
  exact h

/-- Instructions on registers with a byte as operand. -/
theorem leads_byte (hop : mem pc = op) (hb : mem (pc + 1) = b)
    (heffect : byteEffect (decode op) b r = some r')
    (h : Leads self ⟨pc + 1 + 1, sp, r', mem, output⟩ Q) :
    Leads self ⟨pc, sp, r, mem, output⟩ Q := by
  have hquiet := quiet_of_effect (f := fun i => byteEffect i b r) rfl rfl heffect
  refine leads_exec hop rfl hquiet fun m hview => ?_
  have hpc : m.cpu.pc = pc + 1 := congrArg View.pc hview
  obtain rfl : cpuRegs m.cpu = r := congrArg View.regs hview
  obtain rfl : m.world.mem = mem := congrArg View.mem hview
  rw [← hb, ← hpc] at heffect
  rw [view_byte heffect, hview, hpc]
  exact h

/-- `LXI H` -/
theorem leads_lxi (hop : mem pc = 0x21) (hw : wordAt mem (pc + 1) = w)
    (h : Leads self ⟨pc + 1 + 2, sp, { r with hl := w }, mem, output⟩ Q) :
    Leads self ⟨pc, sp, r, mem, output⟩ Q := by
  refine leads_exec (i := .lxi .h) hop rfl ⟨by decide, by decide⟩ fun m hview => ?_
  have hpc : m.cpu.pc = pc + 1 := congrArg View.pc hview
  obtain rfl : cpuRegs m.cpu = r := congrArg View.regs hview
  obtain rfl : m.world.mem = mem := congrArg View.mem hview
  rw [view_lxi, hview, hpc, hw]
  exact h

/-- A push leaves memory as it is but for the word below the stack pointer. -/
theorem leads_push (hop : mem pc = op) (hi : decode op = .push p)
    (h : ∀ w mem', Pushes p r w → Kept mem sp 2 mem' → wordAt mem' (sp - 2) = w →
      Leads self ⟨pc + 1, sp - 2, r, mem', output⟩ Q) :
    Leads self ⟨pc, sp, r, mem, output⟩ Q := by
  refine leads_exec hop hi ⟨Instr.noConfusion, Instr.noConfusion⟩ fun m hview => ?_
  obtain rfl : m.cpu.sp = sp := congrArg View.sp hview
  obtain rfl : cpuRegs m.cpu = r := congrArg View.regs hview
  obtain rfl : m.world.mem = mem := congrArg View.mem hview
  have hexec : machineView ((Instr.push p).exec (ramEnv self testDevices) m) =
      { machineView m with
        sp := m.cpu.sp - 2, mem := putWord m.world.mem (m.cpu.sp - 2) (p.get m.cpu) } := rfl
  rw [hexec, hview]
  exact h _ _ (pushes_get p m.cpu) (kept_putWord _ _ _) (wordAt_putWord _ _ _)

theorem leads_pop (hop : mem pc = op) (hi : decode op = .pop p)
    (h : Leads self ⟨pc + 1, sp + 2, popped p (wordAt mem sp) r, mem, output⟩ Q) :
    Leads self ⟨pc, sp, r, mem, output⟩ Q := by
  refine leads_exec hop hi ⟨Instr.noConfusion, Instr.noConfusion⟩ fun m hview => ?_
  obtain rfl : m.cpu.sp = sp := congrArg View.sp hview
  obtain rfl : cpuRegs m.cpu = r := congrArg View.regs hview
  obtain rfl : m.world.mem = mem := congrArg View.mem hview
  rw [view_pop, hview]
  exact h

theorem leads_jmp (hop : mem pc = 0xC3) (hw : wordAt mem (pc + 1) = w)
    (h : Leads self ⟨w, sp, r, mem, output⟩ Q) : Leads self ⟨pc, sp, r, mem, output⟩ Q := by
  refine leads_exec (i := .jmp) hop rfl ⟨by decide, by decide⟩ fun m hview => ?_
  have hpc : m.cpu.pc = pc + 1 := congrArg View.pc hview
  obtain rfl : m.world.mem = mem := congrArg View.mem hview
  have hexec : machineView (Instr.jmp.exec (ramEnv self testDevices) m) =
      { machineView m with pc := wordAt m.world.mem m.cpu.pc } := rfl
  rw [hexec, hview, hpc, hw]
  exact h

/-- `JM` -/
theorem leads_jm (hop : mem pc = 0xFA) (hw : wordAt mem (pc + 1) = w)
    (hsign : (if r.sign then w else pc + 1 + 2) = w')
    (h : Leads self ⟨w', sp, r, mem, output⟩ Q) : Leads self ⟨pc, sp, r, mem, output⟩ Q := by
  subst hsign
  refine leads_exec (i := .jmpCond .m) hop rfl ⟨by decide, by decide⟩ fun m hview => ?_
  have hpc : m.cpu.pc = pc + 1 := congrArg View.pc hview
  obtain rfl : cpuRegs m.cpu = r := congrArg View.regs hview
  obtain rfl : m.world.mem = mem := congrArg View.mem hview
  rw [view_jm, hview, hpc, hw]
  exact h

theorem leads_call (hop : mem pc = 0xCD) (hw : wordAt mem (pc + 1) = w)
    (h : Leads self ⟨w, sp - 2, r, putWord mem (sp - 2) (pc + 3), output⟩ Q) :
    Leads self ⟨pc, sp, r, mem, output⟩ Q := by
  refine leads_exec (i := .call) hop rfl ⟨by decide, by decide⟩ fun m hview => ?_
  have hpc : m.cpu.pc = pc + 1 := congrArg View.pc hview
  obtain rfl : m.cpu.sp = sp := congrArg View.sp hview
  obtain rfl : m.world.mem = mem := congrArg View.mem hview
  have hret : pc + 1 + 2 = pc + 3 := by
    bv_omega
  rw [view_call, hview, hpc, hw, hret]
  exact h

theorem leads_ret (hop : mem pc = 0xC9)
    (h : Leads self ⟨wordAt mem sp, sp + 2, r, mem, output⟩ Q) :
    Leads self ⟨pc, sp, r, mem, output⟩ Q := by
  refine leads_exec (i := .ret) hop rfl ⟨by decide, by decide⟩ fun m hview => ?_
  obtain rfl : m.cpu.sp = sp := congrArg View.sp hview
  obtain rfl : m.world.mem = mem := congrArg View.mem hview
  have hexec : machineView (Instr.ret.exec (ramEnv self testDevices) m) =
      { machineView m with pc := wordAt m.world.mem m.cpu.sp, sp := m.cpu.sp + 2 } := rfl
  rw [hexec, hview]
  exact h

/-- What a system call prints. -/
def Prints (r : Regs) (mem : U16 → U8) (text : List U8) : Prop :=
  r.c = 2 ∧ text = [r.de.extractLsb' 0 8] ∨ r.c = 9 ∧ IsText mem r.de text

theorem Prints.bdosPrints {cpu : Adc8080Cpu} {text : List U8} (h : Prints (cpuRegs cpu) mem text) :
    BdosPrints mem cpu text := by
  rcases h with ⟨hc, rfl⟩ | ⟨hc, htext⟩
  · have he : (cpuRegs cpu).de.extractLsb' 0 8 = cpu.re := lowByte_append _ _
    rw [he]
    exact .char hc
  · have hde : getRde cpu = (cpuRegs cpu).de := wordFromBytes_eq _ _
    rw [← hde] at htext
    exact .string hc htext

/-- `OUT 1` -/
theorem leads_print {text : List U8} (hop : mem pc = 0xD3) (hdevice : mem (pc + 1) = 1)
    (hprints : Prints r mem text)
    (h : Leads self ⟨pc + 1 + 1, sp, r, mem, output ++ text⟩ Q) :
    Leads self ⟨pc, sp, r, mem, output⟩ Q := by
  refine Comes.step fun s hrun hview => ⟨hrun.cond, ?_⟩
  obtain rfl : s.mach.cpu.pc = pc := congrArg View.pc hview
  obtain rfl : cpuRegs s.mach.cpu = r := congrArg View.regs hview
  obtain rfl : s.mach.cpu.sp = sp := congrArg View.sp hview
  obtain rfl : s.mach.world.mem = mem := congrArg View.mem hview
  obtain rfl : s.mach.world.dev.output = output := congrArg View.output hview
  have hout : decode (s.mach.world.mem s.mach.cpu.pc) = .out := by
    rw [hop]
    rfl
  have hdev := handleDeviceWrite_prints hprints.bdosPrints s.mach.world.dev
  rw [hrun.body self, hout, after_out self hout, hdevice, hdev]
  exact ⟨⟨hrun.pending, hrun.halted, hrun.handlers, hrun.complete, hrun.stuck⟩, h⟩

/-- `OUT 0` ends the test. -/
theorem Running.exits (h : Running s) (hview : s.view = ⟨pc, sp, r, mem, output⟩)
    (hop : mem pc = 0xD3) (hdevice : mem (pc + 1) = 0) :
    ∃ t, Exits testCond (testBody self) s t ∧ t.mach.world.dev.output = output := by
  obtain rfl : s.mach.cpu.pc = pc := congrArg View.pc hview
  obtain rfl : s.mach.world.mem = mem := congrArg View.mem hview
  obtain rfl : s.mach.world.dev.output = output := congrArg View.output hview
  have hout : decode (s.mach.world.mem s.mach.cpu.pc) = .out := by
    rw [hop]
    rfl
  have hbody := h.body self
  rw [hout, after_out self hout, hdevice] at hbody
  refine ⟨testBody self s, .next h.cond (.done ?_), ?_⟩
  · rw [hbody]
    rfl
  · rw [hbody]
    rfl

end Rules

/-! ## Routines -/

/-- How a routine returns that works in `n` bytes below the stack pointer. -/
structure Returns (n : Nat) (sp : U16) (mem : U16 → U8) (T : View) : Prop where
  pc_eq : T.pc = wordAt mem sp
  sp_eq : T.sp = sp + 2
  kept : Kept mem sp n T.mem

/-- A return after some work on the stack. -/
theorem Returns.of_kept {n k : Nat} {sp : U16} {mem mem' : U16 → U8} {T : View}
    (h : Returns k sp mem' T) (hkept : Kept mem sp n mem') (hle : k ≤ n) (hn : n ≤ 65534) :
    Returns n sp mem T :=
  ⟨h.pc_eq.trans (hkept.word hn), h.sp_eq, hkept.trans (h.kept.mono hle)⟩

/-- The code at `entry` is a routine: called where `pre` holds, it returns, and `post` relates
the views. -/
def Routine (self : Ptr) (code : U16 → Option U8) (entry : U16) (n : Nat) (pre : View → Prop)
    (post : View → View → Prop) : Prop :=
  ∀ S : View, S.pc = entry → InPlace code S.mem → Room code S.sp n → pre S →
    Leads self S fun T => Returns n S.sp S.mem T ∧ post S T

/-- The view in which a routine begins that is called at `pc`. -/
def entered (entry pc sp : U16) (r : Regs) (mem : U16 → U8) (output : List U8) : View :=
  ⟨entry, sp - 2, r, putWord mem (sp - 2) (pc + 3), output⟩

section Calls

variable {self : Ptr} {code : U16 → Option U8} {entry pc sp : U16} {n : Nat} {pre : View → Prop}
  {post : View → View → Prop} {r : Regs} {mem : U16 → U8} {output : List U8} {Q : View → Prop}

/-- The rule of a call. -/
theorem Routine.call (h : Routine self code entry n pre post) (hin : InPlace code mem)
    (hroom : Room code sp (n + 2)) (hop : mem pc = 0xCD) (haddr : wordAt mem (pc + 1) = entry)
    (hpre : pre (entered entry pc sp r mem output))
    (hnext : ∀ r' mem' output', Kept mem sp (n + 2) mem' →
      post (entered entry pc sp r mem output) ⟨pc + 3, sp, r', mem', output'⟩ →
      Leads self ⟨pc + 3, sp, r', mem', output'⟩ Q) :
    Leads self ⟨pc, sp, r, mem, output⟩ Q := by
  have hpushed : Kept mem sp 2 (putWord mem (sp - 2) (pc + 3)) := kept_putWord _ _ _
  have hbody := h (entered entry pc sp r mem output) rfl
    (hin.kept (hroom.mono (by omega)) hpushed) hroom.sub hpre
  refine leads_call hop haddr (hbody.bind ?_)
  rintro ⟨pc', sp', r', mem', output'⟩ ⟨⟨hpc, hsp, hkept⟩, hpost⟩
  obtain rfl : pc' = pc + 3 := hpc.trans (wordAt_putWord _ _ _)
  obtain rfl : sp' = sp := hsp.trans (BitVec.sub_add_cancel sp 2)
  exact hnext r' mem' output' ((hpushed.mono (by omega)).trans hkept.of_sub) hpost

/-- The rule of code that goes on as a routine. -/
theorem Routine.tail (h : Routine self code entry n pre post) (hin : InPlace code mem)
    (hroom : Room code sp n) (hpre : pre ⟨entry, sp, r, mem, output⟩)
    (hnext : ∀ T, Returns n sp mem T → post ⟨entry, sp, r, mem, output⟩ T → Q T) :
    Leads self ⟨entry, sp, r, mem, output⟩ Q := by
  have hbody := h ⟨entry, sp, r, mem, output⟩ rfl hin hroom hpre
  exact Comes.mono hbody fun T hT => hnext T hT.1 hT.2

end Calls

end Cpu
end AdcLibs
