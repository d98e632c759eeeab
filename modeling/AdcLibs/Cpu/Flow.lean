import AdcLibs.Cpu.Ram
import AdcLibs.Cpu.Interrupts

/-!
# Flow of control

How many operand bytes an instruction has, when it transfers control, and
which instructions involve the stack pointer.  An instruction that transfers
nothing leaves pc behind its operands.
-/

namespace AdcLibs
namespace Cpu
namespace Reference

universe u

/-- The number of operand bytes after the opcode. -/
def Instr.operandBytes : Instr → Nat
  | .mvi _ | .aluImm _ | .inp | .out => 1
  | .lxi _ | .sta | .lda | .shld | .lhld => 2
  | .jmp | .jmpCond _ | .call | .callCond _ => 2
  | _ => 0

/-- The instruction goes elsewhere than to its successor. -/
def Instr.transfers : Instr → Adc8080Cpu → Bool
  | .jmp, _ | .call, _ | .ret, _ | .rst _, _ | .pchl, _ => true
  | .jmpCond cc, cpu | .callCond cc, cpu | .retCond cc, cpu => cc.holds cpu
  | _, _ => false

/-- The instruction may transfer control. -/
def Instr.isTransfer : Instr → Bool
  | .jmp | .call | .ret | .rst _ | .pchl => true
  | .jmpCond _ | .callCond _ | .retCond _ => true
  | _ => false

/-- The instruction uses or changes the stack pointer. -/
def Instr.usesSp : Instr → Bool
  | .lxi .sp | .inx .sp | .dcx .sp | .dad .sp => true
  | .push _ | .pop _ | .sphl | .xthl => true
  | .call | .callCond _ | .ret | .retCond _ | .rst _ => true
  | _ => false

theorem Instr.transfers_of_not_isTransfer {i : Instr} (h : i.isTransfer = false)
    (cpu : Adc8080Cpu) : i.transfers cpu = false := by
  cases i <;> first | rfl | exact absurd h Bool.noConfusion

/-- Conditions look at the flags only. -/
theorem Cond.holds_pc (cc : Cond) (cpu : Adc8080Cpu) (pc : U16) :
    cc.holds { cpu with pc := pc } = cc.holds cpu := by
  cases cc <;> rfl

@[simp] theorem Reg.set_pc (r : Reg) (v : U8) (cpu : Adc8080Cpu) :
    (r.set v cpu).pc = cpu.pc := by
  cases r <;> rfl

@[simp] theorem Reg.set_sp (r : Reg) (v : U8) (cpu : Adc8080Cpu) :
    (r.set v cpu).sp = cpu.sp := by
  cases r <;> rfl

@[simp] theorem Pair.set_pc (p : Pair) (w : U16) (cpu : Adc8080Cpu) :
    (p.set w cpu).pc = cpu.pc := by
  cases p <;> rfl

theorem Pair.set_sp {p : Pair} (h : p ≠ .sp) (w : U16) (cpu : Adc8080Cpu) :
    (p.set w cpu).sp = cpu.sp := by
  cases p <;> first | rfl | exact absurd rfl h

@[simp] theorem StackPair.set_pc (p : StackPair) (w : U16) (cpu : Adc8080Cpu) :
    (p.set w cpu).pc = cpu.pc := by
  cases p <;> rfl

@[simp] theorem StackPair.set_sp (p : StackPair) (w : U16) (cpu : Adc8080Cpu) :
    (p.set w cpu).sp = cpu.sp := by
  cases p <;> rfl

@[simp] theorem AluOp.exec_pc (op : AluOp) (v : U8) (cpu : Adc8080Cpu) :
    (op.exec v cpu).pc = cpu.pc := by
  cases op <;> rfl

@[simp] theorem AluOp.exec_sp (op : AluOp) (v : U8) (cpu : Adc8080Cpu) :
    (op.exec v cpu).sp = cpu.sp := by
  cases op <;> rfl

section Frames

variable {W : Type u} {E : Env W} (hE : E.Frames)
include hE

@[simp] theorem Loc.store_pc (loc : Loc) (v : U8) (m : Machine W) :
    (loc.store E v m).cpu.pc = m.cpu.pc := by
  rcases loc.store_cpu hE v m with h | ⟨r, h⟩ <;> simp [h]

@[simp] theorem Loc.store_sp (loc : Loc) (v : U8) (m : Machine W) :
    (loc.store E v m).cpu.sp = m.cpu.sp := by
  rcases loc.store_cpu hE v m with h | ⟨r, h⟩ <;> simp [h]

/-- Without a transfer pc ends behind the operands. -/
theorem Instr.exec_pc {i : Instr} {m : Machine W} (h : i.transfers m.cpu = false) :
    (i.exec E m).cpu.pc = m.cpu.pc + BitVec.ofNat 16 i.operandBytes := by
  cases i with
  | nop | hlt | ei | di | stc | cmc | cma | rlc | rrc | ral | rar | daa | sphl | xchg =>
      exact (BitVec.add_zero _).symm
  | jmp | call | ret | rst n | pchl => exact absurd h Bool.noConfusion
  | inx p | dcx p => exact ((p.set_pc _ _).trans (BitVec.add_zero _).symm)
  | dad p => exact (BitVec.add_zero _).symm
  | mov d s => simp [Instr.exec, Instr.operandBytes, hE]
  | inr d => simp [Instr.exec, Instr.operandBytes, hE, inrFlags, resultFlags]
  | dcr d => simp [Instr.exec, Instr.operandBytes, hE, dcrFlags, resultFlags]
  | mvi d => simp [Instr.exec, Instr.operandBytes, hE]
  | alu op s => simp [Instr.exec, Instr.operandBytes, hE]
  | aluImm op => simp [Instr.exec, Instr.operandBytes, hE]
  | lxi p => simp [Instr.exec, Instr.operandBytes, hE]
  | push p => simp [Instr.exec, Instr.operandBytes, hE]
  | pop p => simp [Instr.exec, Instr.operandBytes, hE]
  | stax p => simp [Instr.exec, Instr.operandBytes, hE]
  | ldax p => simp [Instr.exec, Instr.operandBytes, hE]
  | sta => simp [Instr.exec, Instr.operandBytes, hE]
  | lda => simp [Instr.exec, Instr.operandBytes, hE]
  | shld => simp [Instr.exec, Instr.operandBytes, hE]
  | lhld => simp [Instr.exec, Instr.operandBytes, hE]
  | jmpCond cc =>
      have hcc : cc.holds m.cpu = false := h
      simp [Instr.exec, Instr.operandBytes, hE, Cond.holds_pc, hcc]
  | callCond cc =>
      have hcc : cc.holds m.cpu = false := h
      simp [Instr.exec, Instr.operandBytes, hE, Cond.holds_pc, hcc]
  | retCond cc =>
      have hcc : cc.holds m.cpu = false := h
      simp [Instr.exec, Instr.operandBytes, hcc]
  | xthl => simp [Instr.exec, Instr.operandBytes, hE]
  | inp => simp [Instr.exec, Instr.operandBytes, hE, hE.readDevice]
  | out => simp [Instr.exec, Instr.operandBytes, hE, hE.writeDevice]

/-- An instruction that does not use the stack pointer leaves it alone. -/
theorem Instr.exec_sp {i : Instr} (h : i.usesSp = false) (m : Machine W) :
    (i.exec E m).cpu.sp = m.cpu.sp := by
  cases i with
  | nop | hlt | ei | di | stc | cmc | cma | rlc | rrc | ral | rar | daa | xchg | pchl => rfl
  | push p | pop p | sphl | xthl | call | callCond cc | ret | retCond cc | rst n =>
      exact absurd h Bool.noConfusion
  | inx p | dcx p | lxi p =>
      have hp : p ≠ .sp := fun heq => by simp [heq, Instr.usesSp] at h
      simp [Instr.exec, Pair.set_sp hp, hE]
  | dad p => rfl
  | mov d s => simp [Instr.exec, hE]
  | inr d => simp [Instr.exec, hE, inrFlags, resultFlags]
  | dcr d => simp [Instr.exec, hE, dcrFlags, resultFlags]
  | mvi d => simp [Instr.exec, hE]
  | alu op s => simp [Instr.exec, hE]
  | aluImm op => simp [Instr.exec, hE]
  | stax p => simp [Instr.exec, hE]
  | ldax p => simp [Instr.exec, hE]
  | sta => simp [Instr.exec, hE]
  | lda => simp [Instr.exec, hE]
  | shld => simp [Instr.exec, hE]
  | lhld => simp [Instr.exec, hE, Pair.set_sp (p := .h) (by decide)]
  | jmp => simp [Instr.exec, goto, hE]
  | jmpCond cc =>
      simp only [Instr.exec]
      split <;> simp [goto, hE]
  | inp => simp [Instr.exec, hE, hE.readDevice]
  | out => simp [Instr.exec, hE, hE.writeDevice]

end Frames

end Reference
end Cpu
end AdcLibs
