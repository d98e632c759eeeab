import AdcLibs.Cpu.Reference

/-!
# Encoding by bit fields

The opcode byte of an instruction, put together from its fields.  An instruction may have
second encodings; the encoder does not use them.
-/

namespace AdcLibs
namespace Cpu
namespace Reference

/-! ## Fields -/

/-- `B C D E H L M A` -/
def Operand.field : Operand → BitVec 3
  | .reg .b => 0
  | .reg .c => 1
  | .reg .d => 2
  | .reg .e => 3
  | .reg .h => 4
  | .reg .l => 5
  | .mem => 6
  | .reg .a => 7

/-- `B D H SP` -/
def Pair.field : Pair → BitVec 2
  | .b => 0
  | .d => 1
  | .h => 2
  | .sp => 3

/-- `B D H PSW` -/
def StackPair.field : StackPair → BitVec 2
  | .b => 0
  | .d => 1
  | .h => 2
  | .psw => 3

/-- `NZ Z NC C PO PE P M` -/
def Cond.field : Cond → BitVec 3
  | .nz => 0
  | .z => 1
  | .nc => 2
  | .c => 3
  | .po => 4
  | .pe => 5
  | .p => 6
  | .m => 7

/-- `ADD ADC SUB SBB ANA XRA ORA CMP` -/
def AluOp.field : AluOp → BitVec 3
  | .add => 0
  | .adc => 1
  | .sub => 2
  | .sbb => 3
  | .ana => 4
  | .xra => 5
  | .ora => 6
  | .cmp => 7

/-! ## Opcodes -/

/-- The opcode byte of an instruction. -/
def Instr.opcode : Instr → U8
  | .nop => 0x00
  | .mov d s => 0b01#2 ++ d.field ++ s.field
  | .hlt => 0x76
  | .inr d => 0b00#2 ++ d.field ++ 4#3
  | .dcr d => 0b00#2 ++ d.field ++ 5#3
  | .mvi d => 0b00#2 ++ d.field ++ 6#3
  | .alu op s => 0b10#2 ++ op.field ++ s.field
  | .aluImm op => 0b11#2 ++ op.field ++ 6#3
  | .lxi p => 0b00#2 ++ p.field ++ 0b0001#4
  | .inx p => 0b00#2 ++ p.field ++ 0b0011#4
  | .dcx p => 0b00#2 ++ p.field ++ 0b1011#4
  | .dad p => 0b00#2 ++ p.field ++ 0b1001#4
  | .push p => 0b11#2 ++ p.field ++ 0b0101#4
  | .pop p => 0b11#2 ++ p.field ++ 0b0001#4
  | .stax p => 0b00#2 ++ p.field ++ 0b0010#4
  | .ldax p => 0b00#2 ++ p.field ++ 0b1010#4
  | .shld => 0x22
  | .lhld => 0x2A
  | .sta => 0x32
  | .lda => 0x3A
  | .rlc => 0x07
  | .rrc => 0x0F
  | .ral => 0x17
  | .rar => 0x1F
  | .daa => 0x27
  | .cma => 0x2F
  | .stc => 0x37
  | .cmc => 0x3F
  | .jmp => 0xC3
  | .jmpCond cc => 0b11#2 ++ cc.field ++ 2#3
  | .call => 0xCD
  | .callCond cc => 0b11#2 ++ cc.field ++ 4#3
  | .ret => 0xC9
  | .retCond cc => 0b11#2 ++ cc.field ++ 0#3
  | .rst n => 0b11#2 ++ n ++ 7#3
  | .pchl => 0xE9
  | .sphl => 0xF9
  | .xchg => 0xEB
  | .xthl => 0xE3
  | .inp => 0xDB
  | .out => 0xD3
  | .ei => 0xFB
  | .di => 0xF3

/-- The opcode bytes that encode an instruction for a second time. -/
def SecondEncoding (b : U8) : Prop :=
  b ∈ ([0x08, 0x10, 0x18, 0x20, 0x28, 0x30, 0x38, 0xCB, 0xD9, 0xDD, 0xED, 0xFD] : List U8)

instance (b : U8) : Decidable (SecondEncoding b) :=
  inferInstanceAs (Decidable (b ∈ _))

/-- A decoded instruction is encoded by its own byte, or by the first of its encodings. -/
theorem opcode_decode_iff (b : U8) : (decode b).opcode = b ↔ ¬ SecondEncoding b := by
  revert b
  decide

/-- Encoding does not change the instruction. -/
theorem decode_opcode_decode (b : U8) : decode (decode b).opcode = decode b := by
  revert b
  decide

end Reference
end Cpu
end AdcLibs
