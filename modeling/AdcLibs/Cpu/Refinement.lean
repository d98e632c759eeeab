import AdcLibs.Cpu.Alu

/-!
# `exec_next` refines the bit-field reference

The switch agrees with the reference interpreter on every opcode byte, every
state and every behaviour of the handlers.
-/

namespace AdcLibs
namespace Cpu

universe u

open Reference

variable {W : Type u} (E : Env W)

theorem Reference.Instr.dispatch_push (p : StackPair) (m : Machine W) :
    (Instr.push p).dispatch E (fetchers E) m = pushWord E (p.get m.cpu) m := by
  cases p with
  | b => exact (stackPush_eq E _ m).trans (congrArg (pushWord E · m) (wordFromBytes_eq _ _))
  | d => exact (stackPush_eq E _ m).trans (congrArg (pushWord E · m) (wordFromBytes_eq _ _))
  | h => exact (stackPush_eq E _ m).trans (congrArg (pushWord E · m) (wordFromBytes_eq _ _))
  | psw =>
      simp only [Instr.dispatch, opPushPsw, stackPush_eq, wordFromBytes_eq, pswByte_eq,
        StackPair.get]

theorem Reference.Instr.dispatch_pop (p : StackPair) (m : Machine W) :
    (Instr.pop p).dispatch E (fetchers E) m =
      (popWord E m).mach.onCpu (p.set (popWord E m).val) := by
  rw [← stackPop_eq]
  cases p with
  | b => exact Machine.onCpu_congr (Pair.b.setWord_eq _ _)
  | d => exact Machine.onCpu_congr (Pair.d.setWord_eq _ _)
  | h => exact Machine.onCpu_congr (Pair.h.setWord_eq _ _)
  | psw => exact Machine.onCpu_congr (setPsw_eq _ _)

/-- Each instruction form of the switch has its reference meaning. -/
theorem Reference.Instr.dispatch_eq_exec (i : Instr) (m : Machine W) :
    i.dispatch E (fetchers E) m = i.exec E m := by
  cases i with
  | nop => rfl
  | mov d s =>
      simp only [Instr.dispatch, Instr.exec, Operand.place_eq, Loc.read_eq, Loc.write_eq]
  | hlt => rfl
  | inr d =>
      simp only [Instr.dispatch, Instr.exec, Operand.place_eq, Loc.read_eq, Loc.write_eq,
        opInr_eq]
      rfl
  | dcr d =>
      simp only [Instr.dispatch, Instr.exec, Operand.place_eq, Loc.read_eq, Loc.write_eq,
        opDcr_eq]
      rfl
  | mvi d =>
      simp only [Instr.dispatch, Instr.exec, Operand.place_eq, Loc.write_eq]
      rfl
  | alu op s =>
      simp only [Instr.dispatch, Instr.exec, Operand.place_eq, Loc.read_eq]
      exact Machine.onCpu_congr (op.call_eq _ _)
  | aluImm op => exact Machine.onCpu_congr (op.call_eq _ _)
  | lxi p =>
      simp only [Instr.dispatch, Instr.exec, fetchers, nextWord_eq]
      exact Machine.onCpu_congr (p.setWord_eq _ _)
  | inx p => simp only [Instr.dispatch, Instr.exec, Pair.getWord_eq, Pair.setWord_eq]
  | dcx p => simp only [Instr.dispatch, Instr.exec, Pair.getWord_eq, Pair.setWord_eq]
  | dad p => simp only [Instr.dispatch, Instr.exec, Pair.getWord_eq, opDad_eq]
  | push p => exact dispatch_push E p m
  | pop p => exact dispatch_pop E p m
  | stax p =>
      simp only [Instr.dispatch, Instr.exec, Pair.getWord_eq]
      rfl
  | ldax p =>
      simp only [Instr.dispatch, Instr.exec, Pair.getWord_eq]
      rfl
  | sta =>
      simp only [Instr.dispatch, Instr.exec, fetchers, nextWord_eq]
      rfl
  | lda =>
      simp only [Instr.dispatch, Instr.exec, fetchers, nextWord_eq]
      rfl
  | shld => simp only [Instr.dispatch, Instr.exec, fetchers, nextWord_eq, writeWord_eq, getRhl_eq]
  | lhld =>
      simp only [Instr.dispatch, Instr.exec, fetchers, nextWord_eq, readWord_eq]
      exact Machine.onCpu_congr (setRhl_eq _ _)
  | rlc => exact Machine.onCpu_congr (opRlc_eq _)
  | rrc => exact Machine.onCpu_congr (opRrc_eq _)
  | ral => exact Machine.onCpu_congr (opRal_eq _)
  | rar => exact Machine.onCpu_congr (opRar_eq _)
  | daa => exact Machine.onCpu_congr (opDaa_eq _)
  | cma => rfl
  | stc => rfl
  | cmc => rfl
  | jmp =>
      simp only [Instr.dispatch, Instr.exec, fetchers, nextWord_eq]
      rfl
  | jmpCond cc =>
      simp only [Instr.dispatch, Instr.exec, fetchers, nextWord_eq, opJmpCond, Cond.test_eq]
      rfl
  | call =>
      simp only [Instr.dispatch, Instr.exec, fetchers, nextWord_eq, opCall, stackPush_eq]
      rfl
  | callCond cc =>
      simp only [Instr.dispatch, Instr.exec, fetchers, nextWord_eq, opCallCond, opCall,
        stackPush_eq, Cond.test_eq]
      rfl
  | ret =>
      simp only [Instr.dispatch, Instr.exec, stackPop_eq]
      rfl
  | retCond cc =>
      simp only [Instr.dispatch, Instr.exec, opRetCond, stackPop_eq, Cond.test_eq]
      rfl
  | rst n =>
      simp only [Instr.dispatch, Instr.exec, opCall, stackPush_eq]
      rfl
  | pchl => simp only [Instr.dispatch, Instr.exec, getRhl_eq, goto, Machine.onCpu]
  | sphl => simp only [Instr.dispatch, Instr.exec, getRhl_eq]
  | xchg => exact Machine.onCpu_congr (opXchg_eq _)
  | xthl =>
      simp only [Instr.dispatch, Instr.exec, opXthl, readWord_eq, writeWord_eq, getRhl_eq]
      exact Machine.onCpu_congr (setRhl_eq _ _)
  | inp => rfl
  | out => rfl
  | ei => rfl
  | di => rfl

/-- The switch is the reference meaning of the decoded byte. -/
theorem execSwitch_eq_exec (opcode : U8) (m : Machine W) :
    execSwitch E (fetchers E) opcode m = (decode opcode).exec E m := by
  rw [execSwitch_eq_dispatch, Instr.dispatch_eq_exec]

/-- The cycle table, row by row, against the reference counts. -/
theorem sCyclesLut_eq (opcode : U8) : sCyclesLut opcode = (decode opcode).cycles := by
  revert opcode
  decide

theorem clearDelay_eq (cpu : Adc8080Cpu) :
    (if cpu.interruptDelay then { cpu with interruptDelay := false } else cpu) =
      { cpu with interruptDelay := false } := by
  cases h : cpu.interruptDelay with
  | true => rfl
  | false => ext <;> simp [h]

/-- `exec_next` is the reference interpreter. -/
theorem execNext_eq_exec (opcode : U8) (m : Machine W) :
    execNext E opcode m = Reference.exec E opcode m := by
  simp only [execNext, execNextWith, Reference.exec, execSwitch_eq_exec, clearDelay_eq,
    sCyclesLut_eq]
  rfl

/-- The instruction encoding of the 8080 by bit fields. -/
structure BitFields (dec : U8 → Instr) : Prop where
  mov : ∀ d s : BitVec 3, dec (0b01#2 ++ d ++ s) =
    if d = 6 ∧ s = 6 then .hlt else .mov (operand d) (operand s)
  inr : ∀ d : BitVec 3, dec (0b00#2 ++ d ++ 0b100#3) = .inr (operand d)
  dcr : ∀ d : BitVec 3, dec (0b00#2 ++ d ++ 0b101#3) = .dcr (operand d)
  mvi : ∀ d : BitVec 3, dec (0b00#2 ++ d ++ 0b110#3) = .mvi (operand d)
  alu : ∀ o s : BitVec 3, dec (0b10#2 ++ o ++ s) = .alu (aluOp o) (operand s)
  aluImm : ∀ o : BitVec 3, dec (0b11#2 ++ o ++ 0b110#3) = .aluImm (aluOp o)
  lxi : ∀ p : BitVec 2, dec (0b00#2 ++ p ++ 0b0001#4) = .lxi (pair p)
  inx : ∀ p : BitVec 2, dec (0b00#2 ++ p ++ 0b0011#4) = .inx (pair p)
  dad : ∀ p : BitVec 2, dec (0b00#2 ++ p ++ 0b1001#4) = .dad (pair p)
  dcx : ∀ p : BitVec 2, dec (0b00#2 ++ p ++ 0b1011#4) = .dcx (pair p)
  push : ∀ p : BitVec 2, dec (0b11#2 ++ p ++ 0b0101#4) = .push (stackPair p)
  pop : ∀ p : BitVec 2, dec (0b11#2 ++ p ++ 0b0001#4) = .pop (stackPair p)
  retCond : ∀ c : BitVec 3, dec (0b11#2 ++ c ++ 0b000#3) = .retCond (cond c)
  jmpCond : ∀ c : BitVec 3, dec (0b11#2 ++ c ++ 0b010#3) = .jmpCond (cond c)
  callCond : ∀ c : BitVec 3, dec (0b11#2 ++ c ++ 0b100#3) = .callCond (cond c)
  rst : ∀ n : BitVec 3, dec (0b11#2 ++ n ++ 0b111#3) = .rst n
  nop : ∀ n : BitVec 3, dec (0b00#2 ++ n ++ 0b000#3) = .nop
  jmp : ∀ b : BitVec 1, dec (0b1100#4 ++ b ++ 0b011#3) = .jmp
  ret : ∀ b : BitVec 1, dec (0b110#3 ++ b ++ 0b1001#4) = .ret
  call : ∀ p : BitVec 2, dec (0b11#2 ++ p ++ 0b1101#4) = .call

/--
`exec_next` refines the bit-field encoding: the reference interpreter, whose
decoder is given by the fields, computes the same machine from every state.
-/
theorem execNext_refines_bitFields :
    BitFields decode ∧
      ∀ (E : Env W) (opcode : U8) (m : Machine W),
        execNext E opcode m = Reference.exec E opcode m := by
  refine ⟨?_, fun E opcode m => execNext_eq_exec E opcode m⟩
  constructor <;> decide

end Cpu
end AdcLibs
