import AdcLibs.Cpu.Exec
import AdcLibs.Cpu.Reference
import Mathlib.Tactic.IntervalCases

/-!
# The switch, folded along the bit fields

`Instr.dispatch` is the switch of `exec_next` with its cases collected by
instruction form: it calls the helpers of the source, but picks their operands
by the decoded fields.  `execSwitch_eq_dispatch` checks all 256 cases of
the switch against it, so that later arguments split on an instruction form and not
on an opcode byte.
-/

namespace AdcLibs
namespace Cpu

universe u

open Reference

variable {W : Type u} (E : Env W)

/-- The register pairs as the source reads them. -/
def Reference.Pair.getWord : Pair → Adc8080Cpu → U16
  | .b, cpu => getRbc cpu
  | .d, cpu => getRde cpu
  | .h, cpu => getRhl cpu
  | .sp, cpu => cpu.sp

def Reference.Pair.setWord : Pair → U16 → Adc8080Cpu → Adc8080Cpu
  | .b, w, cpu => setRbc w cpu
  | .d, w, cpu => setRde w cpu
  | .h, w, cpu => setRhl w cpu
  | .sp, w, cpu => { cpu with sp := w }

/-- The operand of an instruction, resolved with the source's `get_rhl`. -/
def Reference.Operand.place : Operand → Adc8080Cpu → Loc
  | .reg r, _ => .reg r
  | .mem, cpu => .at (getRhl cpu)

def Reference.Loc.read : Loc → Machine W → Ret U8 W
  | .reg r, m => ⟨r.get m.cpu, m⟩
  | .at addr, m => readByte E addr m

def Reference.Loc.write : Loc → U8 → Machine W → Machine W
  | .reg r, v, m => m.onCpu (r.set v)
  | .at addr, v, m => writeByte E addr v m

/-- The flag test of a conditional instruction. -/
def Reference.Cond.test : Cond → Adc8080Cpu → Bool
  | .nz, cpu => cpu.cfz == false
  | .z, cpu => cpu.cfz == true
  | .nc, cpu => cpu.cfc == false
  | .c, cpu => cpu.cfc == true
  | .po, cpu => cpu.cfp == false
  | .pe, cpu => cpu.cfp == true
  | .p, cpu => cpu.cfs == false
  | .m, cpu => cpu.cfs == true

def Reference.AluOp.call : AluOp → U8 → Adc8080Cpu → Adc8080Cpu
  | .add, v, cpu => opAdd v false cpu
  | .adc, v, cpu => opAdd v cpu.cfc cpu
  | .sub, v, cpu => opSub v false cpu
  | .sbb, v, cpu => opSub v cpu.cfc cpu
  | .ana, v, cpu => opAna v cpu
  | .xra, v, cpu => opXra v cpu
  | .ora, v, cpu => opOra v cpu
  | .cmp, v, cpu => opCmp v cpu

/-- One instruction form of the switch. -/
def Reference.Instr.dispatch (F : Fetchers W) (i : Instr) (m : Machine W) : Machine W :=
  match i with
  | .nop => m
  | .mov d s =>
      let dst := d.place m.cpu
      let v := (s.place m.cpu).read E m
      dst.write E v.val v.mach
  | .hlt => m.onCpu fun cpu => { cpu with halted := true }
  | .inr d =>
      let loc := d.place m.cpu
      let v := loc.read E m
      let res := opInr v.val v.mach.cpu
      loc.write E res.1 (v.mach.onCpu fun _ => res.2)
  | .dcr d =>
      let loc := d.place m.cpu
      let v := loc.read E m
      let res := opDcr v.val v.mach.cpu
      loc.write E res.1 (v.mach.onCpu fun _ => res.2)
  | .mvi d =>
      let loc := d.place m.cpu
      let v := F.nextByte m
      loc.write E v.val v.mach
  | .alu op s =>
      let v := (s.place m.cpu).read E m
      v.mach.onCpu (op.call v.val)
  | .aluImm op =>
      let v := F.nextByte m
      v.mach.onCpu (op.call v.val)
  | .lxi p =>
      let w := F.nextWord m
      w.mach.onCpu (p.setWord w.val)
  | .inx p => m.onCpu fun cpu => p.setWord (p.getWord cpu + 1) cpu
  | .dcx p => m.onCpu fun cpu => p.setWord (p.getWord cpu - 1) cpu
  | .dad p => m.onCpu fun cpu => opDad (p.getWord cpu) cpu
  | .push .b => stackPush E (getRbc m.cpu) m
  | .push .d => stackPush E (getRde m.cpu) m
  | .push .h => stackPush E (getRhl m.cpu) m
  | .push .psw => opPushPsw E m
  | .pop .b =>
      let w := stackPop E m
      w.mach.onCpu (setRbc w.val)
  | .pop .d =>
      let w := stackPop E m
      w.mach.onCpu (setRde w.val)
  | .pop .h =>
      let w := stackPop E m
      w.mach.onCpu (setRhl w.val)
  | .pop .psw => opPopPsw E m
  | .stax p => writeByte E (p.getWord m.cpu) m.cpu.ra m
  | .ldax p =>
      let v := readByte E (p.getWord m.cpu) m
      v.mach.onCpu (Reg.a.set v.val)
  | .sta =>
      let addr := F.nextWord m
      writeByte E addr.val addr.mach.cpu.ra addr.mach
  | .lda =>
      let addr := F.nextWord m
      let v := readByte E addr.val addr.mach
      v.mach.onCpu (Reg.a.set v.val)
  | .shld =>
      let addr := F.nextWord m
      writeWord E addr.val (getRhl addr.mach.cpu) addr.mach
  | .lhld =>
      let addr := F.nextWord m
      let w := readWord E addr.val addr.mach
      w.mach.onCpu (setRhl w.val)
  | .rlc => m.onCpu opRlc
  | .rrc => m.onCpu opRrc
  | .ral => m.onCpu opRal
  | .rar => m.onCpu opRar
  | .daa => m.onCpu opDaa
  | .cma => m.onCpu fun cpu => { cpu with ra := ~~~cpu.ra }
  | .stc => m.onCpu fun cpu => { cpu with cfc := true }
  | .cmc => m.onCpu fun cpu => { cpu with cfc := !cpu.cfc }
  | .jmp =>
      let addr := F.nextWord m
      addr.mach.onCpu fun cpu => { cpu with pc := addr.val }
  | .jmpCond cc =>
      let addr := F.nextWord m
      opJmpCond addr.val (cc.test addr.mach.cpu) addr.mach
  | .call =>
      let addr := F.nextWord m
      opCall E addr.val addr.mach
  | .callCond cc =>
      let addr := F.nextWord m
      opCallCond E addr.val (cc.test addr.mach.cpu) addr.mach
  | .ret =>
      let w := stackPop E m
      w.mach.onCpu fun cpu => { cpu with pc := w.val }
  | .retCond cc => opRetCond E (cc.test m.cpu) m
  | .rst n => opCall E (8 * n.setWidth 16) m
  | .pchl => m.onCpu fun cpu => { cpu with pc := getRhl cpu }
  | .sphl => m.onCpu fun cpu => { cpu with sp := getRhl cpu }
  | .xchg => m.onCpu opXchg
  | .xthl => opXthl E m
  | .inp =>
      let d := F.nextByte m
      let v := E.callReadDevice d.mach.cpu.readDevice E.self d.val d.mach
      v.mach.onCpu (Reg.a.set v.val)
  | .out =>
      let d := F.nextByte m
      E.callWriteDevice d.mach.cpu.writeDevice E.self d.val d.mach.cpu.ra d.mach
  | .ei => m.onCpu fun cpu => { cpu with inte := true, interruptDelay := true }
  | .di => m.onCpu fun cpu => { cpu with inte := false }

set_option maxRecDepth 4096 in
/-- Every case of the switch is the dispatch of its decoded byte. -/
theorem execSwitch_eq_dispatch (F : Fetchers W) (opcode : U8) (m : Machine W) :
    execSwitch E F opcode m = (decode opcode).dispatch E F m := by
  obtain ⟨n, hn, rfl⟩ : ∃ n < 256, opcode = BitVec.ofNat 8 n :=
    ⟨opcode.toNat, opcode.isLt, by simp⟩
  interval_cases n <;> rfl

end Cpu
end AdcLibs
