import AdcLibs.Cpu.HandlerCalls
import AdcLibs.Dasm.Boundaries

/-!
# Injected opcodes

`adc_8080_cpu_interrupt` takes any opcode byte, and the step that recognizes
the request executes it as if it had been fetched.  A byte with no operands
leaves the interrupted program alone.  An opcode with operands takes them from
memory at pc, which are bytes of the interrupted program.
-/

namespace AdcLibs
namespace Cpu

universe u

open Reference Dasm

/-- The addresses that a log of calls reads from memory, latest first. -/
def readAddrs (calls : List HandlerCall) : List U16 :=
  calls.filterMap fun c => if c.handler = .readByte then some c.addr else none

/-- The machine with another pc. -/
def withPc {W : Type u} (pc : U16) (m : Machine W) : Machine W :=
  m.onCpu fun cpu => { cpu with pc := pc }

/-- The machine after a request. -/
def requested {W : Type u} (op : U8) (m : Machine W) : Machine W :=
  m.onCpu (adc8080CpuInterrupt op)

/-- The addresses that an instruction reads, latest first. -/
def Reference.Instr.reads {W : Type u} (E : Env W) (i : Instr) (m : Machine W) : List U16 :=
  readAddrs (i.exec (logEnv E) m.unlogged).world.calls

/-- The addresses that a step reads, latest first. -/
def stepReads {W : Type u} (E : Env W) (m : Machine W) : List U16 :=
  readAddrs (stepBody (logEnv E) m.unlogged).mach.world.calls

variable {D : Type u} (self : Ptr) (devices : Devices D)

/-! ## Reads of an instruction -/

/-- Without operands an instruction reads the same addresses wherever pc points. -/
theorem Reference.Instr.reads_withPc {i : Instr} (h : i.operandBytes = 0) (pc : U16)
    (m : Machine (Ram D)) :
    i.reads (ramEnv self devices) (withPc pc m) = i.reads (ramEnv self devices) m := by
  cases i with
  | mov d s => cases d <;> cases s <;> rfl
  | inr d | dcr d => cases d <;> rfl
  | alu op s => cases s <;> rfl
  | push p | pop p | inx p | dcx p | dad p | stax p | ldax p => cases p <;> rfl
  | retCond cc =>
      have hcc : cc.holds (withPc pc m).unlogged.cpu = cc.holds m.unlogged.cpu :=
        cc.holds_pc m.cpu pc
      simp only [Instr.reads, Instr.exec, hcc]
      split <;> rfl
  | nop | hlt | ei | di | stc | cmc | cma | rlc | rrc | ral | rar | daa => rfl
  | ret | rst n | pchl | sphl | xchg | xthl => rfl
  | mvi d | aluImm op | inp | out => exact absurd h (by simp [Instr.operandBytes])
  | lxi p | sta | lda | shld | lhld => exact absurd h (by simp [Instr.operandBytes])
  | jmp | jmpCond cc | call | callCond cc => exact absurd h (by simp [Instr.operandBytes])

/-- With operands the first read is at pc. -/
theorem Reference.Instr.reads_first {i : Instr} (h : i.operandBytes ≠ 0) (m : Machine (Ram D)) :
    (i.reads (ramEnv self devices) m).getLast? = some m.cpu.pc := by
  cases i with
  | mvi d => cases d <;> rfl
  | aluImm op | inp | out => rfl
  | lxi p | sta | lda | shld | lhld | jmp | call => rfl
  | jmpCond cc | callCond cc =>
      simp only [Instr.reads, Instr.exec]
      split <;> rfl
  | _ => exact absurd rfl h

/-! ## Recognition -/

/-- What the interrupted program sees of the step from `m` to `t` that recognizes `op`:
the step reads nothing through pc, pc stays or goes to the target of `op`, and a return
address is pc, so that a `RET` which finds it on the stack continues there. -/
structure ConsumesNothing (E : Env (Ram D)) (op : U8) (m t : Machine (Ram D)) : Prop where
  reads : ∀ pc, stepReads E (requested op (withPc pc m)) = stepReads E (requested op m)
  pc : t.cpu.pc = m.cpu.pc ∨
    (decode op).transfers m.cpu = true ∧ t.cpu.pc = target (decode op) m
  returns : isCall (decode op) = true → (decode op).transfers m.cpu = true →
    t.world.word t.cpu.sp = m.cpu.pc ∧
      ∀ s : Machine (Ram D), s.cpu.sp = t.cpu.sp →
        s.world.word s.cpu.sp = t.world.word t.cpu.sp → (execNext E 0xC9 s).cpu.pc = m.cpu.pc

section Recognized

variable {self devices} {E : Env (Ram D)} {op : U8} {m : Machine (Ram D)}

/-- The machine in which a recognized opcode executes. -/
def injected (op : U8) (m : Machine (Ram D)) : Machine (Ram D) :=
  accepted (requested op m)

theorem stepReads_requested (hrec : recognizes (requested op m).cpu = true) :
    stepReads E (requested op m) = (decode op).reads E (injected op m) := by
  have hrec' : recognizes (requested op m).unlogged.cpu = true := hrec
  rw [stepReads, stepBody_recognized hrec', execNext_begun]
  rfl

/-- Recognition does not decide a transfer. -/
theorem transfers_injected (i : Instr) (op : U8) (m : Machine (Ram D)) :
    i.transfers (injected op m).cpu = i.transfers m.cpu := by
  cases i with
  | jmpCond cc | callCond cc | retCond cc => cases cc <;> rfl
  | _ => rfl

theorem target_injected (i : Instr) (op : U8) (m : Machine (Ram D)) :
    target i (injected op m) = target i m := by
  cases i <;> rfl

/-- A recognized opcode without operands consumes nothing. -/
theorem consumesNothing (hrec : recognizes (requested op m).cpu = true)
    (h : (decode op).operandBytes = 0) :
    ConsumesNothing (ramEnv self devices) op m
      (stepBody (ramEnv self devices) (requested op m)).mach := by
  have hE : (ramEnv self devices).Frames := ramEnv_frames self devices
  rw [stepBody_ram_recognized self devices hrec]
  refine ⟨?_, ?_, ?_⟩
  · intro pc
    rw [stepReads_requested hrec, @stepReads_requested _ _ op (withPc pc m) hrec]
    exact Instr.reads_withPc self devices h pc (injected op m)
  · cases htransfers : (decode op).transfers m.cpu with
    | false =>
        left
        have hpc := Instr.exec_pc hE ((transfers_injected (decode op) op m).trans htransfers)
        rw [h] at hpc
        exact hpc.trans (BitVec.add_zero _)
    | true =>
        right
        refine ⟨rfl, ?_⟩
        rw [← target_injected (decode op) op m]
        exact exec_target self devices ((transfers_injected (decode op) op m).trans htransfers)
  · intro hcall htransfers
    rcases exec_call self devices hcall ((transfers_injected (decode op) op m).trans htransfers)
      with ⟨hsp, hword⟩
    rw [h] at hword
    constructor
    · exact hword.trans (BitVec.add_zero _)
    · intro s _ hs
      rw [execNext_begun]
      exact hs.trans (hword.trans (BitVec.add_zero _))

/-- An opcode with operands reads them at pc. -/
theorem operandBytes_eq_zero {t : Machine (Ram D)}
    (hrec : recognizes (requested op m).cpu = true)
    (h : ConsumesNothing (ramEnv self devices) op m t) : (decode op).operandBytes = 0 := by
  by_contra hne
  have hreads := h.reads (m.cpu.pc + 1)
  rw [stepReads_requested hrec,
    @stepReads_requested _ _ op (withPc (m.cpu.pc + 1) m) hrec] at hreads
  have hfirst := congrArg List.getLast? hreads
  rw [Instr.reads_first self devices hne, Instr.reads_first self devices hne] at hfirst
  have hpc : m.cpu.pc + 1 = m.cpu.pc := Option.some.inj hfirst
  bv_omega

/--
The step that recognizes a request consumes bytes of the interrupted program
exactly when the injected opcode has operands.
-/
theorem injected_consumes_nothing_iff {r : Ret Int (Ram D)}
    (hrec : recognizes (requested op m).cpu = true)
    (hstep : adc8080CpuStep (ramEnv self devices) (requested op m) = some r) :
    ConsumesNothing (ramEnv self devices) op m r.mach ↔ (decode op).operandBytes = 0 := by
  rcases adc8080CpuStep_eq_some.mp hstep with ⟨-, rfl⟩
  constructor
  · intro h
    exact operandBytes_eq_zero hrec h
  · intro h
    exact consumesNothing hrec h

end Recognized

/-- A machine at 0100h that accepts interrupts. -/
def waitingMachine : Machine (Ram Unit) :=
  (sampleMachine 0x0100).onCpu fun cpu => { cpu with inte := true }

/-- `RST 1` at 0100h. -/
theorem injected_consumes_nothing_iff_rst :
    ConsumesNothing (ramEnv 0x1000 noDevices) 0xCF waitingMachine
        (stepBody (ramEnv 0x1000 noDevices) (requested 0xCF waitingMachine)).mach ↔
      (decode 0xCF).operandBytes = 0 :=
  injected_consumes_nothing_iff (by decide) (adc8080CpuStep_eq_some.mpr ⟨by decide, rfl⟩)

/-- An injected `CALL` takes its address from the program and returns behind it. -/
theorem injected_call_consumes :
    recognizes (requested 0xCD waitingMachine).cpu = true ∧
      ∃ r, adc8080CpuStep (ramEnv 0x1000 noDevices) (requested 0xCD waitingMachine) = some r ∧
        ¬ ConsumesNothing (ramEnv 0x1000 noDevices) 0xCD waitingMachine r.mach := by
  refine ⟨by decide, _, adc8080CpuStep_eq_some.mpr ⟨by decide, rfl⟩, ?_⟩
  intro h
  exact absurd (h.returns (by decide) (by decide)).1 (by decide)

end Cpu
end AdcLibs
