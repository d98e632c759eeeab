import AdcLibs.Cpu.Frames
import AdcLibs.Cpu.InterruptModel

/-!
# Interrupts of the code

The public functions follow the abstract interrupt system: `adc_8080_cpu_step`
and `adc_8080_cpu_interrupt` are steps of `IntState.Step` on five fields of the
cpu struct, whatever the opcode, the program and the handlers are, as long as
no handler modifies the struct.  The properties of whole runs are then those of
the abstract system.
-/

namespace AdcLibs
namespace Cpu

universe u

open Reference Runs

/-- The fields that registers, flags and memory do not touch. -/
@[ext] structure Control where
  int : IntState
  userdata : Ptr
  readByte : Ptr
  writeByte : Ptr
  readDevice : Ptr
  writeDevice : Ptr

def Adc8080Cpu.control (cpu : Adc8080Cpu) : Control where
  int := ⟨cpu.halted, cpu.inte, cpu.interruptPending, cpu.interruptOpcode,
    cpu.interruptDelay⟩
  userdata := cpu.userdata
  readByte := cpu.readByte
  writeByte := cpu.writeByte
  readDevice := cpu.readDevice
  writeDevice := cpu.writeDevice

/-- Clearing the cycle count, as every step does last. -/
@[simp] theorem control_cycles (cpu : Adc8080Cpu) (n : Int) :
    { cpu with cycles := n }.control = cpu.control := rfl

/-- The interrupt fields of the struct. -/
abbrev Adc8080Cpu.intState (cpu : Adc8080Cpu) : IntState :=
  cpu.control.int

/-! ## Instructions -/

@[simp] theorem Reference.Reg.set_control (r : Reg) (v : U8) (cpu : Adc8080Cpu) :
    (r.set v cpu).control = cpu.control := by
  cases r <;> rfl

@[simp] theorem Reference.Pair.set_control (p : Pair) (w : U16) (cpu : Adc8080Cpu) :
    (p.set w cpu).control = cpu.control := by
  cases p <;> rfl

@[simp] theorem Reference.StackPair.set_control (p : StackPair) (w : U16)
    (cpu : Adc8080Cpu) : (p.set w cpu).control = cpu.control := by
  cases p <;> rfl

@[simp] theorem Reference.AluOp.exec_control (op : AluOp) (v : U8) (cpu : Adc8080Cpu) :
    (op.exec v cpu).control = cpu.control := by
  cases op <;> rfl

/-- The effect of an instruction on the interrupt fields. -/
def Reference.Instr.onInt : Instr → IntState → IntState
  | .hlt, s => { s with halted := true }
  | .ei, s => { s with inte := true, delay := true }
  | .di, s => { s with inte := false }
  | _, s => s

section Frames

variable {W : Type u} {E : Env W} (hE : E.Frames)
include hE

theorem Reference.Loc.store_control (loc : Loc) (v : U8) (m : Machine W) :
    (loc.store E v m).cpu.control = m.cpu.control := by
  rcases loc.store_cpu hE v m with h | ⟨r, h⟩
  · rw [h]
  · rw [h, Reg.set_control]

theorem Reference.callTo_control (addr : U16) (m : Machine W) :
    (callTo E addr m).cpu.control = m.cpu.control := by
  simp only [callTo, goto, Machine.onCpu_cpu, pushWord_cpu hE]
  rfl

theorem Reference.returnTo_control (m : Machine W) :
    (returnTo E m).cpu.control = m.cpu.control := by
  simp only [returnTo, goto, Machine.onCpu_cpu, popWord_cpu hE]
  rfl

/-- An instruction changes no other control field, and these by `onInt` only. -/
theorem Reference.Instr.exec_control (i : Instr) (m : Machine W) :
    (i.exec E m).cpu.control =
      { m.cpu.control with int := i.onInt m.cpu.intState } := by
  have hword : (fetchWord E m).mach.cpu.control = m.cpu.control := by
    rw [fetchWord_cpu hE]
    rfl
  have hbyte : (fetch E m).mach.cpu.control = m.cpu.control := by
    rw [fetch_cpu hE]
    rfl
  have hpop : (popWord E m).mach.cpu.control = m.cpu.control := by
    rw [popWord_cpu hE]
    rfl
  cases i with
  | nop | hlt | ei | di | stc | cmc | cma | rlc | rrc | ral | rar | daa | pchl | sphl | xchg => rfl
  | inx p | dcx p => exact p.set_control _ _
  | dad p => rfl
  | mov d s => simp [Instr.exec, Instr.onInt, Loc.store_control hE, hE]
  | inr d =>
      simp only [Instr.exec, Loc.store_control hE, Machine.onCpu_cpu, Loc.load_cpu hE]
      rfl
  | dcr d =>
      simp only [Instr.exec, Loc.store_control hE, Machine.onCpu_cpu, Loc.load_cpu hE]
      rfl
  | mvi d => exact (Loc.store_control hE _ _ _).trans hbyte
  | alu op s => simp [Instr.exec, Instr.onInt, hE]
  | aluImm op => exact (op.exec_control _ _).trans hbyte
  | lxi p => exact (p.set_control _ _).trans hword
  | push p =>
      simp only [Instr.exec, pushWord_cpu hE]
      rfl
  | pop p => exact (p.set_control _ _).trans hpop
  | stax p => simp [Instr.exec, Instr.onInt, hE]
  | ldax p => simp [Instr.exec, Instr.onInt, hE]
  | sta =>
      simp only [Instr.exec, store_cpu hE]
      exact hword
  | lda =>
      simp only [Instr.exec, Machine.onCpu_cpu, Reg.set_control, load_cpu hE]
      exact hword
  | shld =>
      simp only [Instr.exec, storeWord_cpu hE]
      exact hword
  | lhld =>
      simp only [Instr.exec, Machine.onCpu_cpu, Pair.set_control, loadWord_cpu hE]
      exact hword
  | jmp => exact hword
  | jmpCond cc =>
      simp only [Instr.exec]
      split <;> exact hword
  | call => exact (callTo_control hE _ _).trans hword
  | callCond cc =>
      simp only [Instr.exec]
      split
      · exact (callTo_control hE (fetchWord E m).val _).trans hword
      · exact hword
  | ret => exact returnTo_control hE m
  | retCond cc =>
      simp only [Instr.exec]
      split
      · exact returnTo_control hE m
      · rfl
  | rst n => exact callTo_control hE _ m
  | xthl => simp [Instr.exec, Instr.onInt, hE]
  | inp =>
      simp only [Instr.exec, Machine.onCpu_cpu, Reg.set_control, hE.readDevice]
      exact hbyte
  | out =>
      simp only [Instr.exec, hE.writeDevice]
      exact hbyte

end Frames

/-- The three opcode bytes that touch the interrupt fields. -/
theorem decode_interrupt_bytes (op : U8) :
    (decode op = .hlt ↔ op = opHlt) ∧ (decode op = .ei ↔ op = opEi) ∧
      (decode op = .di ↔ op = opDi) := by
  revert op
  decide

/-- Ending the delay and then decoding is the abstract execution. -/
theorem onInt_decode (op : U8) (s : IntState) :
    (decode op).onInt { s with delay := false } = s.execute op := by
  obtain ⟨hhlt, hei, hdi⟩ := decode_interrupt_bytes op
  by_cases h₁ : op = opEi
  · rw [hei.mpr h₁]
    simp [Instr.onInt, IntState.execute, h₁, opEi, opHlt]
  · by_cases h₂ : op = opDi
    · rw [hdi.mpr h₂]
      simp [Instr.onInt, IntState.execute, h₂, opEi, opDi, opHlt]
    · by_cases h₃ : op = opHlt
      · rw [hhlt.mpr h₃]
        simp [Instr.onInt, IntState.execute, h₃, opEi, opDi, opHlt]
      · have hother : (decode op).onInt { s with delay := false } =
            { s with delay := false } := by
          cases h : decode op <;> simp_all [Instr.onInt]
        rw [hother]
        simp [IntState.execute, h₁, h₂, h₃]

section Calls

variable {W : Type u} {E : Env W}

theorem execNext_control (hE : E.Frames) (op : U8) (m : Machine W) :
    (execNext E op m).cpu.control =
      { m.cpu.control with int := m.cpu.intState.execute op } := by
  rw [execNext_eq_exec, Reference.exec, Instr.exec_control hE, ← onInt_decode]
  rfl

/-! ## Calls and runs -/

/-- What a step does, by the branch it takes. -/
def stepEvent (E : Env W) (m : Machine W) : Event :=
  if recognizes m.cpu then .recognized m.cpu.interruptOpcode
  else if !m.cpu.halted then .executed (nextByte E m).val
  else .idle

/-- One call of a public function, labelled with what happens. -/
inductive CallStep (E : Env W) : Machine W → Event → Machine W → Prop
  | interrupt (m : Machine W) (op : U8) :
      CallStep E m (.request op) (m.onCpu (adc8080CpuInterrupt op))
  | step (m : Machine W) (r : Ret Int W) (h : adc8080CpuStep E m = some r) :
      CallStep E m (stepEvent E m) r.mach

/-- A recognized request: the fields are reset and the opcode is executed. -/
theorem stepBody_recognized {m : Machine W} (h : recognizes m.cpu = true) :
    (stepBody E m).mach =
      (execNext E m.cpu.interruptOpcode (m.onCpu fun cpu =>
        { cpu with interruptPending := false, inte := false, halted := false })).onCpu
          fun cpu => { cpu with cycles := 0 } := by
  simp only [stepBody, stepBodyWith, execNextWith_fetchers, h, if_true]
  rfl

/-- A fetched instruction. -/
theorem stepBody_executed {m : Machine W} (h : recognizes m.cpu = false)
    (hrun : m.cpu.halted = false) :
    (stepBody E m).mach =
      (execNext E (nextByte E m).val (nextByte E m).mach).onCpu
        fun cpu => { cpu with cycles := 0 } := by
  simp [stepBody, stepBodyWith, h, hrun]

/-- A halted step without recognition only returns and clears the cycle count. -/
theorem stepBody_idle {m : Machine W} (h : recognizes m.cpu = false)
    (hhalt : m.cpu.halted = true) :
    stepBody E m = ⟨m.cpu.cycles, m.onCpu fun cpu => { cpu with cycles := 0 }⟩ := by
  simp [stepBody, stepBodyWith, h, hhalt]

theorem adc8080CpuStep_eq_some {m : Machine W} {r : Ret Int W} :
    adc8080CpuStep E m = some r ↔ m.cpu.HandlersSet ∧ stepBody E m = r := by
  simp [adc8080CpuStep]

/-- The code's calls are steps of the abstract interrupt system. -/
theorem CallStep.simulates (hE : E.Frames) {m m' : Machine W} {e : Event}
    (h : CallStep E m e m') : IntState.Step m.cpu.intState e m'.cpu.intState := by
  cases h with
  | interrupt op => exact IntState.Step.request m.cpu.intState op
  | step r h =>
      obtain ⟨_, rfl⟩ := adc8080CpuStep_eq_some.mp h
      cases hrec : recognizes m.cpu with
      | true =>
          have hint : (stepBody E m).mach.cpu.intState =
              m.cpu.intState.acknowledge.execute m.cpu.interruptOpcode := by
            rw [stepBody_recognized hrec, Machine.onCpu_cpu, Adc8080Cpu.intState,
              control_cycles, execNext_control hE]
            rfl
          rw [stepEvent, if_pos hrec, hint]
          exact IntState.Step.recognized m.cpu.intState hrec
      | false =>
          cases hhalt : m.cpu.halted with
          | false =>
              have hint : (stepBody E m).mach.cpu.intState =
                  m.cpu.intState.execute (nextByte E m).val := by
                have hfetch : (nextByte E m).mach.cpu.control = m.cpu.control := by
                  rw [show nextByte E m = fetch E m from rfl, fetch_cpu hE]
                  rfl
                rw [stepBody_executed hrec hhalt, Machine.onCpu_cpu, Adc8080Cpu.intState,
                  control_cycles, execNext_control hE, Adc8080Cpu.intState, hfetch]
              have hevent : stepEvent E m = .executed (nextByte E m).val := by
                simp [stepEvent, hrec, hhalt]
              rw [hevent, hint]
              exact IntState.Step.executed _ _ hrec hhalt
          | true =>
              have hevent : stepEvent E m = .idle := by simp [stepEvent, hrec, hhalt]
              rw [hevent, stepBody_idle hrec hhalt]
              exact IntState.Step.idle _ hrec hhalt

theorem Run.simulates (hE : E.Frames) {m m' : Machine W} {es : List Event}
    (h : Run (CallStep E) m es m') :
    Run IntState.Step m.cpu.intState es m'.cpu.intState :=
  h.map (fun m => m.cpu.intState) (fun _ _ _ hstep => hstep.simulates hE)

end Calls

end Cpu
end AdcLibs
