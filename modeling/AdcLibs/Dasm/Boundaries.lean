import AdcLibs.Cpu.Fetches
import AdcLibs.Dasm.Mnemonic
import AdcLibs.Dasm.Sweep

/-!
# Emulator and disassembler on instruction boundaries

The size column of the disassembler's table and the pc arithmetic of the
emulator describe the same instruction lengths.  One step shows it for one
instruction; an induction over a run that stays in line shows that the emulator
fetches at the disassembler's addresses and with its operands.
-/

namespace AdcLibs
namespace Dasm

universe u

open Cpu Cpu.Reference Loops LinearSweep

/-- The table's sizes are those of the bit-field encoding. -/
theorem sDasmLut_size_eq (b : U8) : (sDasmLut b).size = (decode b).operandBytes + 1 := by
  revert b
  decide

/-! ## Transfers -/

variable {D : Type u}

/-- Where an instruction goes if it transfers control; pc is behind its opcode byte. -/
def target (i : Instr) (m : Machine (Ram D)) : U16 :=
  match i with
  | .jmp | .jmpCond _ | .call | .callCond _ => m.world.word m.cpu.pc
  | .ret | .retCond _ => m.world.word m.cpu.sp
  | .rst n => 8 * n.setWidth 16
  | .pchl => Pair.h.get m.cpu
  | _ => m.cpu.pc

/-- The instruction pushes a return address when it transfers control. -/
def isCall : Instr → Bool
  | .call | .callCond _ | .rst _ => true
  | _ => false

section Exec

variable (self : Ptr) (devices : Devices D)

/-- A call pushes the pc it finds. -/
theorem callTo_ram (addr : U16) (m : Machine (Ram D)) :
    let m' := callTo (ramEnv self devices) addr m
    m'.cpu.pc = addr ∧ m'.cpu.sp = m.cpu.sp - 2 ∧ m'.world.word (m.cpu.sp - 2) = m.cpu.pc := by
  refine ⟨rfl, rfl, ?_⟩
  have hne : m.cpu.sp - 2 ≠ m.cpu.sp - 2 + 1 := by bv_omega
  simp only [callTo, goto, Machine.onCpu_world, pushWord_ram, Ram.word, Ram.put_mem_self,
    Ram.put_mem_of_ne _ _ hne]
  exact append_highByte_lowByte _

/-- A transfer goes to its target. -/
theorem exec_target {i : Instr} {m : Machine (Ram D)} (h : i.transfers m.cpu = true) :
    (i.exec (ramEnv self devices) m).cpu.pc = target i m := by
  cases i with
  | jmp | call | ret | rst n | pchl => rfl
  | jmpCond cc =>
      have hcc : cc.holds m.cpu = true := h
      simp only [Instr.exec, fetchWord_ram, Machine.onCpu_cpu, Cond.holds_pc, hcc, if_true]
      rfl
  | callCond cc =>
      have hcc : cc.holds m.cpu = true := h
      simp only [Instr.exec, fetchWord_ram, Machine.onCpu_cpu, Cond.holds_pc, hcc, if_true]
      rfl
  | retCond cc =>
      have hcc : cc.holds m.cpu = true := h
      simp only [Instr.exec, hcc, if_true]
      rfl
  | _ => exact absurd h Bool.noConfusion

/-- A taken call pushes the address behind its operands. -/
theorem exec_call {i : Instr} {m : Machine (Ram D)} (hcall : isCall i = true)
    (h : i.transfers m.cpu = true) :
    let m' := i.exec (ramEnv self devices) m
    m'.cpu.sp = m.cpu.sp - 2 ∧
      m'.world.word m'.cpu.sp = m.cpu.pc + BitVec.ofNat 16 i.operandBytes := by
  cases i with
  | call =>
      obtain ⟨_, hsp, hword⟩ := callTo_ram self devices (m.world.word m.cpu.pc)
        (fetchWord (ramEnv self devices) m).mach
      exact ⟨hsp, (congrArg _ hsp).trans hword⟩
  | callCond cc =>
      have hcc : cc.holds m.cpu = true := h
      obtain ⟨_, hsp, hword⟩ := callTo_ram self devices (m.world.word m.cpu.pc)
        (fetchWord (ramEnv self devices) m).mach
      simp only [Instr.exec, fetchWord_ram, Machine.onCpu_cpu, Cond.holds_pc, hcc, if_true]
      exact ⟨hsp, (congrArg _ hsp).trans hword⟩
  | rst n =>
      obtain ⟨_, hsp, hword⟩ := callTo_ram self devices (8 * n.setWidth 16) m
      exact ⟨hsp, ((congrArg _ hsp).trans hword).trans (BitVec.add_zero _).symm⟩
  | _ => exact absurd hcall Bool.noConfusion

end Exec

/-! ## One step -/

/-- The table's size of the instruction at pc. -/
def sizeAt (m : Machine (Ram D)) : U16 :=
  BitVec.ofNat 16 (sDasmLut (m.world.mem m.cpu.pc)).size

/-- The instruction at pc, decoded by bit fields. -/
def instrAt (m : Machine (Ram D)) : Instr :=
  decode (m.world.mem m.cpu.pc)

/-- The operand behind the opcode at pc, by the table's size. -/
def operandAt (m : Machine (Ram D)) : List Fetch :=
  match (sDasmLut (m.world.mem m.cpu.pc)).size with
  | 2 => [.byte (m.world.mem (m.cpu.pc + 1))]
  | 3 => [.word (m.world.word (m.cpu.pc + 1))]
  | _ => []

/-- The step from `m` to `m'` agrees with the table on the instruction at pc. -/
structure StepAgrees (E : Env (Ram D)) (m m' : Machine (Ram D)) : Prop where
  /-- Without a transfer pc moves by the table's size. -/
  inLine : (instrAt m).transfers m.cpu = false → m'.cpu.pc = m.cpu.pc + sizeAt m
  /-- A transfer goes to its target. -/
  taken : (instrAt m).transfers m.cpu = true → m'.cpu.pc = target (instrAt m) (ready m)
  /-- A taken call pushes the address at that size from pc. -/
  pushed : (instrAt m).transfers m.cpu = true → isCall (instrAt m) = true →
    m'.cpu.sp = m.cpu.sp - 2 ∧ m'.world.word m'.cpu.sp = m.cpu.pc + sizeAt m
  /-- The record is one of this step. -/
  recorded : (recordedStep E m).mach.map Recorded.world = m'
  /-- The step fetches its opcode, and then nothing, a byte or a word as the table says. -/
  fetched : stepFetches E m = .byte (m.world.mem m.cpu.pc) :: operandAt m

section Step

variable (self : Ptr) (devices : Devices D)

theorem sizeAt_eq (m : Machine (Ram D)) :
    sizeAt m = 1 + BitVec.ofNat 16 (instrAt m).operandBytes := by
  rw [sizeAt, sDasmLut_size_eq, BitVec.ofNat_add, BitVec.add_comm]
  rfl

/-- Fetching the opcode does not decide a transfer. -/
theorem transfers_ready (i : Instr) (m : Machine (Ram D)) :
    i.transfers (ready m).cpu = i.transfers m.cpu := by
  cases i with
  | jmpCond cc | callCond cc | retCond cc => cases cc <;> rfl
  | _ => rfl

/-- What a step on plain RAM fetches. -/
theorem stepFetches_ram {m : Machine (Ram D)} (hrec : recognizes m.cpu = false)
    (hrun : m.cpu.halted = false) :
    stepFetches (ramEnv self devices) m = .byte (m.world.mem m.cpu.pc) :: operandAt m := by
  have hsize : (sDasmLut (m.world.mem m.cpu.pc)).size = (instrAt m).operandBytes + 1 :=
    sDasmLut_size_eq _
  rw [stepFetches_fetched hrec hrun, operandAt, hsize]
  refine congrArg _ ?_
  change (instrAt m).fetches _ _ = _
  rw [Instr.fetches]
  generalize (instrAt m).operandBytes = n
  rcases n with _ | _ | _ | n
  all_goals rfl

/-- Every step agrees with the table. -/
theorem step_agrees {m : Machine (Ram D)} (hrec : recognizes m.cpu = false)
    (hrun : m.cpu.halted = false) :
    StepAgrees (ramEnv self devices) m (stepBody (ramEnv self devices) m).mach := by
  have hE : (ramEnv self devices).Frames := ramEnv_frames self devices
  have hbehind : (ready m).cpu.pc + BitVec.ofNat 16 (instrAt m).operandBytes =
      m.cpu.pc + sizeAt m := by
    rw [sizeAt_eq, ← BitVec.add_assoc]
    rfl
  refine
    { inLine := fun h => ?_
      taken := fun h => ?_
      pushed := fun h hcall => ?_
      recorded := congrArg Ret.mach (recordedStep_map m)
      fetched := stepFetches_ram self devices hrec hrun }
  · rw [stepBody_ram self devices hrec hrun, ← hbehind]
    exact Instr.exec_pc hE ((transfers_ready _ m).trans h)
  · rw [stepBody_ram self devices hrec hrun]
    exact exec_target self devices ((transfers_ready _ m).trans h)
  · rw [stepBody_ram self devices hrec hrun, ← hbehind]
    exact exec_call self devices hcall ((transfers_ready _ m).trans h)
end Step

/-! ## Runs -/

/-- The memory image that the disassembler is given. -/
def programMemory (ram : Ram D) (addr : Nat) : U8 :=
  ram.mem (BitVec.ofNat 16 addr)

/-- The fetch that returns the operand of a text. -/
def OperandArg.fetches : OperandArg → List Fetch
  | .none => []
  | .byte b => [.byte b]
  | .word w => [.word w]

/-- A byte of the program, its last instruction included. -/
def ProgramByte (orgAddr : U16) (d : DasmDisassembly) (a : U16) : Prop :=
  orgAddr.toNat ≤ a.toNat ∧ ∃ op ∈ d.ops, a.toNat < op.addr.toNat + op.opdef.size

section Run

variable (E : Env (Ram D)) (m₀ : Machine (Ram D)) (d : DasmDisassembly)
  (gaps : List (List U8))

/-- The machine before step `k` of the schedule. -/
def machineAt (k : Nat) : Machine (Ram D) :=
  afterGaps E (gaps.take k) m₀

/--
The run of the schedule recognizes no interrupt, takes no transfer, does not halt
and writes no byte of the program.
-/
structure InLine : Prop where
  unrecognized : ∀ k, k < gaps.length → recognizes (machineAt E m₀ gaps k).cpu = false
  running : ∀ k, k < gaps.length → (machineAt E m₀ gaps k).cpu.halted = false
  untaken : ∀ k, k < gaps.length →
    (instrAt (machineAt E m₀ gaps k)).transfers (machineAt E m₀ gaps k).cpu = false
  unwritten : ∀ a ∈ (writesAfter E gaps m₀).take
    ((writesAfter E gaps m₀).length - m₀.world.writes.length), ¬ ProgramByte m₀.cpu.pc d a

/-- The run fetches at the addresses of the disassembly, with its operands. -/
structure Follows (programSize : Nat) : Prop where
  /-- The calls of the schedule succeed and pass through these machines. -/
  runs : ∀ k, ∃ t, runCalls E (schedule (gaps.take k)) m₀ = some t ∧
    t.mach = machineAt E m₀ gaps k
  /-- Step `k` fetches at the address of op `k`: its opcode and the operand of its text. -/
  fetches : ∀ k op, k < gaps.length → d.ops[k]? = some op →
    (machineAt E m₀ gaps k).cpu.pc = op.addr ∧
      stepFetches E (machineAt E m₀ gaps k) =
        .byte (d.memory op.addr.toNat) :: (mnemonicArg d op).fetches
  /-- After the last op the run has left the program. -/
  leaves : d.ops.length ≤ gaps.length →
    m₀.cpu.pc.toNat + programSize ≤ (machineAt E m₀ gaps d.ops.length).cpu.pc.toNat

end Run

section Follow

variable (self : Ptr) (devices : Devices D) {m₀ : Machine (Ram D)} {d : DasmDisassembly}
  {gaps : List (List U8)} {programSize : Nat}

theorem machineAt_succ (E : Env (Ram D)) {k : Nat} (hk : k < gaps.length) :
    machineAt E m₀ gaps (k + 1) = afterGap E (machineAt E m₀ gaps k) gaps[k] := by
  rw [machineAt, List.take_succ_eq_append_getElem hk, afterGaps_append]
  rfl

/-- In a run that writes no byte of the program, the program stays as it was. -/
theorem InLine.kept (h : InLine (ramEnv self devices) m₀ d gaps) (hset : m₀.cpu.HandlersSet)
    (k : Nat) {a : U16} (ha : ProgramByte m₀.cpu.pc d a) :
    (machineAt (ramEnv self devices) m₀ gaps k).world.mem a = m₀.world.mem a := by
  obtain ⟨ws, hws⟩ := afterGaps_written self devices (gaps.take k) m₀
  obtain ⟨ws', hws'⟩ := afterGaps_written self devices (gaps.drop k)
    (machineAt (ramEnv self devices) m₀ gaps k)
  rw [machineAt, ← afterGaps_append, List.take_append_drop] at hws'
  refine hws.mem a fun hmem => ?_
  have hlog := (hws.trans hws').writes
  refine h.unwritten a ?_ ha
  rw [writesAfter_eq self devices gaps hset, hlog, List.length_append, Nat.add_sub_cancel,
    List.take_left]
  exact List.mem_append_right _ hmem

theorem ofNat_toNat_add (a : U16) (k : Nat) :
    BitVec.ofNat 16 (a.toNat + k) = a + BitVec.ofNat 16 k := by
  rw [BitVec.ofNat_add, BitVec.ofNat_toNat, BitVec.setWidth_eq]

/-- A machine at an entry has the entry's operand behind pc. -/
theorem operandAt_eq {memory : Nat → U8} {m : Machine (Ram D)} {op : DasmOp}
    (hmemory : d.memory = memory) (hpc : m.cpu.pc = op.addr)
    (hopdef : op.opdef = sDasmLut (memory op.addr.toNat))
    (hkept : ∀ i, i < op.opdef.size →
      m.world.mem (op.addr + BitVec.ofNat 16 i) = memory (op.addr.toNat + i)) :
    m.world.mem m.cpu.pc = memory op.addr.toNat ∧ operandAt m = (mnemonicArg d op).fetches := by
  have hfirst : m.world.mem m.cpu.pc = memory op.addr.toNat := by
    have hpos : 0 < op.opdef.size := by
      rw [hopdef]
      exact (sDasmLut_size _).1
    have hzero := hkept 0 hpos
    rw [BitVec.add_zero, Nat.add_zero] at hzero
    rw [hpc, hzero]
  have hsize : (sDasmLut (m.world.mem m.cpu.pc)).size = op.opdef.size := by rw [hfirst, hopdef]
  refine ⟨hfirst, ?_⟩
  rw [operandAt, mnemonicArg, hsize, hmemory]
  generalize op.opdef.size = size at hkept
  match size, hkept with
  | 2, hkept =>
      have hone : m.world.mem (m.cpu.pc + 1) = memory (op.addr.toNat + 1) := by
        rw [hpc]
        exact hkept 1 (by decide)
      exact congrArg (fun b => [Fetch.byte b]) hone
  | 3, hkept =>
      have hone : m.world.mem (m.cpu.pc + 1) = memory (op.addr.toNat + 1) := by
        rw [hpc]
        exact hkept 1 (by decide)
      have htwo : m.world.mem (m.cpu.pc + 1 + 1) = memory (op.addr.toNat + 2) := by
        rw [hpc, BitVec.add_assoc]
        exact hkept 2 (by decide)
      refine congrArg (fun w => [Fetch.word w]) ?_
      rw [Ram.word, hone, htwo]
      exact (Cpu.wordFromBytes_eq _ _).symm
  | 0, _ | 1, _ | n + 4, _ => rfl

/-- A run in line passes the entries one after the other. -/
theorem InLine.pc_eq {memory : Nat → U8} (h : InLine (ramEnv self devices) m₀ d gaps)
    (hset : m₀.cpu.HandlersSet) (hcovers : Covers memory programSize m₀.cpu.pc d)
    (hmemory : memory = programMemory m₀.world)
    (hfit : m₀.cpu.pc.toNat + programSize ≤ 0xFFFD) (k : Nat) (hk : k ≤ gaps.length) :
    (∀ op, d.ops[k]? = some op →
      (machineAt (ramEnv self devices) m₀ gaps k).cpu.pc = op.addr) ∧
    (k = d.ops.length → m₀.cpu.pc.toNat + programSize ≤
      (machineAt (ramEnv self devices) m₀ gaps k).cpu.pc.toNat) := by
  induction k with
  | zero =>
      have hstart : machineAt (ramEnv self devices) m₀ gaps 0 = m₀ := rfl
      rw [hstart]
      by_cases hzero : programSize = 0
      · rw [hcovers.nil hzero, hzero]
        exact ⟨fun op hop => by simp at hop, fun _ => Nat.le_refl _⟩
      · obtain ⟨op, hop, haddr⟩ := hcovers.first hzero
        refine ⟨fun op' hop' => ?_, fun hlen => ?_⟩
        · obtain rfl := Option.some.inj (hop.symm.trans hop')
          exact haddr.symm
        · rw [List.getElem?_eq_none (by omega)] at hop
          exact absurd hop (by simp)
  | succ k ih =>
      cases hop : d.ops[k]? with
      | none =>
          have hlen := List.getElem?_eq_none_iff.mp hop
          refine ⟨fun op' hop' => ?_, fun hk' => by omega⟩
          rw [List.getElem?_eq_none (by omega)] at hop'
          exact absurd hop' (by simp)
      | some op =>
          have hpc := (ih (by omega)).1 op hop
          have hlt := hcovers.addr_lt hop
          have hmem := List.mem_of_getElem? hop
          have hsize := hcovers.size_eq hop
          have hbound := sDasmLut_size (memory op.addr.toNat)
          have hbyte : ProgramByte m₀.cpu.pc d op.addr :=
            ⟨hcovers.org_le hop, op, hmem, by rw [hsize]; exact Nat.lt_add_of_pos_right hbound.1⟩
          have hnext : (machineAt (ramEnv self devices) m₀ gaps (k + 1)).cpu.pc =
              op.addr + BitVec.ofNat 16 op.opdef.size := by
            have hstep := (step_agrees self devices (h.unrecognized k (by omega))
              (h.running k (by omega))).inLine (h.untaken k (by omega))
            rw [machineAt_succ _ (by omega), afterGap]
            refine requestAll_induction
              (P := fun m => m.cpu.pc = op.addr + BitVec.ofNat 16 op.opdef.size)
              (fun _ _ hm => hm) _ ?_
            rw [hstep, sizeAt, hpc, h.kept self devices hset k hbyte, hsize, hmemory]
            simp only [instrSize, programMemory, BitVec.ofNat_toNat, BitVec.setWidth_eq]
          have htoNat : (machineAt (ramEnv self devices) m₀ gaps (k + 1)).cpu.pc.toNat =
              op.addr.toNat + op.opdef.size := by
            have hthree : op.opdef.size ≤ 3 := hsize ▸ hbound.2
            rw [hnext, BitVec.toNat_add, BitVec.toNat_ofNat]
            omega
          refine ⟨fun op' hop' => ?_, fun hlen => ?_⟩
          · apply BitVec.eq_of_toNat_eq
            rw [htoNat, hcovers.next k op op' hop hop']
          · rcases next_or_last hop with ⟨op', hop'⟩ | hlast
            · rw [List.getElem?_eq_none (by omega)] at hop'
              exact absurd hop' (by simp)
            · rw [htoNat]
              exact (hcovers.last op hlast).2

/-- A run in line follows the disassembly. -/
theorem InLine.follows (h : InLine (ramEnv self devices) m₀ d gaps)
    (hset : m₀.cpu.HandlersSet) (hfit : m₀.cpu.pc.toNat + programSize ≤ 0xFFFD)
    (hcovers : Covers (programMemory m₀.world) programSize m₀.cpu.pc d)
    (hmemory : d.memory = programMemory m₀.world) :
    Follows (ramEnv self devices) m₀ d gaps programSize := by
  have hpcs := fun k hk => h.pc_eq self devices hset hcovers rfl hfit k hk
  refine
    { runs := fun k => ?_
      fetches := fun k op hk hop => ⟨(hpcs k (Nat.le_of_lt hk)).1 op hop, ?_⟩
      leaves := fun hlen => (hpcs _ hlen).2 rfl }
  · obtain ⟨t, ht, hmach, _⟩ :=
      runCalls_schedule (ramEnv_frames self devices) (gaps.take k) hset
    exact ⟨t, ht, hmach⟩
  · have hmem := List.mem_of_getElem? hop
    have hlt := hcovers.addr_lt hop
    have hthree : op.opdef.size ≤ 3 := by
      rw [hcovers.size_eq hop]
      exact (sDasmLut_size _).2
    have hkept : ∀ i, i < op.opdef.size →
        (machineAt (ramEnv self devices) m₀ gaps k).world.mem (op.addr + BitVec.ofNat 16 i) =
          programMemory m₀.world (op.addr.toNat + i) := by
      intro i hi
      have htoNat : (op.addr + BitVec.ofNat 16 i).toNat = op.addr.toNat + i := by
        rw [BitVec.toNat_add, BitVec.toNat_ofNat]
        omega
      have hbyte : ProgramByte m₀.cpu.pc d (op.addr + BitVec.ofNat 16 i) := by
        have := hcovers.org_le hop
        exact ⟨by omega, op, hmem, by omega⟩
      rw [h.kept self devices hset k hbyte, programMemory, ofNat_toNat_add]
    obtain ⟨hfirst, hoperand⟩ := operandAt_eq hmemory ((hpcs k (Nat.le_of_lt hk)).1 op hop)
      (hcovers.opdef op hmem) hkept
    rw [stepFetches_ram self devices (h.unrecognized k hk) (h.running k hk), hfirst, hoperand,
      hmemory]

end Follow

/--
Emulator and disassembler agree.  Every step that recognizes no interrupt and is
not halted agrees with the table; every program that ends at FFFDh or below has a
disassembly, and every run in line from its origin follows it.
-/
theorem boundaries_agree (self : Ptr) (devices : Devices D) (m : Machine (Ram D))
    (hset : m.cpu.HandlersSet) :
    (m.cpu.halted = false → recognizes m.cpu = false →
      ∃ r, adc8080CpuStep (ramEnv self devices) m = some r ∧
        StepAgrees (ramEnv self devices) m r.mach) ∧
    ∀ programSize, m.cpu.pc.toNat + programSize ≤ 0xFFFD →
      ∃ d n, (∀ fuel, n ≤ fuel → adc8080DasmDisassemble fuel true true
          (some (programMemory m.world)) programSize m.cpu.pc = some (some d)) ∧
        ∀ gaps, InLine (ramEnv self devices) m d gaps →
          Follows (ramEnv self devices) m d gaps programSize := by
  refine ⟨fun hrun hrec => ?_, fun programSize hfit => ?_⟩
  · exact ⟨_, adc8080CpuStep_eq_some.mpr ⟨hset, rfl⟩, step_agrees self devices hrec hrun⟩
  · obtain ⟨d, n, hd, hcovers⟩ := exists_covers (by omega)
      (staysBelowTop_of_le (programMemory m.world) (Nat.le_add_right _ _) hfit)
    have hmemory := (disassemble_spec (hd n (Nat.le_refl n))).1
    exact ⟨d, n, hd, fun gaps hline => hline.follows self devices hset hfit hcovers hmemory⟩

/-- A machine with the sample program in memory. -/
def sampleMachine (pc : U16) : Machine (Ram Unit) where
  cpu :=
    { zeroCpu with
      pc := pc
      sp := 0x3000
      readByte := 1
      writeByte := 2
      readDevice := 3
      writeDevice := 4 }
  world := ⟨fun a => sampleMemory a.toNat, (), []⟩

theorem sampleMachine_mem (pc a : U16) :
    (sampleMachine pc).world.mem a = sampleMemory a.toNat := by
  rw [sampleMachine]

theorem programMemory_sample (pc : U16) :
    programMemory (sampleMachine pc).world = sampleMemory := by
  funext a
  simp only [programMemory, sampleMachine, sampleMemory, BitVec.toNat_ofNat, Nat.mod_add_mod]

/-- The `CALL` at 010Dh as one step, and the six instructions before it as a run that leaves
a program of 13 bytes; a request is made while interrupts are disabled. -/
theorem boundaries_agree_sample :
    let E := ramEnv 0x1000 noDevices
    (∃ r, adc8080CpuStep E (sampleMachine 0x010D) = some r ∧
      StepAgrees E (sampleMachine 0x010D) r.mach) ∧
    ∃ d, d.ops = sampleDisassembly.ops.take 6 ∧
      Follows E (sampleMachine 0x0100) d [[], [0xC7], [], [], [], []] 13 := by
  intro E
  have hset (pc : U16) : (sampleMachine pc).cpu.HandlersSet :=
    ⟨Nat.one_ne_zero, Nat.succ_ne_zero 1, Nat.succ_ne_zero 2, Nat.succ_ne_zero 3⟩
  have hagree (pc : U16) := boundaries_agree 0x1000 noDevices (sampleMachine pc) (hset pc)
  obtain ⟨d, n, hd, hfollows⟩ := (hagree 0x0100).2 13 (by decide)
  have hsample := @disassemble_of_passes sampleMemory 13 0x0100 8 ⟨0x010D, 6⟩
    ⟨0x010D, 6, sampleDisassembly.ops.take 6⟩ (by decide +kernel) (by decide +kernel)
  rw [programMemory_sample] at hd
  obtain rfl := disassemble_unique (hd n (Nat.le_refl n)) hsample
  refine ⟨(hagree 0x010D).1 rfl rfl, _, rfl, hfollows _ ⟨?_, ?_, ?_, ?_⟩⟩
  · decide +kernel
  · decide +kernel
  · decide +kernel
  · have hwrites : writesAfter E [[], [0xC7], [], [], [], []] (sampleMachine 0x0100) =
        [0x2000] := by
      decide +kernel
    rw [hwrites]
    rintro a ha ⟨-, op, hop, hlt⟩
    obtain rfl := List.mem_singleton.mp (List.mem_of_mem_take ha)
    have hend : ∀ op ∈ sampleDisassembly.ops.take 6,
        op.addr.toNat + op.opdef.size ≤ 0x2000 := by
      decide +kernel
    exact absurd hlt (Nat.not_lt.mpr (hend op hop))

end Dasm
end AdcLibs
