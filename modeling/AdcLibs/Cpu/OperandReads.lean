import AdcLibs.Cpu.Injected
import Mathlib.Data.Set.Basic

/-!
# What a run reads

A run does the same on two memories that agree where it reads: every step writes the same
bytes and returns the same cycles.  The memories may even hold different opcode bytes of
the same instructions, where the run reads them as opcodes only.
-/

namespace AdcLibs
namespace Cpu

universe u

open Dasm Reference

variable {D : Type u}

/-- The memories agree outside `S`, and hold the same instructions in `F`. -/
structure Ram.Alike (S F : Set U16) (w w' : Ram D) : Prop where
  dev : w'.dev = w.dev
  writes : w'.writes = w.writes
  mem : ∀ a, a ∉ S → w'.mem a = w.mem a
  decode : ∀ a ∈ F, Reference.decode (w'.mem a) = Reference.decode (w.mem a)

section Alike

variable {S F : Set U16} {w w' : Ram D}

theorem Ram.Alike.put (h : w.Alike S F w') (addr : U16) (b : U8) :
    (w.put addr b).Alike S F (w'.put addr b) where
  dev := h.dev
  writes := congrArg (addr :: ·) h.writes
  mem a ha := by
    by_cases heq : a = addr
    · rw [heq, Ram.put_mem_self, Ram.put_mem_self]
    · rw [Ram.put_mem_of_ne _ _ heq, Ram.put_mem_of_ne _ _ heq, h.mem a ha]
  decode a ha := by
    by_cases heq : a = addr
    · rw [heq, Ram.put_mem_self, Ram.put_mem_self]
    · rw [Ram.put_mem_of_ne _ _ heq, Ram.put_mem_of_ne _ _ heq, h.decode a ha]

/-- The log of a word that is read has its two addresses. -/
theorem Ram.Alike.word (h : w.Alike S F w') (addr : U16) {r : List U16}
    (hreads : ∀ a ∈ r ++ [addr + 1, addr], a ∉ S) :
    w'.word addr = w.word addr := by
  rw [Ram.word, Ram.word, h.mem addr (hreads _ (by simp)), h.mem (addr + 1) (hreads _ (by simp))]

end Alike

/-- One cpu on two memories. -/
structure Machine.Alike (S F : Set U16) (m m' : Machine (Ram D)) : Prop where
  cpu : m'.cpu = m.cpu
  world : m.world.Alike S F m'.world

/-- The device handlers do not look at the memory in `S`. -/
def Devices.Ignores (devices : Devices D) (S : Set U16) : Prop :=
  ∀ (mem mem' : U16 → U8), (∀ a, a ∉ S → mem' a = mem a) →
    (∀ p d cpu dev, devices.read p d cpu mem' dev = devices.read p d cpu mem dev) ∧
      ∀ p d b cpu dev, devices.write p d b cpu mem' dev = devices.write p d b cpu mem dev

section Steps

variable (self : Ptr) {devices : Devices D} {S F : Set U16}

/-- An instruction that reads outside `S` does the same on both memories. -/
theorem Reference.Instr.exec_alike (hdevices : devices.Ignores S) {cpu : Adc8080Cpu}
    {w w' : Ram D} (h : w.Alike S F w') (i : Instr)
    (hreads : ∀ a ∈ i.reads (ramEnv self devices) ⟨cpu, w⟩, a ∉ S) :
    (i.exec (ramEnv self devices) ⟨cpu, w⟩).Alike S F
      (i.exec (ramEnv self devices) ⟨cpu, w'⟩) := by
  cases i with
  | nop | hlt | ei | di | stc | cmc | cma | rlc | rrc | ral | rar | daa | sphl | xchg | pchl =>
      exact ⟨rfl, h⟩
  | inx p | dcx p | dad p => exact ⟨rfl, h⟩
  | push p => exact ⟨rfl, (h.put _ _).put _ _⟩
  | rst n => exact ⟨rfl, (h.put _ _).put _ _⟩
  | stax p => exact ⟨rfl, h.put _ _⟩
  | mov d s =>
      cases s with
      | reg r =>
          cases d with
          | reg r' => exact ⟨rfl, h⟩
          | mem => exact ⟨rfl, h.put _ _⟩
      | mem =>
          have hhl : w'.mem (Pair.h.get cpu) = w.mem (Pair.h.get cpu) := by
            cases d with
            | _ => exact h.mem _ (hreads _ (List.mem_cons_self ..))
          simp only [Instr.exec, Operand.loc, Loc.load, load_ram, hhl]
          cases d with
          | reg r' => exact ⟨rfl, h⟩
          | mem => exact ⟨rfl, h.put _ _⟩
  | inr d | dcr d =>
      cases d with
      | reg r => exact ⟨rfl, h⟩
      | mem =>
          have hhl := h.mem (Pair.h.get cpu) (hreads _ (List.mem_cons_self ..))
          simp only [Instr.exec, Operand.loc, Loc.load, load_ram, hhl]
          exact ⟨rfl, h.put _ _⟩
  | alu op s =>
      cases s with
      | reg r => exact ⟨rfl, h⟩
      | mem =>
          have hhl := h.mem (Pair.h.get cpu) (hreads _ (List.mem_cons_self ..))
          simp only [Instr.exec, Operand.loc, Loc.load, load_ram, hhl]
          exact ⟨rfl, h⟩
  | mvi d =>
      have hpc : w'.mem cpu.pc = w.mem cpu.pc := by
        cases d with
        | _ => exact h.mem _ (hreads _ (List.mem_cons_self ..))
      simp only [Instr.exec, fetch_ram, hpc]
      cases d with
      | reg r => exact ⟨rfl, h⟩
      | mem => exact ⟨rfl, h.put _ _⟩
  | aluImm op =>
      have hpc := h.mem cpu.pc (hreads _ (List.mem_cons_self ..))
      simp only [Instr.exec, fetch_ram, hpc]
      exact ⟨rfl, h⟩
  | inp =>
      have hsame : devices.read self (w'.mem cpu.pc) { cpu with pc := cpu.pc + 1 } w'.mem w'.dev =
          devices.read self (w.mem cpu.pc) { cpu with pc := cpu.pc + 1 } w.mem w.dev := by
        rw [h.mem cpu.pc (hreads _ (List.mem_cons_self ..)), h.dev]
        exact (hdevices w.mem w'.mem h.mem).1 _ _ _ _
      exact ⟨congrArg (fun r : U8 × D => Reg.a.set r.1 { cpu with pc := cpu.pc + 1 }) hsame,
        congrArg Prod.snd hsame, h.writes, h.mem, h.decode⟩
  | out =>
      have hsame : devices.write self (w'.mem cpu.pc) cpu.ra { cpu with pc := cpu.pc + 1 }
            w'.mem w'.dev =
          devices.write self (w.mem cpu.pc) cpu.ra { cpu with pc := cpu.pc + 1 } w.mem w.dev := by
        rw [h.mem cpu.pc (hreads _ (List.mem_cons_self ..)), h.dev]
        exact (hdevices w.mem w'.mem h.mem).2 _ _ _ _ _
      exact ⟨rfl, hsame, h.writes, h.mem, h.decode⟩
  | ldax p =>
      have hread := h.mem (p.get cpu) (hreads _ (List.mem_cons_self ..))
      simp only [Instr.exec, load_ram, hread]
      exact ⟨rfl, h⟩
  | lxi p =>
      have hword := h.word cpu.pc (r := []) hreads
      simp only [Instr.exec, fetchWord_ram, hword]
      exact ⟨rfl, h⟩
  | jmp =>
      have hword := h.word cpu.pc (r := []) hreads
      simp only [Instr.exec, fetchWord_ram, hword]
      exact ⟨rfl, h⟩
  | call =>
      have hword := h.word cpu.pc (r := []) hreads
      simp only [Instr.exec, fetchWord_ram, hword]
      exact ⟨rfl, (h.put _ _).put _ _⟩
  | sta =>
      have hword := h.word cpu.pc (r := []) hreads
      simp only [Instr.exec, fetchWord_ram, hword]
      exact ⟨rfl, h.put _ _⟩
  | shld =>
      have hword := h.word cpu.pc (r := []) hreads
      simp only [Instr.exec, fetchWord_ram, hword]
      exact ⟨rfl, (h.put _ _).put _ _⟩
  | lda =>
      have hword := h.word cpu.pc (r := [_]) hreads
      have hread := h.mem (w.word cpu.pc) (hreads _ (List.mem_cons_self ..))
      simp only [Instr.exec, fetchWord_ram, hword, load_ram, Machine.onCpu_world, hread]
      exact ⟨rfl, h⟩
  | lhld =>
      have hword := h.word cpu.pc (r := [_, _]) hreads
      have hread := h.word (w.word cpu.pc) (r := [])
        fun a ha => hreads a (List.mem_append_left [cpu.pc + 1, cpu.pc] ha)
      simp only [Instr.exec, fetchWord_ram, hword, loadWord_ram, Machine.onCpu_world, hread]
      exact ⟨rfl, h⟩
  | pop p =>
      have hword := h.word cpu.sp (r := []) hreads
      simp only [Instr.exec, popWord, loadWord_ram, hword]
      exact ⟨rfl, h⟩
  | xthl =>
      have hword := h.word cpu.sp (r := []) hreads
      simp only [Instr.exec, loadWord_ram, hword]
      exact ⟨rfl, (h.put _ _).put _ _⟩
  | ret =>
      have hword := h.word cpu.sp (r := []) hreads
      simp only [Instr.exec, returnTo, popWord, loadWord_ram, hword]
      exact ⟨rfl, h⟩
  | retCond cc =>
      cases hcc : cc.holds cpu with
      | false =>
          simp only [Instr.exec, hcc]
          exact ⟨rfl, h⟩
      | true =>
          have hall : Instr.reads (ramEnv self devices) (.retCond cc) ⟨cpu, w⟩ =
              [cpu.sp + 1, cpu.sp] := by
            have hcc' : cc.holds (Machine.unlogged ⟨cpu, w⟩).cpu = true := hcc
            simp only [Instr.reads, Instr.exec, hcc', if_true]
            rfl
          have hword := h.word cpu.sp (r := []) (hall ▸ hreads)
          simp only [Instr.exec, hcc, returnTo, popWord, loadWord_ram, hword]
          exact ⟨rfl, h⟩
  | jmpCond cc =>
      have hall : Instr.reads (ramEnv self devices) (.jmpCond cc) ⟨cpu, w⟩ =
          [cpu.pc + 1, cpu.pc] := by
        simp only [Instr.reads, Instr.exec]
        split <;> rfl
      have hword := h.word cpu.pc (r := []) (hall ▸ hreads)
      simp only [Instr.exec, fetchWord_ram, hword, Machine.onCpu_cpu, Cond.holds_pc]
      split
      · exact ⟨rfl, h⟩
      · exact ⟨rfl, h⟩
  | callCond cc =>
      have hall : Instr.reads (ramEnv self devices) (.callCond cc) ⟨cpu, w⟩ =
          [cpu.pc + 1, cpu.pc] := by
        simp only [Instr.reads, Instr.exec]
        split <;> rfl
      have hword := h.word cpu.pc (r := []) (hall ▸ hreads)
      simp only [Instr.exec, fetchWord_ram, hword, Machine.onCpu_cpu, Cond.holds_pc]
      split
      · exact ⟨rfl, (h.put _ _).put _ _⟩
      · exact ⟨rfl, h⟩

/-- The addresses that a step reads behind the opcode, latest first. -/
def operandReads (E : Env (Ram D)) (m : Machine (Ram D)) : List U16 :=
  if recognizes m.cpu then (Reference.decode m.cpu.interruptOpcode).reads E (accepted m)
  else if m.cpu.halted then []
  else (Reference.decode (m.world.mem m.cpu.pc)).reads E (ready m)

/-- The address of the opcode that a step fetches. -/
def opcodeRead (m : Machine (Ram D)) : Option U16 :=
  if recognizes m.cpu || m.cpu.halted then none else some m.cpu.pc

/-- A step reads opcodes in `F` or outside `S`, and outside `S` behind them. -/
structure ReadsOutside (E : Env (Ram D)) (S F : Set U16) (m : Machine (Ram D)) : Prop where
  opcode : ∀ a ∈ opcodeRead m, a ∈ F ∨ a ∉ S
  operands : ∀ a ∈ operandReads E m, a ∉ S

theorem Machine.Alike.retire {m m' : Machine (Ram D)} (h : m.Alike S F m') :
    (retire m').val = (retire m).val ∧ (retire m).mach.Alike S F (retire m').mach := by
  refine ⟨congrArg Adc8080Cpu.cycles h.cpu, ?_, h.world⟩
  exact congrArg (fun cpu : Adc8080Cpu => { cpu with cycles := 0 }) h.cpu

/-- Such a step does the same on both memories. -/
theorem stepBody_alike (hdevices : devices.Ignores S) {m m' : Machine (Ram D)}
    (h : m.Alike S F m') (hreads : ReadsOutside (ramEnv self devices) S F m) :
    (stepBody (ramEnv self devices) m').val = (stepBody (ramEnv self devices) m).val ∧
      (stepBody (ramEnv self devices) m).mach.Alike S F
        (stepBody (ramEnv self devices) m').mach := by
  obtain ⟨cpu, w⟩ := m
  obtain ⟨cpu', w'⟩ := m'
  obtain ⟨rfl, hw⟩ := h
  obtain ⟨hopcode, hoperands⟩ := hreads
  rw [operandReads] at hoperands
  cases hrec : recognizes cpu' with
  | true =>
      rw [if_pos hrec] at hoperands
      rw [stepBody_accepted self devices hrec, stepBody_accepted self devices hrec]
      exact (Instr.exec_alike self hdevices hw _ hoperands).retire
  | false =>
      rw [if_neg (ne_true_of_eq_false hrec)] at hoperands
      cases hhalted : cpu'.halted with
      | true =>
          rw [stepBody_idle hrec hhalted, stepBody_idle hrec hhalted]
          exact ⟨rfl, rfl, hw⟩
      | false =>
          rw [if_neg (ne_true_of_eq_false hhalted)] at hoperands
          have hdecode : Reference.decode (w'.mem cpu'.pc) = Reference.decode (w.mem cpu'.pc) := by
            rcases hopcode cpu'.pc (by simp [opcodeRead, hrec, hhalted]) with hin | hout
            · exact hw.decode _ hin
            · rw [hw.mem _ hout]
          have hready : ready ⟨cpu', w'⟩ = ⟨(ready ⟨cpu', w⟩).cpu, w'⟩ := by
            simp only [ready, hdecode]
            rfl
          rw [stepBody_fetched self devices hrec hhalted,
            stepBody_fetched self devices hrec hhalted, hdecode, hready]
          exact (Instr.exec_alike self hdevices hw _ hoperands).retire

/-! ## Runs -/

/-- Every step of a sequence of calls starts in a machine with `P`. -/
def EachStep {W : Type u} (E : Env W) (P : Machine W → Prop) : List Call → Machine W → Prop
  | [], _ => True
  | .interrupt op :: cs, m => EachStep E P cs (m.onCpu (adc8080CpuInterrupt op))
  | .step :: cs, m => P m ∧ ∀ r, adc8080CpuStep E m = some r → EachStep E P cs r.mach

/-- With an invariant of the calls, what each step is assumed to start in tells more. -/
theorem EachStep.invariant {W : Type u} {E : Env W} {I P Q : Machine W → Prop}
    (hinterrupt : ∀ op m, I m → I (m.onCpu (adc8080CpuInterrupt op)))
    (hstep : ∀ m, I m → P m → Q m ∧ I (stepBody E m).mach) {cs : List Call} {m : Machine W}
    (h : EachStep E P cs m) (hm : I m) : EachStep E Q cs m := by
  induction cs generalizing m with
  | nil => trivial
  | cons c cs ih =>
      cases c with
      | interrupt op => exact ih h (hinterrupt op m hm)
      | step =>
          obtain ⟨hq, hnext⟩ := hstep m hm h.1
          refine ⟨hq, fun r hr => ih (h.2 r hr) ?_⟩
          obtain ⟨-, rfl⟩ := adc8080CpuStep_eq_some.mp hr
          exact hnext

theorem EachStep.step {W : Type u} {E : Env W} {P : Machine W → Prop} {cs : List Call}
    {m : Machine W} (hm : P m) (h : EachStep E P cs (stepBody E m).mach) :
    EachStep E P (.step :: cs) m := by
  refine ⟨hm, fun r hr => ?_⟩
  obtain ⟨-, rfl⟩ := adc8080CpuStep_eq_some.mp hr
  exact h

theorem EachStep.mono {W : Type u} {E : Env W} {P Q : Machine W → Prop} (hPQ : ∀ m, P m → Q m)
    {cs : List Call} {m : Machine W} (h : EachStep E P cs m) : EachStep E Q cs m :=
  h.invariant (I := fun _ => True) (fun _ _ _ => trivial) (fun m _ hm => ⟨hPQ m hm, trivial⟩)
    trivial

/-- Two runs return the same cycles and end alike. -/
structure SameTrace (S F : Set U16) (t t' : Trace (Ram D)) : Prop where
  cycles : t'.cycles = t.cycles
  mach : t.mach.Alike S F t'.mach

theorem rel_map {α β γ δ : Type*} {R : α → β → Prop} {R' : γ → δ → Prop} {f : α → γ}
    {g : β → δ} (h : ∀ a b, R a b → R' (f a) (g b)) {x : Option α} {y : Option β}
    (hxy : Option.Rel R x y) : Option.Rel R' (x.map f) (y.map g) := by
  cases hxy with
  | none => exact .none
  | some hab => exact .some (h _ _ hab)

/-- A run of such steps does the same on both memories. -/
theorem runCalls_alike (hdevices : devices.Ignores S) {cs : List Call} {m m' : Machine (Ram D)}
    (h : m.Alike S F m')
    (hreads : EachStep (ramEnv self devices) (ReadsOutside (ramEnv self devices) S F) cs m) :
    Option.Rel (SameTrace S F) (runCalls (ramEnv self devices) cs m)
      (runCalls (ramEnv self devices) cs m') := by
  induction cs generalizing m m' with
  | nil => exact .some ⟨rfl, h⟩
  | cons c cs ih =>
      cases c with
      | interrupt op =>
          have hrequest : (m.onCpu (adc8080CpuInterrupt op)).Alike S F
              (m'.onCpu (adc8080CpuInterrupt op)) :=
            ⟨congrArg (adc8080CpuInterrupt op) h.cpu, h.world⟩
          exact rel_map (fun _ _ hsame => ⟨hsame.cycles, hsame.mach⟩) (ih hrequest hreads)
      | step =>
          obtain ⟨hstep, hrest⟩ := hreads
          obtain ⟨hval, hmach⟩ := stepBody_alike self hdevices h hstep
          by_cases hset : m.cpu.HandlersSet
          · have hset' : m'.cpu.HandlersSet := h.cpu ▸ hset
            have hrun : adc8080CpuStep (ramEnv self devices) m =
                some (stepBody (ramEnv self devices) m) := adc8080CpuStep_eq_some.mpr ⟨hset, rfl⟩
            have hrun' : adc8080CpuStep (ramEnv self devices) m' =
                some (stepBody (ramEnv self devices) m') := adc8080CpuStep_eq_some.mpr ⟨hset', rfl⟩
            rw [runCalls, runCalls, hrun, hrun', Option.bind_some, Option.bind_some]
            refine rel_map (fun t t' hsame => ⟨?_, hsame.mach⟩) (ih hmach (hrest _ hrun))
            exact congrArg₂ List.cons hval hsame.cycles
          · have hset' : ¬ m'.cpu.HandlersSet := h.cpu ▸ hset
            have hnone : adc8080CpuStep (ramEnv self devices) m = none := if_neg hset
            have hnone' : adc8080CpuStep (ramEnv self devices) m' = none := if_neg hset'
            rw [runCalls, runCalls, hnone, hnone']
            exact .none

/-! ## The log of a step -/

/-- A log with earlier calls below it. -/
def Logged.below {W : Type u} (calls : List HandlerCall) (w : Logged W) : Logged W :=
  ⟨w.world, w.calls ++ calls⟩

/-- What is logged does not depend on earlier calls. -/
theorem logEnv_below {W : Type u} (E : Env W) (calls : List HandlerCall) :
    Env.Projects (Logged.below calls) (logEnv E) (logEnv E) where
  self := rfl
  highFirst := rfl
  readByte _ _ _ _ := rfl
  writeByte _ _ _ _ _ := rfl
  readDevice _ _ _ _ := rfl
  writeDevice _ _ _ _ _ := rfl

/-- A step reads its opcode, and what it reads behind it. -/
theorem stepReads_eq (m : Machine (Ram D)) :
    stepReads (ramEnv self devices) m =
      operandReads (ramEnv self devices) m ++ (opcodeRead m).toList := by
  cases hrec : recognizes m.cpu with
  | true =>
      have hrec' : recognizes m.unlogged.cpu = true := hrec
      rw [stepReads, stepBody_recognized hrec', execNext_begun, operandReads, if_pos hrec,
        opcodeRead, hrec]
      exact (List.append_nil _).symm
  | false =>
      have hrec' : recognizes m.unlogged.cpu = false := hrec
      cases hhalted : m.cpu.halted with
      | true =>
          have hhalted' : m.unlogged.cpu.halted = true := hhalted
          rw [stepReads, stepBody_idle hrec' hhalted', operandReads, hrec, hhalted, opcodeRead,
            hrec, hhalted]
          rfl
      | false =>
          have hhalted' : m.unlogged.cpu.halted = false := hhalted
          have hexec := Instr.exec_map (logEnv_below (ramEnv self devices)
            [⟨.readByte, m.cpu.userdata, m.cpu.userdata, m.cpu.pc⟩])
            (Reference.decode (m.world.mem m.cpu.pc)) (ready m).unlogged
          have hlogged : stepReads (ramEnv self devices) m =
              readAddrs ((Reference.decode (m.world.mem m.cpu.pc)).exec
                (logEnv (ramEnv self devices)) ((ready m).unlogged.map (Logged.below
                  [⟨.readByte, m.cpu.userdata, m.cpu.userdata, m.cpu.pc⟩]))).world.calls := by
            rw [stepReads, stepBody_executed hrec' hhalted', execNext_begun]
            rfl
          rw [hlogged, hexec, operandReads, hrec, hhalted, opcodeRead, hrec, hhalted]
          exact List.filterMap_append

/-- The machine with another memory. -/
def withMem (mem : U16 → U8) (m : Machine (Ram D)) : Machine (Ram D) :=
  { m with world := { m.world with mem := mem } }

/--
Memory that no step of a run reads has no influence on the run: whatever it holds, the
same assertions fail, the same cycles are returned, and the registers, the devices, the
addresses written and all other memory are the same at the end.
-/
theorem run_depends_on_reads (hdevices : devices.Ignores S) {cs : List Call}
    {m : Machine (Ram D)} {mem : U16 → U8} (hmem : ∀ a, a ∉ S → mem a = m.world.mem a)
    (hreads : EachStep (ramEnv self devices)
      (fun m => ∀ a ∈ stepReads (ramEnv self devices) m, a ∉ S) cs m) :
    Option.Rel (SameTrace S ∅) (runCalls (ramEnv self devices) cs m)
      (runCalls (ramEnv self devices) cs (withMem mem m)) := by
  refine runCalls_alike self hdevices ⟨rfl, rfl, rfl, hmem, by simp⟩ (hreads.mono fun m hm => ?_)
  rw [stepReads_eq] at hm
  obtain ⟨hoperands, hopcode⟩ := List.forall_mem_append.mp hm
  exact ⟨fun a ha => .inr (hopcode a (Option.mem_toList.mpr ha)), hoperands⟩

end Steps

/-- The bytes of the `CALL` and the `LXI` in the sample program. -/
def sampleReads : List U16 := [0x0100, 0x0101, 0x0102, 0x010D, 0x010E, 0x010F]

/-- The `CALL` to the `LXI`, in a memory where nothing else of the program is left. -/
theorem run_depends_on_reads_sample :
    Option.Rel (SameTrace {a | a ∉ sampleReads} ∅)
      (runCalls (ramEnv 0x1000 noDevices) [.step, .interrupt 0xC7, .step] (sampleMachine 0x010D))
      (runCalls (ramEnv 0x1000 noDevices) [.step, .interrupt 0xC7, .step]
        (withMem (fun a => if a ∈ sampleReads then sampleMemory a.toNat else 0x76)
          (sampleMachine 0x010D))) := by
  have hcall : stepReads (ramEnv 0x1000 noDevices) (sampleMachine 0x010D) =
      [0x010F, 0x010E, 0x010D] := by
    decide +kernel
  have hlxi : stepReads (ramEnv 0x1000 noDevices)
      ((stepBody (ramEnv 0x1000 noDevices) (sampleMachine 0x010D)).mach.onCpu
        (adc8080CpuInterrupt 0xC7)) = [0x0102, 0x0101, 0x0100] := by
    decide +kernel
  have hread {m : Machine (Ram Unit)} {reads : List U16}
      (h : stepReads (ramEnv 0x1000 noDevices) m = reads) (hin : ∀ a ∈ reads, a ∈ sampleReads) :
      ∀ a ∈ stepReads (ramEnv 0x1000 noDevices) m, a ∉ {a | a ∉ sampleReads} :=
    fun a ha hnot => hnot (hin a (h ▸ ha))
  refine run_depends_on_reads 0x1000 (fun _ _ _ => ⟨fun _ _ _ _ => rfl, fun _ _ _ _ _ => rfl⟩)
    (fun a ha => ?_)
    (EachStep.step (hread hcall (by simp [sampleReads]))
      ⟨hread hlxi (by simp [sampleReads]), fun _ _ => trivial⟩)
  rw [sampleMachine_mem]
  exact if_pos (Decidable.not_not.mp ha)

end Cpu
end AdcLibs
