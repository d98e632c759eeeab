import AdcLibs.Cpu.Calls
import AdcLibs.Cpu.Flow

/-!
# Steps over plain memory

With plain RAM a fetched instruction is a function of the memory bytes at pc,
and memory changes only at the addresses the log records.
-/

namespace AdcLibs
namespace Cpu

universe u

open Reference

variable {D : Type u}

/-- `r'` adds `ws` to the log of `r`, and memory differs at most there. -/
structure Ram.Written (r : Ram D) (ws : List U16) (r' : Ram D) : Prop where
  writes : r'.writes = ws ++ r.writes
  mem : ∀ a, a ∉ ws → r'.mem a = r.mem a

theorem Ram.Written.refl (r : Ram D) : r.Written [] r :=
  ⟨rfl, fun _ _ => rfl⟩

theorem Ram.Written.put {r r' : Ram D} {ws : List U16} (h : r.Written ws r') (addr : U16)
    (b : U8) : r.Written (addr :: ws) (r'.put addr b) := by
  refine ⟨by rw [Ram.put_writes, h.writes, List.cons_append], fun a ha => ?_⟩
  rw [List.mem_cons, not_or] at ha
  rw [Ram.put_mem_of_ne r' b ha.1, h.mem a ha.2]

theorem Ram.Written.trans {r r' r'' : Ram D} {ws ws' : List U16} (h : r.Written ws r')
    (h' : r'.Written ws' r'') : r.Written (ws' ++ ws) r'' := by
  refine ⟨by rw [h'.writes, h.writes, List.append_assoc], fun a ha => ?_⟩
  rw [List.mem_append, not_or] at ha
  rw [h'.mem a ha.1, h.mem a ha.2]

/-- The log determines what was added to it. -/
theorem Ram.Written.unique {r r' : Ram D} {ws ws' : List U16} (h : r.Written ws r')
    (h' : r.Written ws' r') : ws = ws' :=
  List.append_cancel_right (h.writes.symm.trans h'.writes)

namespace Reference

variable (self : Ptr) (devices : Devices D)

@[simp] theorem Loc.load_ram_mach (loc : Loc) (m : Machine (Ram D)) :
    (loc.load (ramEnv self devices) m).mach = m := by
  cases loc <;> rfl

/-- Storing to a location writes memory once or not at all. -/
theorem Loc.store_written (loc : Loc) (v : U8) (m : Machine (Ram D)) :
    ∃ ws, m.world.Written ws (loc.store (ramEnv self devices) v m).world := by
  cases loc with
  | reg r => exact ⟨[], .refl _⟩
  | «at» addr => exact ⟨_, (Ram.Written.refl _).put addr v⟩

/-- Every instruction changes memory only where it logs. -/
theorem Instr.exec_written (i : Instr) (m : Machine (Ram D)) :
    ∃ ws, m.world.Written ws (i.exec (ramEnv self devices) m).world := by
  have hword : ∀ (addr w : U16) (m : Machine (Ram D)),
      ∃ ws, m.world.Written ws (storeWord (ramEnv self devices) addr w m).world :=
    fun addr w m => ⟨_, ((Ram.Written.refl _).put _ _).put _ _⟩
  cases i with
  | nop | hlt | ei | di | stc | cmc | cma | rlc | rrc | ral | rar | daa | sphl | xchg | pchl =>
      exact ⟨[], .refl _⟩
  | inx p | dcx p | dad p | lxi p | pop p | ldax p => exact ⟨[], .refl _⟩
  | aluImm op => exact ⟨[], .refl _⟩
  | lda | lhld | jmp | ret => exact ⟨[], .refl _⟩
  | mov d s =>
      simp only [Instr.exec, Loc.load_ram_mach]
      exact Loc.store_written self devices _ _ _
  | inr d =>
      simp only [Instr.exec, Loc.load_ram_mach]
      exact Loc.store_written self devices _ _ (m.onCpu _)
  | dcr d =>
      simp only [Instr.exec, Loc.load_ram_mach]
      exact Loc.store_written self devices _ _ (m.onCpu _)
  | mvi d => exact Loc.store_written self devices _ _ (fetch (ramEnv self devices) m).mach
  | alu op s =>
      simp only [Instr.exec, Loc.load_ram_mach]
      exact ⟨[], .refl _⟩
  | push p => exact hword _ _ (m.onCpu _)
  | stax p => exact ⟨_, (Ram.Written.refl _).put _ _⟩
  | sta => exact ⟨_, (Ram.Written.refl _).put _ _⟩
  | shld => exact hword _ _ (fetchWord (ramEnv self devices) m).mach
  | jmpCond cc =>
      simp only [Instr.exec]
      split <;> exact ⟨[], .refl _⟩
  | call => exact hword _ _ ((fetchWord (ramEnv self devices) m).mach.onCpu _)
  | callCond cc =>
      simp only [Instr.exec]
      split
      · exact hword _ _ ((fetchWord (ramEnv self devices) m).mach.onCpu _)
      · exact ⟨[], .refl _⟩
  | retCond cc =>
      simp only [Instr.exec]
      split <;> exact ⟨[], .refl _⟩
  | rst n => exact hword _ _ (m.onCpu _)
  | xthl => exact hword _ _ m
  | inp => exact ⟨[], rfl, fun _ _ => rfl⟩
  | out => exact ⟨[], rfl, fun _ _ => rfl⟩

end Reference

section Steps

variable (self : Ptr) (devices : Devices D) {m : Machine (Ram D)}

/-- The machine in which a fetched instruction executes. -/
def ready (m : Machine (Ram D)) : Machine (Ram D) :=
  m.onCpu fun cpu =>
    { cpu with
      pc := cpu.pc + 1
      cycles := (decode (m.world.mem m.cpu.pc)).cycles
      interruptDelay := false }

/-- A step that is neither halted nor interrupted executes the byte at pc. -/
theorem stepBody_ram (hrec : recognizes m.cpu = false) (hrun : m.cpu.halted = false) :
    (stepBody (ramEnv self devices) m).mach =
      ((decode (m.world.mem m.cpu.pc)).exec (ramEnv self devices) (ready m)).onCpu
        fun cpu => { cpu with cycles := 0 } := by
  rw [stepBody_executed hrec hrun, execNext_eq_exec]
  rfl

theorem stepEvent_ram (hrec : recognizes m.cpu = false) (hrun : m.cpu.halted = false) :
    stepEvent (ramEnv self devices) m = .executed (m.world.mem m.cpu.pc) := by
  simp only [stepEvent, hrec, hrun]
  rfl

/-- The machine in which the opcode of a recognized request executes. -/
def accepted (m : Machine (Ram D)) : Machine (Ram D) :=
  m.onCpu fun cpu =>
    { cpu with
      interruptPending := false
      inte := false
      halted := false
      cycles := (decode cpu.interruptOpcode).cycles
      interruptDelay := false }

theorem stepBody_ram_recognized (hrec : recognizes m.cpu = true) :
    (stepBody (ramEnv self devices) m).mach =
      ((decode m.cpu.interruptOpcode).exec (ramEnv self devices) (accepted m)).onCpu
        fun cpu => { cpu with cycles := 0 } := by
  rw [stepBody_recognized hrec, execNext_eq_exec]
  rfl

/-- What a step returns when the executed instruction leaves `m`. -/
def retire {W : Type u} (m : Machine W) : Ret Int W :=
  ⟨m.cpu.cycles, m.onCpu fun cpu => { cpu with cycles := 0 }⟩

/-- A step that fetches an instruction, with the cycles that it returns. -/
theorem stepBody_fetched (hrec : recognizes m.cpu = false) (hrun : m.cpu.halted = false) :
    stepBody (ramEnv self devices) m =
      retire ((decode (m.world.mem m.cpu.pc)).exec (ramEnv self devices) (ready m)) := by
  have hnext := execNext_eq_exec (ramEnv self devices) (m.world.mem m.cpu.pc)
    (fetch (ramEnv self devices) m).mach
  refine Ret.ext ?_ (stepBody_ram self devices hrec hrun)
  simp only [stepBody, stepBodyWith, hrec, hrun]
  exact congrArg (fun m => m.cpu.cycles) hnext

/-- A step that recognizes a request, with the cycles that it returns. -/
theorem stepBody_accepted (hrec : recognizes m.cpu = true) :
    stepBody (ramEnv self devices) m =
      retire ((decode m.cpu.interruptOpcode).exec (ramEnv self devices) (accepted m)) := by
  refine Ret.ext ?_ (stepBody_ram_recognized self devices hrec)
  simp only [stepBody, stepBodyWith, execNextWith_fetchers, hrec, if_true,
    execNext_eq_exec]
  rfl

/-- A step changes memory only where it logs. -/
theorem stepBody_written (m : Machine (Ram D)) :
    ∃ ws, m.world.Written ws (stepBody (ramEnv self devices) m).mach.world := by
  cases hrec : recognizes m.cpu with
  | true =>
      rw [stepBody_ram_recognized self devices hrec]
      exact Instr.exec_written self devices _ (accepted m)
  | false =>
      cases hhalt : m.cpu.halted with
      | false =>
          rw [stepBody_ram self devices hrec hhalt]
          exact Instr.exec_written self devices _ (ready m)
      | true =>
          rw [stepBody_idle hrec hhalt]
          exact ⟨[], .refl _⟩

theorem afterGaps_written (gaps : List (List U8)) (m : Machine (Ram D)) :
    ∃ ws, m.world.Written ws (afterGaps (ramEnv self devices) gaps m).world := by
  induction gaps generalizing m with
  | nil => exact ⟨[], .refl _⟩
  | cons gap gaps ih =>
      obtain ⟨ws, hws⟩ := stepBody_written self devices m
      obtain ⟨ws', hws'⟩ := ih (afterGap (ramEnv self devices) m gap)
      rw [afterGap, requestAll_world] at hws'
      exact ⟨_, hws.trans hws'⟩

/-- The log after a schedule. -/
def writesAfter (E : Env (Ram D)) (gaps : List (List U8)) (m : Machine (Ram D)) : List U16 :=
  ((runCalls E (schedule gaps) m).map fun t => t.mach.world.writes).getD []

theorem writesAfter_eq (gaps : List (List U8)) (hset : m.cpu.HandlersSet) :
    writesAfter (ramEnv self devices) gaps m =
      (afterGaps (ramEnv self devices) gaps m).world.writes := by
  obtain ⟨t, ht, hmach, _⟩ := runCalls_schedule (ramEnv_frames self devices) gaps hset
  rw [writesAfter, ht, Option.map_some, Option.getD_some, hmach]

end Steps

end Cpu
end AdcLibs
