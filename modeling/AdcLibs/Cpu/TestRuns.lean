import AdcLibs.Cpu.Bdos
import Mathlib.Data.Int.ModEq

/-!
# Runs of the test driver

No test depends on what the cpu struct held before it, a program that halts leaves the
driver in a loop at one state, and the verdict compares cycles modulo 2^64.
-/

namespace AdcLibs
namespace Cpu

open Loops Reference

/-! ## The struct before the test -/

section Inte

variable (self : Ptr) (inte : Bool) (m : Machine (Ram Console))

/-- The flag set or cleared. -/
def putInte (inte : Bool) (cpu : Adc8080Cpu) : Adc8080Cpu := { cpu with inte := inte }

theorem loc_putInte (o : Operand) (cpu : Adc8080Cpu) : o.loc (putInte inte cpu) = o.loc cpu := by
  cases o with
  | reg r => rfl
  | mem => rfl

theorem load_putInte (loc : Loc) :
    loc.load (ramEnv self testDevices) (m.onCpu (putInte inte)) =
      ⟨(loc.load (ramEnv self testDevices) m).val, m.onCpu (putInte inte)⟩ := by
  cases loc with
  | reg r => cases r with | _ => rfl
  | «at» addr => rfl

theorem store_putInte (loc : Loc) (v : U8) :
    loc.store (ramEnv self testDevices) v (m.onCpu (putInte inte)) =
      (loc.store (ramEnv self testDevices) v m).onCpu (putInte inte) := by
  cases loc with
  | reg r => cases r with | _ => rfl
  | «at» addr => rfl

theorem alu_putInte (op : AluOp) (v : U8) (cpu : Adc8080Cpu) :
    op.exec v (putInte inte cpu) = putInte inte (op.exec v cpu) := by
  cases op with | _ => rfl

theorem holds_putInte (cc : Cond) (cpu : Adc8080Cpu) :
    cc.holds (putInte inte cpu) = cc.holds cpu := by
  cases cc with | _ => rfl

/-- An instruction carries the flag along, or sets or clears it. -/
theorem exec_putInte (i : Instr) :
    ∃ inte', i.exec (ramEnv self testDevices) (m.onCpu (putInte inte)) =
      (i.exec (ramEnv self testDevices) m).onCpu (putInte inte') := by
  cases i with
  | ei => exact ⟨true, rfl⟩
  | di => exact ⟨false, rfl⟩
  | nop | hlt | stc | cmc | cma | rlc | rrc | ral | rar | daa | sphl | xchg | pchl | xthl =>
      exact ⟨inte, rfl⟩
  | jmp | call | ret | lda | sta | lhld | shld | rst n | inp => exact ⟨inte, rfl⟩
  | mov d s =>
      refine ⟨inte, ?_⟩
      simp only [Instr.exec, Machine.onCpu_cpu, loc_putInte, load_putInte, store_putInte,
        Loc.load_ram_mach]
  | inr d =>
      refine ⟨inte, ?_⟩
      simp only [Instr.exec, Machine.onCpu_cpu, loc_putInte, load_putInte, Loc.load_ram_mach]
      exact store_putInte self inte (m.onCpu (inrFlags _)) _ _
  | dcr d =>
      refine ⟨inte, ?_⟩
      simp only [Instr.exec, Machine.onCpu_cpu, loc_putInte, load_putInte, Loc.load_ram_mach]
      exact store_putInte self inte (m.onCpu (dcrFlags _)) _ _
  | mvi d =>
      refine ⟨inte, ?_⟩
      simp only [Instr.exec, Machine.onCpu_cpu, loc_putInte, fetch_ram]
      exact store_putInte self inte (m.onCpu fun cpu => { cpu with pc := cpu.pc + 1 }) _ _
  | alu op s =>
      refine ⟨inte, ?_⟩
      simp only [Instr.exec, Machine.onCpu_cpu, loc_putInte, load_putInte, Loc.load_ram_mach]
      exact congrArg (Machine.mk · m.world) (alu_putInte inte op _ _)
  | aluImm op =>
      refine ⟨inte, ?_⟩
      simp only [Instr.exec, fetch_ram]
      exact congrArg (Machine.mk · m.world)
        (alu_putInte inte op _ { m.cpu with pc := m.cpu.pc + 1 })
  | lxi p | inx p | dcx p | pop p | dad p => exact ⟨inte, by cases p with | _ => rfl⟩
  | push p | stax p | ldax p => exact ⟨inte, by cases p with | _ => rfl⟩
  | jmpCond cc =>
      refine ⟨inte, ?_⟩
      simp only [Instr.exec, fetchWord_ram, Machine.onCpu_cpu, Cond.holds_pc, holds_putInte]
      split
      · rfl
      · rfl
  | callCond cc =>
      refine ⟨inte, ?_⟩
      simp only [Instr.exec, fetchWord_ram, Machine.onCpu_cpu, Cond.holds_pc, holds_putInte]
      split
      · rfl
      · rfl
  | retCond cc =>
      refine ⟨inte, ?_⟩
      simp only [Instr.exec, Machine.onCpu_cpu, holds_putInte]
      split
      · rfl
      · rfl
  | out =>
      have hsees : handleDeviceWrite (m.world.mem m.cpu.pc)
            { putInte inte m.cpu with pc := m.cpu.pc + 1 } m.world.mem m.world.dev =
          handleDeviceWrite (m.world.mem m.cpu.pc) { m.cpu with pc := m.cpu.pc + 1 }
            m.world.mem m.world.dev := handleDeviceWrite_congr rfl rfl rfl _ _ _
      exact ⟨inte, congrArg (fun dev => Machine.mk { putInte inte m.cpu with pc := m.cpu.pc + 1 }
        { m.world with dev := dev }) hsees⟩

end Inte

/-- Without a request a step carries the flag along, too. -/
theorem stepBody_putInte (self : Ptr) (inte : Bool) {m : Machine (Ram Console)}
    (hpending : m.cpu.interruptPending = false) :
    ∃ inte', stepBody (ramEnv self testDevices) (m.onCpu (putInte inte)) =
      ⟨(stepBody (ramEnv self testDevices) m).val,
        (stepBody (ramEnv self testDevices) m).mach.onCpu (putInte inte')⟩ := by
  have hrec : recognizes m.cpu = false := not_recognizes_of_not_pending hpending
  have hrec' : recognizes (m.onCpu (putInte inte)).cpu = false :=
    not_recognizes_of_not_pending hpending
  cases hhalted : m.cpu.halted with
  | true =>
      rw [stepBody_idle hrec hhalted, stepBody_idle hrec' hhalted]
      exact ⟨inte, rfl⟩
  | false =>
      obtain ⟨inte', hexec⟩ := exec_putInte self inte (ready m) (decode (m.world.mem m.cpu.pc))
      have hready : ready (m.onCpu (putInte inte)) = (ready m).onCpu (putInte inte) := rfl
      rw [stepBody_fetched self testDevices hrec hhalted,
        stepBody_fetched self testDevices hrec' hhalted, hready]
      refine ⟨inte', ?_⟩
      rw [Machine.onCpu_world, show (m.onCpu (putInte inte)).cpu.pc = m.cpu.pc from rfl, hexec]
      rfl

/-- No step of the driver makes a request. -/
theorem testBody_pending (self : Ptr) {s : Bench} (h : s.mach.cpu.interruptPending = false) :
    (testBody self s).mach.cpu.interruptPending = false := by
  rw [testBody]
  split
  · exact h
  · split
    · next r hr =>
        have hstep := (CallStep.step s.mach r hr).simulates (ramEnv_frames self testDevices)
        refine hstep.not_pending (fun op hop => ?_) h
        have hevent := stepEvent_isRequest (E := ramEnv self testDevices) s.mach
        rw [hop] at hevent
        cases hevent
    · exact h

/-- Two benches without a request that differ in the flag only. -/
def SameButInte (s s' : Bench) : Prop :=
  s.mach.cpu.interruptPending = false ∧
    ∃ inte, s' = { s with mach := s.mach.onCpu (putInte inte) }

theorem SameButInte.body (self : Ptr) {s s' : Bench} (h : SameButInte s s') :
    SameButInte (testBody self s) (testBody self s') := by
  obtain ⟨hpending, inte, rfl⟩ := h
  refine ⟨testBody_pending self hpending, ?_⟩
  cases hstuck : s.mach.world.dev.stuck with
  | true =>
      refine ⟨inte, ?_⟩
      rw [testBody, testBody, if_pos hstuck]
      exact if_pos hstuck
  | false =>
      by_cases hset : s.mach.cpu.HandlersSet
      · obtain ⟨inte', hstep⟩ := stepBody_putInte self inte hpending
        refine ⟨inte', ?_⟩
        rw [testBody_step self hstuck hset]
        refine (testBody_step self
          (s := { s with mach := s.mach.onCpu (putInte inte) }) hstuck hset).trans ?_
        rw [hstep]
      · refine ⟨inte, ?_⟩
        have hnone : adc8080CpuStep (ramEnv self testDevices) s.mach = none := if_neg hset
        have hnone' : adc8080CpuStep (ramEnv self testDevices) (s.mach.onCpu (putInte inte)) =
            none := if_neg hset
        simp only [testBody, hnone, hnone', Machine.onCpu_world, ite_self]

/--
What a test reports does not depend on what the cpu struct held before, although
the interrupt enable flag is carried over: the driver makes no requests.
-/
theorem runTest_ignores_prior (self : Ptr) (fuel : Nat) (prior prior' : Adc8080Cpu) (rom : Rom)
    (expectedCycles : BitVec 64) :
    runTest self fuel prior rom expectedCycles = runTest self fuel prior' rom expectedCycles := by
  have hstart : SameButInte (testStart self prior rom) (testStart self prior' rom) :=
    ⟨rfl, prior'.inte, rfl⟩
  refine whileFuel_related _ (fun s s' h => ?_) (fun s s' h _ => h.body self) (fun s s' h => ?_)
    fuel hstart
  · obtain ⟨-, inte, rfl⟩ := h
    rfl
  · obtain ⟨-, inte, rfl⟩ := h
    rfl

/-! ## Halting -/

/-- A halted cpu has handed over its cycles. -/
theorem testBody_halted_cycles (self : Ptr) {s : Bench}
    (h : s.mach.cpu.halted = true → s.mach.cpu.cycles = 0) :
    (testBody self s).mach.cpu.halted = true → (testBody self s).mach.cpu.cycles = 0 := by
  rw [testBody]
  split
  · exact h
  · split
    · next r hr => exact (CallStep.step s.mach r hr).halted_cycles h
    · exact h

/-- A halted program stays where it is. -/
theorem testBody_halted (self : Ptr) {s : Bench}
    (hpending : s.mach.cpu.interruptPending = false) (hhalted : s.mach.cpu.halted = true)
    (hcycles : s.mach.cpu.cycles = 0) : testBody self s = s := by
  have hstep : stepBody (ramEnv self testDevices) s.mach = ⟨0, s.mach⟩ := by
    rw [stepBody_idle (not_recognizes_of_not_pending hpending) hhalted, hcycles, ← hcycles]
    rfl
  cases hstuck : s.mach.world.dev.stuck with
  | true => rw [testBody, if_pos hstuck]
  | false =>
      by_cases hset : s.mach.cpu.HandlersSet
      · rw [testBody_step self hstuck hset, hstep]
        exact congrArg (Bench.mk s.mach) (BitVec.add_zero _)
      · have hnone : adc8080CpuStep (ramEnv self testDevices) s.mach = none := if_neg hset
        simp only [testBody, hnone, ite_self]

/--
A test whose program halts never ends: the driver makes no request that would wake the
cpu, and from the halt on no step changes the registers, the memory, the output or the
cycles.
-/
theorem runTest_halted (self : Ptr) (prior : Adc8080Cpu) (rom : Rom) {s : Bench}
    (hvisits : Visits testCond (testBody self) (testStart self prior rom) s)
    (hhalted : s.mach.cpu.halted = true) :
    (∀ t, Iterates testCond (testBody self) s t → t = s) ∧
      ∀ fuel expectedCycles, runTest self fuel prior rom expectedCycles = none := by
  obtain ⟨hiter, hcond⟩ := hvisits
  have hpending : s.mach.cpu.interruptPending = false :=
    hiter.invariant (I := fun s => s.mach.cpu.interruptPending = false)
      (fun _ hs _ => testBody_pending self hs) rfl
  have hcycles : s.mach.cpu.halted = true → s.mach.cpu.cycles = 0 :=
    hiter.invariant (I := fun s => s.mach.cpu.halted = true → s.mach.cpu.cycles = 0)
      (fun _ hs _ => testBody_halted_cycles self hs) (fun _ => rfl)
  have hstay := testBody_halted self hpending hhalted (hcycles hhalted)
  have hnever : ¬ Terminates testCond (testBody self) (testStart self prior rom) :=
    hiter.terminates_iff.not.mpr (not_terminates_of_cycle (.refl s) hcond hstay)
  refine ⟨fun t ht => ?_, fun fuel expectedCycles => ?_⟩
  · exact ht.invariant (I := fun t => t = s) (fun u hu _ => by rw [hu, hstay]) rfl
  · rw [runTest, Option.map_eq_none_iff]
    by_contra hsome
    obtain ⟨t, ht⟩ := Option.ne_none_iff_exists'.mp hsome
    exact hnever ⟨t, exits_of_whileFuel ht⟩

theorem running_testStart (self : Ptr) (prior : Adc8080Cpu) (rom : Rom) :
    Running (testStart self prior rom) := by
  refine ⟨rfl, rfl, ?_, rfl, rfl⟩
  simp [testStart, boot, testClient, Adc8080Cpu.HandlersSet, NULL]

/-- The program `HLT`. -/
def haltingRom : Rom := ⟨[0x76], by decide⟩

/-- The bench behind the `HLT`. -/
def haltedBench : Bench := testBody 0x1000 (testStart 0x1000 zeroCpu haltingRom)

theorem runTest_halted_hlt :
    (∀ t, Iterates testCond (testBody 0x1000) haltedBench t → t = haltedBench) ∧
      ∀ fuel expectedCycles, runTest 0x1000 fuel zeroCpu haltingRom expectedCycles = none := by
  have hop : (testStart 0x1000 zeroCpu haltingRom).mach.world.mem 0x100 = 0x76 := by
    decide +kernel
  have hrun := running_testStart 0x1000 zeroCpu haltingRom
  have hbody := hrun.body 0x1000
  rw [show (testStart 0x1000 zeroCpu haltingRom).mach.cpu.pc = 0x100 from rfl, hop,
    show decode 0x76 = .hlt from rfl] at hbody
  have hvisits : Visits testCond (testBody 0x1000) (testStart 0x1000 zeroCpu haltingRom)
      haltedBench := by
    refine ⟨.next hrun.cond (.refl _), ?_⟩
    rw [haltedBench, hbody]
    rfl
  refine runTest_halted 0x1000 zeroCpu haltingRom hvisits ?_
  rw [haltedBench, hbody]
  rfl

/-! ## The verdict -/

theorem ofInt_eq_ofInt_iff (a b : Int) :
    BitVec.ofInt 64 a = BitVec.ofInt 64 b ↔ a ≡ b [ZMOD 2 ^ 64] := by
  rw [← BitVec.toNat_inj, BitVec.toNat_ofInt, BitVec.toNat_ofInt, Int.ModEq]
  have ha := Int.emod_nonneg a (show (2 ^ 64 : Int) ≠ 0 by decide)
  have hb := Int.emod_nonneg b (show (2 ^ 64 : Int) ≠ 0 by decide)
  norm_cast at ha hb ⊢
  omega

theorem passed_eq_none_iff (expected : BitVec 64) (total : Int) :
    passed expected (BitVec.ofInt 64 total) = none ↔
      total ≡ expected.toInt + 2 ^ 63 [ZMOD 2 ^ 64] := by
  have hmin : passed expected (BitVec.ofInt 64 total) = none ↔
      expected - BitVec.ofInt 64 total = BitVec.intMin 64 := by
    rw [passed, Option.map_eq_none_iff, llabs]
    split
    · next h => exact iff_of_true rfl h
    · next h => exact iff_of_false (by simp) h
  have hmove : expected - BitVec.ofInt 64 total = BitVec.intMin 64 ↔
      BitVec.ofInt 64 total = expected + BitVec.intMin 64 := by
    have hself : BitVec.intMin 64 + BitVec.intMin 64 = 0 := by decide
    constructor
    · intro h
      rw [← h]
      bv_omega
    · intro h
      rw [h]
      bv_omega
  rw [hmin, hmove, ← ofInt_eq_ofInt_iff, BitVec.ofInt_add, BitVec.ofInt_toInt]
  exact Iff.rfl

theorem passed_eq_true_iff (expected : BitVec 64) (total : Int) :
    passed expected (BitVec.ofInt 64 total) = some true ↔
      total ≡ expected.toInt [ZMOD 2 ^ 64] := by
  have hzero (d : BitVec 64) :
      (llabs d).map (fun diff => !(0 : BitVec 64).slt diff) = some true ↔ d = 0 := by
    rw [llabs]
    split
    · next hmin =>
        rw [hmin]
        decide
    · next hmin =>
        have hneg := BitVec.toInt_neg_of_ne_intMin hmin
        simp only [Option.map_some, Option.some_inj, Bool.not_eq_true', Bool.eq_false_iff, ne_eq,
          BitVec.slt_iff_toInt_lt]
        rw [← BitVec.toInt_inj]
        have hz : (0 : BitVec 64).toInt = 0 := rfl
        split
        · next hlt =>
            rw [hneg]
            omega
        · next hge => omega
  rw [passed, hzero, ← ofInt_eq_ofInt_iff, BitVec.ofInt_toInt]
  constructor
  · intro h
    bv_omega
  · intro h
    bv_omega

/-- The cycles that the first steps return, together. -/
def stepCycles (self : Ptr) : Nat → Bench → Int
  | 0, _ => 0
  | n + 1, s =>
      (stepBody (ramEnv self testDevices) s.mach).val + stepCycles self n (testBody self s)

/-- A run of the loop that ends counts the cycles of the steps before its first exit. -/
theorem cycleCount_of_exits (self : Ptr) {s t : Bench}
    (h : Exits testCond (testBody self) s t) (hset : s.mach.cpu.HandlersSet) :
    ∃ n, (testBody self)^[n] s = t ∧ (∀ k < n, testCond ((testBody self)^[k] s) = true) ∧
      testCond t = false ∧
      t.cycleCount = s.cycleCount + BitVec.ofInt 64 (stepCycles self n s) := by
  induction h with
  | @done s hcond =>
      exact ⟨0, rfl, fun k hk => absurd hk (Nat.not_lt_zero k), hcond, (BitVec.add_zero _).symm⟩
  | @next s t hcond hrest ih =>
      have hstuck : s.mach.world.dev.stuck = false := by
        by_contra hstuck
        refine not_terminates_of_stuck self (by simpa using hstuck) ?_ ⟨t, .next hcond hrest⟩
        simpa [testCond] using hcond
      have hbody := testBody_step self hstuck hset
      have hset' : (testBody self s).mach.cpu.HandlersSet := by
        rw [hbody]
        exact stepBody_handlersSet (ramEnv_frames self testDevices) hset
      obtain ⟨n, hn, hbefore, hend, hcount⟩ := ih hset'
      refine ⟨n + 1, hn, fun k hk => ?_, hend, ?_⟩
      · cases k with
        | zero => exact hcond
        | succ k => exact hbefore k (Nat.lt_of_succ_lt_succ hk)
      · rw [hcount, stepCycles, BitVec.ofInt_add, ← BitVec.add_assoc, hbody]

/-- The loop of the driver is left after `n` steps and not before. -/
structure EndsAfter (cpu : Ptr) (n : Nat) (s : Bench) : Prop where
  before : ∀ k < n, testCond ((testBody cpu)^[k] s) = true
  after : testCond ((testBody cpu)^[n] s) = false

theorem EndsAfter.unique {self : Ptr} {n n' : Nat} {s : Bench} (h : EndsAfter self n s)
    (h' : EndsAfter self n' s) : n = n' := by
  rcases Nat.lt_trichotomy n n' with hlt | heq | hlt
  · exact absurd (h'.before n hlt) (Bool.eq_false_iff.mp h.after)
  · exact heq
  · exact absurd (h.before n' hlt) (Bool.eq_false_iff.mp h'.after)

/--
A test that ends, after some number of steps, reports the cycles of these steps; it passes
exactly when they are the expected ones modulo 2^64, and its verdict is undefined where they
are off by 2^63.
-/
theorem runTest_passes_iff {self : Ptr} {fuel : Nat} {prior : Adc8080Cpu} {rom : Rom}
    {expectedCycles : BitVec 64} {report : TestReport}
    (h : runTest self fuel prior rom expectedCycles = some report) :
    ∃ n, EndsAfter self n (testStart self prior rom) ∧
      ((testBody self)^[n] (testStart self prior rom)).mach.world.dev.output = report.output ∧
      report.cycleCount = BitVec.ofInt 64 (stepCycles self n (testStart self prior rom)) ∧
      (report.verdict = some true ↔
        stepCycles self n (testStart self prior rom) ≡ expectedCycles.toInt [ZMOD 2 ^ 64]) ∧
      (report.verdict = none ↔
        stepCycles self n (testStart self prior rom) ≡
          expectedCycles.toInt + 2 ^ 63 [ZMOD 2 ^ 64]) := by
  obtain ⟨t, ht, rfl⟩ := Option.map_eq_some_iff.mp h
  obtain ⟨n, rfl, hbefore, hend, hcount⟩ :=
    cycleCount_of_exits self (exits_of_whileFuel ht) (running_testStart self prior rom).handlers
  have hzero : (testStart self prior rom).cycleCount = 0#64 := rfl
  rw [hzero, BitVec.zero_add] at hcount
  refine ⟨n, ⟨hbefore, hend⟩, rfl, hcount, ?_, ?_⟩
  · rw [hcount, passed_eq_true_iff]
  · rw [hcount, passed_eq_none_iff]

/-- The program `JMP 0`, which ends at once. -/
def endingRom : Rom := ⟨[0xC3, 0x00, 0x00], by decide⟩

/-- `JMP 0` and the injected `OUT 0` take 20 cycles; a test that expects 24 fails. -/
theorem runTest_passes_iff_ending :
    ∃ n, EndsAfter 0x1000 n (testStart 0x1000 zeroCpu endingRom) ∧
      stepCycles 0x1000 n (testStart 0x1000 zeroCpu endingRom) ≡ 20 [ZMOD 2 ^ 64] ∧
      ¬ stepCycles 0x1000 n (testStart 0x1000 zeroCpu endingRom) ≡ 24 [ZMOD 2 ^ 64] := by
  have hpass : runTest 0x1000 3 zeroCpu endingRom 20 = some ⟨[], 20, some true⟩ := by
    decide +kernel
  have hfail : runTest 0x1000 3 zeroCpu endingRom 24 = some ⟨[], 20, some false⟩ := by
    decide +kernel
  obtain ⟨n, hends, -, -, hpassed, -⟩ := runTest_passes_iff hpass
  obtain ⟨n', hends', -, -, hfailed, -⟩ := runTest_passes_iff hfail
  obtain rfl : n = n' := hends.unique hends'
  exact ⟨n, hends, hpassed.mp rfl, fun heq => absurd (hfailed.mpr heq) (by decide)⟩

end Cpu
end AdcLibs
