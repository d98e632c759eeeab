import AdcLibs.Cpu.RunTest
import AdcLibs.Library.Blocks

/-!
# System calls of the test driver

A program calls the address 5 with the number of a system call in C.  The injected code
passes it to the console and returns: whatever the state of the program, the call prints
what the system call prints and changes nothing else but the bytes of the return address,
unless it looks for the end of a string that has none.
-/

namespace AdcLibs
namespace Cpu

open Blocks Loops Reference

/-! ## Strings -/

/-- The text at an address, up to the `'$'` that ends it. -/
def IsText (mem : U16 → U8) (addr : U16) (text : List U8) : Prop :=
  Holds mem addr (text ++ [dollar]) ∧ dollar ∉ text

theorem holds_block (mem : U16 → U8) (addr : U16) (n : Nat) :
    Holds mem addr ((block addr n).map mem) := by
  induction n generalizing addr with
  | zero => trivial
  | succ n ih =>
      rw [block_succ, List.map_cons]
      exact ⟨rfl, ih (addr + 1)⟩

/-- A text ends before its addresses wrap. -/
theorem IsText.length_lt {mem : U16 → U8} {addr : U16} {text : List U8}
    (h : IsText mem addr text) : text.length < 2 ^ 16 := by
  by_contra hlen
  -- the `'$'` would stand in the text as well
  obtain ⟨i, hi⟩ := Nat.exists_eq_add_of_le (Nat.le_of_not_lt hlen)
  have hlt : i < text.length := by omega
  have hsplit : text ++ [dollar] = text.take i ++ text[i] :: (text.drop (i + 1) ++ [dollar]) := by
    rw [← List.cons_append, ← List.append_assoc, ← List.drop_eq_getElem_cons hlt,
      List.take_append_drop]
  have hend := h.1.get
  have hinside := (hsplit ▸ h.1).get
  rw [List.length_take, Nat.min_eq_left (Nat.le_of_lt hlt)] at hinside
  have hsame : BitVec.ofNat 16 text.length = BitVec.ofNat 16 i := by
    rw [hi, BitVec.ofNat_add]
    simp
  rw [hsame, hinside] at hend
  exact h.2 (hend ▸ List.getElem_mem hlt)

/-- There is a text at every address, unless no `'$'` is in memory. -/
theorem exists_isText (mem : U16 → U8) (addr : U16) :
    (∃ text, IsText mem addr text) ∨ ∀ a, mem a ≠ dollar := by
  by_cases hnone : ∀ a, mem a ≠ dollar
  · exact .inr hnone
  · left
    obtain ⟨a, ha⟩ := not_forall_not.mp hnone
    have hfound : ∃ n, mem (addr + BitVec.ofNat 16 n) = dollar := by
      refine ⟨(a - addr).toNat, ?_⟩
      rw [BitVec.ofNat_toNat, BitVec.setWidth_eq, BitVec.add_comm, BitVec.sub_add_cancel, ha]
    refine ⟨(block addr (Nat.find hfound)).map mem, ?_, fun hmem => ?_⟩
    · have hholds := holds_block mem addr (Nat.find hfound + 1)
      rw [block, List.range_succ, List.map_append, List.map_append] at hholds
      simpa [block, Nat.find_spec hfound] using hholds
    · obtain ⟨x, hx, hdollar⟩ := List.mem_map.mp hmem
      obtain ⟨i, hi, rfl⟩ := mem_block.mp hx
      exact Nat.find_min hfound hi hdollar

theorem printLoop_text {mem : U16 → U8} {addr : U16} {text output : List U8}
    (h : IsText mem addr text) {fuel : Nat} (hfuel : text.length < fuel) :
    whileFuel (printCond mem) (printBody mem) fuel ⟨addr, output⟩ =
      some ⟨addr + BitVec.ofNat 16 text.length, output ++ text⟩ := by
  obtain ⟨hholds, hno⟩ := h
  induction text generalizing addr output fuel with
  | nil =>
      obtain ⟨fuel, rfl⟩ := Nat.exists_eq_succ_of_ne_zero (Nat.ne_of_gt hfuel)
      have hend : printCond mem ⟨addr, output⟩ = false := by
        simp [printCond, hholds.1]
      rw [whileFuel, hend]
      simp
  | cons b text ih =>
      obtain ⟨fuel, rfl⟩ := Nat.exists_eq_succ_of_ne_zero (Nat.ne_of_gt (Nat.zero_lt_of_lt hfuel))
      obtain ⟨hb, hholds⟩ := hholds
      obtain ⟨hne, hno⟩ := not_or.mp (fun h => hno (List.mem_cons.mpr h))
      have hgo : printCond mem ⟨addr, output⟩ = true := by
        simpa [printCond, hb] using Ne.symm hne
      rw [whileFuel, if_pos hgo, printBody, ih (Nat.lt_of_succ_lt_succ hfuel) hholds hno, hb]
      rw [List.length_cons, Nat.add_comm text.length, BitVec.ofNat_add, ← BitVec.add_assoc,
        List.append_assoc, List.singleton_append]
      rfl

/-- What is printed of a text. -/
theorem printString_text {mem : U16 → U8} {addr : U16} {text : List U8}
    (h : IsText mem addr text) (output : List U8) :
    printString mem addr output = some (output ++ text) := by
  rw [printString, printLoop_text h (Nat.lt_succ_of_lt h.length_lt), Option.map_some]

/-- Without a `'$'` the loop never ends. -/
theorem printString_eq_none {mem : U16 → U8} (h : ∀ a, mem a ≠ dollar) (addr : U16)
    (output : List U8) :
    printString mem addr output = none ∧
      ¬ Terminates (printCond mem) (printBody mem) ⟨addr, output⟩ := by
  have hnever : ¬ Terminates (printCond mem) (printBody mem) ⟨addr, output⟩ :=
    not_terminates_of_invariant (I := fun _ => True)
      (fun s _ => ⟨by simpa [printCond] using h s.addr, trivial⟩) trivial
  refine ⟨?_, hnever⟩
  rw [printString, Option.map_eq_none_iff]
  by_contra hsome
  obtain ⟨t, ht⟩ := Option.ne_none_iff_exists'.mp hsome
  exact hnever ⟨t, exits_of_whileFuel ht⟩

/-! ## Steps of the driver -/

/-- The driver steps a program that runs. -/
structure Running (s : Bench) : Prop where
  pending : s.mach.cpu.interruptPending = false
  halted : s.mach.cpu.halted = false
  handlers : s.mach.cpu.HandlersSet
  complete : s.mach.world.dev.testComplete = false
  stuck : s.mach.world.dev.stuck = false

section Driver

variable (self : Ptr)

/-- The bench after an instruction whose opcode is at pc. -/
def Bench.after (i : Instr) (s : Bench) : Bench :=
  let m := i.exec (ramEnv self testDevices) (ready s.mach)
  ⟨m.onCpu fun cpu => { cpu with cycles := 0 }, s.cycleCount + BitVec.ofInt 64 m.cpu.cycles⟩

variable {s : Bench}

theorem Running.cond (h : Running s) : testCond s = true := by
  rw [testCond, h.complete]
  rfl

theorem not_recognizes_of_not_pending {cpu : Adc8080Cpu} (h : cpu.interruptPending = false) :
    recognizes cpu = false := by
  rw [recognizes, h, Bool.false_and, Bool.false_and]

/-- The body of the loop while the console is not stuck. -/
theorem testBody_step (hstuck : s.mach.world.dev.stuck = false)
    (hset : s.mach.cpu.HandlersSet) :
    testBody self s = ⟨(stepBody (ramEnv self testDevices) s.mach).mach,
      s.cycleCount + BitVec.ofInt 64 (stepBody (ramEnv self testDevices) s.mach).val⟩ := by
  have hstep : adc8080CpuStep (ramEnv self testDevices) s.mach =
      some (stepBody (ramEnv self testDevices) s.mach) :=
    adc8080CpuStep_eq_some.mpr ⟨hset, rfl⟩
  simp only [testBody, hstuck, hstep, Bool.false_eq_true, if_false]

theorem Running.body (h : Running s) :
    testBody self s = s.after self (decode (s.mach.world.mem s.mach.cpu.pc)) := by
  rw [testBody_step self h.stuck h.handlers,
    stepBody_fetched self testDevices (not_recognizes_of_not_pending h.pending) h.halted]
  rfl

/-! ## The call -/

/-- The code at the address 5: `OUT 1`, `RET`. -/
def bdosCode : List U8 := [0xD3, 0x01, 0xC9]

/-- Memory after a call that returns to `ret`. -/
def pushed (ret : U16) (m : Machine (Ram Console)) : Ram Console :=
  (m.world.put (m.cpu.sp - 2) (ret.extractLsb' 0 8)).put (m.cpu.sp - 2 + 1)
    (ret.extractLsb' 8 8)

/-- The program is at `CALL 5`, and the return address does not go into the code there. -/
structure Calling (s : Bench) : Prop extends Running s where
  call : Holds s.mach.world.mem s.mach.cpu.pc [0xCD, 0x05, 0x00]
  bdos : Holds s.mach.world.mem 0x0005 bdosCode
  stack : ∀ a ∈ block (s.mach.cpu.sp - 2) 2, a ∉ block (0x0005 : U16) 3

/-- What the system calls print. -/
inductive BdosPrints (mem : U16 → U8) (cpu : Adc8080Cpu) : List U8 → Prop
  | char : cpu.rc = 2 → BdosPrints mem cpu [cpu.re]
  | string {text : List U8} : cpu.rc = 9 → IsText mem (getRde cpu) text →
      BdosPrints mem cpu text
  | other : cpu.rc ≠ 2 → cpu.rc ≠ 9 → BdosPrints mem cpu []

theorem pushed_mem_of_notMem (ret : U16) (m : Machine (Ram Console)) {a : U16}
    (ha : a ∉ block (m.cpu.sp - 2) 2) : (pushed ret m).mem a = m.world.mem a := by
  have hlow : a ≠ m.cpu.sp - 2 := fun h => ha (mem_block.mpr ⟨0, by decide, by simp [h]⟩)
  have hhigh : a ≠ m.cpu.sp - 2 + 1 := fun h => ha (mem_block.mpr ⟨1, by decide, h.symm⟩)
  rw [pushed, Ram.put_mem_of_ne _ _ hhigh, Ram.put_mem_of_ne _ _ hlow]

theorem pushed_word (ret : U16) (m : Machine (Ram Console)) :
    (pushed ret m).word (m.cpu.sp - 2) = ret := by
  have hne : m.cpu.sp - 2 ≠ m.cpu.sp - 2 + 1 := by
    bv_omega
  rw [Ram.word, pushed, Ram.put_mem_self, Ram.put_mem_of_ne _ _ hne, Ram.put_mem_self,
    append_highByte_lowByte]

theorem after_call (hop : decode (s.mach.world.mem s.mach.cpu.pc) = .call) :
    s.after self .call =
      ⟨⟨{ s.mach.cpu with
            pc := s.mach.world.word (s.mach.cpu.pc + 1)
            sp := s.mach.cpu.sp - 2
            interruptDelay := false
            cycles := 0 },
          pushed (s.mach.cpu.pc + 1 + 2) s.mach⟩, s.cycleCount + 17⟩ := by
  have hexec : Instr.call.exec (ramEnv self testDevices) (ready s.mach) =
      ⟨{ s.mach.cpu with
            pc := s.mach.world.word (s.mach.cpu.pc + 1)
            sp := s.mach.cpu.sp - 2
            interruptDelay := false
            cycles := 17 },
          pushed (s.mach.cpu.pc + 1 + 2) s.mach⟩ := by
    simp only [ready, hop]
    rfl
  rw [Bench.after, hexec]
  rfl

/-- The console sees of the cpu the registers C, D and E. -/
theorem handleDeviceWrite_congr {cpu cpu' : Adc8080Cpu} (hc : cpu.rc = cpu'.rc)
    (hd : cpu.rd = cpu'.rd) (he : cpu.re = cpu'.re) (device : U8) (mem : U16 → U8)
    (console : Console) :
    handleDeviceWrite device cpu mem console = handleDeviceWrite device cpu' mem console := by
  simp only [handleDeviceWrite, getRde, hc, hd, he]

theorem after_out (hop : decode (s.mach.world.mem s.mach.cpu.pc) = .out) :
    s.after self .out =
      ⟨⟨{ s.mach.cpu with pc := s.mach.cpu.pc + 1 + 1, interruptDelay := false, cycles := 0 },
          { s.mach.world with
            dev := handleDeviceWrite (s.mach.world.mem (s.mach.cpu.pc + 1)) s.mach.cpu
              s.mach.world.mem s.mach.world.dev }⟩, s.cycleCount + 10⟩ := by
  have hsees : handleDeviceWrite (s.mach.world.mem (s.mach.cpu.pc + 1)) s.mach.cpu
      s.mach.world.mem s.mach.world.dev =
      handleDeviceWrite (s.mach.world.mem (s.mach.cpu.pc + 1))
        { s.mach.cpu with pc := s.mach.cpu.pc + 1 + 1, cycles := 10, interruptDelay := false }
        s.mach.world.mem s.mach.world.dev := handleDeviceWrite_congr rfl rfl rfl _ _ _
  rw [hsees]
  simp only [Bench.after, ready, hop]
  rfl

theorem after_ret (hop : decode (s.mach.world.mem s.mach.cpu.pc) = .ret) :
    s.after self .ret =
      ⟨⟨{ s.mach.cpu with
            pc := s.mach.world.word s.mach.cpu.sp
            sp := s.mach.cpu.sp + 2
            interruptDelay := false
            cycles := 0 },
          s.mach.world⟩, s.cycleCount + 10⟩ := by
  simp only [Bench.after, ready, hop]
  rfl

/-- Once the console is stuck, the driver does not go on. -/
theorem not_terminates_of_stuck (hstuck : s.mach.world.dev.stuck = true)
    (hcomplete : s.mach.world.dev.testComplete = false) :
    ¬ Terminates testCond (testBody self) s := by
  refine not_terminates_of_invariant (I := fun s => s.mach.world.dev.stuck = true ∧
    s.mach.world.dev.testComplete = false) ?_ ⟨hstuck, hcomplete⟩
  rintro s ⟨hstuck, hcomplete⟩
  have hstay : testBody self s = s := by
    rw [testBody, if_pos hstuck]
  rw [hstay, testCond, hcomplete]
  exact ⟨rfl, hstuck, rfl⟩

/-- What a system call leaves that prints a text. -/
structure Returned (s : Bench) (text : List U8) (t : Bench) : Prop extends Running t where
  cpu_eq : t.mach.cpu =
    { s.mach.cpu with pc := s.mach.cpu.pc + 3, interruptDelay := false, cycles := 0 }
  mem_eq : t.mach.world.mem = (pushed (s.mach.cpu.pc + 3) s.mach).mem
  output_eq : t.mach.world.dev.output = s.mach.world.dev.output ++ text
  cycles_eq : t.cycleCount = s.cycleCount + 37

/-- The system call up to the console. -/
theorem Calling.enters (h : Calling s) :
    ∃ t, Iterates testCond (testBody self) s t ∧ t.mach.world.dev =
        handleDeviceWrite 1 s.mach.cpu (pushed (s.mach.cpu.pc + 3) s.mach).mem
          s.mach.world.dev ∧
      t.mach.world.mem = (pushed (s.mach.cpu.pc + 3) s.mach).mem ∧
      t.mach.cpu = { s.mach.cpu with
        pc := 0x0007, sp := s.mach.cpu.sp - 2, interruptDelay := false, cycles := 0 } ∧
      t.cycleCount = s.cycleCount + 27 := by
  obtain ⟨hop, hlow, hhigh, -⟩ := h.call
  have hcall : decode (s.mach.world.mem s.mach.cpu.pc) = .call := by
    rw [hop]
    rfl
  have hword : s.mach.world.word (s.mach.cpu.pc + 1) = 0x0005 := by
    rw [Ram.word, hlow, hhigh]
    rfl
  have hret : s.mach.cpu.pc + 1 + 2 = s.mach.cpu.pc + 3 := by
    bv_omega
  have hcode : Holds (pushed (s.mach.cpu.pc + 3) s.mach).mem 0x0005 bdosCode :=
    h.bdos.congr fun a ha => pushed_mem_of_notMem _ _ fun hmem => h.stack a hmem ha
  have hstep₁ := h.toRunning.body self
  rw [hcall, after_call self hcall, hword, hret] at hstep₁
  generalize hs₁ : testBody self s = s₁ at hstep₁
  have hrun₁ : Running s₁ := by
    rw [hstep₁]
    exact ⟨h.pending, h.halted, h.handlers, h.complete, h.stuck⟩
  have hout : decode (s₁.mach.world.mem s₁.mach.cpu.pc) = .out := by
    rw [hstep₁]
    change decode ((pushed (s.mach.cpu.pc + 3) s.mach).mem 0x0005) = _
    rw [hcode.1]
    rfl
  have hstep₂ := hrun₁.body self
  rw [hout, after_out self hout] at hstep₂
  have hiter : Iterates testCond (testBody self) s (testBody self s₁) := by
    refine .next h.cond ?_
    rw [hs₁]
    exact .next hrun₁.cond (.refl _)
  refine ⟨_, hiter, ?_⟩
  rw [hstep₂, hstep₁]
  refine ⟨?_, rfl, rfl, ?_⟩
  · change handleDeviceWrite ((pushed (s.mach.cpu.pc + 3) s.mach).mem (0x0005 + 1)) _ _ _ = _
    rw [hcode.2.1]
    exact handleDeviceWrite_congr rfl rfl rfl _ _ _
  · change s.cycleCount + 17 + 10 = _
    rw [BitVec.add_assoc]
    rfl

/-- What the console does in a system call. -/
theorem handleDeviceWrite_prints {mem : U16 → U8} {cpu : Adc8080Cpu} {text : List U8}
    (h : BdosPrints mem cpu text) (console : Console) :
    handleDeviceWrite 1 cpu mem console = { console with output := console.output ++ text } := by
  rw [handleDeviceWrite, if_neg (by decide), if_pos rfl]
  cases h with
  | char hc => simp only [if_pos hc]
  | string hc htext =>
      have hne : cpu.rc ≠ 2 := by
        rw [hc]
        decide
      simp only [if_neg hne, if_pos hc, printString_text htext]
  | other hchar hstring => simp only [if_neg hchar, if_neg hstring, List.append_nil]

/-- What becomes of the console when there is no end to be found. -/
theorem handleDeviceWrite_stuck {mem : U16 → U8} {cpu : Adc8080Cpu} (hc : cpu.rc = 9)
    (hnone : ∀ a, mem a ≠ dollar) (console : Console) :
    handleDeviceWrite 1 cpu mem console = { console with stuck := true } := by
  have hne : cpu.rc ≠ 2 := by
    rw [hc]
    decide
  rw [handleDeviceWrite, if_neg (by decide), if_pos rfl]
  simp only [if_neg hne, if_pos hc, (printString_eq_none hnone _ _).1]

/-- A system call prints a text unless it is to print a string that has no end. -/
theorem exists_bdosPrints_iff (mem : U16 → U8) (cpu : Adc8080Cpu) :
    (∃ text, BdosPrints mem cpu text) ↔ ¬ (cpu.rc = 9 ∧ ∀ a, mem a ≠ dollar) := by
  constructor
  · rintro ⟨text, htext⟩ ⟨hc, hnone⟩
    cases htext with
    | char hc' => exact absurd (hc.symm.trans hc') (by decide)
    | string _ htext => exact hnone _ htext.1.get
    | other _ hc' => exact hc' hc
  · intro h
    by_cases hchar : cpu.rc = 2
    · exact ⟨_, .char hchar⟩
    · by_cases hstring : cpu.rc = 9
      · rcases exists_isText mem (getRde cpu) with ⟨text, htext⟩ | hnone
        · exact ⟨text, .string hstring htext⟩
        · exact absurd ⟨hstring, hnone⟩ h
      · exact ⟨[], .other hchar hstring⟩

/-- A system call that prints a text returns. -/
theorem Calling.returns (h : Calling s) {text : List U8}
    (htext : BdosPrints (pushed (s.mach.cpu.pc + 3) s.mach).mem s.mach.cpu text) :
    ∃ t, Iterates testCond (testBody self) s t ∧ Returned s text t := by
  obtain ⟨u, hiter, hdev, hmem, hcpu, hcount⟩ := h.enters self
  rw [handleDeviceWrite_prints htext] at hdev
  have hrun : Running u := by
    constructor
    · rw [hcpu]
      exact h.pending
    · rw [hcpu]
      exact h.halted
    · rw [hcpu]
      exact h.handlers
    · rw [hdev]
      exact h.complete
    · rw [hdev]
      exact h.stuck
  have hcode : u.mach.world.mem u.mach.cpu.pc = 0xC9 := by
    rw [hmem, hcpu, pushed_mem_of_notMem]
    · exact h.bdos.2.2.1
    · exact fun hat => h.stack _ hat (mem_block.mpr ⟨2, by decide, rfl⟩)
  have hret : decode (u.mach.world.mem u.mach.cpu.pc) = .ret := by
    rw [hcode]
    rfl
  have hword : u.mach.world.word u.mach.cpu.sp = s.mach.cpu.pc + 3 := by
    rw [hcpu]
    rw [← pushed_word (s.mach.cpu.pc + 3) s.mach, Ram.word, Ram.word, hmem]
  have hsp : s.mach.cpu.sp - 2 + 2 = s.mach.cpu.sp := by
    bv_omega
  have hstep := hrun.body self
  rw [hret, after_ret self hret, hword] at hstep
  refine ⟨_, hiter.tail hrun.cond, ?_⟩
  rw [hstep]
  refine ⟨⟨hrun.pending, hrun.halted, hrun.handlers, hrun.complete, hrun.stuck⟩, ?_, hmem, ?_, ?_⟩
  · rw [hcpu]
    simp only [hsp]
  · exact congrArg Console.output hdev
  · change u.cycleCount + 10 = _
    rw [hcount, BitVec.add_assoc]
    rfl

/-- A system call that finds no end of its string does not return. -/
theorem Calling.not_terminates (h : Calling s) (hc : s.mach.cpu.rc = 9)
    (hnone : ∀ a, (pushed (s.mach.cpu.pc + 3) s.mach).mem a ≠ dollar) :
    ¬ Terminates testCond (testBody self) s := by
  obtain ⟨u, hiter, hdev, -⟩ := h.enters self
  rw [handleDeviceWrite_stuck hc hnone] at hdev
  rw [hiter.terminates_iff]
  refine not_terminates_of_stuck self ?_ ?_
  · rw [hdev]
  · rw [hdev]
    exact h.complete

/--
Whatever the state of the program, a system call prints its text, returns behind the
`CALL` after 37 cycles and leaves everything else alone but the bytes of the return
address; it does not return exactly when it is to print a string and no `'$'` is in
memory, and the test then never ends.
-/
theorem bdos_call (h : Calling s) :
    (∀ text, BdosPrints (pushed (s.mach.cpu.pc + 3) s.mach).mem s.mach.cpu text →
      ∃ t, Iterates testCond (testBody self) s t ∧ Returned s text t) ∧
    ((s.mach.cpu.rc = 9 ∧ ∀ a, (pushed (s.mach.cpu.pc + 3) s.mach).mem a ≠ dollar) →
      ¬ Terminates testCond (testBody self) s) ∧
    ((∃ text, BdosPrints (pushed (s.mach.cpu.pc + 3) s.mach).mem s.mach.cpu text) ↔
      ¬ (s.mach.cpu.rc = 9 ∧ ∀ a, (pushed (s.mach.cpu.pc + 3) s.mach).mem a ≠ dollar)) := by
  refine ⟨fun text htext => h.returns self htext, ?_, exists_bdosPrints_iff _ _⟩
  rintro ⟨hc, hnone⟩
  exact h.not_terminates self hc hnone

end Driver

/-- A program at a call that prints an `A`. -/
def printingA : Bench :=
  let start := testStart 0x1000 zeroCpu ⟨[0xCD, 0x05, 0x00], by decide⟩
  { start with mach := start.mach.onCpu fun cpu => { cpu with rc := 2, re := 0x41 } }

theorem calling_printingA : Calling printingA where
  pending := rfl
  halted := rfl
  handlers := by decide
  complete := rfl
  stuck := rfl
  call := by decide +kernel
  bdos := ⟨rfl, rfl, rfl, trivial⟩
  stack := by
    intro a ha hcode
    rw [mem_block_iff_toNat] at ha hcode
    have hsp : printingA.mach.cpu.sp = 0 := rfl
    rw [hsp] at ha
    bv_omega

theorem bdos_call_char :
    ∃ t, Iterates testCond (testBody 0x1000) printingA t ∧ Returned printingA [0x41] t :=
  (bdos_call 0x1000 calling_printingA).1 _ (.char rfl)

end Cpu
end AdcLibs
