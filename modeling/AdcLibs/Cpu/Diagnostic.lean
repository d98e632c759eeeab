import AdcLibs.Cpu.Routines

/-!
# The verdict of the CPU test program

`TST8080.COM` ends in one of two ways: at `CPUOK` it prints that the cpu is operational, at
`CPUER`, which its tests call when they fail, that it has failed, with the address that the
call left on the stack.  Under the test driver both come to the warm boot, which ends the
test.  The routines are verified under the labels of the listing `TST8080.PRN`.
-/

namespace AdcLibs
namespace Cpu

open Blocks Loops Reference

/-! ## The code -/

def ascii (s : String) : List U8 := s.toList.map fun c => BitVec.ofNat 8 c.toNat

/-- `OKCPU`, without the `'$'` -/
def okcpu : List U8 := ascii "\r\n CPU IS OPERATIONAL"

/-- `NGCPU`, without the `'$'` -/
def ngcpu : List U8 := ascii "\r\n CPU HAS FAILED!    ERROR EXIT="

/-- The code of the driver and the parts of the program that print, with their addresses. -/
def diagnosticParts : List (U16 × List U8) :=
  [ (0x0000, [0xD3, 0x00]),
    (0x0005, bdosCode),
    -- MSG
    (0x014B, [0xD5, 0xEB, 0x0E, 0x09, 0xCD, 0x05, 0x00, 0xD1, 0xC9]),
    -- PCHAR
    (0x0154, [0x0E, 0x02, 0xCD, 0x05, 0x00, 0xC9]),
    -- BYTEO
    (0x015A, [0xF5, 0xCD, 0x6A, 0x01, 0x5F, 0xCD, 0x54, 0x01, 0xF1, 0xCD, 0x6E, 0x01, 0x5F,
      0xC3, 0x54, 0x01]),
    -- BYTO1
    (0x016A, [0x0F, 0x0F, 0x0F, 0x0F]),
    -- BYTO2
    (0x016E, [0xE6, 0x0F, 0xFE, 0x0A, 0xFA, 0x77, 0x01, 0xC6, 0x07]),
    -- BYTO3
    (0x0177, [0xC6, 0x30, 0xC9]),
    (0x017A, okcpu ++ [dollar]),
    (0x0190, ngcpu ++ [dollar]),
    -- CPUER
    (0x06A0, [0x21, 0x90, 0x01, 0xCD, 0x4B, 0x01, 0xE1, 0xE5, 0x7C, 0xCD, 0x5A, 0x01, 0xE1,
      0x7D, 0xCD, 0x5A, 0x01, 0xC3, 0x00, 0x00]),
    -- CPUOK
    (0x06B4, [0x21, 0x7A, 0x01, 0xCD, 0x4B, 0x01, 0xC3, 0x00, 0x00]) ]

def diagnosticCode (a : U16) : Option U8 :=
  diagnosticParts.findSome? fun part => part.2[(a - part.1).toNat]?

/-! ## The routines -/

section Routines

variable (self : Ptr)

/-- A digit of a number in hexadecimal. -/
def hexDigit (d : U8) : U8 := if d.toNat < 10 then d + 0x30 else d + 0x37

def hexByte (b : U8) : List U8 := [hexDigit (b >>> 4), hexDigit (b &&& 0x0F)]

def hexWord (w : U16) : List U8 := hexByte (w.extractLsb' 8 8) ++ hexByte (w.extractLsb' 0 8)

/-- The system call at the address 5. -/
theorem bdos_routine (text : List U8) :
    Routine self diagnosticCode 0x0005 0 (fun S => Prints S.regs S.mem text)
      (fun S T => T.output = S.output ++ text) := by
  rintro ⟨_, sp, r, mem, output⟩ rfl hin - hprints
  refine leads_print (hin 0x0005 0xD3 rfl) (hin 0x0006 0x01 rfl) hprints ?_
  refine leads_ret (hin 0x0007 0xC9 rfl) ?_
  exact .here ⟨⟨rfl, rfl, fun _ _ => rfl⟩, rfl⟩

/-- `PCHAR` prints the character in E. -/
theorem pchar_routine :
    Routine self diagnosticCode 0x0154 2 (fun _ => True)
      (fun S T => T.output = S.output ++ [S.regs.de.extractLsb' 0 8]) := by
  rintro ⟨_, sp, r, mem, output⟩ rfl hin hroom -
  -- MVI C,2
  refine leads_byte (hin 0x0154 0x0E rfl) (hin 0x0155 0x02 rfl) rfl ?_
  -- CALL BDOS
  refine (bdos_routine self [r.de.extractLsb' 0 8]).call hin hroom (hin 0x0156 0xCD rfl)
    (hin.word (a := 0x0157) rfl rfl) (.inl ⟨rfl, rfl⟩) fun r₁ mem₁ output₁ hkept houtput => ?_
  -- RET
  refine leads_ret (hin.kept hroom hkept 0x0159 0xC9 rfl) ?_
  exact .here ⟨⟨hkept.word (by omega), rfl, hkept⟩, houtput⟩

/-- `MSG` prints the text at HL. -/
theorem msg_routine (text : List U8) (addr : U16)
    (htext : Holds diagnosticCode addr ((text ++ [dollar]).map some)) (hend : dollar ∉ text) :
    Routine self diagnosticCode 0x014B 4 (fun S => S.regs.hl = addr)
      (fun S T => T.output = S.output ++ text) := by
  rintro ⟨_, sp, r, mem, output⟩ rfl hin hroom rfl
  -- PUSH D
  refine leads_push (p := .d) (hin 0x014B 0xD5 rfl) rfl fun w mem₁ _ hkept₁ _ => ?_
  have hkept₁ : Kept mem sp 4 mem₁ := hkept₁.mono (by omega)
  have hin₁ := hin.kept hroom hkept₁
  -- XCHG
  refine leads_regs (hin₁ 0x014C 0xEB rfl) rfl ?_
  -- MVI C,9
  refine leads_byte (hin₁ 0x014D 0x0E rfl) (hin₁ 0x014E 0x09 rfl) rfl ?_
  -- CALL BDOS
  refine (bdos_routine self text).call hin₁ hroom.sub (hin₁ 0x014F 0xCD rfl)
    (hin₁.word (a := 0x0150) rfl rfl) (.inr ⟨rfl, ?_, hend⟩)
    fun r₂ mem₂ output₂ hkept₂ houtput => ?_
  · exact (hin₁.kept hroom.sub (kept_putWord mem₁ (sp - 2) 0x0152)).holds htext
  have hkept : Kept mem sp 4 mem₂ := hkept₁.trans hkept₂.of_sub
  have hin₂ := hin.kept hroom hkept
  -- POP D
  refine leads_pop (p := .d) (hin₂ 0x0152 0xD1 rfl) rfl ?_
  -- RET
  refine leads_ret (hin₂ 0x0153 0xC9 rfl) ?_
  rw [BitVec.sub_add_cancel]
  exact .here ⟨⟨hkept.word (by omega), rfl, hkept⟩, houtput⟩

/-- `BYTO3` -/
theorem byto3_routine :
    Routine self diagnosticCode 0x0177 0 (fun _ => True)
      (fun S T => T.regs.a = S.regs.a + 0x30 ∧ T.output = S.output) := by
  rintro ⟨_, sp, r, mem, output⟩ rfl hin - -
  -- ADI 30H
  refine leads_byte (hin 0x0177 0xC6 rfl) (hin 0x0178 0x30 rfl) rfl ?_
  -- RET
  refine leads_ret (hin 0x0179 0xC9 rfl) ?_
  exact .here ⟨⟨rfl, rfl, fun _ _ => rfl⟩, rfl, rfl⟩

/-- The sign after `CPI 0AH` tells the digits up to 9. -/
theorem sign_sub_ten {d : U8} (hd : d.toNat < 16) :
    decide (128 ≤ (d - 0x0A).toNat) = true ↔ d.toNat < 10 := by
  rw [decide_eq_true_iff]
  bv_omega

/-- `BYTO2` makes the digit of the low half of A. -/
theorem byto2_routine :
    Routine self diagnosticCode 0x016E 0 (fun _ => True)
      (fun S T => T.regs.a = hexDigit (S.regs.a &&& 0x0F) ∧ T.output = S.output) := by
  rintro ⟨_, sp, r, mem, output⟩ rfl hin hroom -
  have hlow : (r.a &&& 0x0F).toNat < 16 := by
    rw [BitVec.toNat_and]
    exact Nat.lt_succ_of_le Nat.and_le_right
  -- ANI 0FH
  refine leads_byte (hin 0x016E 0xE6 rfl) (hin 0x016F 0x0F rfl) rfl ?_
  -- CPI 0AH
  refine leads_byte (hin 0x0170 0xFE rfl) (hin 0x0171 0x0A rfl) rfl ?_
  by_cases hdigit : (r.a &&& 0x0F).toNat < 10
  · -- JM BYTO3 is taken
    have hsign := (sign_sub_ten hlow).mpr hdigit
    refine leads_jm (hin 0x0172 0xFA rfl) (hin.word (a := 0x0173) (w := 0x0177) rfl rfl)
      (if_pos hsign) ?_
    refine (byto3_routine self).tail hin hroom trivial fun T hreturns hpost => ?_
    refine ⟨hreturns, ?_, hpost.2⟩
    rw [hpost.1, hexDigit, if_pos hdigit]
    rfl
  · -- JM BYTO3 is not taken
    have hsign := mt (sign_sub_ten hlow).mp hdigit
    refine leads_jm (hin 0x0172 0xFA rfl) (hin.word (a := 0x0173) (w := 0x0177) rfl rfl)
      (if_neg hsign) ?_
    -- ADI 7
    refine leads_byte (hin 0x0175 0xC6 rfl) (hin 0x0176 0x07 rfl) rfl ?_
    refine (byto3_routine self).tail hin hroom trivial fun T hreturns hpost => ?_
    refine ⟨hreturns, ?_, hpost.2⟩
    rw [hpost.1, hexDigit, if_neg hdigit]
    exact BitVec.add_assoc _ _ _

theorem rotateRight_four (a : U8) :
    (((a.rotateRight 1).rotateRight 1).rotateRight 1).rotateRight 1 &&& 0x0F = a >>> 4 := by
  revert a
  decide +kernel

/-- `BYTO1` makes the digit of the high half of A. -/
theorem byto1_routine :
    Routine self diagnosticCode 0x016A 0 (fun _ => True)
      (fun S T => T.regs.a = hexDigit (S.regs.a >>> 4) ∧ T.output = S.output) := by
  rintro ⟨_, sp, r, mem, output⟩ rfl hin hroom -
  -- four times RRC
  refine leads_regs (hin 0x016A 0x0F rfl) rfl ?_
  refine leads_regs (hin 0x016B 0x0F rfl) rfl ?_
  refine leads_regs (hin 0x016C 0x0F rfl) rfl ?_
  refine leads_regs (hin 0x016D 0x0F rfl) rfl ?_
  -- BYTO2
  refine (byto2_routine self).tail hin hroom trivial fun T hreturns hpost => ?_
  exact ⟨hreturns, hpost.1.trans (congrArg hexDigit (rotateRight_four r.a)), hpost.2⟩

/-- `BYTEO` prints A in hexadecimal. -/
theorem byteo_routine :
    Routine self diagnosticCode 0x015A 6 (fun _ => True)
      (fun S T => T.output = S.output ++ hexByte S.regs.a) := by
  rintro ⟨_, sp, r, mem, output⟩ rfl hin hroom -
  have hroom' : Room diagnosticCode (sp - 2) 4 := hroom.sub
  -- PUSH PSW
  refine leads_push (p := .psw) (hin 0x015A 0xF5 rfl) rfl fun w mem₁ hw hkept₁ hword => ?_
  have hkept₁ : Kept mem sp 6 mem₁ := hkept₁.mono (by omega)
  have hin₁ := hin.kept hroom hkept₁
  -- CALL BYTO1
  refine (byto1_routine self).call hin₁ (hroom'.mono (by omega)) (hin₁ 0x015B 0xCD rfl)
    (hin₁.word (a := 0x015C) rfl rfl) trivial fun r₂ mem₂ output₂ hkept₂ hpost₂ => ?_
  have hin₂ := hin₁.kept (hroom'.mono (by omega)) hkept₂
  -- MOV E,A
  refine leads_regs (hin₂ 0x015E 0x5F rfl) rfl ?_
  -- CALL PCHAR
  refine (pchar_routine self).call hin₂ hroom' (hin₂ 0x015F 0xCD rfl)
    (hin₂.word (a := 0x0160) rfl rfl) trivial fun r₃ mem₃ output₃ hkept₃ hpost₃ => ?_
  have hin₃ := hin₂.kept hroom' hkept₃
  -- POP PSW
  refine leads_pop (p := .psw) (hin₃ 0x0162 0xF1 rfl) rfl ?_
  have hpopped : wordAt mem₃ (sp - 2) = w :=
    (hkept₃.word (by omega)).trans ((hkept₂.word (by omega)).trans hword)
  rw [BitVec.sub_add_cancel, hpopped]
  -- CALL BYTO2
  refine (byto2_routine self).call hin₃ (hroom.mono (by omega)) (hin₃ 0x0163 0xCD rfl)
    (hin₃.word (a := 0x0164) rfl rfl) trivial fun r₄ mem₄ output₄ hkept₄ hpost₄ => ?_
  have hin₄ := hin₃.kept (hroom.mono (by omega)) hkept₄
  -- MOV E,A
  refine leads_regs (hin₄ 0x0166 0x5F rfl) rfl ?_
  -- JMP PCHAR
  refine leads_jmp (hin₄ 0x0167 0xC3 rfl) (hin₄.word (a := 0x0168) (w := 0x0154) rfl rfl) ?_
  refine (pchar_routine self).tail hin₄ (hroom.mono (by omega)) trivial fun T hreturns hpost => ?_
  have hkept : Kept mem sp 6 mem₄ :=
    ((hkept₁.trans (hkept₂.of_sub.mono (by omega))).trans hkept₃.of_sub).trans
      (hkept₄.mono (by omega))
  refine ⟨hreturns.of_kept hkept (by omega) (by omega), ?_⟩
  have hhigh : output₃ = output₂ ++ [r₂.a] := by
    rw [← lowByte_append (r₂.de.extractLsb' 8 8) r₂.a]
    exact hpost₃
  have hlow : T.output = output₄ ++ [r₄.a] := by
    rw [← lowByte_append (r₄.de.extractLsb' 8 8) r₄.a]
    exact hpost
  have hhighDigit : r₂.a = hexDigit (r.a >>> 4) := hpost₂.1
  have hlowDigit : r₄.a = hexDigit (r.a &&& 0x0F) :=
    hpost₄.1.trans (congrArg (fun a => hexDigit (a &&& 0x0F)) hw)
  have houtput₂ : output₂ = output := hpost₂.2
  have houtput₄ : output₄ = output₃ := hpost₄.2
  calc T.output
    _ = output₃ ++ [r₄.a] := by rw [hlow, houtput₄]
    _ = output ++ [r₂.a] ++ [r₄.a] := by rw [hhigh, houtput₂]
    _ = output ++ hexByte r.a := by
      rw [List.append_assoc, hhighDigit, hlowDigit]
      rfl

/-! ## The two ends -/

/-- What a run comes to that ends with a text printed. -/
def AtWboot (output : List U8) (T : View) : Prop :=
  T.pc = 0 ∧ InPlace diagnosticCode T.mem ∧ T.output = output

variable {sp : U16} {mem : U16 → U8} (r : Regs) (output : List U8)

theorem cpuok_leads (hin : InPlace diagnosticCode mem) (hroom : Room diagnosticCode sp 6) :
    Leads self ⟨0x06B4, sp, r, mem, output⟩ (AtWboot (output ++ okcpu)) := by
  have hmsg := msg_routine self okcpu 0x017A (by decide +kernel) (by decide)
  -- LXI H,OKCPU
  refine leads_lxi (hin 0x06B4 0x21 rfl) (hin.word (a := 0x06B5) (w := 0x017A) rfl rfl) ?_
  -- CALL MSG
  refine hmsg.call hin hroom (hin 0x06B7 0xCD rfl) (hin.word (a := 0x06B8) rfl rfl) rfl
    fun r₁ mem₁ output₁ hkept houtput => ?_
  have hin₁ := hin.kept hroom hkept
  -- JMP WBOOT
  refine leads_jmp (hin₁ 0x06BA 0xC3 rfl) (hin₁.word (a := 0x06BB) (w := 0x0000) rfl rfl) ?_
  exact .here ⟨rfl, hin₁, houtput⟩

theorem cpuer_leads (hin : InPlace diagnosticCode mem) (hroom : Room diagnosticCode sp 10) :
    Leads self ⟨0x06A0, sp - 2, r, mem, output⟩
      (AtWboot (output ++ ngcpu ++ hexWord (wordAt mem (sp - 2)))) := by
  have hroom' : Room diagnosticCode (sp - 2) 8 := hroom.sub
  have hmsg := msg_routine self ngcpu 0x0190 (by decide +kernel) (by decide)
  -- LXI H,NGCPU
  refine leads_lxi (hin 0x06A0 0x21 rfl) (hin.word (a := 0x06A1) (w := 0x0190) rfl rfl) ?_
  -- CALL MSG
  refine hmsg.call hin (hroom'.mono (by omega)) (hin 0x06A3 0xCD rfl)
    (hin.word (a := 0x06A4) rfl rfl) rfl fun r₁ mem₁ output₁ hkept₁ hpost₁ => ?_
  have hin₁ := hin.kept (hroom'.mono (by omega)) hkept₁
  -- POP H
  refine leads_pop (p := .h) (hin₁ 0x06A6 0xE1 rfl) rfl ?_
  rw [BitVec.sub_add_cancel, hkept₁.word (by omega)]
  generalize wordAt mem (sp - 2) = exitAddr
  -- PUSH H
  refine leads_push (p := .h) (hin₁ 0x06A7 0xE5 rfl) rfl fun w mem₂ hw hkept₂ hword₂ => ?_
  obtain rfl : w = exitAddr := hw
  have hin₂ := hin₁.kept (hroom.mono (by omega)) hkept₂
  -- MOV A,H
  refine leads_regs (hin₂ 0x06A8 0x7C rfl) rfl ?_
  -- CALL BYTEO
  refine (byteo_routine self).call hin₂ hroom' (hin₂ 0x06A9 0xCD rfl)
    (hin₂.word (a := 0x06AA) rfl rfl) trivial fun r₃ mem₃ output₃ hkept₃ hpost₃ => ?_
  have hin₃ := hin₂.kept hroom' hkept₃
  -- POP H
  refine leads_pop (p := .h) (hin₃ 0x06AC 0xE1 rfl) rfl ?_
  rw [BitVec.sub_add_cancel, hkept₃.word (by omega), hword₂]
  -- MOV A,L
  refine leads_regs (hin₃ 0x06AD 0x7D rfl) rfl ?_
  -- CALL BYTEO
  refine (byteo_routine self).call hin₃ (hroom.mono (by omega)) (hin₃ 0x06AE 0xCD rfl)
    (hin₃.word (a := 0x06AF) rfl rfl) trivial fun r₄ mem₄ output₄ hkept₄ hpost₄ => ?_
  have hin₄ := hin₃.kept (hroom.mono (by omega)) hkept₄
  -- JMP WBOOT
  refine leads_jmp (hin₄ 0x06B1 0xC3 rfl) (hin₄.word (a := 0x06B2) (w := 0x0000) rfl rfl) ?_
  refine .here ⟨rfl, hin₄, ?_⟩
  have houtput₁ : output₁ = output ++ ngcpu := hpost₁
  have houtput₃ : output₃ = output₁ ++ hexByte (w.extractLsb' 8 8) := hpost₃
  have houtput₄ : output₄ = output₃ ++ hexByte (w.extractLsb' 0 8) := hpost₄
  rw [houtput₄, houtput₃, houtput₁, hexWord, List.append_assoc]

/-- At the warm boot the test ends. -/
theorem Running.exits_wboot {output : List U8} {t : Bench} (h : Running t)
    (hat : AtWboot output t.view) :
    ∃ u, Exits testCond (testBody self) t u ∧ u.mach.world.dev.output = output := by
  obtain ⟨hpc, hin, rfl⟩ := hat
  exact h.exits (View.ext hpc rfl rfl rfl rfl) (hin 0x0000 0xD3 rfl) (hin 0x0001 0x00 rfl)

/-- A test of the program fails: it calls `CPUER`, with a condition that holds or none. -/
structure CallsError (s : Bench) : Prop where
  calls : decode (s.mach.world.mem s.mach.cpu.pc) = .call ∨
    ∃ cc : Cond, decode (s.mach.world.mem s.mach.cpu.pc) = .callCond cc ∧ cc.holds s.mach.cpu = true
  target : wordAt s.mach.world.mem (s.mach.cpu.pc + 1) = 0x06A0

/-- A conditional call that is taken is a call. -/
theorem view_callCond {cc : Cond} {m : Machine (Ram Console)} (h : cc.holds m.cpu = true) :
    machineView ((Instr.callCond cc).exec (ramEnv self testDevices) m) =
      machineView (Instr.call.exec (ramEnv self testDevices) m) := by
  have hholds : cc.holds (fetchWord (ramEnv self testDevices) m).mach.cpu = true := by
    cases cc <;> exact h
  simp only [Instr.exec, hholds]
  rfl

theorem CallsError.step {s : Bench} (hcalls : CallsError s) (h : Running s) :
    Running (testBody self s) ∧ (testBody self s).view =
      ⟨0x06A0, s.mach.cpu.sp - 2, cpuRegs s.mach.cpu,
        putWord s.mach.world.mem (s.mach.cpu.sp - 2) (s.mach.cpu.pc + 3),
        s.mach.world.dev.output⟩ := by
  have hret : s.mach.cpu.pc + 1 + 2 = s.mach.cpu.pc + 3 := by
    bv_omega
  have hcall : machineView (Instr.call.exec (ramEnv self testDevices) (ready s.mach)) =
      ⟨wordAt s.mach.world.mem (s.mach.cpu.pc + 1), s.mach.cpu.sp - 2, cpuRegs s.mach.cpu,
        putWord s.mach.world.mem (s.mach.cpu.sp - 2) (s.mach.cpu.pc + 1 + 2),
        s.mach.world.dev.output⟩ := view_call
  rw [hcalls.target, hret] at hcall
  rw [h.body self]
  rcases hcalls.calls with hop | ⟨cc, hop, hholds⟩
  · rw [hop]
    exact ⟨h.after ⟨Instr.noConfusion, Instr.noConfusion⟩, hcall⟩
  · rw [hop]
    have hready : cc.holds (ready s.mach).cpu = true := by
      cases cc <;> exact hholds
    exact ⟨h.after ⟨Instr.noConfusion, Instr.noConfusion⟩, (view_callCond self hready).trans hcall⟩

/--
Whatever the state of the cpu, the program prints at `CPUOK` that the cpu is operational;
where one of its tests calls `CPUER` it prints that the cpu has failed, with the address
behind the call in hexadecimal.  Either way the test ends.
-/
theorem diagnostic_verdict {s : Bench} (h : Running s)
    (hin : InPlace diagnosticCode s.mach.world.mem)
    (hroom : Room diagnosticCode s.mach.cpu.sp 10) :
    (s.mach.cpu.pc = 0x06B4 → ∃ t, Exits testCond (testBody self) s t ∧
      t.mach.world.dev.output = s.mach.world.dev.output ++ okcpu) ∧
    (CallsError s → ∃ t, Exits testCond (testBody self) s t ∧
      t.mach.world.dev.output =
        s.mach.world.dev.output ++ ngcpu ++ hexWord (s.mach.cpu.pc + 3)) := by
  constructor
  · intro hpc
    have hleads := cpuok_leads self (cpuRegs s.mach.cpu) s.mach.world.dev.output hin
      (hroom.mono (by omega))
    exact Comes.exits hleads (fun t ht hat => ht.exits_wboot self hat) h
      (View.ext hpc rfl rfl rfl rfl)
  · intro hcalls
    obtain ⟨hrun, hview⟩ := hcalls.step self h
    have hkept := kept_putWord s.mach.world.mem s.mach.cpu.sp (s.mach.cpu.pc + 3)
    have hleads := cpuer_leads self (cpuRegs s.mach.cpu) s.mach.world.dev.output
      (hin.kept (hroom.mono (by omega)) hkept) hroom
    rw [wordAt_putWord] at hleads
    obtain ⟨t, ht, houtput⟩ :=
      Comes.exits hleads (fun t ht hat => ht.exits_wboot self hat) hrun hview
    exact ⟨t, .next h.cond ht, houtput⟩

end Routines

/-- The test of `CPO`, which fails. -/
def failing : Bench :=
  let start := testStart 0x1000 zeroCpu ⟨[], by decide⟩
  { start with
    mach :=
      ⟨{ start.mach.cpu with pc := 0x0299, sp := 0x07BD },
        { start.mach.world with
          mem := fun a => (diagnosticCode a).getD
            (if a = 0x0299 then 0xE4 else if a = 0x029A then 0xA0 else 0x06) }⟩ }

theorem diagnostic_verdict_failing :
    ∃ t, Exits testCond (testBody 0x1000) failing t ∧
      t.mach.world.dev.output = ascii "\r\n CPU HAS FAILED!    ERROR EXIT=029C" := by
  have hrun : Running failing := ⟨rfl, rfl, by decide, rfl, rfl⟩
  have hin : InPlace diagnosticCode failing.mach.world.mem := by
    intro a b hab
    change (diagnosticCode a).getD _ = b
    rw [hab]
    rfl
  have hroom : Room diagnosticCode failing.mach.cpu.sp 10 := .of_forall (by decide +kernel)
  have hcalls : CallsError failing := ⟨.inr ⟨.po, rfl, rfl⟩, rfl⟩
  obtain ⟨t, ht, houtput⟩ := (diagnostic_verdict 0x1000 hrun hin hroom).2 hcalls
  exact ⟨t, ht, houtput.trans (by decide +kernel)⟩

end Cpu
end AdcLibs
