import AdcLibs.Cpu.Multibyte

/-!
# Arithmetic that is coded more than once

`CMP` is a subtraction whose difference is dropped, `INR` and `DCR` are an
addition and a subtraction of 1 that keep the carry, and `DAD` is an addition
of two bytes to two bytes.  The source codes each of them on its own; here
they are compared with the instructions they repeat.
-/

namespace AdcLibs
namespace Cpu

universe u

open Reference CarryChain Runs

variable {W : Type u} {E : Env W} {m m' t : Machine W} {opcode opcode' : U8}

/-! ## `CMP` and `SUB` -/

theorem Source.cycles (src : Source) (op op' : AluOp) :
    (src.instr op).cycles = (src.instr op').cycles := by
  cases src with
  | operand s => cases s <;> rfl
  | immediate => rfl

theorem cmp_agrees (hE : E.Frames) (src : Source) (hcmp : decode opcode = src.instr .cmp)
    (hsub : decode opcode' = src.instr .sub) :
    (execNext E opcode m).cpu.ra = m.cpu.ra ∧
      flags (execNext E opcode m).cpu = flags (execNext E opcode' m).cpu := by
  have hbegun : begun opcode' m = begun opcode m := by
    rw [begun, begun, hcmp, hsub, src.cycles .sub .cmp]
  rcases src.exec hE (begun opcode m) with ⟨pc, hexec⟩
  rw [execNext_begun, execNext_begun, hbegun, hcmp, hsub, hexec, hexec]
  exact ⟨rfl, rfl⟩

/-! ## `INR` and `DCR` -/

theorem inrFlags_eq {v : U8} {cpu' : Adc8080Cpu} (hv : cpu'.ra = v) (cpu : Adc8080Cpu) :
    (addTo 1 false cpu').ra = v + 1 ∧
      flags (inrFlags v cpu) = { flags (addTo 1 false cpu') with cfc := cpu.cfc } := by
  have hresult : BitVec.ofNat 8 (v.toNat + (1 : U8).toNat + false.toNat) = v + 1 := by
    apply BitVec.eq_of_toNat_eq
    simp
  have haux : decide (v.toNat % 16 = 15) =
      decide (16 ≤ v.toNat % 16 + (1 : U8).toNat % 16 + false.toNat) := by
    apply decide_eq_decide.mpr
    change _ ↔ 16 ≤ v.toNat % 16 + 1 + 0
    omega
  subst hv
  constructor
  · exact hresult
  · simp only [flags, inrFlags, addTo, resultFlags, hresult, haux]

theorem dcrFlags_eq {v : U8} {cpu' : Adc8080Cpu} (hv : cpu'.ra = v) (cpu : Adc8080Cpu) :
    (subFrom 1 false cpu').ra = v - 1 ∧
      flags (dcrFlags v cpu) = { flags (subFrom 1 false cpu') with cfc := cpu.cfc } := by
  have hresult : BitVec.ofInt 8 ((v.toNat : Int) - (1 : U8).toNat - false.toNat) = v - 1 := by
    apply BitVec.eq_of_toNat_eq
    rw [BitVec.toNat_ofInt, BitVec.toNat_sub]
    change (((v.toNat : Int) - 1 - 0) % 256).toNat = (256 - 1 + v.toNat) % 256
    omega
  have haux : decide (v.toNat % 16 ≠ 0) =
      decide ((1 : U8).toNat % 16 + false.toNat ≤ v.toNat % 16) := by
    apply decide_eq_decide.mpr
    change _ ↔ 1 + 0 ≤ v.toNat % 16
    omega
  subst hv
  constructor
  · exact hresult
  · simp only [flags, dcrFlags, subFrom, resultFlags, hresult, haux]

/-- Counting by one. -/
inductive Count
  | inr
  | dcr
deriving DecidableEq, Repr

def Count.instr : Count → Operand → Instr
  | .inr, d => .inr d
  | .dcr, d => .dcr d

/-- The operation that counts with an operand of 1. -/
def Count.op : Count → AluOp
  | .inr => .add
  | .dcr => .sub

def Count.result : Count → U8 → U8
  | .inr, v => v + 1
  | .dcr, v => v - 1

def Count.flagged : Count → U8 → Adc8080Cpu → Adc8080Cpu
  | .inr => inrFlags
  | .dcr => dcrFlags

/-- Counting from `v` is the operation on 1, but for the carry. -/
theorem Count.flags_eq (c : Count) {v : U8} {cpu' : Adc8080Cpu} (hv : cpu'.ra = v)
    (cpu : Adc8080Cpu) :
    (c.op.exec 1 cpu').ra = c.result v ∧
      flags (c.flagged v cpu) = { flags (c.op.exec 1 cpu') with cfc := cpu.cfc } := by
  cases c with
  | inr => exact inrFlags_eq hv cpu
  | dcr => exact dcrFlags_eq hv cpu

theorem Count.exec (c : Count) (d : Operand) (m : Machine W) :
    (c.instr d).exec E m =
      (d.loc m.cpu).store E (c.result ((d.loc m.cpu).load E m).val)
        (((d.loc m.cpu).load E m).mach.onCpu (c.flagged ((d.loc m.cpu).load E m).val)) := by
  cases c <;> rfl

/-- The flags are those of the value in the operand. -/
theorem Count.flags_execNext (hE : E.Frames) (c : Count) {d : Operand}
    (hdec : decode opcode = c.instr d) (m : Machine W) :
    flags (execNext E opcode m).cpu =
      flags (c.flagged ((Source.operand d).value E (begun opcode m)) m.cpu) := by
  rw [execNext_begun, hdec, c.exec, flags_store hE, Machine.onCpu_cpu, Loc.load_cpu hE]
  cases c <;> rfl

/-- `INR A` and `DCR A` do what `ADI 1` and `SUI 1` do, but for the carry. -/
theorem count_agrees (hE : E.Frames) (c : Count) (hcount : decode opcode = c.instr (.reg .a))
    (hop : Applies E c.op 1 opcode' m') (ha : m'.cpu.ra = m.cpu.ra) :
    (execNext E opcode m).cpu.ra = (execNext E opcode' m').cpu.ra ∧
      flags (execNext E opcode m).cpu =
        { flags (execNext E opcode' m').cpu with cfc := m.cpu.cfc } := by
  rcases hop.execNext hE with ⟨hra, hflags⟩
  rcases c.flags_eq ha m.cpu with ⟨hresult, hcountFlags⟩
  constructor
  · rw [hra, hresult, execNext_begun, hcount, c.exec]
    rfl
  · rw [hflags, c.flags_execNext hE hcount]
    exact hcountFlags

/-- An operand sets the flags that the same value sets in A. -/
theorem count_operand_agrees (hE : E.Frames) (c : Count) {d : Operand}
    (hd : decode opcode = c.instr d) (hcount : decode opcode' = c.instr (.reg .a))
    (ha : m'.cpu.ra = (Source.operand d).value E (begun opcode m)) :
    flags (execNext E opcode m).cpu =
      { flags (execNext E opcode' m').cpu with cfc := m.cpu.cfc } := by
  rw [c.flags_execNext hE hd, c.flags_execNext hE hcount, ← ha]
  cases c <;> rfl

/-! ## `DAD` -/

theorem toNat_append (high low : U8) :
    (high ++ low : U16).toNat = 256 * high.toNat + low.toNat := by
  have hlow := low.isLt
  rw [BitVec.toNat_append, Nat.shiftLeft_eq, ← Nat.shiftLeft_eq,
    ← Nat.shiftLeft_add_eq_or_of_lt hlow, Nat.shiftLeft_eq]
  omega

/-- `DAD` adds the bytes of its pair to those of HL, from the low ones on. -/
theorem dad_agrees (hE : E.Frames) {p : Pair} (hdad : decode opcode = .dad p) {z z' : U8}
    (hrun : Run (LinkStep E) m' [⟨.add, m.cpu.rl, (p.get m.cpu).extractLsb' 0 8, z⟩,
      ⟨.adc, m.cpu.rh, (p.get m.cpu).extractLsb' 8 8, z'⟩] t) :
    Pair.h.get (execNext E opcode m).cpu = z' ++ z ∧
      (execNext E opcode m).cpu.ra = m.cpu.ra ∧
      flags (execNext E opcode m).cpu = { flags m.cpu with cfc := t.cpu.cfc } := by
  have hsum := (chain_add hE rfl (by simp) hrun).sum
  have hw : (p.get m.cpu).toNat = 256 * ((p.get m.cpu).extractLsb' 8 8).toNat +
      ((p.get m.cpu).extractLsb' 0 8).toNat := by
    rw [← toNat_append, append_highByte_lowByte]
  have hhl : (Pair.h.get m.cpu).toNat = 256 * m.cpu.rh.toNat + m.cpu.rl.toNat :=
    toNat_append _ _
  have hz := z.isLt
  have hz' := z'.isLt
  simp only [numeral_cons, numeral_nil, List.length_cons, List.length_nil, Bool.toNat_false]
    at hsum
  have htotal : (Pair.h.get m.cpu).toNat + (p.get m.cpu).toNat =
      256 * z'.toNat + z.toNat + 65536 * t.cpu.cfc.toNat := by
    rw [hw, hhl]
    omega
  have hcpu : (execNext E opcode m).cpu = addHl (p.get m.cpu) (begun opcode m).cpu := by
    rw [execNext_begun, hdad]
    cases p <;> rfl
  have hcarry : decide (65536 ≤ (Pair.h.get m.cpu).toNat + (p.get m.cpu).toNat) =
      t.cpu.cfc := by
    rw [htotal]
    cases t.cpu.cfc with
    | false =>
        rw [Bool.toNat_false, decide_eq_false_iff_not]
        omega
    | true =>
        rw [Bool.toNat_true, decide_eq_true_eq]
        omega
  rw [hcpu]
  refine ⟨?_, rfl, ?_⟩
  · have hres : BitVec.ofNat 16 ((Pair.h.get m.cpu).toNat + (p.get m.cpu).toNat) =
        z' ++ z := by
      apply BitVec.eq_of_toNat_eq
      rw [BitVec.toNat_ofNat, toNat_append, htotal, Nat.add_mul_mod_self_left]
      exact Nat.mod_eq_of_lt (by omega)
    rw [← hres]
    exact append_highByte_lowByte _
  · rw [← hcarry]
    rfl

/--
`CMP` sets the flags of `SUB` and keeps A; `INR` and `DCR` of A do what adding
and subtracting 1 does but for the carry, and of any operand they set the same
flags; `DAD` is `ADD` of the low bytes and `ADC` of the high ones.
-/
theorem arithmetic_agrees (hE : E.Frames) (m : Machine W) :
    (∀ (src : Source) (opcode opcode' : U8),
      decode opcode = src.instr .cmp → decode opcode' = src.instr .sub →
        (execNext E opcode m).cpu.ra = m.cpu.ra ∧
          flags (execNext E opcode m).cpu = flags (execNext E opcode' m).cpu) ∧
    (∀ (c : Count) (opcode opcode' : U8) (m' : Machine W),
      decode opcode = c.instr (.reg .a) → Applies E c.op 1 opcode' m' →
        m'.cpu.ra = m.cpu.ra →
          (execNext E opcode m).cpu.ra = (execNext E opcode' m').cpu.ra ∧
            flags (execNext E opcode m).cpu =
              { flags (execNext E opcode' m').cpu with cfc := m.cpu.cfc }) ∧
    (∀ (c : Count) (d : Operand) (opcode opcode' : U8) (m' : Machine W),
      decode opcode = c.instr d → decode opcode' = c.instr (.reg .a) →
        m'.cpu.ra = (Source.operand d).value E (begun opcode m) →
          flags (execNext E opcode m).cpu =
            { flags (execNext E opcode' m').cpu with cfc := m.cpu.cfc }) ∧
    (∀ (p : Pair) (opcode : U8) (m' t : Machine W) (z z' : U8), decode opcode = .dad p →
      Run (LinkStep E) m' [⟨.add, m.cpu.rl, (p.get m.cpu).extractLsb' 0 8, z⟩,
        ⟨.adc, m.cpu.rh, (p.get m.cpu).extractLsb' 8 8, z'⟩] t →
        Pair.h.get (execNext E opcode m).cpu = z' ++ z ∧
          (execNext E opcode m).cpu.ra = m.cpu.ra ∧
          flags (execNext E opcode m).cpu = { flags m.cpu with cfc := t.cpu.cfc }) := by
  refine ⟨?_, ?_, ?_, ?_⟩
  · intro src opcode opcode' hcmp hsub
    exact cmp_agrees hE src hcmp hsub
  · intro c opcode opcode' m' hcount hop ha
    exact count_agrees hE c hcount hop ha
  · intro c d opcode opcode' m' hd hcount ha
    exact count_operand_agrees hE c hd hcount ha
  · intro p opcode m' t z z' hdad hrun
    exact dad_agrees hE hdad hrun

/-- The words of `wordLinks` in HL and in the pair B. -/
def wordMachine : Machine (Ram Unit) :=
  ⟨{ zeroCpu with rb := 0x34, rc := 0x01, rh := 0x12, rl := 0xFF }, zeroRam⟩

theorem wordMachine_links :
    [⟨.add, wordMachine.cpu.rl, (Pair.b.get wordMachine.cpu).extractLsb' 0 8, 0x00⟩,
      ⟨.adc, wordMachine.cpu.rh, (Pair.b.get wordMachine.cpu).extractLsb' 8 8, 0x47⟩] =
      wordLinks := by
  have hlow : (Pair.b.get wordMachine.cpu).extractLsb' 0 8 = 0x01 := lowByte_append _ _
  have hhigh : (Pair.b.get wordMachine.cpu).extractLsb' 8 8 = 0x34 := highByte_append _ _
  rw [hlow, hhigh]
  rfl

/-- `CMP B` and `SUB B`, `INR A` and `ADD B` with 1 in B, `INR B` and `INR A`, and `DAD B`
with the run of `ADD B` and `ADC B`. -/
theorem arithmetic_agrees_b :
    flags (execNext (ramEnv 0 noDevices) 0xB8 wordMachine).cpu =
        flags (execNext (ramEnv 0 noDevices) 0x90 wordMachine).cpu ∧
      (execNext (ramEnv 0 noDevices) 0x3C wordMachine).cpu.ra =
        (execNext (ramEnv 0 noDevices) 0x80 (loaded 0 1 wordMachine)).cpu.ra ∧
      flags (execNext (ramEnv 0 noDevices) 0x04 wordMachine).cpu =
        { flags (execNext (ramEnv 0 noDevices) 0x3C (loaded 0x34 0 wordMachine)).cpu with
          cfc := wordMachine.cpu.cfc } ∧
      Pair.h.get (execNext (ramEnv 0 noDevices) 0x09 wordMachine).cpu =
        (0x47 : U8) ++ (0x00 : U8) := by
  rcases arithmetic_agrees (ramEnv_frames 0 noDevices) wordMachine with
    ⟨hcmp, hcount, hoperand, hdad⟩
  refine ⟨?_, ?_, ?_, ?_⟩
  · exact (hcmp (.operand (.reg .b)) 0xB8 0x90 (by decide) (by decide)).2
  · exact (hcount .inr 0x3C 0x80 (loaded 0 1 wordMachine) (by decide)
      ⟨.operand (.reg .b), by decide, rfl⟩ rfl).1
  · exact hoperand .inr (.reg .b) 0x04 0x3C (loaded 0x34 0 wordMachine) (by decide) (by decide)
      rfl
  · exact (hdad .b 0x09 ⟨zeroCpu, zeroRam⟩ _ 0x00 0x47 (by decide)
      (wordMachine_links ▸ run_wordLinks)).1

end Cpu
end AdcLibs
