import AdcLibs.Cpu.Frames

/-!
# The accumulator and the flags

An arithmetic instruction with an operand changes the accumulator and the five
flags, and what they become depends on nothing but the accumulator, the carry
and the operand.  The operand may stand in a register, at HL or behind the
opcode.
-/

namespace AdcLibs
namespace Cpu

universe u

open Reference

/-! ## Flags -/

/-- The five condition flags. -/
@[ext] structure Flags where
  cfs : Bool
  cfz : Bool
  cfa : Bool
  cfp : Bool
  cfc : Bool
deriving DecidableEq, Repr

def flags (cpu : Adc8080Cpu) : Flags where
  cfs := cpu.cfs
  cfz := cpu.cfz
  cfa := cpu.cfa
  cfp := cpu.cfp
  cfc := cpu.cfc

@[simp] theorem flags_reg_set (r : Reg) (v : U8) (cpu : Adc8080Cpu) :
    flags (r.set v cpu) = flags cpu := by
  cases r <;> rfl

@[simp] theorem flags_pair_set (p : Pair) (w : U16) (cpu : Adc8080Cpu) :
    flags (p.set w cpu) = flags cpu := by
  cases p <;> rfl

section Frames

variable {W : Type u} {E : Env W} (hE : E.Frames)
include hE

theorem flags_store (loc : Loc) (v : U8) (m : Machine W) :
    flags (loc.store E v m).cpu = flags m.cpu := by
  rcases loc.store_cpu hE v m with h | ⟨r, h⟩
  · rw [h]
  · rw [h, flags_reg_set]

theorem flags_fetch (m : Machine W) : flags (fetch E m).mach.cpu = flags m.cpu := by
  rw [fetch_cpu hE]
  rfl

theorem flags_fetchWord (m : Machine W) : flags (fetchWord E m).mach.cpu = flags m.cpu := by
  rw [fetchWord_cpu hE]
  rfl

theorem flags_callTo (addr : U16) (m : Machine W) :
    flags (callTo E addr m).cpu = flags m.cpu := by
  simp only [callTo, goto, Machine.onCpu_cpu, pushWord_cpu hE]
  rfl

theorem flags_returnTo (m : Machine W) : flags (returnTo E m).cpu = flags m.cpu := by
  simp only [returnTo, goto, Machine.onCpu_cpu, popWord_cpu hE]
  rfl

end Frames

/-! ## Decimal adjustment -/

/-- The carry out of the low digit: only a digit above 9 gives one. -/
theorem adjust_cfa (cpu : Adc8080Cpu) :
    (adjust cpu).cfa = decide (9 < cpu.ra.toNat % 16) := by
  have hsum : ∀ p q : Bool,
      (((if p then 0x06 else 0) + if q then 0x60 else 0 : U8)).toNat % 16 =
        if p then 6 else 0 := by
    decide
  have hlow := hsum (decide (9 < cpu.ra.toNat % 16 ∨ cpu.cfa))
    (decide (0x99 < cpu.ra.toNat ∨ cpu.cfc))
  simp only [decide_eq_true_eq] at hlow
  simp only [adjust, addTo, hlow]
  apply decide_eq_decide.mpr
  rw [Bool.toNat_false, Nat.add_zero]
  by_cases h : 9 < cpu.ra.toNat % 16
  · rw [if_pos (Or.inl h)]
    omega
  · split <;> omega

theorem adjust_ra (cpu : Adc8080Cpu) :
    (adjust cpu).ra = cpu.ra +
      ((if 9 < cpu.ra.toNat % 16 ∨ cpu.cfa then 0x06 else 0) +
        if 0x99 < cpu.ra.toNat ∨ cpu.cfc then 0x60 else 0) := by
  apply BitVec.eq_of_toNat_eq
  simp [adjust, addTo]

theorem flags_adjust (cpu : Adc8080Cpu) :
    flags (adjust cpu) =
      { cfs := decide (128 ≤ (adjust cpu).ra.toNat)
        cfz := decide ((adjust cpu).ra = 0)
        cfa := decide (9 < cpu.ra.toNat % 16)
        cfp := evenParity (adjust cpu).ra
        cfc := decide (0x99 < cpu.ra.toNat ∨ cpu.cfc) } := by
  have haux := adjust_cfa cpu
  ext <;> first | rfl | exact haux

/-! ## Instructions with an operand -/

/-- What an operation does to the accumulator and the flags depends on these alone. -/
theorem Reference.AluOp.exec_congr (op : AluOp) (v : U8) {cpu cpu' : Adc8080Cpu}
    (ha : cpu.ra = cpu'.ra) (hf : flags cpu = flags cpu') :
    (op.exec v cpu).ra = (op.exec v cpu').ra ∧
      flags (op.exec v cpu) = flags (op.exec v cpu') := by
  have hc : cpu.cfc = cpu'.cfc := congrArg Flags.cfc hf
  cases op <;>
    simp [AluOp.exec, addTo, subFrom, logic, resultFlags, flags, ha, hc]

/-- Where an arithmetic instruction takes its operand from. -/
inductive Source
  | operand (s : Operand)
  | immediate
deriving DecidableEq, Repr

def Source.instr (op : AluOp) : Source → Instr
  | .operand s => .alu op s
  | .immediate => .aluImm op

section Source

variable {W : Type u} {E : Env W} {op : AluOp} {v opcode : U8} {m : Machine W}

def Source.value (E : Env W) (m : Machine W) : Source → U8
  | .operand s => ((s.loc m.cpu).load E m).val
  | .immediate => (fetch E m).val

/-- The operation works on the operand; an immediate one moves pc. -/
theorem Source.exec (hE : E.Frames) (src : Source) (m : Machine W) :
    ∃ pc, ∀ op : AluOp, ((src.instr op).exec E m).cpu =
      op.exec (src.value E m) { m.cpu with pc := pc } := by
  cases src with
  | operand s =>
      refine ⟨m.cpu.pc, fun op => ?_⟩
      simp only [Source.instr, Source.value, Instr.exec, Machine.onCpu_cpu, Loc.load_cpu hE]
  | immediate =>
      refine ⟨m.cpu.pc + 1, fun op => ?_⟩
      simp only [Source.instr, Source.value, Instr.exec, Machine.onCpu_cpu, fetch_cpu hE]

theorem flags_begun (opcode : U8) (m : Machine W) :
    flags (begun opcode m).cpu = flags m.cpu := rfl

/-- The opcode byte applies `op` to the accumulator and the operand `v`. -/
def Applies (E : Env W) (op : AluOp) (v opcode : U8) (m : Machine W) : Prop :=
  ∃ src : Source, decode opcode = src.instr op ∧ src.value E (begun opcode m) = v

theorem Applies.execNext (hE : E.Frames) (h : Applies E op v opcode m) :
    (execNext E opcode m).cpu.ra = (op.exec v m.cpu).ra ∧
      flags (execNext E opcode m).cpu = flags (op.exec v m.cpu) := by
  rcases h with ⟨src, hdec, hv⟩
  rcases src.exec hE (begun opcode m) with ⟨pc, hexec⟩
  rw [execNext_begun, hdec, hexec, hv]
  exact op.exec_congr v rfl rfl

end Source

end Cpu
end AdcLibs
