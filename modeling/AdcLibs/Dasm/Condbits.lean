import AdcLibs.Cpu.Arithmetic
import AdcLibs.Cpu.RamSteps
import AdcLibs.Dasm.Table

/-!
# The condition bits of the table

The table declares for every opcode byte which condition bits it affects.  The
emulator's side of it is a frame lemma: an instruction leaves every flag alone
that is not in its class.  Row by row the two descriptions agree, but for
`DAA`, `CMC` and `POP PSW`, which the table declares to affect no flag.
-/

namespace AdcLibs
namespace Dasm

universe u

open Cpu Cpu.Reference

/-- Each flag that differs is in the class. -/
def CondbitsAffected.Allows (c : CondbitsAffected) (f f' : Flags) : Prop :=
  match c with
  | .none => f' = f
  | .cy => f' = { f with cfc := f'.cfc }
  | .szacp => f'.cfc = f.cfc
  | .all => True

instance (c : CondbitsAffected) (f f' : Flags) : Decidable (c.Allows f f') := by
  unfold CondbitsAffected.Allows
  cases c <;> infer_instance

/-! ## The classes of the instructions -/

/-- The class of flags that an instruction may change. -/
def instrCondbits : Instr → CondbitsAffected
  | .inr _ | .dcr _ => .szacp
  | .alu _ _ | .aluImm _ => .all
  | .dad _ | .rlc | .rrc | .ral | .rar | .stc | .cmc => .cy
  | .daa => .all
  | .pop .psw => .all
  | _ => .none

/-- The rows whose class is not that of their instruction. -/
def MisdeclaredRow (b : U8) : Prop :=
  b = 0x27 ∨ b = 0x3F ∨ b = 0xF1

instance (b : U8) : Decidable (MisdeclaredRow b) :=
  inferInstanceAs (Decidable (_ ∨ _ ∨ _))

theorem sDasmLut_condbits (b : U8) :
    (sDasmLut b).condbitsAffected =
      if MisdeclaredRow b then .none else instrCondbits (decode b) := by
  revert b
  decide

section Frames

variable {W : Type u} {E : Env W} (hE : E.Frames)
include hE

/-- An instruction changes no flag outside its class. -/
theorem exec_condbits (i : Instr) (m : Machine W) :
    (instrCondbits i).Allows (flags m.cpu) (flags (i.exec E m).cpu) := by
  cases i with
  | nop | hlt | ei | di | cma | pchl | sphl | xchg => rfl
  | dad p | rlc | rrc | ral | rar | stc | cmc => rfl
  | alu op s | aluImm op | daa => exact trivial
  | inx p | dcx p => exact flags_pair_set p _ _
  | mov d s =>
      refine (flags_store hE _ _ _).trans ?_
      rw [Loc.load_cpu hE]
  | inr d =>
      refine (congrArg Flags.cfc (flags_store hE _ _ _)).trans ?_
      rw [Machine.onCpu_cpu, Loc.load_cpu hE]
      rfl
  | dcr d =>
      refine (congrArg Flags.cfc (flags_store hE _ _ _)).trans ?_
      rw [Machine.onCpu_cpu, Loc.load_cpu hE]
      rfl
  | mvi d => exact (flags_store hE _ _ _).trans (flags_fetch hE m)
  | lxi p => exact (flags_pair_set p _ _).trans (flags_fetchWord hE m)
  | push p =>
      refine (congrArg flags (pushWord_cpu hE _ _)).trans ?_
      rfl
  | pop p =>
      have hpop : flags (popWord E m).mach.cpu = flags m.cpu := by
        rw [popWord_cpu hE]
        rfl
      cases p with
      | psw => exact trivial
      | b | d | h => exact (flags_pair_set _ _ _).trans hpop
  | stax p => exact congrArg flags (store_cpu hE _ _ _)
  | ldax p =>
      refine (flags_reg_set .a _ _).trans ?_
      rw [load_cpu hE]
  | sta => exact (congrArg flags (store_cpu hE _ _ _)).trans (flags_fetchWord hE m)
  | lda =>
      refine (flags_reg_set .a _ _).trans ?_
      rw [load_cpu hE]
      exact flags_fetchWord hE m
  | shld => exact (congrArg flags (storeWord_cpu hE _ _ _)).trans (flags_fetchWord hE m)
  | lhld =>
      refine (flags_pair_set .h _ _).trans ?_
      rw [loadWord_cpu hE]
      exact flags_fetchWord hE m
  | jmp => exact flags_fetchWord hE m
  | jmpCond cc =>
      simp only [Instr.exec]
      split
      · exact flags_fetchWord hE m
      · exact flags_fetchWord hE m
  | call => exact (flags_callTo hE _ _).trans (flags_fetchWord hE m)
  | callCond cc =>
      simp only [Instr.exec]
      split
      · exact (flags_callTo hE (fetchWord E m).val _).trans (flags_fetchWord hE m)
      · exact flags_fetchWord hE m
  | ret => exact flags_returnTo hE m
  | retCond cc =>
      simp only [Instr.exec]
      split
      · exact flags_returnTo hE m
      · rfl
  | rst n => exact flags_callTo hE _ m
  | xthl =>
      refine (flags_pair_set .h _ _).trans ?_
      rw [storeWord_cpu hE, loadWord_cpu hE]
  | inp =>
      refine (flags_reg_set .a _ _).trans ?_
      rw [hE.readDevice]
      exact flags_fetch hE m
  | out => exact (congrArg flags (hE.writeDevice _ _ _ _ _)).trans (flags_fetch hE m)

end Frames

/-- A row declared with the class of its instruction is sound. -/
theorem condbits_sound {W : Type u} {E : Env W} (hE : E.Frames) {b : U8}
    (hb : ¬ MisdeclaredRow b) (m : Machine W) :
    (sDasmLut b).condbitsAffected.Allows (flags m.cpu) (flags (execNext E b m).cpu) := by
  rw [sDasmLut_condbits, if_neg hb, execNext_eq_exec]
  exact exec_condbits hE (decode b) (m.onCpu _)

/-! ## The three other rows -/

/-- The accumulator after a decimal adjustment whose corrections are those that the
flags ask for. -/
def corrected (a : U8) (f : Flags) : U8 :=
  a + ((if f.cfa then 0x06 else 0) + if f.cfc then 0x60 else 0)

/-- An accumulator and flags for which `DAA` has no flag to change: carry and aux are set
where the digits ask for it, and the other flags describe the adjusted accumulator. -/
structure Adjusted (a : U8) (f : Flags) : Prop where
  carry : 0x99 < a.toNat → f.cfc = true
  aux : f.cfa = decide (9 < a.toNat % 16)
  sign : f.cfs = decide (128 ≤ (corrected a f).toNat)
  zero : f.cfz = decide (corrected a f = 0)
  parity : f.cfp = evenParity (corrected a f)

/-- The flags that `POP PSW` takes from a byte. -/
def byteFlags (v : U8) : Flags where
  cfs := v.getLsbD 7
  cfz := v.getLsbD 6
  cfa := v.getLsbD 4
  cfp := v.getLsbD 2
  cfc := v.getLsbD 0

theorem flags_adjust_eq_iff (cpu : Adc8080Cpu) :
    flags (adjust cpu) = flags cpu ↔ Adjusted cpu.ra (flags cpu) := by
  -- with carry and aux as asked for, the corrections are those of the flags
  have hra (hcarry : 0x99 < cpu.ra.toNat → cpu.cfc = true)
      (haux : cpu.cfa = decide (9 < cpu.ra.toNat % 16)) :
      (adjust cpu).ra = corrected cpu.ra (flags cpu) := by
    have hc : (0x99 < cpu.ra.toNat ∨ cpu.cfc = true) ↔ cpu.cfc = true :=
      or_iff_right_of_imp hcarry
    have ha : (9 < cpu.ra.toNat % 16 ∨ cpu.cfa = true) ↔ cpu.cfa = true := by
      rw [haux, decide_eq_true_eq, or_self_iff]
    rw [adjust_ra, if_congr ha rfl rfl, if_congr hc rfl rfl]
    rfl
  rw [flags_adjust]
  constructor
  · intro h
    obtain ⟨hs, hz, ha, hp, hc⟩ := Flags.mk.inj h
    have hcarry : 0x99 < cpu.ra.toNat → cpu.cfc = true := fun hlt => by
      rw [← hc, decide_eq_true_eq]
      exact Or.inl hlt
    rw [hra hcarry ha.symm] at hs hz hp
    exact ⟨hcarry, ha.symm, hs.symm, hz.symm, hp.symm⟩
  · intro h
    rw [hra h.carry h.aux]
    ext
    · exact h.sign.symm
    · exact h.zero.symm
    · exact h.aux.symm
    · exact h.parity.symm
    · change decide (0x99 < cpu.ra.toNat ∨ cpu.cfc = true) = cpu.cfc
      rw [Bool.eq_iff_iff, decide_eq_true_eq]
      exact or_iff_right_of_imp h.carry

section Ram

variable {D : Type u} (self : Ptr) (devices : Devices D) (m : Machine (Ram D))

theorem execNext_cmc_flags :
    flags (execNext (ramEnv self devices) 0x3F m).cpu ≠ flags m.cpu := by
  intro h
  have hcarry : (!m.cpu.cfc) = m.cpu.cfc := by
    rw [execNext_eq_exec] at h
    exact congrArg Flags.cfc h
  exact Bool.not_ne_self _ hcarry

theorem execNext_popPsw_flags :
    flags (execNext (ramEnv self devices) 0xF1 m).cpu =
      byteFlags (m.world.mem m.cpu.sp) := by
  rw [execNext_eq_exec]
  ext <;> exact getLsbD_append_low _ _ (by decide)

/-- When the flags that an opcode byte changes are in the class that its row declares. -/
def Declared (b : U8) : Prop :=
  match b with
  | 0x27 => Adjusted m.cpu.ra (flags m.cpu)
  | 0x3F => False
  | 0xF1 => byteFlags (m.world.mem m.cpu.sp) = flags m.cpu
  | _ => True

/--
The annotation is sound for every opcode byte but `CMC`, and for `DAA` and
`POP PSW` in the states where they have no flag to change.
-/
theorem condbits_sound_iff (b : U8) :
    (sDasmLut b).condbitsAffected.Allows (flags m.cpu)
        (flags (execNext (ramEnv self devices) b m).cpu) ↔
      Declared m b := by
  by_cases hb : MisdeclaredRow b
  · rw [sDasmLut_condbits, if_pos hb]
    rcases hb with rfl | rfl | rfl
    · rw [execNext_eq_exec]
      exact flags_adjust_eq_iff { m.cpu with cycles := 4, interruptDelay := false }
    · exact iff_of_false (execNext_cmc_flags self devices m) id
    · rw [execNext_popPsw_flags]
      rfl
  · have hdeclared : Declared m b := by
      unfold Declared
      split
      · exact absurd (Or.inl rfl) hb
      · exact absurd (Or.inr (Or.inl rfl)) hb
      · exact absurd (Or.inr (Or.inr rfl)) hb
      · exact trivial
    exact iff_of_true (condbits_sound (ramEnv_frames self devices) hb m) hdeclared

end Ram

/-- Complementing a clear carry, which the row of `CMC` does not declare. -/
theorem cmc_changes_carry :
    ¬ (sDasmLut 0x3F).condbitsAffected.Allows (flags zeroCpu)
      (flags (execNext (ramEnv 0 noDevices) 0x3F ⟨zeroCpu, zeroRam⟩).cpu) := by
  decide

end Dasm
end AdcLibs
