import AdcLibs.Cpu.Calls

/-!
# Forgetting part of the world

When the handlers of one environment do the same as those of another on the
part of the world that both have, then so do instructions, steps and sequences
of calls.  A world with a log can therefore be used to talk about a world
without one.
-/

namespace AdcLibs
namespace Cpu

universe u v

open Reference

variable {W : Type u} {W' : Type v}

/-- The machine over the part `φ` of its world. -/
def Machine.map (φ : W' → W) (m : Machine W') : Machine W :=
  ⟨m.cpu, φ m.world⟩

def Ret.map {α : Type} (φ : W' → W) (r : Ret α W') : Ret α W :=
  ⟨r.val, r.mach.map φ⟩

@[simp] theorem Machine.map_cpu (φ : W' → W) (m : Machine W') : (m.map φ).cpu = m.cpu := rfl

@[simp] theorem Machine.map_onCpu (φ : W' → W) (m : Machine W')
    (f : Adc8080Cpu → Adc8080Cpu) : (m.map φ).onCpu f = (m.onCpu f).map φ := rfl

@[simp] theorem Ret.map_val {α : Type} (φ : W' → W) (r : Ret α W') :
    (r.map φ).val = r.val := rfl

@[simp] theorem Ret.map_mach {α : Type} (φ : W' → W) (r : Ret α W') :
    (r.map φ).mach = r.mach.map φ := rfl

/-- The handlers of `E'` do on the part `φ` of the world what those of `E` do. -/
structure Env.Projects (φ : W' → W) (E' : Env W') (E : Env W) : Prop where
  self : E.self = E'.self
  highFirst : E.highFirst = E'.highFirst
  readByte : ∀ f p a m, E.callReadByte f p a (m.map φ) = (E'.callReadByte f p a m).map φ
  writeByte : ∀ f p a b m,
    E.callWriteByte f p a b (m.map φ) = (E'.callWriteByte f p a b m).map φ
  readDevice : ∀ f p d m, E.callReadDevice f p d (m.map φ) = (E'.callReadDevice f p d m).map φ
  writeDevice : ∀ f p d b m,
    E.callWriteDevice f p d b (m.map φ) = (E'.callWriteDevice f p d b m).map φ

section Projects

variable {φ : W' → W} {E' : Env W'} {E : Env W} (h : Env.Projects φ E' E)
include h

namespace Reference

theorem load_map (addr : U16) (m : Machine W') :
    load E addr (m.map φ) = (load E' addr m).map φ :=
  h.readByte _ _ _ _

theorem store_map (addr : U16) (v : U8) (m : Machine W') :
    store E addr v (m.map φ) = (store E' addr v m).map φ :=
  h.writeByte _ _ _ _ _

theorem loadWord_map (addr : U16) (m : Machine W') :
    loadWord E addr (m.map φ) = (loadWord E' addr m).map φ := by
  simp only [loadWord, load_map h, Ret.map_val, Ret.map_mach, h.highFirst]
  split <;> rfl

theorem storeWord_map (addr w : U16) (m : Machine W') :
    storeWord E addr w (m.map φ) = (storeWord E' addr w m).map φ := by
  simp only [storeWord, store_map h]

theorem fetch_map (m : Machine W') : fetch E (m.map φ) = (fetch E' m).map φ := by
  simp only [fetch, Machine.map_cpu, Machine.map_onCpu, load_map h]

theorem fetchWord_map (m : Machine W') :
    fetchWord E (m.map φ) = (fetchWord E' m).map φ := by
  simp only [fetchWord, Machine.map_cpu, loadWord_map h, Ret.map_val, Ret.map_mach]
  rfl

theorem pushWord_map (w : U16) (m : Machine W') :
    pushWord E w (m.map φ) = (pushWord E' w m).map φ := by
  simp only [pushWord, Machine.map_onCpu, Machine.map_cpu, storeWord_map h]

theorem popWord_map (m : Machine W') : popWord E (m.map φ) = (popWord E' m).map φ := by
  simp only [popWord, Machine.map_cpu, loadWord_map h, Ret.map_val, Ret.map_mach]
  rfl

theorem Loc.load_map (loc : Loc) (m : Machine W') :
    loc.load E (m.map φ) = (loc.load E' m).map φ := by
  cases loc with
  | reg r => rfl
  | «at» addr => exact Reference.load_map h addr m

theorem Loc.store_map (loc : Loc) (v : U8) (m : Machine W') :
    loc.store E v (m.map φ) = (loc.store E' v m).map φ := by
  cases loc with
  | reg r => rfl
  | «at» addr => exact Reference.store_map h addr v m

theorem callTo_map (addr : U16) (m : Machine W') :
    callTo E addr (m.map φ) = (callTo E' addr m).map φ := by
  simp only [callTo, goto, Machine.map_cpu, pushWord_map h, Machine.map_onCpu]

theorem returnTo_map (m : Machine W') :
    returnTo E (m.map φ) = (returnTo E' m).map φ := by
  simp only [returnTo, goto, popWord_map h, Ret.map_val, Ret.map_mach, Machine.map_onCpu]

/-- An instruction does the same on the part of the world. -/
theorem Instr.exec_map (i : Instr) (m : Machine W') :
    i.exec E (m.map φ) = (i.exec E' m).map φ := by
  cases i with
  | nop | hlt | ei | di | stc | cmc | cma | rlc | rrc | ral | rar | daa | pchl | sphl | xchg => rfl
  | inx p | dcx p | dad p => rfl
  | mov d s | inr d | dcr d =>
      simp only [Instr.exec, Machine.map_cpu, Loc.load_map h, Ret.map_val, Ret.map_mach,
        Machine.map_onCpu, Loc.store_map h]
  | mvi d =>
      simp only [Instr.exec, Machine.map_cpu, fetch_map h, Ret.map_val, Ret.map_mach,
        Loc.store_map h]
  | alu op s =>
      simp only [Instr.exec, Machine.map_cpu, Loc.load_map h, Ret.map_val, Ret.map_mach,
        Machine.map_onCpu]
  | aluImm op =>
      simp only [Instr.exec, fetch_map h, Ret.map_val, Ret.map_mach, Machine.map_onCpu]
  | lxi p =>
      simp only [Instr.exec, fetchWord_map h, Ret.map_val, Ret.map_mach, Machine.map_onCpu]
  | push p => exact pushWord_map h _ m
  | pop p => simp only [Instr.exec, popWord_map h, Ret.map_val, Ret.map_mach, Machine.map_onCpu]
  | stax p => exact store_map h _ _ m
  | ldax p =>
      simp only [Instr.exec, Machine.map_cpu, load_map h, Ret.map_val, Ret.map_mach,
        Machine.map_onCpu]
  | sta =>
      simp only [Instr.exec, fetchWord_map h, Ret.map_val, Ret.map_mach, Machine.map_cpu,
        store_map h]
  | lda =>
      simp only [Instr.exec, fetchWord_map h, load_map h, Ret.map_val, Ret.map_mach,
        Machine.map_onCpu]
  | shld =>
      simp only [Instr.exec, fetchWord_map h, Ret.map_val, Ret.map_mach, Machine.map_cpu,
        storeWord_map h]
  | lhld =>
      simp only [Instr.exec, fetchWord_map h, loadWord_map h, Ret.map_val, Ret.map_mach,
        Machine.map_onCpu]
  | jmp =>
      simp only [Instr.exec, fetchWord_map h, Ret.map_val, Ret.map_mach]
      rfl
  | jmpCond cc =>
      simp only [Instr.exec, fetchWord_map h, Ret.map_val, Ret.map_mach, Machine.map_cpu]
      split <;> rfl
  | call => simp only [Instr.exec, fetchWord_map h, Ret.map_val, Ret.map_mach, callTo_map h]
  | callCond cc =>
      simp only [Instr.exec, fetchWord_map h, Ret.map_val, Ret.map_mach, Machine.map_cpu,
        callTo_map h]
      split <;> rfl
  | ret => exact returnTo_map h m
  | retCond cc =>
      simp only [Instr.exec, Machine.map_cpu, returnTo_map h]
      split <;> rfl
  | rst n => exact callTo_map h _ m
  | xthl =>
      simp only [Instr.exec, Machine.map_cpu, loadWord_map h, Ret.map_val, Ret.map_mach,
        storeWord_map h, Machine.map_onCpu]
  | inp =>
      simp only [Instr.exec, fetch_map h, Ret.map_val, Ret.map_mach, Machine.map_cpu, h.self,
        h.readDevice, Machine.map_onCpu]
  | out =>
      simp only [Instr.exec, fetch_map h, Ret.map_val, Ret.map_mach, Machine.map_cpu, h.self,
        h.writeDevice]

end Reference

theorem execNext_map (op : U8) (m : Machine W') :
    execNext E op (m.map φ) = (execNext E' op m).map φ := by
  simp only [execNext_eq_exec, Reference.exec, Machine.map_onCpu, Instr.exec_map h]

theorem stepBody_map (m : Machine W') : stepBody E (m.map φ) = (stepBody E' m).map φ := by
  have hfetch : nextByte E (m.map φ) = (nextByte E' m).map φ := fetch_map h m
  simp only [stepBody, stepBodyWith, fetchers_nextByte, execNextWith_fetchers, hfetch,
    execNext_map h, Machine.map_onCpu, Machine.map_cpu, Ret.map]
  split
  · simp only [Machine.map_cpu, Machine.map_onCpu]
  · split <;> simp only [Machine.map_cpu, Machine.map_onCpu]

theorem adc8080CpuStep_map (m : Machine W') :
    adc8080CpuStep E (m.map φ) = (adc8080CpuStep E' m).map (Ret.map φ) := by
  simp only [adc8080CpuStep, Machine.map_cpu, stepBody_map h]
  split <;> rfl

end Projects

end Cpu
end AdcLibs
