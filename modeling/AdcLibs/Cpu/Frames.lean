import AdcLibs.Cpu.Refinement

/-!
# Handlers that leave the cpu struct alone

Under `Env.Frames` a memory or device access changes nothing of the cpu
struct, so every access of the reference interpreter has a known effect on it.
-/

namespace AdcLibs
namespace Cpu

universe u

namespace Reference

variable {W : Type u} {E : Env W} (hE : E.Frames)
include hE

@[simp] theorem load_cpu (addr : U16) (m : Machine W) :
    (load E addr m).mach.cpu = m.cpu :=
  hE.readByte _ _ _ _

@[simp] theorem store_cpu (addr : U16) (v : U8) (m : Machine W) :
    (store E addr v m).cpu = m.cpu :=
  hE.writeByte _ _ _ _ _

@[simp] theorem loadWord_cpu (addr : U16) (m : Machine W) :
    (loadWord E addr m).mach.cpu = m.cpu := by
  cases h : E.highFirst <;> simp [loadWord, h, hE]

@[simp] theorem storeWord_cpu (addr w : U16) (m : Machine W) :
    (storeWord E addr w m).cpu = m.cpu := by
  simp [storeWord, hE]

@[simp] theorem fetch_cpu (m : Machine W) :
    (fetch E m).mach.cpu = { m.cpu with pc := m.cpu.pc + 1 } := by
  simp [fetch, hE]

@[simp] theorem fetchWord_cpu (m : Machine W) :
    (fetchWord E m).mach.cpu = { m.cpu with pc := m.cpu.pc + 2 } := by
  simp [fetchWord, hE]

@[simp] theorem pushWord_cpu (w : U16) (m : Machine W) :
    (pushWord E w m).cpu = { m.cpu with sp := m.cpu.sp - 2 } := by
  simp [pushWord, hE]

@[simp] theorem popWord_cpu (m : Machine W) :
    (popWord E m).mach.cpu = { m.cpu with sp := m.cpu.sp + 2 } := by
  simp [popWord, hE]

@[simp] theorem Loc.load_cpu (loc : Loc) (m : Machine W) :
    (loc.load E m).mach.cpu = m.cpu := by
  cases loc with
  | reg r => rfl
  | «at» addr => exact Reference.load_cpu hE addr m

/-- Storing to a location changes the cpu struct by at most a register. -/
theorem Loc.store_cpu (loc : Loc) (v : U8) (m : Machine W) :
    (loc.store E v m).cpu = m.cpu ∨ ∃ r : Reg, (loc.store E v m).cpu = r.set v m.cpu := by
  cases loc with
  | reg r => exact Or.inr ⟨r, rfl⟩
  | «at» addr => exact Or.inl (Reference.store_cpu hE addr v m)

end Reference

section Begun

open Reference

variable {W : Type u}

/-- The machine in which the instruction of an opcode byte does its work. -/
def begun (op : U8) (m : Machine W) : Machine W :=
  m.onCpu fun cpu => { cpu with cycles := (decode op).cycles, interruptDelay := false }

theorem execNext_begun (E : Env W) (op : U8) (m : Machine W) :
    execNext E op m = (decode op).exec E (begun op m) :=
  execNext_eq_exec E op m

end Begun

end Cpu
end AdcLibs
