import AdcLibs.Cpu.Frames

/-!
# Plain 64 KiB memory

The handlers of a client with 64 KiB of RAM and some devices.  The memory
handlers read and write the array and nothing else; `writes` records the
addresses written, latest first, and is read by no handler.  The device
handlers may look at the cpu struct and at the memory, as those of the test
driver do, but change only the devices.
-/

namespace AdcLibs
namespace Cpu

universe u

/-- Device handlers over a device state `D`. -/
structure Devices (D : Type u) where
  read : Ptr → U8 → Adc8080Cpu → (U16 → U8) → D → U8 × D
  write : Ptr → U8 → U8 → Adc8080Cpu → (U16 → U8) → D → D

@[ext] structure Ram (D : Type u) where
  mem : U16 → U8
  dev : D
  writes : List U16

variable {D : Type u}

/-- `memory[addr] = b` -/
def Ram.put (addr : U16) (b : U8) (ram : Ram D) : Ram D :=
  { ram with mem := Function.update ram.mem addr b, writes := addr :: ram.writes }

/-- The environment of a client with plain RAM; the cpu struct lives at `self`.  Reads of
plain RAM change nothing, so their order does not matter. -/
def ramEnv (self : Ptr) (devices : Devices D) : Env (Ram D) where
  self := self
  highFirst := false
  callReadByte _ _ addr m := ⟨m.world.mem addr, m⟩
  callWriteByte _ _ addr b m := { m with world := m.world.put addr b }
  callReadDevice _ p d m :=
    ⟨(devices.read p d m.cpu m.world.mem m.world.dev).1,
      { m with world :=
        { m.world with dev := (devices.read p d m.cpu m.world.mem m.world.dev).2 } }⟩
  callWriteDevice _ p d b m :=
    { m with world :=
      { m.world with dev := devices.write p d b m.cpu m.world.mem m.world.dev } }

theorem ramEnv_frames (self : Ptr) (devices : Devices D) :
    (ramEnv self devices).Frames where
  readByte _ _ _ _ := rfl
  writeByte _ _ _ _ _ := rfl
  readDevice _ _ _ _ := rfl
  writeDevice _ _ _ _ _ := rfl

/-- Devices that read zero and ignore output. -/
def noDevices : Devices Unit where
  read _ _ _ _ _ := (0, ())
  write _ _ _ _ _ _ := ()

/-- A struct of zeros. -/
def zeroCpu : Adc8080Cpu where
  ra := 0
  rb := 0
  rc := 0
  rd := 0
  re := 0
  rh := 0
  rl := 0
  pc := 0
  sp := 0
  cfs := false
  cfz := false
  cfa := false
  cfp := false
  cfc := false
  halted := false
  inte := false
  interruptPending := false
  interruptOpcode := 0
  interruptDelay := false
  cycles := 0
  userdata := NULL
  readByte := NULL
  writeByte := NULL
  readDevice := NULL
  writeDevice := NULL

/-- A memory of `NOP`s. -/
def zeroRam : Ram Unit := ⟨fun _ => 0, (), []⟩

/-- The word at `addr` in memory. -/
def Ram.word (ram : Ram D) (addr : U16) : U16 :=
  ram.mem (addr + 1) ++ ram.mem addr

section Put

variable (ram : Ram D)

@[simp] theorem Ram.put_mem_self (addr : U16) (b : U8) : (ram.put addr b).mem addr = b := by
  simp [Ram.put]

theorem Ram.put_mem_of_ne {addr a : U16} (b : U8) (h : a ≠ addr) :
    (ram.put addr b).mem a = ram.mem a := by
  simp [Ram.put, h]

@[simp] theorem Ram.put_dev (addr : U16) (b : U8) : (ram.put addr b).dev = ram.dev := rfl

@[simp] theorem Ram.put_writes (addr : U16) (b : U8) :
    (ram.put addr b).writes = addr :: ram.writes := rfl

end Put

namespace Reference

variable (self : Ptr) (devices : Devices D)

@[simp] theorem load_ram (addr : U16) (m : Machine (Ram D)) :
    load (ramEnv self devices) addr m = ⟨m.world.mem addr, m⟩ := rfl

@[simp] theorem store_ram (addr : U16) (v : U8) (m : Machine (Ram D)) :
    store (ramEnv self devices) addr v m = ⟨m.cpu, m.world.put addr v⟩ := rfl

@[simp] theorem loadWord_ram (addr : U16) (m : Machine (Ram D)) :
    loadWord (ramEnv self devices) addr m = ⟨m.world.word addr, m⟩ := rfl

@[simp] theorem storeWord_ram (addr w : U16) (m : Machine (Ram D)) :
    storeWord (ramEnv self devices) addr w m =
      ⟨m.cpu, (m.world.put addr (w.extractLsb' 0 8)).put (addr + 1) (w.extractLsb' 8 8)⟩ :=
  rfl

@[simp] theorem fetch_ram (m : Machine (Ram D)) :
    fetch (ramEnv self devices) m =
      ⟨m.world.mem m.cpu.pc, m.onCpu fun cpu => { cpu with pc := cpu.pc + 1 }⟩ := rfl

@[simp] theorem fetchWord_ram (m : Machine (Ram D)) :
    fetchWord (ramEnv self devices) m =
      ⟨m.world.word m.cpu.pc, m.onCpu fun cpu => { cpu with pc := cpu.pc + 2 }⟩ := rfl

theorem pushWord_ram (w : U16) (m : Machine (Ram D)) :
    pushWord (ramEnv self devices) w m =
      ⟨{ m.cpu with sp := m.cpu.sp - 2 },
        (m.world.put (m.cpu.sp - 2) (w.extractLsb' 0 8)).put (m.cpu.sp - 2 + 1)
          (w.extractLsb' 8 8)⟩ := rfl

end Reference

end Cpu
end AdcLibs
