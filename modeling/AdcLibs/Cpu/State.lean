import Mathlib.Tactic.Common

/-!
# The 8080 machine: the cpu struct, its handlers and the memory helpers

This module embeds the data model of `adc_8080_cpu.h` and the byte and word
helpers at the top of `adc_8080_cpu.c`.

* The struct `adc_8080_cpu` is a flat record.  `uint8_t` and `uint16_t` are
  bit vectors of that width, and a pointer is its address (`NULL` is `0`).
* The four handlers are function pointers of the struct.  What the functions
  at those addresses do is an `Env`: a handler receives its first argument, the
  other arguments and the whole machine, so it may read the cpu struct (the
  test driver's output handler does) and nothing stops it from writing it.
  `Env.Frames` says that no handler modifies the struct.
* `world` is everything outside the struct: memory, devices, logs.

C leaves open in which order `read_word` reads its two bytes; the order is a
field of the `Env`.  No other unspecified order shows, unless a handler writes the
struct; there the arguments are evaluated from left to right.
-/

namespace AdcLibs
namespace Cpu

universe u

abbrev U8 := BitVec 8
abbrev U16 := BitVec 16

/-- A C pointer, by its address. -/
abbrev Ptr := Nat

def NULL : Ptr := 0

/-- The struct `adc_8080_cpu`. -/
@[ext] structure Adc8080Cpu where
  ra : U8
  rb : U8
  rc : U8
  rd : U8
  re : U8
  rh : U8
  rl : U8
  pc : U16
  sp : U16
  cfs : Bool
  cfz : Bool
  cfa : Bool
  cfp : Bool
  cfc : Bool
  halted : Bool
  inte : Bool
  interruptPending : Bool
  interruptOpcode : U8
  interruptDelay : Bool
  cycles : Int
  userdata : Ptr
  readByte : Ptr
  writeByte : Ptr
  readDevice : Ptr
  writeDevice : Ptr
deriving DecidableEq, Repr

/-- The cpu struct together with everything outside it. -/
@[ext] structure Machine (W : Type u) where
  cpu : Adc8080Cpu
  world : W

/-- The value a C function returns, with the machine it leaves. -/
@[ext] structure Ret (α : Type) (W : Type u) where
  val : α
  mach : Machine W

/--
The code outside the library: the address of the cpu struct, what the function
at each handler address does when called with the given arguments, and whether
the compiled `read_word` reads the high byte first.
-/
structure Env (W : Type u) where
  self : Ptr
  highFirst : Bool
  callReadByte : Ptr → Ptr → U16 → Machine W → Ret U8 W
  callWriteByte : Ptr → Ptr → U16 → U8 → Machine W → Machine W
  callReadDevice : Ptr → Ptr → U8 → Machine W → Ret U8 W
  callWriteDevice : Ptr → Ptr → U8 → U8 → Machine W → Machine W

/-- No handler modifies the cpu struct. -/
structure Env.Frames {W : Type u} (E : Env W) : Prop where
  readByte : ∀ f p a m, (E.callReadByte f p a m).mach.cpu = m.cpu
  writeByte : ∀ f p a b m, (E.callWriteByte f p a b m).cpu = m.cpu
  readDevice : ∀ f p d m, (E.callReadDevice f p d m).mach.cpu = m.cpu
  writeDevice : ∀ f p d b m, (E.callWriteDevice f p d b m).cpu = m.cpu

variable {W : Type u}

/-- Change the cpu struct and nothing else. -/
def Machine.onCpu (m : Machine W) (f : Adc8080Cpu → Adc8080Cpu) : Machine W :=
  { m with cpu := f m.cpu }

@[simp] theorem Machine.onCpu_cpu (m : Machine W) (f : Adc8080Cpu → Adc8080Cpu) :
    (m.onCpu f).cpu = f m.cpu := rfl

@[simp] theorem Machine.onCpu_world (m : Machine W) (f : Adc8080Cpu → Adc8080Cpu) :
    (m.onCpu f).world = m.world := rfl

theorem Machine.onCpu_congr {m : Machine W} {f g : Adc8080Cpu → Adc8080Cpu}
    (h : f m.cpu = g m.cpu) : m.onCpu f = m.onCpu g := by
  simp only [Machine.onCpu, h]

section Helpers

variable (E : Env W)

def wordFromBytes (high low : U8) : U16 :=
  high.setWidth 16 <<< 8 ||| low.setWidth 16

/-- The bytes `(high, low)` of a word. -/
def bytesFromWord (w : U16) : U8 × U8 :=
  ((w >>> 8).setWidth 8, (w &&& 0xFF).setWidth 8)

def readByte (addr : U16) (m : Machine W) : Ret U8 W :=
  E.callReadByte m.cpu.readByte m.cpu.userdata addr m

/-- The arguments of `word_from_bytes` are evaluated in one order or the other. -/
def readWord (addr : U16) (m : Machine W) : Ret U16 W :=
  if E.highFirst then
    let high := E.callReadByte m.cpu.readByte m.cpu.userdata (addr + 1) m
    let low := E.callReadByte high.mach.cpu.readByte high.mach.cpu.userdata addr high.mach
    ⟨wordFromBytes high.val low.val, low.mach⟩
  else
    let low := E.callReadByte m.cpu.readByte m.cpu.userdata addr m
    let high := E.callReadByte low.mach.cpu.readByte low.mach.cpu.userdata (addr + 1) low.mach
    ⟨wordFromBytes high.val low.val, high.mach⟩

def writeByte (addr : U16) (b : U8) (m : Machine W) : Machine W :=
  E.callWriteByte m.cpu.writeByte m.cpu.userdata addr b m

def writeWord (addr : U16) (w : U16) (m : Machine W) : Machine W :=
  let m := E.callWriteByte m.cpu.writeByte m.cpu.userdata addr ((w &&& 0xFF).setWidth 8) m
  E.callWriteByte m.cpu.writeByte m.cpu.userdata (addr + 1) ((w >>> 8).setWidth 8) m

/-- `cpu->pc++` is complete before the handler runs. -/
def nextByte (m : Machine W) : Ret U8 W :=
  readByte E m.cpu.pc (m.onCpu fun cpu => { cpu with pc := cpu.pc + 1 })

/-- The pc is advanced only after both bytes are read. -/
def nextWord (m : Machine W) : Ret U16 W :=
  let w := readWord E m.cpu.pc m
  ⟨w.val, w.mach.onCpu fun cpu => { cpu with pc := cpu.pc + 2 }⟩

end Helpers

/-- The two helpers that read at pc, as a step calls them. -/
structure Fetchers (W : Type u) where
  nextByte : Machine W → Ret U8 W
  nextWord : Machine W → Ret U16 W

def fetchers (E : Env W) : Fetchers W :=
  ⟨nextByte E, nextWord E⟩

@[simp] theorem fetchers_nextByte (E : Env W) (m : Machine W) :
    (fetchers E).nextByte m = nextByte E m := rfl

def getRbc (cpu : Adc8080Cpu) : U16 := wordFromBytes cpu.rb cpu.rc
def getRde (cpu : Adc8080Cpu) : U16 := wordFromBytes cpu.rd cpu.re
def getRhl (cpu : Adc8080Cpu) : U16 := wordFromBytes cpu.rh cpu.rl

def setRbc (w : U16) (cpu : Adc8080Cpu) : Adc8080Cpu :=
  { cpu with rb := (bytesFromWord w).1, rc := (bytesFromWord w).2 }

def setRde (w : U16) (cpu : Adc8080Cpu) : Adc8080Cpu :=
  { cpu with rd := (bytesFromWord w).1, re := (bytesFromWord w).2 }

def setRhl (w : U16) (cpu : Adc8080Cpu) : Adc8080Cpu :=
  { cpu with rh := (bytesFromWord w).1, rl := (bytesFromWord w).2 }

end Cpu
end AdcLibs
