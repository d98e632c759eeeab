import AdcLibs.Cpu.Init
import AdcLibs.Cpu.RamSteps
import AdcLibs.Library.Loops

/-!
# The test driver `8080_cpu_test.c`

`run_test` puts a program into 64 KiB of memory at 0x100 with two small pieces of code
below it, which stand for the warm boot and for the system calls of CP/M, and steps the
cpu until the program is complete.

* The file is there and fits above 0x100; the messages about a file that cannot be read
  are left out.
* The output is what the program prints.  A handler that does not return leaves the
  console stuck.
-/

namespace AdcLibs
namespace Cpu

open Loops

/-- What the handlers of the driver change besides `s_memory`. -/
structure Console where
  output : List U8
  /-- `s_test_complete` -/
  testComplete : Bool
  stuck : Bool
deriving DecidableEq, Repr

/-- `'$'` -/
def dollar : U8 := 0x24

/-! ## Handlers -/

/-- The loop that prints a string: its address, and what is printed. -/
structure Printing where
  addr : U16
  printed : List U8

def printCond (mem : U16 → U8) (s : Printing) : Bool := mem s.addr != dollar

def printBody (mem : U16 → U8) (s : Printing) : Printing :=
  ⟨s.addr + 1, s.printed ++ [mem s.addr]⟩

/-- The printing of a string; it can test each address, and the first one again. -/
def printString (mem : U16 → U8) (addr : U16) (output : List U8) : Option (List U8) :=
  (whileFuel (printCond mem) (printBody mem) (2 ^ 16 + 1) ⟨addr, output⟩).map Printing.printed

/-- `handle_device_write` -/
def handleDeviceWrite (device : U8) (cpu : Adc8080Cpu) (mem : U16 → U8) (console : Console) :
    Console :=
  if device = 0 then { console with testComplete := true }
  else if device = 1 then
    let operation := cpu.rc
    if operation = 2 then { console with output := console.output ++ [cpu.re] }
    else if operation = 9 then
      match printString mem (getRde cpu) console.output with
      | some output => { console with output := output }
      | none => { console with stuck := true }
    else console
  else console

/-- `handle_device_read` and `handle_device_write` -/
def testDevices : Devices Console where
  read _ _ _ _ console := (0, console)
  write _ device _ cpu mem console := handleDeviceWrite device cpu mem console

/-! ## Memory -/

/-- A file that fits into the memory above 0x100. -/
structure Rom where
  bytes : List U8
  fits : bytes.length ≤ 0xFF00

/-- The memory of zeros with the code that is injected. -/
def injectedMemory (addr : U16) : U8 :=
  if addr = 0x0000 then 0xD3 -- OUT 0
  else if addr = 0x0001 then 0x00
  else if addr = 0x0005 then 0xD3 -- OUT 1
  else if addr = 0x0006 then 0x01
  else if addr = 0x0007 then 0xC9 -- RET
  else 0

/-- `s_memory` with the program. -/
def Rom.memory (rom : Rom) (addr : U16) : U8 :=
  if 0x100 ≤ addr.toNat then rom.bytes.getD (addr.toNat - 0x100) 0 else injectedMemory addr

/-! ## The test -/

/-- The cpu with the memory and the console, and `cycle_count`. -/
structure Bench where
  mach : Machine (Ram Console)
  cycleCount : BitVec 64

/-- What the driver assigns to the cpu at the address `self`.  Of the addresses of its
handlers only that they are not `NULL` is used. -/
def testClient (self : Ptr) : Client where
  userdata := self
  readByte := 1
  writeByte := 2
  readDevice := 3
  writeDevice := 4
  pc := 0x100

/-- What `run_test` reports: what the program prints, `cycle_count`, which is printed after a
failure beside the expected cycles, and the verdict, where it is defined. -/
structure TestReport where
  output : List U8
  cycleCount : BitVec 64
  verdict : Option Bool
deriving DecidableEq, Repr

section Driver

variable (self : Ptr)

/-- The bench before the first step; `prior` is what the cpu struct held before. -/
def testStart (prior : Adc8080Cpu) (rom : Rom) : Bench :=
  ⟨⟨boot prior (testClient self), ⟨rom.memory, ⟨[], false, false⟩, []⟩⟩, 0⟩

/-- The condition of the loop of `run_test`. -/
def testCond (s : Bench) : Bool := !s.mach.world.dev.testComplete

/-- The body of the loop of `run_test`.  A stuck console and a failed assertion do not go
on. -/
def testBody (s : Bench) : Bench :=
  if s.mach.world.dev.stuck then s
  else
    match adc8080CpuStep (ramEnv self testDevices) s.mach with
    | some r => ⟨r.mach, s.cycleCount + BitVec.ofInt 64 r.val⟩
    | none => s

/-- `llabs`; it is undefined at its smallest argument. -/
def llabs (d : BitVec 64) : Option (BitVec 64) :=
  if d = BitVec.intMin 64 then none else some (if d.slt 0 then -d else d)

/-- The verdict of `run_test` on a number of cycles, where it is defined. -/
def passed (expectedCycles cycleCount : BitVec 64) : Option Bool :=
  (llabs (expectedCycles - cycleCount)).map fun diff => !(0 : BitVec 64).slt diff

/-- `run_test`, with at most `fuel` tests of its loop. -/
def runTest (fuel : Nat) (prior : Adc8080Cpu) (rom : Rom) (expectedCycles : BitVec 64) :
    Option TestReport :=
  (whileFuel testCond (testBody self) fuel (testStart self prior rom)).map fun s =>
    ⟨s.mach.world.dev.output, s.cycleCount, passed expectedCycles s.cycleCount⟩

end Driver

end Cpu
end AdcLibs
