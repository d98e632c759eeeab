import AdcLibs.Cpu.State

/-!
# The operation helpers of `adc_8080_cpu.c`

The parity table filled by `adc_8080_cpu_init`, the flag macro `set_cf_zsp`,
the stack helpers and the `op_` functions, in the order of the source.
C promotes `uint8_t` operands to `int`; the results that matter below fit
in sixteen bits, so such a sum is taken in `U16` (`op_add`, `op_cmp`).
-/

namespace AdcLibs
namespace Cpu

universe u

variable {W : Type u}

/-- The ones counted by the inner loop of `adc_8080_cpu_init`. -/
def parityOnes (i : Nat) : Nat :=
  (List.range 8).foldl (fun ones b => if (i >>> b) &&& 1 == 1 then ones + 1 else ones) 0

/--
The loop of `adc_8080_cpu_init` that fills the file's parity table: entry `i`
is overwritten for every `i < 256`.
-/
def fillParityLut (lut : Vector Bool 256) : Vector Bool 256 :=
  (List.finRange 256).foldl
    (fun lut (i : Fin 256) => lut.set i (parityOnes i % 2 == 0)) lut

/-- The parity table as every later call finds it. -/
def sParityLut (v : U8) : Bool :=
  parityOnes v.toNat % 2 == 0

/-- `set_cf_zsp` -/
def setCfZsp (v : U8) (cpu : Adc8080Cpu) : Adc8080Cpu :=
  { cpu with cfs := v >>> 7 != 0, cfz := v == 0, cfp := sParityLut v }

section Stack

variable (E : Env W)

def stackPush (w : U16) (m : Machine W) : Machine W :=
  let m := m.onCpu fun cpu => { cpu with sp := cpu.sp - 2 }
  writeWord E m.cpu.sp w m

def stackPop (m : Machine W) : Ret U16 W :=
  let w := readWord E m.cpu.sp m
  ⟨w.val, w.mach.onCpu fun cpu => { cpu with sp := cpu.sp + 2 }⟩

end Stack

/-- The incremented value, and the cpu with the flags set. -/
def opInr (val : U8) (cpu : Adc8080Cpu) : U8 × Adc8080Cpu :=
  let res := val + 1
  (res, setCfZsp res { cpu with cfa := res &&& 0x0F == 0 })

def opDcr (val : U8) (cpu : Adc8080Cpu) : U8 × Adc8080Cpu :=
  let res := val - 1
  (res, setCfZsp res { cpu with cfa := !(res &&& 0x0F == 0x0F) })

def opAdd (val : U8) (c : Bool) (cpu : Adc8080Cpu) : Adc8080Cpu :=
  let sres : U16 :=
    cpu.ra.setWidth 16 + val.setWidth 16 + (BitVec.ofBool c).setWidth 16
  let res : U8 := sres.setWidth 8
  let carry := sres ^^^ cpu.ra.setWidth 16 ^^^ val.setWidth 16
  let cpu := { cpu with
    cfc := carry &&& (1 <<< 8) != 0
    cfa := carry &&& (1 <<< 4) != 0 }
  { setCfZsp res cpu with ra := res }

def opSub (val : U8) (c : Bool) (cpu : Adc8080Cpu) : Adc8080Cpu :=
  let cpu := opAdd (~~~val) (!c) cpu
  { cpu with cfc := !cpu.cfc }

def opAna (val : U8) (cpu : Adc8080Cpu) : Adc8080Cpu :=
  let result := cpu.ra &&& val
  let cpu := { cpu with cfc := false, cfa := (cpu.ra ||| val) &&& 0x08 != 0 }
  { setCfZsp result cpu with ra := result }

def opXra (val : U8) (cpu : Adc8080Cpu) : Adc8080Cpu :=
  let cpu := { cpu with ra := cpu.ra ^^^ val, cfc := false, cfa := false }
  setCfZsp cpu.ra cpu

def opOra (val : U8) (cpu : Adc8080Cpu) : Adc8080Cpu :=
  let cpu := { cpu with ra := cpu.ra ||| val, cfc := false, cfa := false }
  setCfZsp cpu.ra cpu

/-- `res >> 8` is an arithmetic shift of a signed value, stored in a `bool`. -/
def opCmp (val : U8) (cpu : Adc8080Cpu) : Adc8080Cpu :=
  let res : U16 := cpu.ra.setWidth 16 - val.setWidth 16
  let cpu := { cpu with
    cfc := res.sshiftRight 8 != 0
    cfa := ~~~(cpu.ra.setWidth 16 ^^^ res ^^^ val.setWidth 16) &&& 0x10 != 0 }
  setCfZsp ((res &&& 0xFF).setWidth 8) cpu

def opJmpCond (addr : U16) (condition : Bool) (m : Machine W) : Machine W :=
  if condition then m.onCpu fun cpu => { cpu with pc := addr } else m

section Calls

variable (E : Env W)

def opCall (addr : U16) (m : Machine W) : Machine W :=
  (stackPush E m.cpu.pc m).onCpu fun cpu => { cpu with pc := addr }

def opCallCond (addr : U16) (condition : Bool) (m : Machine W) : Machine W :=
  if condition then
    (opCall E addr m).onCpu fun cpu => { cpu with cycles := cpu.cycles + 6 }
  else m

def opRetCond (condition : Bool) (m : Machine W) : Machine W :=
  if condition then
    let w := stackPop E m
    let m := w.mach.onCpu fun cpu => { cpu with pc := w.val }
    m.onCpu fun cpu => { cpu with cycles := cpu.cycles + 6 }
  else m

end Calls

def opDad (val : U16) (cpu : Adc8080Cpu) : Adc8080Cpu :=
  let res : BitVec 32 := (getRhl cpu).setWidth 32 + val.setWidth 32
  let cpu := { cpu with cfc := res > 0xFFFF }
  setRhl ((res &&& 0xFFFF).setWidth 16) cpu

def opXchg (cpu : Adc8080Cpu) : Adc8080Cpu :=
  let tmp := getRhl cpu
  setRde tmp (setRhl (getRde cpu) cpu)

def opXthl (E : Env W) (m : Machine W) : Machine W :=
  let val := readWord E m.cpu.sp m
  let m := writeWord E val.mach.cpu.sp (getRhl val.mach.cpu) val.mach
  m.onCpu (setRhl val.val)

/-- A `bool` in an integer expression. -/
def boolToU8 (b : Bool) : U8 := (BitVec.ofBool b).setWidth 8

def opRlc (cpu : Adc8080Cpu) : Adc8080Cpu :=
  let cpu := { cpu with cfc := cpu.ra >>> 7 != 0 }
  { cpu with ra := cpu.ra <<< 1 ||| boolToU8 cpu.cfc }

def opRrc (cpu : Adc8080Cpu) : Adc8080Cpu :=
  let cpu := { cpu with cfc := cpu.ra &&& 1 != 0 }
  { cpu with ra := cpu.ra >>> 1 ||| boolToU8 cpu.cfc <<< 7 }

def opRal (cpu : Adc8080Cpu) : Adc8080Cpu :=
  let carrybit := cpu.cfc
  let cpu := { cpu with cfc := cpu.ra >>> 7 != 0 }
  { cpu with ra := cpu.ra <<< 1 ||| boolToU8 carrybit }

def opRar (cpu : Adc8080Cpu) : Adc8080Cpu :=
  let carrybit := cpu.cfc
  let cpu := { cpu with cfc := cpu.ra &&& 1 != 0 }
  { cpu with ra := cpu.ra >>> 1 ||| boolToU8 carrybit <<< 7 }

/-- The flag byte that `op_push_psw` assembles. -/
def pswByte (cpu : Adc8080Cpu) : U8 :=
  boolToU8 cpu.cfs <<< 7 ||| boolToU8 cpu.cfz <<< 6 ||| boolToU8 cpu.cfa <<< 4 |||
    boolToU8 cpu.cfp <<< 2 ||| (1 : U8) <<< 1 ||| boolToU8 cpu.cfc <<< 0

def opPushPsw (E : Env W) (m : Machine W) : Machine W :=
  stackPush E (wordFromBytes m.cpu.ra (pswByte m.cpu)) m

/-- What `op_pop_psw` does with the popped word. -/
def setPsw (w : U16) (cpu : Adc8080Cpu) : Adc8080Cpu :=
  let a := (bytesFromWord w).1
  let psw := (bytesFromWord w).2
  { cpu with
    ra := a
    cfs := (psw >>> 7) &&& 1 != 0
    cfz := (psw >>> 6) &&& 1 != 0
    cfa := (psw >>> 4) &&& 1 != 0
    cfp := (psw >>> 2) &&& 1 != 0
    cfc := (psw >>> 0) &&& 1 != 0 }

def opPopPsw (E : Env W) (m : Machine W) : Machine W :=
  let w := stackPop E m
  w.mach.onCpu (setPsw w.val)

def opDaa (cpu : Adc8080Cpu) : Adc8080Cpu :=
  let lownib := cpu.ra &&& 0x0F
  let highnib := cpu.ra >>> 4
  let carrybit := cpu.cfc
  let addition : U8 := 0
  let addition := if lownib > 9 || cpu.cfa then addition + 0x06 else addition
  let high := highnib > 9 || cpu.cfc || (highnib ≥ 9 && lownib > 9)
  let addition := if high then addition + 0x60 else addition
  let carrybit := if high then true else carrybit
  { opAdd addition false cpu with cfc := carrybit }

end Cpu
end AdcLibs
