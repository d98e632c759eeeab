import AdcLibs.Cpu.Ops

/-!
# Decoding and executing: `exec_next` and the public functions

The 256-way switch of `exec_next`, case by case in the order of the source,
and `adc_8080_cpu_init`, `adc_8080_cpu_step` and `adc_8080_cpu_interrupt`.
-/

namespace AdcLibs
namespace Cpu

universe u

variable {W : Type u}

/-- The rows of `s_cycles_lut`. -/
def sCyclesRows : List Int :=
  [
    4, 10, 7, 5, 5, 5, 7, 4, 4, 10, 7, 5, 5, 5, 7, 4,
    4, 10, 7, 5, 5, 5, 7, 4, 4, 10, 7, 5, 5, 5, 7, 4,
    4, 10, 16, 5, 5, 5, 7, 4, 4, 10, 16, 5, 5, 5, 7, 4,
    4, 10, 13, 5, 10, 10, 10, 4, 4, 10, 13, 5, 5, 5, 7, 4,
    5, 5, 5, 5, 5, 5, 7, 5, 5, 5, 5, 5, 5, 5, 7, 5,
    5, 5, 5, 5, 5, 5, 7, 5, 5, 5, 5, 5, 5, 5, 7, 5,
    5, 5, 5, 5, 5, 5, 7, 5, 5, 5, 5, 5, 5, 5, 7, 5,
    7, 7, 7, 7, 7, 7, 7, 7, 5, 5, 5, 5, 5, 5, 7, 5,
    4, 4, 4, 4, 4, 4, 7, 4, 4, 4, 4, 4, 4, 4, 7, 4,
    4, 4, 4, 4, 4, 4, 7, 4, 4, 4, 4, 4, 4, 4, 7, 4,
    4, 4, 4, 4, 4, 4, 7, 4, 4, 4, 4, 4, 4, 4, 7, 4,
    4, 4, 4, 4, 4, 4, 7, 4, 4, 4, 4, 4, 4, 4, 7, 4,
    5, 10, 10, 10, 11, 11, 7, 11, 5, 10, 10, 10, 11, 17, 7, 11,
    5, 10, 10, 10, 11, 11, 7, 11, 5, 10, 10, 10, 11, 17, 7, 11,
    5, 10, 10, 18, 11, 11, 7, 11, 5, 5, 10, 4, 11, 17, 7, 11,
    5, 10, 10, 4, 11, 11, 7, 11, 5, 5, 10, 4, 11, 17, 7, 11
  ]

def sCyclesLut (opcode : U8) : Int :=
  sCyclesRows.getD opcode.toNat 0

section

variable (E : Env W)

/-- The switch of `exec_next`. -/
def execSwitch (F : Fetchers W) (opcode : U8) (m : Machine W) : Machine W :=
  match opcode with
  -- Carry bit ops
  | 0x37 => m.onCpu fun cpu => { cpu with cfc := true } -- STC
  | 0x3F => m.onCpu fun cpu => { cpu with cfc := !cpu.cfc } -- CMC
  -- Single register ops
  | 0x04 => m.onCpu fun cpu => { (opInr cpu.rb cpu).2 with rb := (opInr cpu.rb cpu).1 } -- INR B
  | 0x05 => m.onCpu fun cpu => { (opDcr cpu.rb cpu).2 with rb := (opDcr cpu.rb cpu).1 } -- DCR B
  | 0x0C => m.onCpu fun cpu => { (opInr cpu.rc cpu).2 with rc := (opInr cpu.rc cpu).1 } -- INR C
  | 0x0D => m.onCpu fun cpu => { (opDcr cpu.rc cpu).2 with rc := (opDcr cpu.rc cpu).1 } -- DCR C
  | 0x14 => m.onCpu fun cpu => { (opInr cpu.rd cpu).2 with rd := (opInr cpu.rd cpu).1 } -- INR D
  | 0x15 => m.onCpu fun cpu => { (opDcr cpu.rd cpu).2 with rd := (opDcr cpu.rd cpu).1 } -- DCR D
  | 0x1C => m.onCpu fun cpu => { (opInr cpu.re cpu).2 with re := (opInr cpu.re cpu).1 } -- INR E
  | 0x1D => m.onCpu fun cpu => { (opDcr cpu.re cpu).2 with re := (opDcr cpu.re cpu).1 } -- DCR E
  | 0x24 => m.onCpu fun cpu => { (opInr cpu.rh cpu).2 with rh := (opInr cpu.rh cpu).1 } -- INR H
  | 0x25 => m.onCpu fun cpu => { (opDcr cpu.rh cpu).2 with rh := (opDcr cpu.rh cpu).1 } -- DCR H
  | 0x2C => m.onCpu fun cpu => { (opInr cpu.rl cpu).2 with rl := (opInr cpu.rl cpu).1 } -- INR L
  | 0x2D => m.onCpu fun cpu => { (opDcr cpu.rl cpu).2 with rl := (opDcr cpu.rl cpu).1 } -- DCR L
  | 0x34 => -- INR M
      let addr := getRhl m.cpu
      let b := readByte E (getRhl m.cpu) m
      let res := opInr b.val b.mach.cpu
      writeByte E addr res.1 (b.mach.onCpu fun _ => res.2)
  | 0x35 => -- DCR M
      let addr := getRhl m.cpu
      let b := readByte E (getRhl m.cpu) m
      let res := opDcr b.val b.mach.cpu
      writeByte E addr res.1 (b.mach.onCpu fun _ => res.2)
  | 0x3C => m.onCpu fun cpu => { (opInr cpu.ra cpu).2 with ra := (opInr cpu.ra cpu).1 } -- INR A
  | 0x3D => m.onCpu fun cpu => { (opDcr cpu.ra cpu).2 with ra := (opDcr cpu.ra cpu).1 } -- DCR A
  | 0x2F => m.onCpu fun cpu => { cpu with ra := ~~~cpu.ra } -- CMA
  | 0x27 => m.onCpu opDaa -- DAA
  -- NOP ops
  | 0x00 -- NOP
  | 0x08 -- *NOP
  | 0x10 -- *NOP
  | 0x18 -- *NOP
  | 0x20 -- *NOP
  | 0x28 -- *NOP
  | 0x30 -- *NOP
  | 0x38 => m -- *NOP
  -- Data transfer ops
  | 0x40 => m -- MOV B,B
  | 0x41 => m.onCpu fun cpu => { cpu with rb := cpu.rc } -- MOV B,C
  | 0x42 => m.onCpu fun cpu => { cpu with rb := cpu.rd } -- MOV B,D
  | 0x43 => m.onCpu fun cpu => { cpu with rb := cpu.re } -- MOV B,E
  | 0x44 => m.onCpu fun cpu => { cpu with rb := cpu.rh } -- MOV B,H
  | 0x45 => m.onCpu fun cpu => { cpu with rb := cpu.rl } -- MOV B,L
  | 0x46 => -- MOV B,M
      let b := readByte E (getRhl m.cpu) m
      b.mach.onCpu fun cpu => { cpu with rb := b.val }
  | 0x47 => m.onCpu fun cpu => { cpu with rb := cpu.ra } -- MOV B,A
  | 0x48 => m.onCpu fun cpu => { cpu with rc := cpu.rb } -- MOV C,B
  | 0x49 => m -- MOV C,C
  | 0x4A => m.onCpu fun cpu => { cpu with rc := cpu.rd } -- MOV C,D
  | 0x4B => m.onCpu fun cpu => { cpu with rc := cpu.re } -- MOV C,E
  | 0x4C => m.onCpu fun cpu => { cpu with rc := cpu.rh } -- MOV C,H
  | 0x4D => m.onCpu fun cpu => { cpu with rc := cpu.rl } -- MOV C,L
  | 0x4E => -- MOV C,M
      let b := readByte E (getRhl m.cpu) m
      b.mach.onCpu fun cpu => { cpu with rc := b.val }
  | 0x4F => m.onCpu fun cpu => { cpu with rc := cpu.ra } -- MOV C,A
  | 0x50 => m.onCpu fun cpu => { cpu with rd := cpu.rb } -- MOV D,B
  | 0x51 => m.onCpu fun cpu => { cpu with rd := cpu.rc } -- MOV D,C
  | 0x52 => m -- MOV D,D
  | 0x53 => m.onCpu fun cpu => { cpu with rd := cpu.re } -- MOV D,E
  | 0x54 => m.onCpu fun cpu => { cpu with rd := cpu.rh } -- MOV D,H
  | 0x55 => m.onCpu fun cpu => { cpu with rd := cpu.rl } -- MOV D,L
  | 0x56 => -- MOV D,M
      let b := readByte E (getRhl m.cpu) m
      b.mach.onCpu fun cpu => { cpu with rd := b.val }
  | 0x57 => m.onCpu fun cpu => { cpu with rd := cpu.ra } -- MOV D,A
  | 0x58 => m.onCpu fun cpu => { cpu with re := cpu.rb } -- MOV E,B
  | 0x59 => m.onCpu fun cpu => { cpu with re := cpu.rc } -- MOV E,C
  | 0x5A => m.onCpu fun cpu => { cpu with re := cpu.rd } -- MOV E,D
  | 0x5B => m -- MOV E,E
  | 0x5C => m.onCpu fun cpu => { cpu with re := cpu.rh } -- MOV E,H
  | 0x5D => m.onCpu fun cpu => { cpu with re := cpu.rl } -- MOV E,L
  | 0x5E => -- MOV E,M
      let b := readByte E (getRhl m.cpu) m
      b.mach.onCpu fun cpu => { cpu with re := b.val }
  | 0x5F => m.onCpu fun cpu => { cpu with re := cpu.ra } -- MOV E,A
  | 0x60 => m.onCpu fun cpu => { cpu with rh := cpu.rb } -- MOV H,B
  | 0x61 => m.onCpu fun cpu => { cpu with rh := cpu.rc } -- MOV H,C
  | 0x62 => m.onCpu fun cpu => { cpu with rh := cpu.rd } -- MOV H,D
  | 0x63 => m.onCpu fun cpu => { cpu with rh := cpu.re } -- MOV H,E
  | 0x64 => m -- MOV H,H
  | 0x65 => m.onCpu fun cpu => { cpu with rh := cpu.rl } -- MOV H,L
  | 0x66 => -- MOV H,M
      let b := readByte E (getRhl m.cpu) m
      b.mach.onCpu fun cpu => { cpu with rh := b.val }
  | 0x67 => m.onCpu fun cpu => { cpu with rh := cpu.ra } -- MOV H,A
  | 0x68 => m.onCpu fun cpu => { cpu with rl := cpu.rb } -- MOV L,B
  | 0x69 => m.onCpu fun cpu => { cpu with rl := cpu.rc } -- MOV L,C
  | 0x6A => m.onCpu fun cpu => { cpu with rl := cpu.rd } -- MOV L,D
  | 0x6B => m.onCpu fun cpu => { cpu with rl := cpu.re } -- MOV L,E
  | 0x6C => m.onCpu fun cpu => { cpu with rl := cpu.rh } -- MOV L,H
  | 0x6D => m -- MOV L,L
  | 0x6E => -- MOV L,M
      let b := readByte E (getRhl m.cpu) m
      b.mach.onCpu fun cpu => { cpu with rl := b.val }
  | 0x6F => m.onCpu fun cpu => { cpu with rl := cpu.ra } -- MOV L,A
  | 0x70 => writeByte E (getRhl m.cpu) m.cpu.rb m -- MOV M,B
  | 0x71 => writeByte E (getRhl m.cpu) m.cpu.rc m -- MOV M,C
  | 0x72 => writeByte E (getRhl m.cpu) m.cpu.rd m -- MOV M,D
  | 0x73 => writeByte E (getRhl m.cpu) m.cpu.re m -- MOV M,E
  | 0x74 => writeByte E (getRhl m.cpu) m.cpu.rh m -- MOV M,H
  | 0x75 => writeByte E (getRhl m.cpu) m.cpu.rl m -- MOV M,L
  | 0x77 => writeByte E (getRhl m.cpu) m.cpu.ra m -- MOV M,A
  | 0x78 => m.onCpu fun cpu => { cpu with ra := cpu.rb } -- MOV A,B
  | 0x79 => m.onCpu fun cpu => { cpu with ra := cpu.rc } -- MOV A,C
  | 0x7A => m.onCpu fun cpu => { cpu with ra := cpu.rd } -- MOV A,D
  | 0x7B => m.onCpu fun cpu => { cpu with ra := cpu.re } -- MOV A,E
  | 0x7C => m.onCpu fun cpu => { cpu with ra := cpu.rh } -- MOV A,H
  | 0x7D => m.onCpu fun cpu => { cpu with ra := cpu.rl } -- MOV A,L
  | 0x7E => -- MOV A,M
      let b := readByte E (getRhl m.cpu) m
      b.mach.onCpu fun cpu => { cpu with ra := b.val }
  | 0x7F => m -- MOV A,A
  -- Register or memory to accumulator ops
  | 0x80 => m.onCpu fun cpu => opAdd cpu.rb false cpu -- ADD B
  | 0x81 => m.onCpu fun cpu => opAdd cpu.rc false cpu -- ADD C
  | 0x82 => m.onCpu fun cpu => opAdd cpu.rd false cpu -- ADD D
  | 0x83 => m.onCpu fun cpu => opAdd cpu.re false cpu -- ADD E
  | 0x84 => m.onCpu fun cpu => opAdd cpu.rh false cpu -- ADD H
  | 0x85 => m.onCpu fun cpu => opAdd cpu.rl false cpu -- ADD L
  | 0x86 => -- ADD M
      let b := readByte E (getRhl m.cpu) m
      b.mach.onCpu fun cpu => opAdd b.val false cpu
  | 0x87 => m.onCpu fun cpu => opAdd cpu.ra false cpu -- ADD A
  | 0x88 => m.onCpu fun cpu => opAdd cpu.rb cpu.cfc cpu -- ADC B
  | 0x89 => m.onCpu fun cpu => opAdd cpu.rc cpu.cfc cpu -- ADC C
  | 0x8A => m.onCpu fun cpu => opAdd cpu.rd cpu.cfc cpu -- ADC D
  | 0x8B => m.onCpu fun cpu => opAdd cpu.re cpu.cfc cpu -- ADC E
  | 0x8C => m.onCpu fun cpu => opAdd cpu.rh cpu.cfc cpu -- ADC H
  | 0x8D => m.onCpu fun cpu => opAdd cpu.rl cpu.cfc cpu -- ADC L
  | 0x8E => -- ADC M
      let b := readByte E (getRhl m.cpu) m
      b.mach.onCpu fun cpu => opAdd b.val cpu.cfc cpu
  | 0x8F => m.onCpu fun cpu => opAdd cpu.ra cpu.cfc cpu -- ADC A
  | 0x90 => m.onCpu fun cpu => opSub cpu.rb false cpu -- SUB B
  | 0x91 => m.onCpu fun cpu => opSub cpu.rc false cpu -- SUB C
  | 0x92 => m.onCpu fun cpu => opSub cpu.rd false cpu -- SUB D
  | 0x93 => m.onCpu fun cpu => opSub cpu.re false cpu -- SUB E
  | 0x94 => m.onCpu fun cpu => opSub cpu.rh false cpu -- SUB H
  | 0x95 => m.onCpu fun cpu => opSub cpu.rl false cpu -- SUB L
  | 0x96 => -- SUB M
      let b := readByte E (getRhl m.cpu) m
      b.mach.onCpu fun cpu => opSub b.val false cpu
  | 0x97 => m.onCpu fun cpu => opSub cpu.ra false cpu -- SUB A
  | 0x98 => m.onCpu fun cpu => opSub cpu.rb cpu.cfc cpu -- SBB B
  | 0x99 => m.onCpu fun cpu => opSub cpu.rc cpu.cfc cpu -- SBB C
  | 0x9A => m.onCpu fun cpu => opSub cpu.rd cpu.cfc cpu -- SBB D
  | 0x9B => m.onCpu fun cpu => opSub cpu.re cpu.cfc cpu -- SBB E
  | 0x9C => m.onCpu fun cpu => opSub cpu.rh cpu.cfc cpu -- SBB H
  | 0x9D => m.onCpu fun cpu => opSub cpu.rl cpu.cfc cpu -- SBB L
  | 0x9E => -- SBB M
      let b := readByte E (getRhl m.cpu) m
      b.mach.onCpu fun cpu => opSub b.val cpu.cfc cpu
  | 0x9F => m.onCpu fun cpu => opSub cpu.ra cpu.cfc cpu -- SBB A
  | 0xA0 => m.onCpu fun cpu => opAna cpu.rb cpu -- ANA B
  | 0xA1 => m.onCpu fun cpu => opAna cpu.rc cpu -- ANA C
  | 0xA2 => m.onCpu fun cpu => opAna cpu.rd cpu -- ANA D
  | 0xA3 => m.onCpu fun cpu => opAna cpu.re cpu -- ANA E
  | 0xA4 => m.onCpu fun cpu => opAna cpu.rh cpu -- ANA H
  | 0xA5 => m.onCpu fun cpu => opAna cpu.rl cpu -- ANA L
  | 0xA6 => -- ANA M
      let b := readByte E (getRhl m.cpu) m
      b.mach.onCpu fun cpu => opAna b.val cpu
  | 0xA7 => m.onCpu fun cpu => opAna cpu.ra cpu -- ANA A
  | 0xA8 => m.onCpu fun cpu => opXra cpu.rb cpu -- XRA B
  | 0xA9 => m.onCpu fun cpu => opXra cpu.rc cpu -- XRA C
  | 0xAA => m.onCpu fun cpu => opXra cpu.rd cpu -- XRA D
  | 0xAB => m.onCpu fun cpu => opXra cpu.re cpu -- XRA E
  | 0xAC => m.onCpu fun cpu => opXra cpu.rh cpu -- XRA H
  | 0xAD => m.onCpu fun cpu => opXra cpu.rl cpu -- XRA L
  | 0xAE => -- XRA M
      let b := readByte E (getRhl m.cpu) m
      b.mach.onCpu fun cpu => opXra b.val cpu
  | 0xAF => m.onCpu fun cpu => opXra cpu.ra cpu -- XRA A
  | 0xB0 => m.onCpu fun cpu => opOra cpu.rb cpu -- ORA B
  | 0xB1 => m.onCpu fun cpu => opOra cpu.rc cpu -- ORA C
  | 0xB2 => m.onCpu fun cpu => opOra cpu.rd cpu -- ORA D
  | 0xB3 => m.onCpu fun cpu => opOra cpu.re cpu -- ORA E
  | 0xB4 => m.onCpu fun cpu => opOra cpu.rh cpu -- ORA H
  | 0xB5 => m.onCpu fun cpu => opOra cpu.rl cpu -- ORA L
  | 0xB6 => -- ORA M
      let b := readByte E (getRhl m.cpu) m
      b.mach.onCpu fun cpu => opOra b.val cpu
  | 0xB7 => m.onCpu fun cpu => opOra cpu.ra cpu -- ORA A
  | 0xB8 => m.onCpu fun cpu => opCmp cpu.rb cpu -- CMP B
  | 0xB9 => m.onCpu fun cpu => opCmp cpu.rc cpu -- CMP C
  | 0xBA => m.onCpu fun cpu => opCmp cpu.rd cpu -- CMP D
  | 0xBB => m.onCpu fun cpu => opCmp cpu.re cpu -- CMP E
  | 0xBC => m.onCpu fun cpu => opCmp cpu.rh cpu -- CMP H
  | 0xBD => m.onCpu fun cpu => opCmp cpu.rl cpu -- CMP L
  | 0xBE => -- CMP M
      let b := readByte E (getRhl m.cpu) m
      b.mach.onCpu fun cpu => opCmp b.val cpu
  | 0xBF => m.onCpu fun cpu => opCmp cpu.ra cpu -- CMP A
  -- Rotate accumulator opts
  | 0x07 => m.onCpu opRlc -- RLC
  | 0x0F => m.onCpu opRrc -- RRC
  | 0x17 => m.onCpu opRal -- RAL
  | 0x1F => m.onCpu opRar -- RAR
  -- Register pair ops
  | 0xC5 => stackPush E (getRbc m.cpu) m -- PUSH B
  | 0xD5 => stackPush E (getRde m.cpu) m -- PUSH D
  | 0xE5 => stackPush E (getRhl m.cpu) m -- PUSH H
  | 0xF5 => opPushPsw E m -- PUSH PSW
  | 0xC1 => -- POP B
      let w := stackPop E m
      w.mach.onCpu (setRbc w.val)
  | 0xD1 => -- POP D
      let w := stackPop E m
      w.mach.onCpu (setRde w.val)
  | 0xE1 => -- POP H
      let w := stackPop E m
      w.mach.onCpu (setRhl w.val)
  | 0xF1 => opPopPsw E m -- POP PSW
  | 0x09 => m.onCpu fun cpu => opDad (getRbc cpu) cpu -- DAD B
  | 0x19 => m.onCpu fun cpu => opDad (getRde cpu) cpu -- DAD D
  | 0x29 => m.onCpu fun cpu => opDad (getRhl cpu) cpu -- DAD H
  | 0x39 => m.onCpu fun cpu => opDad cpu.sp cpu -- DAD SP
  | 0x03 => m.onCpu fun cpu => setRbc (getRbc cpu + 1) cpu -- INX B
  | 0x13 => m.onCpu fun cpu => setRde (getRde cpu + 1) cpu -- INX D
  | 0x23 => m.onCpu fun cpu => setRhl (getRhl cpu + 1) cpu -- INX H
  | 0x33 => m.onCpu fun cpu => { cpu with sp := cpu.sp + 1 } -- INX SP
  | 0x0B => m.onCpu fun cpu => setRbc (getRbc cpu - 1) cpu -- DCX B
  | 0x1B => m.onCpu fun cpu => setRde (getRde cpu - 1) cpu -- DCX D
  | 0x2B => m.onCpu fun cpu => setRhl (getRhl cpu - 1) cpu -- DCX H
  | 0x3B => m.onCpu fun cpu => { cpu with sp := cpu.sp - 1 } -- DCX SP
  | 0xEB => m.onCpu opXchg -- XCHG
  | 0xE3 => opXthl E m -- XTHL
  | 0xF9 => m.onCpu fun cpu => { cpu with sp := getRhl cpu } -- SPHL
  -- Immediate ops
  | 0x01 => -- LXI B
      let w := F.nextWord m
      w.mach.onCpu (setRbc w.val)
  | 0x11 => -- LXI D
      let w := F.nextWord m
      w.mach.onCpu (setRde w.val)
  | 0x21 => -- LXI H
      let w := F.nextWord m
      w.mach.onCpu (setRhl w.val)
  | 0x31 => -- LXI SP
      let w := F.nextWord m
      w.mach.onCpu fun cpu => { cpu with sp := w.val }
  | 0x06 => -- MVI B
      let b := F.nextByte m
      b.mach.onCpu fun cpu => { cpu with rb := b.val }
  | 0x0E => -- MVI C
      let b := F.nextByte m
      b.mach.onCpu fun cpu => { cpu with rc := b.val }
  | 0x16 => -- MVI D
      let b := F.nextByte m
      b.mach.onCpu fun cpu => { cpu with rd := b.val }
  | 0x1E => -- MVI E
      let b := F.nextByte m
      b.mach.onCpu fun cpu => { cpu with re := b.val }
  | 0x26 => -- MVI H
      let b := F.nextByte m
      b.mach.onCpu fun cpu => { cpu with rh := b.val }
  | 0x2E => -- MVI L
      let b := F.nextByte m
      b.mach.onCpu fun cpu => { cpu with rl := b.val }
  | 0x36 => -- MVI M
      let addr := getRhl m.cpu
      let b := F.nextByte m
      writeByte E addr b.val b.mach
  | 0x3E => -- MVI A
      let b := F.nextByte m
      b.mach.onCpu fun cpu => { cpu with ra := b.val }
  | 0xC6 => -- ADI
      let b := F.nextByte m
      b.mach.onCpu fun cpu => opAdd b.val false cpu
  | 0xCE => -- ACI
      let b := F.nextByte m
      b.mach.onCpu fun cpu => opAdd b.val cpu.cfc cpu
  | 0xD6 => -- SUI
      let b := F.nextByte m
      b.mach.onCpu fun cpu => opSub b.val false cpu
  | 0xDE => -- SBI
      let b := F.nextByte m
      b.mach.onCpu fun cpu => opSub b.val cpu.cfc cpu
  | 0xE6 => -- ANI
      let b := F.nextByte m
      b.mach.onCpu fun cpu => opAna b.val cpu
  | 0xEE => -- XRI
      let b := F.nextByte m
      b.mach.onCpu fun cpu => opXra b.val cpu
  | 0xF6 => -- ORI
      let b := F.nextByte m
      b.mach.onCpu fun cpu => opOra b.val cpu
  | 0xFE => -- CPI
      let b := F.nextByte m
      b.mach.onCpu fun cpu => opCmp b.val cpu
  -- Direct addressing ops
  | 0x02 => writeByte E (getRbc m.cpu) m.cpu.ra m -- STAX B
  | 0x12 => writeByte E (getRde m.cpu) m.cpu.ra m -- STAX D
  | 0x32 => -- STA
      let addr := F.nextWord m
      writeByte E addr.val addr.mach.cpu.ra addr.mach
  | 0x0A => -- LDAX B
      let b := readByte E (getRbc m.cpu) m
      b.mach.onCpu fun cpu => { cpu with ra := b.val }
  | 0x1A => -- LDAX D
      let b := readByte E (getRde m.cpu) m
      b.mach.onCpu fun cpu => { cpu with ra := b.val }
  | 0x3A => -- LDA
      let addr := F.nextWord m
      let b := readByte E addr.val addr.mach
      b.mach.onCpu fun cpu => { cpu with ra := b.val }
  | 0x22 => -- SHLD
      let addr := F.nextWord m
      writeWord E addr.val (getRhl addr.mach.cpu) addr.mach
  | 0x2A => -- LHLD
      let addr := F.nextWord m
      let w := readWord E addr.val addr.mach
      w.mach.onCpu (setRhl w.val)
  -- Jump ops
  | 0xE9 => m.onCpu fun cpu => { cpu with pc := getRhl cpu } -- PCHL
  | 0xC2 => -- JNZ
      let addr := F.nextWord m
      opJmpCond addr.val (addr.mach.cpu.cfz == false) addr.mach
  | 0xC3 -- JMP
  | 0xCB => -- *JMP
      let w := F.nextWord m
      w.mach.onCpu fun cpu => { cpu with pc := w.val }
  | 0xCA => -- JZ
      let addr := F.nextWord m
      opJmpCond addr.val (addr.mach.cpu.cfz == true) addr.mach
  | 0xD2 => -- JNC
      let addr := F.nextWord m
      opJmpCond addr.val (addr.mach.cpu.cfc == false) addr.mach
  | 0xDA => -- JC
      let addr := F.nextWord m
      opJmpCond addr.val (addr.mach.cpu.cfc == true) addr.mach
  | 0xE2 => -- JPO
      let addr := F.nextWord m
      opJmpCond addr.val (addr.mach.cpu.cfp == false) addr.mach
  | 0xEA => -- JPE
      let addr := F.nextWord m
      opJmpCond addr.val (addr.mach.cpu.cfp == true) addr.mach
  | 0xF2 => -- JP
      let addr := F.nextWord m
      opJmpCond addr.val (addr.mach.cpu.cfs == false) addr.mach
  | 0xFA => -- JM
      let addr := F.nextWord m
      opJmpCond addr.val (addr.mach.cpu.cfs == true) addr.mach
  -- Call ops
  | 0xCD -- CALL
  | 0xDD -- *CALL
  | 0xED -- *CALL
  | 0xFD => -- *CALL
      let addr := F.nextWord m
      opCall E addr.val addr.mach
  | 0xDC => -- CC
      let addr := F.nextWord m
      opCallCond E addr.val (addr.mach.cpu.cfc == true) addr.mach
  | 0xD4 => -- CNC
      let addr := F.nextWord m
      opCallCond E addr.val (addr.mach.cpu.cfc == false) addr.mach
  | 0xCC => -- CZ
      let addr := F.nextWord m
      opCallCond E addr.val (addr.mach.cpu.cfz == true) addr.mach
  | 0xC4 => -- CNZ
      let addr := F.nextWord m
      opCallCond E addr.val (addr.mach.cpu.cfz == false) addr.mach
  | 0xF4 => -- CP
      let addr := F.nextWord m
      opCallCond E addr.val (addr.mach.cpu.cfs == false) addr.mach
  | 0xFC => -- CM
      let addr := F.nextWord m
      opCallCond E addr.val (addr.mach.cpu.cfs == true) addr.mach
  | 0xEC => -- CPE
      let addr := F.nextWord m
      opCallCond E addr.val (addr.mach.cpu.cfp == true) addr.mach
  | 0xE4 => -- CPO
      let addr := F.nextWord m
      opCallCond E addr.val (addr.mach.cpu.cfp == false) addr.mach
  -- Return ops
  | 0xC9 -- RET
  | 0xD9 => -- *RET
      let w := stackPop E m
      w.mach.onCpu fun cpu => { cpu with pc := w.val }
  | 0xD8 => opRetCond E (m.cpu.cfc == true) m -- RC
  | 0xD0 => opRetCond E (m.cpu.cfc == false) m -- RNC
  | 0xC8 => opRetCond E (m.cpu.cfz == true) m -- RZ
  | 0xC0 => opRetCond E (m.cpu.cfz == false) m -- RNZ
  | 0xF8 => opRetCond E (m.cpu.cfs == true) m -- RM
  | 0xF0 => opRetCond E (m.cpu.cfs == false) m -- RP
  | 0xE8 => opRetCond E (m.cpu.cfp == true) m -- RPE
  | 0xE0 => opRetCond E (m.cpu.cfp == false) m -- RPO
  -- RST ops
  | 0xC7 => opCall E 0x00 m -- RST 0
  | 0xCF => opCall E 0x08 m -- RST 1
  | 0xD7 => opCall E 0x10 m -- RST 2
  | 0xDF => opCall E 0x18 m -- RST 3
  | 0xE7 => opCall E 0x20 m -- RST 4
  | 0xEF => opCall E 0x28 m -- RST 5
  | 0xF7 => opCall E 0x30 m -- RST 6
  | 0xFF => opCall E 0x38 m -- RST 7
  -- INTE flip-flop ops
  | 0xFB => m.onCpu fun cpu => { cpu with inte := true, interruptDelay := true } -- EI
  | 0xF3 => m.onCpu fun cpu => { cpu with inte := false } -- DI
  -- Device read/write ops
  | 0xDB => -- IN
      let d := F.nextByte m
      let b := E.callReadDevice d.mach.cpu.readDevice E.self d.val d.mach
      b.mach.onCpu fun cpu => { cpu with ra := b.val }
  | 0xD3 => -- OUT
      let d := F.nextByte m
      E.callWriteDevice d.mach.cpu.writeDevice E.self d.val d.mach.cpu.ra d.mach
  -- HLT ops
  | 0x76 => m.onCpu fun cpu => { cpu with halted := true } -- HLT
  | _ => m

/-- `exec_next`, over the helpers that it fetches with. -/
def execNextWith (F : Fetchers W) (opcode : U8) (m : Machine W) : Machine W :=
  let m := m.onCpu fun cpu => { cpu with cycles := sCyclesLut opcode }
  let m := m.onCpu fun cpu =>
    if cpu.interruptDelay then { cpu with interruptDelay := false } else cpu
  execSwitch E F opcode m

/-- `exec_next` -/
def execNext (opcode : U8) (m : Machine W) : Machine W :=
  execNextWith E (fetchers E) opcode m

@[simp] theorem execNextWith_fetchers (opcode : U8) (m : Machine W) :
    execNextWith E (fetchers E) opcode m = execNext E opcode m := rfl

/-- The condition under which `adc_8080_cpu_step` recognizes an interrupt request. -/
def recognizes (cpu : Adc8080Cpu) : Bool :=
  cpu.interruptPending && cpu.inte && !cpu.interruptDelay

/-- `adc_8080_cpu_step` after its assertions, over the helpers that it fetches with. -/
def stepBodyWith (F : Fetchers W) (m : Machine W) : Ret Int W :=
  let m :=
    if recognizes m.cpu then
      let m := m.onCpu fun cpu =>
        { cpu with interruptPending := false, inte := false, halted := false }
      execNextWith E F m.cpu.interruptOpcode m
    else if !m.cpu.halted then
      let b := F.nextByte m
      execNextWith E F b.val b.mach
    else m
  let cycles := m.cpu.cycles
  ⟨cycles, m.onCpu fun cpu => { cpu with cycles := 0 }⟩

/-- `adc_8080_cpu_step` after its assertions. -/
def stepBody (m : Machine W) : Ret Int W :=
  stepBodyWith E (fetchers E) m

/-- The handler assertions of `adc_8080_cpu_step`. -/
def Adc8080Cpu.HandlersSet (cpu : Adc8080Cpu) : Prop :=
  cpu.readByte ≠ NULL ∧ cpu.writeByte ≠ NULL ∧
    cpu.readDevice ≠ NULL ∧ cpu.writeDevice ≠ NULL

instance (cpu : Adc8080Cpu) : Decidable cpu.HandlersSet :=
  inferInstanceAs (Decidable (_ ∧ _ ∧ _ ∧ _))

/-- `adc_8080_cpu_step`; `none` is a failed assertion. -/
def adc8080CpuStep (m : Machine W) : Option (Ret Int W) :=
  if m.cpu.HandlersSet then some (stepBody E m) else none

end

/-- `adc_8080_cpu_init`.  `inte` is not among the fields it assigns. -/
def adc8080CpuInit (cpu : Adc8080Cpu) : Adc8080Cpu :=
  { cpu with
    ra := 0, rb := 0, rc := 0, rd := 0, re := 0, rh := 0, rl := 0
    pc := 0
    sp := 0
    cfs := false, cfz := false, cfa := false, cfp := false, cfc := false
    halted := false
    interruptPending := false
    interruptOpcode := 0x00
    interruptDelay := false
    cycles := 0
    userdata := NULL
    readByte := NULL
    writeByte := NULL
    readDevice := NULL
    writeDevice := NULL }

/-- `adc_8080_cpu_interrupt` -/
def adc8080CpuInterrupt (opcode : U8) (cpu : Adc8080Cpu) : Adc8080Cpu :=
  { cpu with interruptPending := true, interruptOpcode := opcode }

end Cpu
end AdcLibs
