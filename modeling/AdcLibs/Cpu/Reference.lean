import AdcLibs.Cpu.State

/-!
# A reference interpreter for the 8080

The instruction set as the processor's manual presents it: an opcode byte is
cut into the fields `xx yyy zzz`, the fields name operands, register pairs,
conditions and operations, and the meaning of an instruction is given once for
all its operands.

Nothing here is taken from the switch of `exec_next` or from its helpers.  Sums
and borrows are computed on numbers, words are concatenations of bytes, and
the cycle counts are stated per instruction form.  Shared with the source
are only the cpu struct and the handler calls through which memory and devices
are reached.
-/

namespace AdcLibs
namespace Cpu
namespace Reference

universe u

/-! ## Operands -/

inductive Reg
  | b | c | d | e | h | l | a
deriving DecidableEq, Repr

/-- An operand field: a register, or the byte in memory at `HL`. -/
inductive Operand
  | reg (r : Reg)
  | mem
deriving DecidableEq, Repr

/-- A register pair field. -/
inductive Pair
  | b | d | h | sp
deriving DecidableEq, Repr

/-- The pair field of `PUSH` and `POP`, where `PSW` stands in the place of `SP`. -/
inductive StackPair
  | b | d | h | psw
deriving DecidableEq, Repr

/-- A condition field. -/
inductive Cond
  | nz | z | nc | c | po | pe | p | m
deriving DecidableEq, Repr

/-- An arithmetic or logic operation field. -/
inductive AluOp
  | add | adc | sub | sbb | ana | xra | ora | cmp
deriving DecidableEq, Repr

inductive Instr
  | nop
  | mov (d s : Operand)
  | hlt
  | inr (d : Operand)
  | dcr (d : Operand)
  | mvi (d : Operand)
  | alu (op : AluOp) (s : Operand)
  | aluImm (op : AluOp)
  | lxi (p : Pair)
  | inx (p : Pair)
  | dcx (p : Pair)
  | dad (p : Pair)
  | push (p : StackPair)
  | pop (p : StackPair)
  | stax (p : Pair)
  | ldax (p : Pair)
  | sta
  | lda
  | shld
  | lhld
  | rlc
  | rrc
  | ral
  | rar
  | daa
  | cma
  | stc
  | cmc
  | jmp
  | jmpCond (cc : Cond)
  | call
  | callCond (cc : Cond)
  | ret
  | retCond (cc : Cond)
  | rst (n : BitVec 3)
  | pchl
  | sphl
  | xchg
  | xthl
  | inp
  | out
  | ei
  | di
deriving DecidableEq, Repr

/-! ## Decoding -/

/-- `B C D E H L M A` -/
def operand (f : BitVec 3) : Operand :=
  match f with
  | 0 => .reg .b
  | 1 => .reg .c
  | 2 => .reg .d
  | 3 => .reg .e
  | 4 => .reg .h
  | 5 => .reg .l
  | 6 => .mem
  | _ => .reg .a

/-- `B D H SP` -/
def pair (f : BitVec 2) : Pair :=
  match f with
  | 0 => .b
  | 1 => .d
  | 2 => .h
  | _ => .sp

/-- `B D H PSW` -/
def stackPair (f : BitVec 2) : StackPair :=
  match f with
  | 0 => .b
  | 1 => .d
  | 2 => .h
  | _ => .psw

/-- `NZ Z NC C PO PE P M` -/
def cond (f : BitVec 3) : Cond :=
  match f with
  | 0 => .nz
  | 1 => .z
  | 2 => .nc
  | 3 => .c
  | 4 => .po
  | 5 => .pe
  | 6 => .p
  | _ => .m

/-- `ADD ADC SUB SBB ANA XRA ORA CMP` -/
def aluOp (f : BitVec 3) : AluOp :=
  match f with
  | 0 => .add
  | 1 => .adc
  | 2 => .sub
  | 3 => .sbb
  | 4 => .ana
  | 5 => .xra
  | 6 => .ora
  | _ => .cmp

/-- The quarter `00yyyzzz`. -/
def decodeLow (y z : BitVec 3) : Instr :=
  let pp := pair (y.extractLsb' 1 2)
  match z with
  | 0 => .nop
  | 1 => if y.getLsbD 0 then .dad pp else .lxi pp
  | 2 =>
      match y with
      | 0 => .stax .b
      | 1 => .ldax .b
      | 2 => .stax .d
      | 3 => .ldax .d
      | 4 => .shld
      | 5 => .lhld
      | 6 => .sta
      | _ => .lda
  | 3 => if y.getLsbD 0 then .dcx pp else .inx pp
  | 4 => .inr (operand y)
  | 5 => .dcr (operand y)
  | 6 => .mvi (operand y)
  | _ =>
      match y with
      | 0 => .rlc
      | 1 => .rrc
      | 2 => .ral
      | 3 => .rar
      | 4 => .daa
      | 5 => .cma
      | 6 => .stc
      | _ => .cmc

/-- The quarter `11yyyzzz`. -/
def decodeHigh (y z : BitVec 3) : Instr :=
  let pp := stackPair (y.extractLsb' 1 2)
  match z with
  | 0 => .retCond (cond y)
  | 1 =>
      if y.getLsbD 0 then
        match pp with
        | .b => .ret
        | .d => .ret
        | .h => .pchl
        | .psw => .sphl
      else .pop pp
  | 2 => .jmpCond (cond y)
  | 3 =>
      match y with
      | 0 => .jmp
      | 1 => .jmp
      | 2 => .out
      | 3 => .inp
      | 4 => .xthl
      | 5 => .xchg
      | 6 => .di
      | _ => .ei
  | 4 => .callCond (cond y)
  | 5 => if y.getLsbD 0 then .call else .push pp
  | 6 => .aluImm (aluOp y)
  | _ => .rst y

/-- Decode an opcode byte `xxyyyzzz` by its fields. -/
def decode (op : U8) : Instr :=
  let y : BitVec 3 := op.extractLsb' 3 3
  let z : BitVec 3 := op.extractLsb' 0 3
  match (op.extractLsb' 6 2 : BitVec 2) with
  | 0b00 => decodeLow y z
  | 0b01 => if y = 6 ∧ z = 6 then .hlt else .mov (operand y) (operand z)
  | 0b10 => .alu (aluOp y) (operand z)
  | _ => decodeHigh y z

/-- Cycles of an instruction that transfers no control conditionally. -/
def Instr.cycles : Instr → Int
  | .nop => 4
  | .mov (.reg _) (.reg _) => 5
  | .mov _ _ => 7
  | .hlt => 7
  | .inr .mem | .dcr .mem | .mvi .mem => 10
  | .inr _ | .dcr _ => 5
  | .mvi _ => 7
  | .alu _ (.reg _) => 4
  | .alu _ .mem => 7
  | .aluImm _ => 7
  | .lxi _ | .dad _ => 10
  | .inx _ | .dcx _ => 5
  | .push _ => 11
  | .pop _ => 10
  | .stax _ | .ldax _ => 7
  | .sta | .lda => 13
  | .shld | .lhld => 16
  | .rlc | .rrc | .ral | .rar | .daa | .cma | .stc | .cmc => 4
  | .jmp | .jmpCond _ => 10
  | .call => 17
  | .callCond _ => 11
  | .ret => 10
  | .retCond _ => 5
  | .rst _ => 11
  | .pchl | .sphl => 5
  | .xchg => 4
  | .xthl => 18
  | .inp | .out => 10
  | .ei | .di => 4

/-! ## The cpu's registers -/

def Reg.get : Reg → Adc8080Cpu → U8
  | .b, cpu => cpu.rb
  | .c, cpu => cpu.rc
  | .d, cpu => cpu.rd
  | .e, cpu => cpu.re
  | .h, cpu => cpu.rh
  | .l, cpu => cpu.rl
  | .a, cpu => cpu.ra

def Reg.set : Reg → U8 → Adc8080Cpu → Adc8080Cpu
  | .b, v, cpu => { cpu with rb := v }
  | .c, v, cpu => { cpu with rc := v }
  | .d, v, cpu => { cpu with rd := v }
  | .e, v, cpu => { cpu with re := v }
  | .h, v, cpu => { cpu with rh := v }
  | .l, v, cpu => { cpu with rl := v }
  | .a, v, cpu => { cpu with ra := v }

def Pair.get : Pair → Adc8080Cpu → U16
  | .b, cpu => cpu.rb ++ cpu.rc
  | .d, cpu => cpu.rd ++ cpu.re
  | .h, cpu => cpu.rh ++ cpu.rl
  | .sp, cpu => cpu.sp

def Pair.set : Pair → U16 → Adc8080Cpu → Adc8080Cpu
  | .b, w, cpu => { cpu with rb := w.extractLsb' 8 8, rc := w.extractLsb' 0 8 }
  | .d, w, cpu => { cpu with rd := w.extractLsb' 8 8, re := w.extractLsb' 0 8 }
  | .h, w, cpu => { cpu with rh := w.extractLsb' 8 8, rl := w.extractLsb' 0 8 }
  | .sp, w, cpu => { cpu with sp := w }

/-- The flag byte `S Z 0 A 0 P 1 C`. -/
def flagByte (cpu : Adc8080Cpu) : U8 :=
  BitVec.ofBool cpu.cfs ++ BitVec.ofBool cpu.cfz ++ 0#1 ++ BitVec.ofBool cpu.cfa ++
    0#1 ++ BitVec.ofBool cpu.cfp ++ 1#1 ++ BitVec.ofBool cpu.cfc

def StackPair.get : StackPair → Adc8080Cpu → U16
  | .b, cpu => Pair.b.get cpu
  | .d, cpu => Pair.d.get cpu
  | .h, cpu => Pair.h.get cpu
  | .psw, cpu => cpu.ra ++ flagByte cpu

def StackPair.set : StackPair → U16 → Adc8080Cpu → Adc8080Cpu
  | .b, w, cpu => Pair.b.set w cpu
  | .d, w, cpu => Pair.d.set w cpu
  | .h, w, cpu => Pair.h.set w cpu
  | .psw, w, cpu =>
      { cpu with
        ra := w.extractLsb' 8 8
        cfs := w.getLsbD 7
        cfz := w.getLsbD 6
        cfa := w.getLsbD 4
        cfp := w.getLsbD 2
        cfc := w.getLsbD 0 }

def Cond.holds : Cond → Adc8080Cpu → Bool
  | .nz, cpu => !cpu.cfz
  | .z, cpu => cpu.cfz
  | .nc, cpu => !cpu.cfc
  | .c, cpu => cpu.cfc
  | .po, cpu => !cpu.cfp
  | .pe, cpu => cpu.cfp
  | .p, cpu => !cpu.cfs
  | .m, cpu => cpu.cfs

/-! ## Arithmetic and logic -/

/-- A byte has even parity when the number of its one bits is even. -/
def evenParity (v : U8) : Bool :=
  (List.range 8).countP v.getLsbD % 2 == 0

/-- Sign, zero and parity of a result. -/
def resultFlags (r : U8) (cpu : Adc8080Cpu) : Adc8080Cpu :=
  { cpu with cfs := 128 ≤ r.toNat, cfz := r = 0, cfp := evenParity r }

/-- `A + v + c`, with the carries out of bit 7 and bit 3. -/
def addTo (v : U8) (c : Bool) (cpu : Adc8080Cpu) : Adc8080Cpu :=
  let t := cpu.ra.toNat + v.toNat + c.toNat
  let r := BitVec.ofNat 8 t
  { resultFlags r cpu with
    ra := r
    cfc := 256 ≤ t
    cfa := 16 ≤ cpu.ra.toNat % 16 + v.toNat % 16 + c.toNat }

/-- `A - v - c`; carry is a borrow, aux the absence of a borrow from bit 4. -/
def subFrom (v : U8) (c : Bool) (cpu : Adc8080Cpu) : Adc8080Cpu :=
  let t : Int := cpu.ra.toNat - v.toNat - c.toNat
  let r := BitVec.ofInt 8 t
  { resultFlags r cpu with
    ra := r
    cfc := t < 0
    cfa := v.toNat % 16 + c.toNat ≤ cpu.ra.toNat % 16 }

/-- A logic result: carry is cleared. -/
def logic (r : U8) (aux : Bool) (cpu : Adc8080Cpu) : Adc8080Cpu :=
  { resultFlags r cpu with ra := r, cfc := false, cfa := aux }

def AluOp.exec (op : AluOp) (v : U8) (cpu : Adc8080Cpu) : Adc8080Cpu :=
  match op with
  | .add => addTo v false cpu
  | .adc => addTo v cpu.cfc cpu
  | .sub => subFrom v false cpu
  | .sbb => subFrom v cpu.cfc cpu
  | .ana => logic (cpu.ra &&& v) (cpu.ra.getLsbD 3 || v.getLsbD 3) cpu
  | .xra => logic (cpu.ra ^^^ v) false cpu
  | .ora => logic (cpu.ra ||| v) false cpu
  | .cmp => { subFrom v false cpu with ra := cpu.ra }

/-- The flags of `INR` on the value `v`: carry is kept. -/
def inrFlags (v : U8) (cpu : Adc8080Cpu) : Adc8080Cpu :=
  { resultFlags (v + 1) cpu with cfa := v.toNat % 16 = 15 }

def dcrFlags (v : U8) (cpu : Adc8080Cpu) : Adc8080Cpu :=
  { resultFlags (v - 1) cpu with cfa := v.toNat % 16 ≠ 0 }

def addHl (w : U16) (cpu : Adc8080Cpu) : Adc8080Cpu :=
  let t := (Pair.h.get cpu).toNat + w.toNat
  Pair.h.set (BitVec.ofNat 16 t) { cpu with cfc := 65536 ≤ t }

/-- Decimal adjustment: 6 for the low digit, 60h for the high one. -/
def adjust (cpu : Adc8080Cpu) : Adc8080Cpu :=
  let low : U8 := if 9 < cpu.ra.toNat % 16 ∨ cpu.cfa then 0x06 else 0
  let high : U8 := if 0x99 < cpu.ra.toNat ∨ cpu.cfc then 0x60 else 0
  { addTo (low + high) false cpu with cfc := 0x99 < cpu.ra.toNat ∨ cpu.cfc }

def rotateLeft (cpu : Adc8080Cpu) : Adc8080Cpu :=
  { cpu with ra := cpu.ra.rotateLeft 1, cfc := cpu.ra.getLsbD 7 }

def rotateRight (cpu : Adc8080Cpu) : Adc8080Cpu :=
  { cpu with ra := cpu.ra.rotateRight 1, cfc := cpu.ra.getLsbD 0 }

/-- The nine bits of `A` and carry, rotated left. -/
def rotateCarryLeft (cpu : Adc8080Cpu) : Adc8080Cpu :=
  let t := 2 * cpu.ra.toNat + cpu.cfc.toNat
  { cpu with ra := BitVec.ofNat 8 t, cfc := 256 ≤ t }

def rotateCarryRight (cpu : Adc8080Cpu) : Adc8080Cpu :=
  let t := cpu.ra.toNat + 256 * cpu.cfc.toNat
  { cpu with ra := BitVec.ofNat 8 (t / 2), cfc := t % 2 = 1 }

def exchange (cpu : Adc8080Cpu) : Adc8080Cpu :=
  { cpu with rh := cpu.rd, rl := cpu.re, rd := cpu.rh, re := cpu.rl }

/-! ## Memory -/

variable {W : Type u}

section Bus

variable (E : Env W)

def load (addr : U16) (m : Machine W) : Ret U8 W :=
  E.callReadByte m.cpu.readByte m.cpu.userdata addr m

def store (addr : U16) (v : U8) (m : Machine W) : Machine W :=
  E.callWriteByte m.cpu.writeByte m.cpu.userdata addr v m

/-- A word in memory: the low byte at `addr`, the high byte at the next address mod 2^16. -/
def loadWord (addr : U16) (m : Machine W) : Ret U16 W :=
  if E.highFirst then
    let high := load E (addr + 1) m
    let low := load E addr high.mach
    ⟨high.val ++ low.val, low.mach⟩
  else
    let low := load E addr m
    let high := load E (addr + 1) low.mach
    ⟨high.val ++ low.val, high.mach⟩

def storeWord (addr : U16) (w : U16) (m : Machine W) : Machine W :=
  store E (addr + 1) (w.extractLsb' 8 8) (store E addr (w.extractLsb' 0 8) m)

/-- The operand byte after the opcode. -/
def fetch (m : Machine W) : Ret U8 W :=
  load E m.cpu.pc (m.onCpu fun cpu => { cpu with pc := cpu.pc + 1 })

/-- The operand word after the opcode. -/
def fetchWord (m : Machine W) : Ret U16 W :=
  let w := loadWord E m.cpu.pc m
  ⟨w.val, w.mach.onCpu fun cpu => { cpu with pc := cpu.pc + 2 }⟩

def pushWord (w : U16) (m : Machine W) : Machine W :=
  let m := m.onCpu fun cpu => { cpu with sp := cpu.sp - 2 }
  storeWord E m.cpu.sp w m

def popWord (m : Machine W) : Ret U16 W :=
  let w := loadWord E m.cpu.sp m
  ⟨w.val, w.mach.onCpu fun cpu => { cpu with sp := cpu.sp + 2 }⟩

end Bus

/-- Where an operand lives: in a register, or at an address. -/
inductive Loc
  | reg (r : Reg)
  | at (addr : U16)

def Operand.loc : Operand → Adc8080Cpu → Loc
  | .reg r, _ => .reg r
  | .mem, cpu => .at (Pair.h.get cpu)

section Exec

variable (E : Env W)

def Loc.load : Loc → Machine W → Ret U8 W
  | .reg r, m => ⟨r.get m.cpu, m⟩
  | .at addr, m => Reference.load E addr m

def Loc.store : Loc → U8 → Machine W → Machine W
  | .reg r, v, m => m.onCpu (r.set v)
  | .at addr, v, m => Reference.store E addr v m

/-- Continue at `addr`. -/
def goto (addr : U16) (m : Machine W) : Machine W :=
  m.onCpu fun cpu => { cpu with pc := addr }

/-- The extra cycles of a conditional call or return that is taken. -/
def takenCycles (m : Machine W) : Machine W :=
  m.onCpu fun cpu => { cpu with cycles := cpu.cycles + 6 }

def callTo (addr : U16) (m : Machine W) : Machine W :=
  goto addr (pushWord E m.cpu.pc m)

def returnTo (m : Machine W) : Machine W :=
  let w := popWord E m
  goto w.val w.mach

/-- The meaning of an instruction whose opcode byte has been fetched. -/
def Instr.exec (i : Instr) (m : Machine W) : Machine W :=
  match i with
  | .nop => m
  | .mov d s =>
      let dst := d.loc m.cpu
      let v := (s.loc m.cpu).load E m
      dst.store E v.val v.mach
  | .hlt => m.onCpu fun cpu => { cpu with halted := true }
  | .inr d =>
      let loc := d.loc m.cpu
      let v := loc.load E m
      loc.store E (v.val + 1) (v.mach.onCpu (inrFlags v.val))
  | .dcr d =>
      let loc := d.loc m.cpu
      let v := loc.load E m
      loc.store E (v.val - 1) (v.mach.onCpu (dcrFlags v.val))
  | .mvi d =>
      let loc := d.loc m.cpu
      let v := fetch E m
      loc.store E v.val v.mach
  | .alu op s =>
      let v := (s.loc m.cpu).load E m
      v.mach.onCpu (op.exec v.val)
  | .aluImm op =>
      let v := fetch E m
      v.mach.onCpu (op.exec v.val)
  | .lxi p =>
      let w := fetchWord E m
      w.mach.onCpu (p.set w.val)
  | .inx p => m.onCpu fun cpu => p.set (p.get cpu + 1) cpu
  | .dcx p => m.onCpu fun cpu => p.set (p.get cpu - 1) cpu
  | .dad p => m.onCpu fun cpu => addHl (p.get cpu) cpu
  | .push p => pushWord E (p.get m.cpu) m
  | .pop p =>
      let w := popWord E m
      w.mach.onCpu (p.set w.val)
  | .stax p => store E (p.get m.cpu) m.cpu.ra m
  | .ldax p =>
      let v := load E (p.get m.cpu) m
      v.mach.onCpu (Reg.a.set v.val)
  | .sta =>
      let addr := fetchWord E m
      store E addr.val addr.mach.cpu.ra addr.mach
  | .lda =>
      let addr := fetchWord E m
      let v := load E addr.val addr.mach
      v.mach.onCpu (Reg.a.set v.val)
  | .shld =>
      let addr := fetchWord E m
      storeWord E addr.val (Pair.h.get addr.mach.cpu) addr.mach
  | .lhld =>
      let addr := fetchWord E m
      let w := loadWord E addr.val addr.mach
      w.mach.onCpu (Pair.h.set w.val)
  | .rlc => m.onCpu rotateLeft
  | .rrc => m.onCpu rotateRight
  | .ral => m.onCpu rotateCarryLeft
  | .rar => m.onCpu rotateCarryRight
  | .daa => m.onCpu adjust
  | .cma => m.onCpu fun cpu => { cpu with ra := ~~~cpu.ra }
  | .stc => m.onCpu fun cpu => { cpu with cfc := true }
  | .cmc => m.onCpu fun cpu => { cpu with cfc := !cpu.cfc }
  | .jmp =>
      let addr := fetchWord E m
      goto addr.val addr.mach
  | .jmpCond cc =>
      let addr := fetchWord E m
      if cc.holds addr.mach.cpu then goto addr.val addr.mach else addr.mach
  | .call =>
      let addr := fetchWord E m
      callTo E addr.val addr.mach
  | .callCond cc =>
      let addr := fetchWord E m
      if cc.holds addr.mach.cpu then takenCycles (callTo E addr.val addr.mach)
      else addr.mach
  | .ret => returnTo E m
  | .retCond cc => if cc.holds m.cpu then takenCycles (returnTo E m) else m
  | .rst n => callTo E (8 * n.setWidth 16) m
  | .pchl => goto (Pair.h.get m.cpu) m
  | .sphl => m.onCpu fun cpu => { cpu with sp := Pair.h.get cpu }
  | .xchg => m.onCpu exchange
  | .xthl =>
      let w := loadWord E m.cpu.sp m
      let m := storeWord E w.mach.cpu.sp (Pair.h.get w.mach.cpu) w.mach
      m.onCpu (Pair.h.set w.val)
  | .inp =>
      let d := fetch E m
      let v := E.callReadDevice d.mach.cpu.readDevice E.self d.val d.mach
      v.mach.onCpu (Reg.a.set v.val)
  | .out =>
      let d := fetch E m
      E.callWriteDevice d.mach.cpu.writeDevice E.self d.val d.mach.cpu.ra d.mach
  | .ei => m.onCpu fun cpu => { cpu with inte := true, interruptDelay := true }
  | .di => m.onCpu fun cpu => { cpu with inte := false }

/-- Execute an opcode byte: it ends the delay of an earlier `EI`. -/
def exec (op : U8) (m : Machine W) : Machine W :=
  (decode op).exec E
    (m.onCpu fun cpu => { cpu with cycles := (decode op).cycles, interruptDelay := false })

end Exec

end Reference
end Cpu
end AdcLibs
