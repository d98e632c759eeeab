import AdcLibs.Cpu.State

/-!
# The disassembler's operation table

The data model of `adc_8080_dasm.h` and the table `s_dasm_lut` of
`adc_8080_dasm.c`, row by row.  A C string is the text before its terminator.
-/

namespace AdcLibs
namespace Dasm

open Cpu

/-- `enum adc_8080_dasm_condbits_affected` -/
inductive CondbitsAffected
  | none
  | cy
  | szacp
  | all
deriving DecidableEq, Repr

/-- `adc_8080_dasm_opdef` -/
structure DasmOpdef where
  code : U8
  mnemonic : String
  size : Nat
  condbitsAffected : CondbitsAffected
  desc : String
deriving DecidableEq, Repr

/-- `adc_8080_dasm_op` -/
structure DasmOp where
  opdef : DasmOpdef
  addr : U16
  index : Int
deriving DecidableEq, Repr

/-- `adc_8080_dasm_disassembly` -/
structure DasmDisassembly where
  memory : Nat → U8
  programSize : Nat
  ops : List DasmOp
  numOps : Nat

set_option maxRecDepth 4000 in
def sDasmRows : Vector DasmOpdef 256 := #v[
  ⟨0x00, "nop", 1, .none, "no operation"⟩,
  ⟨0x01, "lxi b,%04x", 3, .none, "b = byte 3, c = byte 2"⟩,
  ⟨0x02, "stax b", 1, .none, "(bc) = a"⟩,
  ⟨0x03, "inx b", 1, .none, "bc++"⟩,
  ⟨0x04, "inr b", 1, .szacp, "b++"⟩,
  ⟨0x05, "dcr b", 1, .szacp, "b--"⟩,
  ⟨0x06, "mvi b,%02x", 2, .none, "b = byte 2"⟩,
  ⟨0x07, "rlc", 1, .cy, "a <<= 1; bit 0 = prev bit 7; cy = prev bit 7"⟩,
  ⟨0x08, "nop", 1, .none, "no operation"⟩,
  ⟨0x09, "dad b", 1, .cy, "hl += bc"⟩,
  ⟨0x0A, "ldax b", 1, .none, "a = (bc)"⟩,
  ⟨0x0B, "dcx b", 1, .none, "bc--"⟩,
  ⟨0x0C, "inr c", 1, .szacp, "c++"⟩,
  ⟨0x0D, "dcr c", 1, .szacp, "c--"⟩,
  ⟨0x0E, "mvi c,%02x", 2, .none, "c = byte 2"⟩,
  ⟨0x0F, "rrc", 1, .cy, "a >>= 1; bit 7 = prev bit 0; cy = prev bit 0"⟩,
  ⟨0x10, "nop", 1, .none, "no operation"⟩,
  ⟨0x11, "lxi d,%04x", 3, .none, "d = byte 3, e = byte 2"⟩,
  ⟨0x12, "stax d", 1, .none, "(de) = a"⟩,
  ⟨0x13, "inx d", 1, .none, "de++"⟩,
  ⟨0x14, "inr d", 1, .szacp, "d++"⟩,
  ⟨0x15, "dcr d", 1, .szacp, "d--"⟩,
  ⟨0x16, "mvi d,%02x", 2, .none, "d = byte 2"⟩,
  ⟨0x17, "ral", 1, .cy, "a <<= 1; bit 0 = prev cy; cy = prev bit 7"⟩,
  ⟨0x18, "nop", 1, .none, "no operation"⟩,
  ⟨0x19, "dad d", 1, .cy, "hl += de"⟩,
  ⟨0x1A, "ldax d", 1, .none, "a = (de)"⟩,
  ⟨0x1B, "dcx d", 1, .none, "de--"⟩,
  ⟨0x1C, "inr e", 1, .szacp, "e++"⟩,
  ⟨0x1D, "dcr e", 1, .szacp, "e--"⟩,
  ⟨0x1E, "mvi e,%02x", 2, .none, "e = byte 2"⟩,
  ⟨0x1F, "rar", 1, .cy, "a >>= 1; bit 7 = prev cy; cy = prev bit 0"⟩,
  ⟨0x20, "nop", 1, .none, "no operation"⟩,
  ⟨0x21, "lxi h,%04x", 3, .none, "h = byte 3, l = byte 2"⟩,
  ⟨0x22, "shld (%04x)", 3, .none, "(adr+1) = h, (adr) = l"⟩,
  ⟨0x23, "inx h", 1, .none, "hl++"⟩,
  ⟨0x24, "inr h", 1, .szacp, "h++"⟩,
  ⟨0x25, "dcr h", 1, .szacp, "h--"⟩,
  ⟨0x26, "mvi h,%02x", 2, .none, "h = byte 2"⟩,
  ⟨0x27, "daa", 1, .none, "todo"⟩,
  ⟨0x28, "nop", 1, .none, "no operation"⟩,
  ⟨0x29, "dad h", 1, .cy, "hl += de"⟩,
  ⟨0x2A, "lhld (%04x)", 3, .none, "h = (adr+1), l = (adr)"⟩,
  ⟨0x2B, "dcx h", 1, .none, "hl--"⟩,
  ⟨0x2C, "inr l", 1, .szacp, "l++"⟩,
  ⟨0x2D, "dcr l", 1, .szacp, "l--"⟩,
  ⟨0x2E, "mvi l,%02x", 2, .none, "l = byte 2"⟩,
  ⟨0x2F, "cma", 1, .none, "a = !a"⟩,
  ⟨0x30, "nop", 1, .none, "no operation"⟩,
  ⟨0x31, "lxi sp,%04x", 3, .none, "s = byte 3, p = byte 2"⟩,
  ⟨0x32, "sta (%04x)", 3, .none, "(adr) = a"⟩,
  ⟨0x33, "inx sp", 1, .none, "sp++"⟩,
  ⟨0x34, "inr m", 1, .szacp, "(hl)++"⟩,
  ⟨0x35, "dcr m", 1, .szacp, "(hl)--"⟩,
  ⟨0x36, "mvi m,%02x", 2, .none, "(hl) = byte 2"⟩,
  ⟨0x37, "stc", 1, .cy, "cy = 1"⟩,
  ⟨0x38, "nop", 1, .none, "no operation"⟩,
  ⟨0x39, "dad so", 1, .cy, "hl += sp"⟩,
  ⟨0x3A, "lda (%04x)", 3, .none, "a = (adr)"⟩,
  ⟨0x3B, "dcx sp", 1, .none, "sp--"⟩,
  ⟨0x3C, "inr a", 1, .szacp, "a++"⟩,
  ⟨0x3D, "dcr a", 1, .szacp, "a--"⟩,
  ⟨0x3E, "mvi a,%02x", 2, .none, "a = byte 2"⟩,
  ⟨0x3F, "cmc", 1, .none, "cy = !cy"⟩,
  ⟨0x40, "mov b,b", 1, .none, "b = b"⟩,
  ⟨0x41, "mov b,c", 1, .none, "b = c"⟩,
  ⟨0x42, "mov b,d", 1, .none, "b = d"⟩,
  ⟨0x43, "mov b,e", 1, .none, "b = e"⟩,
  ⟨0x44, "mov b,h", 1, .none, "b = h"⟩,
  ⟨0x45, "mov b,l", 1, .none, "b = l"⟩,
  ⟨0x46, "mov b,m", 1, .none, "b = (hl)"⟩,
  ⟨0x47, "mov b,a", 1, .none, "b = a"⟩,
  ⟨0x48, "mov c,b", 1, .none, "c = b"⟩,
  ⟨0x49, "mov c,c", 1, .none, "c = c"⟩,
  ⟨0x4A, "mov c,d", 1, .none, "c = d"⟩,
  ⟨0x4B, "mov c,e", 1, .none, "c = e"⟩,
  ⟨0x4C, "mov c,h", 1, .none, "c = h"⟩,
  ⟨0x4D, "mov c,l", 1, .none, "c = l"⟩,
  ⟨0x4E, "mov c,m", 1, .none, "c = (hl)"⟩,
  ⟨0x4F, "mov c,a", 1, .none, "c = a"⟩,
  ⟨0x50, "mov d,b", 1, .none, "b = b"⟩,
  ⟨0x51, "mov d,c", 1, .none, "d = c"⟩,
  ⟨0x52, "mov d,d", 1, .none, "d = d"⟩,
  ⟨0x53, "mov d,e", 1, .none, "d = e"⟩,
  ⟨0x54, "mov d,h", 1, .none, "d = h"⟩,
  ⟨0x55, "mov d,l", 1, .none, "d = l"⟩,
  ⟨0x56, "mov d,m", 1, .none, "d = (hl)"⟩,
  ⟨0x57, "mov d,a", 1, .none, "d = a"⟩,
  ⟨0x58, "mov e,b", 1, .none, "e = b"⟩,
  ⟨0x59, "mov e,c", 1, .none, "e = c"⟩,
  ⟨0x5A, "mov e,d", 1, .none, "e = d"⟩,
  ⟨0x5B, "mov e,e", 1, .none, "e = e"⟩,
  ⟨0x5C, "mov e,h", 1, .none, "e = h"⟩,
  ⟨0x5D, "mov e,l", 1, .none, "e = l"⟩,
  ⟨0x5E, "mov e,m", 1, .none, "e = (hl)"⟩,
  ⟨0x5F, "mov e,a", 1, .none, "e = a"⟩,
  ⟨0x60, "mov h,b", 1, .none, "h = b"⟩,
  ⟨0x61, "mov h,c", 1, .none, "h = c"⟩,
  ⟨0x62, "mov h,d", 1, .none, "h = d"⟩,
  ⟨0x63, "mov h,e", 1, .none, "h = e"⟩,
  ⟨0x64, "mov h,h", 1, .none, "h = h"⟩,
  ⟨0x65, "mov h,l", 1, .none, "h = l"⟩,
  ⟨0x66, "mov h,m", 1, .none, "h = (hl)"⟩,
  ⟨0x67, "mov h,a", 1, .none, "h = a"⟩,
  ⟨0x68, "mov l,b", 1, .none, "l = b"⟩,
  ⟨0x69, "mov l,c", 1, .none, "l = c"⟩,
  ⟨0x6A, "mov l,d", 1, .none, "l = d"⟩,
  ⟨0x6B, "mov l,e", 1, .none, "l = e"⟩,
  ⟨0x6C, "mov l,h", 1, .none, "l = h"⟩,
  ⟨0x6D, "mov l,l", 1, .none, "l = l"⟩,
  ⟨0x6E, "mov l,m", 1, .none, "l = (hl)"⟩,
  ⟨0x6F, "mov l,a", 1, .none, "l = a"⟩,
  ⟨0x70, "mov m,b", 1, .none, "(hl) = b"⟩,
  ⟨0x71, "mov m,c", 1, .none, "(hl) = c"⟩,
  ⟨0x72, "mov m,d", 1, .none, "(hl) = d"⟩,
  ⟨0x73, "mov m,e", 1, .none, "(hl) = e"⟩,
  ⟨0x74, "mov m,h", 1, .none, "(hl) = h"⟩,
  ⟨0x75, "mov m,l", 1, .none, "(hl) = l"⟩,
  ⟨0x76, "hlt", 1, .none, "halt cpu"⟩,
  ⟨0x77, "mov m,a", 1, .none, "(hl) = a"⟩,
  ⟨0x78, "mov a,b", 1, .none, "a = b"⟩,
  ⟨0x79, "mov a,c", 1, .none, "a = c"⟩,
  ⟨0x7A, "mov a,d", 1, .none, "a = d"⟩,
  ⟨0x7B, "mov a,e", 1, .none, "a = e"⟩,
  ⟨0x7C, "mov a,h", 1, .none, "a = h"⟩,
  ⟨0x7D, "mov a,l", 1, .none, "a = l"⟩,
  ⟨0x7E, "mov a,m", 1, .none, "a = (hl)"⟩,
  ⟨0x7F, "mov a,a", 1, .none, "a = a"⟩,
  ⟨0x80, "add b", 1, .all, "a += b"⟩,
  ⟨0x81, "add c", 1, .all, "a += c"⟩,
  ⟨0x82, "add d", 1, .all, "a += d"⟩,
  ⟨0x83, "add e", 1, .all, "a += e"⟩,
  ⟨0x84, "add h", 1, .all, "a += h"⟩,
  ⟨0x85, "add l", 1, .all, "a += l"⟩,
  ⟨0x86, "add m", 1, .all, "a += (hl)"⟩,
  ⟨0x87, "add a", 1, .all, "a += a"⟩,
  ⟨0x88, "adc b", 1, .all, "a += b + cy"⟩,
  ⟨0x89, "adc c", 1, .all, "a += c + cy"⟩,
  ⟨0x8A, "adc d", 1, .all, "a += d + cy"⟩,
  ⟨0x8B, "adc e", 1, .all, "a += e + cy"⟩,
  ⟨0x8C, "adc h", 1, .all, "a += h + cy"⟩,
  ⟨0x8D, "adc l", 1, .all, "a += l + cy"⟩,
  ⟨0x8E, "adc m", 1, .all, "a += (hl) + cy"⟩,
  ⟨0x8F, "adc a", 1, .all, "a += a + cy"⟩,
  ⟨0x90, "sub b", 1, .all, "a -= b"⟩,
  ⟨0x91, "sub c", 1, .all, "a -= c"⟩,
  ⟨0x92, "sub d", 1, .all, "a -= d"⟩,
  ⟨0x93, "sub e", 1, .all, "a -= e"⟩,
  ⟨0x94, "sub h", 1, .all, "a -= h"⟩,
  ⟨0x95, "sub l", 1, .all, "a -= l"⟩,
  ⟨0x96, "sub m", 1, .all, "a -= (hl)"⟩,
  ⟨0x97, "sub a", 1, .all, "a -= a"⟩,
  ⟨0x98, "sbb b", 1, .all, "a -= b - cy"⟩,
  ⟨0x99, "sbb c", 1, .all, "a -= c - cy"⟩,
  ⟨0x9A, "sbb d", 1, .all, "a -= d - cy"⟩,
  ⟨0x9B, "sbb e", 1, .all, "a -= e - cy"⟩,
  ⟨0x9C, "sbb h", 1, .all, "a -= h - cy"⟩,
  ⟨0x9D, "sbb l", 1, .all, "a -= l - cy"⟩,
  ⟨0x9E, "sbb m", 1, .all, "a -= (hl) - cy"⟩,
  ⟨0x9F, "sbb a", 1, .all, "a -= a - cy"⟩,
  ⟨0xA0, "ana b", 1, .all, "a &= b"⟩,
  ⟨0xA1, "ana c", 1, .all, "a &= c"⟩,
  ⟨0xA2, "ana d", 1, .all, "a &= d"⟩,
  ⟨0xA3, "ana e", 1, .all, "a &= e"⟩,
  ⟨0xA4, "ana h", 1, .all, "a &= h"⟩,
  ⟨0xA5, "ana l", 1, .all, "a &= l"⟩,
  ⟨0xA6, "ana m", 1, .all, "a &= (hl)"⟩,
  ⟨0xA7, "ana a", 1, .all, "a &= a"⟩,
  ⟨0xA8, "xra b", 1, .all, "a ^= b"⟩,
  ⟨0xA9, "xra c", 1, .all, "a ^= c"⟩,
  ⟨0xAA, "xra d", 1, .all, "a ^= d"⟩,
  ⟨0xAB, "xra e", 1, .all, "a ^= e"⟩,
  ⟨0xAC, "xra h", 1, .all, "a ^= h"⟩,
  ⟨0xAD, "xra l", 1, .all, "a ^= l"⟩,
  ⟨0xAE, "xra m", 1, .all, "a ^= (hl)"⟩,
  ⟨0xAF, "xra a", 1, .all, "a ^= a"⟩,
  ⟨0xB0, "ora b", 1, .all, "a |= b"⟩,
  ⟨0xB1, "ora c", 1, .all, "a |= c"⟩,
  ⟨0xB2, "ora d", 1, .all, "a |= d"⟩,
  ⟨0xB3, "ora e", 1, .all, "a |= e"⟩,
  ⟨0xB4, "ora h", 1, .all, "a |= h"⟩,
  ⟨0xB5, "ora l", 1, .all, "a |= l"⟩,
  ⟨0xB6, "ora m", 1, .all, "a |= (hl)"⟩,
  ⟨0xB7, "ora a", 1, .all, "a |= a"⟩,
  ⟨0xB8, "cmp b", 1, .all, "a - b"⟩,
  ⟨0xB9, "cmp c", 1, .all, "a - c"⟩,
  ⟨0xBA, "cmp d", 1, .all, "a - d"⟩,
  ⟨0xBB, "cmp e", 1, .all, "a - e"⟩,
  ⟨0xBC, "cmp h", 1, .all, "a - h"⟩,
  ⟨0xBD, "cmp l", 1, .all, "a - l"⟩,
  ⟨0xBE, "cmp m", 1, .all, "a - (hl)"⟩,
  ⟨0xBF, "cmp a", 1, .all, "a - a"⟩,
  ⟨0xC0, "rnz", 1, .none, "if nz, ret"⟩,
  ⟨0xC1, "pop b", 1, .none, "b = (sp+1); c = (sp); sp += 2"⟩,
  ⟨0xC2, "jnz %04x", 3, .none, "if nz, pc = adr"⟩,
  ⟨0xC3, "jmp %04x", 3, .none, "pc = adr"⟩,
  ⟨0xC4, "cnz %04x", 3, .none, "if nz, call adr"⟩,
  ⟨0xC5, "push b", 1, .none, "(sp-1) = b; (sp-2) = c; sp -= 2"⟩,
  ⟨0xC6, "adi %02x", 2, .all, "a += byte"⟩,
  ⟨0xC7, "rst 0", 1, .none, "call 0000"⟩,
  ⟨0xC8, "rz", 1, .none, "if z, ret"⟩,
  ⟨0xC9, "ret", 1, .none, "pc.lo = (sp); pc.hi = (sp+1); sp += 2"⟩,
  ⟨0xCA, "jz %04x", 3, .none, "if z, pc = adr"⟩,
  ⟨0xCB, "*jmp %04x", 3, .none, "pc = adr"⟩,
  ⟨0xCC, "cz %04x", 3, .none, "if z, call adr"⟩,
  ⟨0xCD, "call %04x", 3, .none, "(sp-1) = pc.hi; (sp-2) = pc.lo; sp -= 2; pc = adr"⟩,
  ⟨0xCE, "aci %02x", 2, .all, "a += byte + cy"⟩,
  ⟨0xCF, "rst 1", 1, .none, "call 0008"⟩,
  ⟨0xD0, "rnc", 1, .none, "if ncy, ret"⟩,
  ⟨0xD1, "pop d", 1, .none, "d = (sp+1); e = (sp); sp += 2"⟩,
  ⟨0xD2, "jnc %04x", 3, .none, "if ncy, pc = adr"⟩,
  ⟨0xD3, "out %02x", 2, .none, "device port byte = a"⟩,
  ⟨0xD4, "cnc %04x", 3, .none, "if ncy, call adr"⟩,
  ⟨0xD5, "push d", 1, .none, "(sp-1) = d; (sp-2) = e; sp -= 2"⟩,
  ⟨0xD6, "sui %02x", 2, .all, "a -= byte"⟩,
  ⟨0xD7, "rst 2", 1, .none, "call 0010"⟩,
  ⟨0xD8, "rc", 1, .none, "if cy, ret"⟩,
  ⟨0xD9, "*ret", 1, .none, "pc.lo = (sp); pc.hi = (sp+1); sp += 2"⟩,
  ⟨0xDA, "jc %04x", 3, .none, "if cy, pc = adr"⟩,
  ⟨0xDB, "in %02x", 2, .none, "a = device port byte"⟩,
  ⟨0xDC, "cc %04x", 3, .none, "if cy, call adr"⟩,
  ⟨0xDD, "*call %04x", 3, .none, "(sp-1) = pc.hi; (sp-2) = pc.lo; sp -= 2; pc = adr"⟩,
  ⟨0xDE, "sbi %02x", 2, .all, "a -= byte - cy"⟩,
  ⟨0xDF, "rst 3", 1, .none, "call 0018"⟩,
  ⟨0xE0, "rpo", 1, .none, "if po, ret"⟩,
  ⟨0xE1, "pop h", 1, .none, "h = (sp+1); l = (sp); sp += 2"⟩,
  ⟨0xE2, "jpo %04x", 3, .none, "if po, pc = adr"⟩,
  ⟨0xE3, "xhtl", 1, .none, "swap l,(sp); swap h,(sp+1)"⟩,
  ⟨0xE4, "cpo %04x", 3, .none, "if po, call adr"⟩,
  ⟨0xE5, "push h", 1, .none, "(sp-1) = h; (sp-2) = l; sp -= 2"⟩,
  ⟨0xE6, "ani %02x", 2, .all, "a &= byte"⟩,
  ⟨0xE7, "rst 4", 1, .none, "call 0020"⟩,
  ⟨0xE8, "rpe", 1, .none, "if pe, ret"⟩,
  ⟨0xE9, "pchl", 1, .none, "pc.hi = h; pc.lo = l"⟩,
  ⟨0xEA, "jpe %04x", 3, .none, "if pe, pc = adr"⟩,
  ⟨0xEB, "xhtl", 1, .none, "swap h,d; swap l,e"⟩,
  ⟨0xEC, "cpe %04x", 3, .none, "if pe, call adr"⟩,
  ⟨0xED, "*call %04x", 3, .none, "(sp-1) = pc.hi; (sp-2) = pc.lo; sp -= 2; pc = adr"⟩,
  ⟨0xEE, "xri %02x", 2, .all, "a ^= byte"⟩,
  ⟨0xEF, "rst 5", 1, .none, "call 0028"⟩,
  ⟨0xF0, "rp", 1, .none, "if p, ret"⟩,
  ⟨0xF1, "pop psw", 1, .none, "condbits = (sp); a = (sp+1); sp += 2"⟩,
  ⟨0xF2, "jp %04x", 3, .none, "if p, pc = adr"⟩,
  ⟨0xF3, "di", 1, .none, "disable interrupt flip-flop"⟩,
  ⟨0xF4, "cp %04x", 3, .none, "if p, call adr"⟩,
  ⟨0xF5, "push psw", 1, .none, "(sp-2) = condbits; (sp-1) = a; sp -= 2"⟩,
  ⟨0xF6, "ori %02x", 2, .all, "a |= byte"⟩,
  ⟨0xF7, "rst 6", 1, .none, "call 0030"⟩,
  ⟨0xF8, "rm", 1, .none, "if m, ret"⟩,
  ⟨0xF9, "sphl", 1, .none, "sp = hl"⟩,
  ⟨0xFA, "jm %04x", 3, .none, "if m, pc = adr"⟩,
  ⟨0xFB, "ei", 1, .none, "enable interrupt flip-flop"⟩,
  ⟨0xFC, "cm %04x", 3, .none, "if m, call adr"⟩,
  ⟨0xFD, "*call %04x", 3, .none, "(sp-1) = pc.hi; (sp-2) = pc.lo; sp -= 2; pc = adr"⟩,
  ⟨0xFE, "cpi %02x", 2, .all, "a - byte"⟩,
  ⟨0xFF, "rst 7", 1, .none, "call 0038"⟩
]

/-- `s_dasm_lut` -/
def sDasmLut (b : U8) : DasmOpdef :=
  sDasmRows[b.toFin]

/-- Each row is the row of its own code. -/
theorem sDasmLut_code (b : U8) : (sDasmLut b).code = b := by
  revert b
  decide

/-- Every instruction has one to three bytes. -/
theorem sDasmLut_size (b : U8) : 1 ≤ (sDasmLut b).size ∧ (sDasmLut b).size ≤ 3 := by
  revert b
  decide

end Dasm
end AdcLibs
