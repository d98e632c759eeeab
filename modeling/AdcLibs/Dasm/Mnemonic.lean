import AdcLibs.Dasm.Disassemble

/-!
# `mnemonic_to_string`

The text of an instruction with its operand.  Of `snprintf` the table needs one
conversion, lower-case hexadecimal padded with zeros.
-/

namespace AdcLibs
namespace Dasm

open Cpu

def snprintfBufsize : Nat := 64

/-- `WORD_FROM_BYTES` -/
def wordFromBytes (high low : U8) : U16 :=
  high.setWidth 16 <<< 8 ||| low.setWidth 16

/-- `n` in lower-case hexadecimal, with zeros in front up to `width` digits. -/
def hexText (width n : Nat) : List Char :=
  let digits := Nat.toDigits 16 n
  List.replicate (width - digits.length) '0' ++ digits

/-- The text of a format with the argument `n` for its conversion `%0wx`. -/
def formatText : List Char → Nat → List Char
  | '%' :: '0' :: w :: 'x' :: fmt, n => hexText (w.toNat - '0'.toNat) n ++ fmt
  | c :: fmt, n => c :: formatText fmt n
  | [], _ => []

/-- `snprintf(dst, num, fmt, n)`; the terminator takes the last character. -/
def snprintf (num : Nat) (fmt : String) (n : Nat) : String :=
  String.ofList ((formatText fmt.toList n).take (num - 1))

/-- The operand of an instruction. -/
inductive OperandArg
  | none
  | byte (b : U8)
  | word (w : U16)
deriving DecidableEq, Repr

/-- The argument that `mnemonic_to_string` passes to `snprintf`. -/
def mnemonicArg (dasm : DasmDisassembly) (op : DasmOp) : OperandArg :=
  match op.opdef.size with
  | 2 => .byte (dasm.memory (op.addr.toNat + 1))
  | 3 =>
      .word (wordFromBytes (dasm.memory (op.addr.toNat + 2))
        (dasm.memory (op.addr.toNat + 1)))
  | _ => .none

/-- `mnemonic_to_string`; only sizes 1 to 3 have a text. -/
def mnemonicToString (dasm : DasmDisassembly) (op : DasmOp) : String :=
  match op.opdef.size, mnemonicArg dasm op with
  | 1, _ => String.ofList (op.opdef.mnemonic.toList.take snprintfBufsize)
  | 2, .byte b => snprintf snprintfBufsize op.opdef.mnemonic b.toNat
  | 3, .word w => snprintf snprintfBufsize op.opdef.mnemonic w.toNat
  | _, _ => ""

example : snprintf snprintfBufsize "lxi b,%04x" 0x2A = "lxi b,002a" := by decide

end Dasm
end AdcLibs
