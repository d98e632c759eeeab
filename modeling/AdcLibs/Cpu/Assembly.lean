import AdcLibs.Cpu.Flow

/-!
# Assembly text

The text of an instruction in assembly language, with the digits of its
operand as given, and a reader for such texts.  Reading a text back gives the
instruction and the digits, so different instructions never share a text.
-/

namespace AdcLibs
namespace Cpu
namespace Reference

/-! ## Writing -/

def Reg.letter : Reg → Char
  | .b => 'b'
  | .c => 'c'
  | .d => 'd'
  | .e => 'e'
  | .h => 'h'
  | .l => 'l'
  | .a => 'a'

def Operand.letter : Operand → Char
  | .reg r => r.letter
  | .mem => 'm'

def Pair.letters : Pair → List Char
  | .b => ['b']
  | .d => ['d']
  | .h => ['h']
  | .sp => ['s', 'p']

def StackPair.letters : StackPair → List Char
  | .b => ['b']
  | .d => ['d']
  | .h => ['h']
  | .psw => ['p', 's', 'w']

def Cond.letters : Cond → List Char
  | .nz => ['n', 'z']
  | .z => ['z']
  | .nc => ['n', 'c']
  | .c => ['c']
  | .po => ['p', 'o']
  | .pe => ['p', 'e']
  | .p => ['p']
  | .m => ['m']

/-- The name of an operation on a register or memory. -/
def AluOp.letters : AluOp → List Char
  | .add => ['a', 'd', 'd']
  | .adc => ['a', 'd', 'c']
  | .sub => ['s', 'u', 'b']
  | .sbb => ['s', 'b', 'b']
  | .ana => ['a', 'n', 'a']
  | .xra => ['x', 'r', 'a']
  | .ora => ['o', 'r', 'a']
  | .cmp => ['c', 'm', 'p']

/-- The name of an operation on an immediate byte. -/
def AluOp.immLetters : AluOp → List Char
  | .add => ['a', 'd', 'i']
  | .adc => ['a', 'c', 'i']
  | .sub => ['s', 'u', 'i']
  | .sbb => ['s', 'b', 'i']
  | .ana => ['a', 'n', 'i']
  | .xra => ['x', 'r', 'i']
  | .ora => ['o', 'r', 'i']
  | .cmp => ['c', 'p', 'i']

/-- The text of an instruction; `ds` are the digits of its operand. -/
def Instr.text (ds : List Char) : Instr → List Char
  | .nop => ['n', 'o', 'p']
  | .mov d s => ['m', 'o', 'v', ' ', d.letter, ',', s.letter]
  | .hlt => ['h', 'l', 't']
  | .inr d => ['i', 'n', 'r', ' ', d.letter]
  | .dcr d => ['d', 'c', 'r', ' ', d.letter]
  | .mvi d => ['m', 'v', 'i', ' ', d.letter, ','] ++ ds
  | .alu op s => op.letters ++ [' ', s.letter]
  | .aluImm op => op.immLetters ++ ' ' :: ds
  | .lxi p => ['l', 'x', 'i', ' '] ++ p.letters ++ ',' :: ds
  | .inx p => ['i', 'n', 'x', ' '] ++ p.letters
  | .dcx p => ['d', 'c', 'x', ' '] ++ p.letters
  | .dad p => ['d', 'a', 'd', ' '] ++ p.letters
  | .push p => ['p', 'u', 's', 'h', ' '] ++ p.letters
  | .pop p => ['p', 'o', 'p', ' '] ++ p.letters
  | .stax p => ['s', 't', 'a', 'x', ' '] ++ p.letters
  | .ldax p => ['l', 'd', 'a', 'x', ' '] ++ p.letters
  | .sta => ['s', 't', 'a', ' ', '('] ++ ds ++ [')']
  | .lda => ['l', 'd', 'a', ' ', '('] ++ ds ++ [')']
  | .shld => ['s', 'h', 'l', 'd', ' ', '('] ++ ds ++ [')']
  | .lhld => ['l', 'h', 'l', 'd', ' ', '('] ++ ds ++ [')']
  | .rlc => ['r', 'l', 'c']
  | .rrc => ['r', 'r', 'c']
  | .ral => ['r', 'a', 'l']
  | .rar => ['r', 'a', 'r']
  | .daa => ['d', 'a', 'a']
  | .cma => ['c', 'm', 'a']
  | .stc => ['s', 't', 'c']
  | .cmc => ['c', 'm', 'c']
  | .jmp => ['j', 'm', 'p', ' '] ++ ds
  | .jmpCond cc => 'j' :: cc.letters ++ ' ' :: ds
  | .call => ['c', 'a', 'l', 'l', ' '] ++ ds
  | .callCond cc => 'c' :: cc.letters ++ ' ' :: ds
  | .ret => ['r', 'e', 't']
  | .retCond cc => 'r' :: cc.letters
  | .rst n => ['r', 's', 't', ' ', Nat.digitChar n.toNat]
  | .pchl => ['p', 'c', 'h', 'l']
  | .sphl => ['s', 'p', 'h', 'l']
  | .xchg => ['x', 'c', 'h', 'g']
  | .xthl => ['x', 't', 'h', 'l']
  | .inp => ['i', 'n', ' '] ++ ds
  | .out => ['o', 'u', 't', ' '] ++ ds
  | .ei => ['e', 'i']
  | .di => ['d', 'i']

/-! ## Reading -/

def readOperand : Char → Option Operand
  | 'b' => some (.reg .b)
  | 'c' => some (.reg .c)
  | 'd' => some (.reg .d)
  | 'e' => some (.reg .e)
  | 'h' => some (.reg .h)
  | 'l' => some (.reg .l)
  | 'a' => some (.reg .a)
  | 'm' => some .mem
  | _ => none

def readPair : List Char → Option Pair
  | ['b'] => some .b
  | ['d'] => some .d
  | ['h'] => some .h
  | ['s', 'p'] => some .sp
  | _ => none

def readStackPair : List Char → Option StackPair
  | ['b'] => some .b
  | ['d'] => some .d
  | ['h'] => some .h
  | ['p', 's', 'w'] => some .psw
  | _ => none

def readCond : List Char → Option Cond
  | ['n', 'z'] => some .nz
  | ['z'] => some .z
  | ['n', 'c'] => some .nc
  | ['c'] => some .c
  | ['p', 'o'] => some .po
  | ['p', 'e'] => some .pe
  | ['p'] => some .p
  | ['m'] => some .m
  | _ => none

def readAluOp : List Char → Option AluOp
  | ['a', 'd', 'd'] => some .add
  | ['a', 'd', 'c'] => some .adc
  | ['s', 'u', 'b'] => some .sub
  | ['s', 'b', 'b'] => some .sbb
  | ['a', 'n', 'a'] => some .ana
  | ['x', 'r', 'a'] => some .xra
  | ['o', 'r', 'a'] => some .ora
  | ['c', 'm', 'p'] => some .cmp
  | _ => none

def readAluImm : List Char → Option AluOp
  | ['a', 'd', 'i'] => some .add
  | ['a', 'c', 'i'] => some .adc
  | ['s', 'u', 'i'] => some .sub
  | ['s', 'b', 'i'] => some .sbb
  | ['a', 'n', 'i'] => some .ana
  | ['x', 'r', 'i'] => some .xra
  | ['o', 'r', 'i'] => some .ora
  | ['c', 'p', 'i'] => some .cmp
  | _ => none

/-- A name without operands. -/
def readPlain : List Char → Option Instr
  | ['n', 'o', 'p'] => some .nop
  | ['h', 'l', 't'] => some .hlt
  | ['r', 'l', 'c'] => some .rlc
  | ['r', 'r', 'c'] => some .rrc
  | ['r', 'a', 'l'] => some .ral
  | ['r', 'a', 'r'] => some .rar
  | ['d', 'a', 'a'] => some .daa
  | ['c', 'm', 'a'] => some .cma
  | ['s', 't', 'c'] => some .stc
  | ['c', 'm', 'c'] => some .cmc
  | ['r', 'e', 't'] => some .ret
  | ['p', 'c', 'h', 'l'] => some .pchl
  | ['s', 'p', 'h', 'l'] => some .sphl
  | ['x', 'c', 'h', 'g'] => some .xchg
  | ['x', 't', 'h', 'l'] => some .xthl
  | ['e', 'i'] => some .ei
  | ['d', 'i'] => some .di
  | 'r' :: cc => (readCond cc).map .retCond
  | _ => none

/-- The operand that is the whole argument. -/
def readSole (arg : List Char) : Option Operand :=
  match arg with
  | [d] => readOperand d
  | _ => none

/-- A name with registers, register pairs or a restart number. -/
def readRegisters (name arg : List Char) : Option Instr :=
  match name with
  | ['m', 'o', 'v'] =>
      (readSole (arg.take 1)).bind fun d => (readSole (arg.drop 2)).map fun s => .mov d s
  | ['i', 'n', 'r'] => (readSole arg).map .inr
  | ['d', 'c', 'r'] => (readSole arg).map .dcr
  | ['i', 'n', 'x'] => (readPair arg).map .inx
  | ['d', 'c', 'x'] => (readPair arg).map .dcx
  | ['d', 'a', 'd'] => (readPair arg).map .dad
  | ['p', 'u', 's', 'h'] => (readStackPair arg).map .push
  | ['p', 'o', 'p'] => (readStackPair arg).map .pop
  | ['s', 't', 'a', 'x'] => (readPair arg).map .stax
  | ['l', 'd', 'a', 'x'] => (readPair arg).map .ldax
  | ['r', 's', 't'] => arg.head?.map fun n => .rst (BitVec.ofNat 3 (n.toNat - '0'.toNat))
  | name => (readAluOp name).bind fun op => (readSole arg).map fun s => .alu op s

/-- A name with digits; the digits are what is left. -/
def readDigits (name arg : List Char) : Option (Instr × List Char) :=
  match name with
  | ['m', 'v', 'i'] => (readSole (arg.take 1)).map fun d => (.mvi d, arg.drop 2)
  | ['l', 'x', 'i'] =>
      (readPair (arg.takeWhile (· ≠ ','))).map fun p =>
        (.lxi p, (arg.dropWhile (· ≠ ',')).drop 1)
  | ['s', 't', 'a'] => some (.sta, (arg.drop 1).dropLast)
  | ['l', 'd', 'a'] => some (.lda, (arg.drop 1).dropLast)
  | ['s', 'h', 'l', 'd'] => some (.shld, (arg.drop 1).dropLast)
  | ['l', 'h', 'l', 'd'] => some (.lhld, (arg.drop 1).dropLast)
  | ['j', 'm', 'p'] => some (.jmp, arg)
  | ['c', 'a', 'l', 'l'] => some (.call, arg)
  | ['i', 'n'] => some (.inp, arg)
  | ['o', 'u', 't'] => some (.out, arg)
  | 'j' :: cc => (readCond cc).map fun cc => (.jmpCond cc, arg)
  | name =>
      match readAluImm name, name with
      | some op, _ => some (.aluImm op, arg)
      | none, 'c' :: cc => (readCond cc).map fun cc => (.callCond cc, arg)
      | none, _ => none

/-- Read a text: the instruction and the digits of its operand. -/
def readText (text : List Char) : Option (Instr × List Char) :=
  let name := text.takeWhile (· ≠ ' ')
  match text.dropWhile (· ≠ ' ') with
  | [] => (readPlain name).map fun i => (i, [])
  | _ :: arg =>
      match readRegisters name arg with
      | some i => some (i, [])
      | none => readDigits name arg

@[simp] theorem readSole_letter (d : Operand) : readSole [d.letter] = some d := by
  cases d with
  | reg r => cases r <;> rfl
  | mem => rfl

/-- What is written can be read back. -/
theorem readText_text (i : Instr) {ds : List Char} (h : i.operandBytes = 0 → ds = []) :
    readText (i.text ds) = some (i, ds) := by
  -- the digits in parentheses
  have hparen : ∀ i : Instr, some (i, (ds ++ [')']).dropLast) = some (i, ds) := by
    intro i
    rw [List.dropLast_concat]
  cases i with
  | mov d s =>
      obtain rfl := h rfl
      have hread : readText ((Instr.mov d s).text []) =
          match (readSole [d.letter]).bind fun d =>
            (readSole [s.letter]).map fun s => Instr.mov d s with
          | some i => some (i, [])
          | none => readDigits ['m', 'o', 'v'] [d.letter, ',', s.letter] := rfl
      rw [hread, readSole_letter, readSole_letter]
      rfl
  | inr d | dcr d =>
      obtain rfl := h rfl
      cases d with
      | reg r => cases r <;> rfl
      | mem => rfl
  | mvi d =>
      cases d with
      | reg r => cases r <;> rfl
      | mem => rfl
  | alu op s =>
      obtain rfl := h rfl
      cases op <;> cases s with
      | reg r => cases r <;> rfl
      | mem => rfl
  | aluImm op => cases op <;> rfl
  | lxi p => cases p <;> rfl
  | inx p | dcx p | dad p | push p | pop p | stax p | ldax p =>
      obtain rfl := h rfl
      cases p <;> rfl
  | sta => exact hparen .sta
  | lda => exact hparen .lda
  | shld => exact hparen .shld
  | lhld => exact hparen .lhld
  | jmp | call | inp | out => rfl
  | jmpCond cc | callCond cc => cases cc <;> rfl
  | retCond cc =>
      obtain rfl := h rfl
      cases cc <;> rfl
  | rst n =>
      obtain rfl := h rfl
      revert n
      decide
  | _ =>
      obtain rfl := h rfl
      rfl

/-- The text determines the instruction and the digits of its operand. -/
theorem text_injective {i j : Instr} {ds es : List Char} (hi : i.operandBytes = 0 → ds = [])
    (hj : j.operandBytes = 0 → es = []) (h : i.text ds = j.text es) : i = j ∧ ds = es := by
  have hread : some (i, ds) = some (j, es) := by
    rw [← readText_text i hi, h, readText_text j hj]
  exact Prod.mk.inj (Option.some.inj hread)

end Reference
end Cpu
end AdcLibs
