import AdcLibs.Cpu.Assembly
import AdcLibs.Dasm.Boundaries

/-!
# Disassembly text and meaning

The rows of the table are assembly text, up to a few names of their own.  What
`mnemonic_to_string` prints can therefore be read back: the text determines the
instruction and its operand bytes, and with them the effect of `exec_next`.
The exception are the rows `E3` and `EB`, which both print `xhtl`.
-/

namespace AdcLibs
namespace Dasm

open Cpu Cpu.Reference

/-! ## Digits -/

/-- The value of a lower-case hexadecimal digit. -/
def hexDigit (c : Char) : Nat :=
  if c.toNat ≤ '9'.toNat then c.toNat - '0'.toNat else c.toNat - 'a'.toNat + 10

def hexValue (ds : List Char) : Nat :=
  ds.foldl (fun v c => 16 * v + hexDigit c) 0

theorem hexDigit_digitChar {d : Nat} (h : d < 16) : hexDigit (Nat.digitChar d) = d := by
  have hall : ∀ d : Fin 16, hexDigit (Nat.digitChar d) = d := by decide
  exact hall ⟨d, h⟩

theorem hexValue_concat (ds : List Char) (c : Char) :
    hexValue (ds ++ [c]) = 16 * hexValue ds + hexDigit c := by
  simp [hexValue]

theorem hexValue_toDigits (n : Nat) : hexValue (Nat.toDigits 16 n) = n := by
  induction n using Nat.strongRecOn with
  | ind n ih =>
      by_cases h : n < 16
      · rw [Nat.toDigits_of_lt_base h]
        simp [hexValue, hexDigit_digitChar h]
      · rw [Nat.toDigits_of_base_le (by decide) (Nat.le_of_not_lt h), hexValue_concat,
          ih (n / 16) (by omega), hexDigit_digitChar (by omega)]
        omega

/-- Zeros in front do not change the value. -/
theorem hexValue_zeros (k : Nat) (ds : List Char) :
    hexValue (List.replicate k '0' ++ ds) = hexValue ds := by
  induction k with
  | zero => rfl
  | succ k ih =>
      rw [← ih]
      rfl

theorem hexValue_hexText (width n : Nat) : hexValue (hexText width n) = n := by
  rw [hexText, hexValue_zeros, hexValue_toDigits]

theorem hexText_length {width n : Nat} (hwidth : 0 < width) (h : n < 16 ^ width) :
    (hexText width n).length = width := by
  have hdigits : (Nat.toDigits 16 n).length ≤ width :=
    (Nat.length_toDigits_le_iff (by decide) hwidth).mpr h
  simp only [hexText, List.length_append, List.length_replicate]
  omega

/-- The digits that are printed for an operand. -/
def OperandArg.digits : OperandArg → List Char
  | .none => []
  | .byte b => hexText 2 b.toNat
  | .word w => hexText 4 w.toNat

theorem OperandArg.digits_length_le (arg : OperandArg) : arg.digits.length ≤ 4 := by
  cases arg with
  | none => decide
  | byte b =>
      have hlength : (hexText 2 b.toNat).length = 2 :=
        hexText_length (by decide) (Nat.lt_of_lt_of_le b.isLt (by decide))
      exact hlength.le.trans (by decide)
  | word w =>
      have hlength : (hexText 4 w.toNat).length = 4 :=
        hexText_length (by decide) (Nat.lt_of_lt_of_le w.isLt (by decide))
      exact hlength.le

/-! ## Rows -/

/-- The conversion in the format of an instruction with `n` operand bytes. -/
def conversion : Nat → List Char
  | 1 => ['%', '0', '2', 'x']
  | 2 => ['%', '0', '4', 'x']
  | _ => []

/-- The text of a row: assembly text but for `dad so`, the two rows `xhtl`, and a star
in front of a second encoding. -/
def rowText (b : U8) (ds : List Char) : List Char :=
  match b with
  | 0x39 => ['d', 'a', 'd', ' ', 's', 'o']
  | 0xE3 | 0xEB => ['x', 'h', 't', 'l']
  | 0xCB | 0xD9 | 0xDD | 0xED | 0xFD => '*' :: (decode b).text ds
  | b => (decode b).text ds

set_option maxRecDepth 10000 in
theorem sDasmRows_mnemonic : sDasmRows.toList.map DasmOpdef.mnemonic =
    (List.range 256).map fun i =>
      String.ofList (rowText (BitVec.ofNat 8 i)
        (conversion (decode (BitVec.ofNat 8 i)).operandBytes)) :=
  rfl

/-- Each format of the table is the text of its row with a conversion for the operand. -/
theorem sDasmLut_mnemonic (b : U8) :
    (sDasmLut b).mnemonic =
      String.ofList (rowText b (conversion (decode b).operandBytes)) := by
  have hrow : (sDasmRows.toList.map DasmOpdef.mnemonic)[b.toNat]? =
      some (sDasmLut b).mnemonic := by
    simp [sDasmLut, b.isLt]
  rw [sDasmRows_mnemonic] at hrow
  simpa [b.isLt] using hrow.symm

/-- The digits for the value `n` of `k` operand bytes. -/
def operandDigits (k n : Nat) : List Char :=
  match k with
  | 1 => hexText 2 n
  | 2 => hexText 4 n
  | _ => []

/-- Printing an operand puts its digits in the place of the conversion. -/
theorem formatText_text (i : Instr) (n : Nat) :
    formatText (i.text (conversion i.operandBytes)) n =
      i.text (operandDigits i.operandBytes n) := by
  -- a conversion at the end of the format leaves an empty rest
  have hend : ∀ ds : List Char, i.text (ds ++ []) = i.text ds := fun ds => by
    rw [List.append_nil]
  cases i with
  | mov d s => cases d with
    | reg r => cases r <;> cases s with
      | reg r => cases r <;> rfl
      | mem => rfl
    | mem => cases s with
      | reg r => cases r <;> rfl
      | mem => rfl
  | inr d | dcr d => cases d with
    | reg r => cases r <;> rfl
    | mem => rfl
  | mvi d => cases d with
    | reg r => cases r <;> exact hend (hexText 2 n)
    | mem => exact hend (hexText 2 n)
  | alu op s => cases op <;> cases s with
    | reg r => cases r <;> rfl
    | mem => rfl
  | aluImm op => cases op <;> exact hend (hexText 2 n)
  | lxi p => cases p <;> exact hend (hexText 4 n)
  | inx p | dcx p | dad p | push p | pop p | stax p | ldax p => cases p <;> rfl
  | jmpCond cc | callCond cc => cases cc <;> exact hend (hexText 4 n)
  | retCond cc => cases cc <;> rfl
  | jmp | call => exact hend (hexText 4 n)
  | inp | out => exact hend (hexText 2 n)
  | rst k =>
      have hlast : ∀ c, formatText [c] n = [c] := fun c => by simp [formatText]
      exact congrArg (['r', 's', 't', ' '] ++ ·) (hlast _)
  | _ => rfl

theorem formatText_rowText (b : U8) (n : Nat) :
    formatText (rowText b (conversion (decode b).operandBytes)) n =
      rowText b (operandDigits (decode b).operandBytes n) := by
  unfold rowText
  split
  all_goals first
    | rfl
    | exact congrArg ('*' :: ·) (formatText_text _ n)
    | exact formatText_text _ n

theorem text_length_le (i : Instr) (ds : List Char) : (i.text ds).length ≤ ds.length + 8 := by
  cases i with
  | lxi p => cases p <;> simp [Instr.text, Pair.letters]
  | inx p | dcx p | dad p | stax p | ldax p => cases p <;> simp [Instr.text, Pair.letters]
  | push p | pop p => cases p <;> simp [Instr.text, StackPair.letters]
  | jmpCond cc | callCond cc | retCond cc => cases cc <;> simp [Instr.text, Cond.letters]
  | alu op s => cases op <;> simp [Instr.text, AluOp.letters]
  | aluImm op => cases op <;> simp [Instr.text, AluOp.immLetters]
  | _ => simp [Instr.text]

theorem rowText_length_le (b : U8) (ds : List Char) :
    (rowText b ds).length ≤ ds.length + 9 := by
  have htext := text_length_le (decode b) ds
  unfold rowText
  split
  all_goals first
    | exact (by decide : _ ≤ 9).trans (Nat.le_add_left 9 ds.length)
    | exact Nat.succ_le_succ htext
    | exact htext.trans (Nat.le_succ _)

/-- The buffer has room for every text. -/
theorem take_rowText (b : U8) (arg : OperandArg) {num : Nat} (h : snprintfBufsize - 1 ≤ num) :
    (rowText b arg.digits).take num = rowText b arg.digits := by
  have hlength := rowText_length_le b arg.digits
  have hdigits := arg.digits_length_le
  have hsize : snprintfBufsize = 64 := rfl
  exact List.take_of_length_le (by omega)

/-- What `mnemonic_to_string` prints for a row of the table. -/
theorem mnemonicToString_eq (dasm : DasmDisassembly) (b : U8) (addr : U16) (index : Int) :
    mnemonicToString dasm ⟨sDasmLut b, addr, index⟩ =
      String.ofList (rowText b (mnemonicArg dasm ⟨sDasmLut b, addr, index⟩).digits) := by
  have hsize := sDasmLut_size_eq b
  have hbytes : (decode b).operandBytes ≤ 2 := by
    have hle := (sDasmLut_size b).2
    omega
  have hformat := formatText_rowText b
  simp only [mnemonicToString, mnemonicArg, hsize, sDasmLut_mnemonic]
  rcases Nat.le_iff_lt_or_eq.mp hbytes with hlt | h
  · rcases Nat.le_iff_lt_or_eq.mp (Nat.le_of_lt_succ hlt) with hlt | h
    · have h : (decode b).operandBytes = 0 := Nat.lt_one_iff.mp hlt
      have htake := take_rowText b .none (show snprintfBufsize - 1 ≤ snprintfBufsize by decide)
      simp only [h, conversion, String.toList_ofList]
      exact congrArg String.ofList htake
    · simp only [h, operandDigits] at hformat ⊢
      simp only [snprintf, String.toList_ofList, hformat]
      exact congrArg String.ofList (take_rowText b (.byte _) (by decide))
  · simp only [h, operandDigits] at hformat ⊢
    simp only [snprintf, String.toList_ofList, hformat]
    exact congrArg String.ofList (take_rowText b (.word _) (by decide))

/-! ## Reading a row back -/

/-- The texts of a row that are not assembly text; `xhtl` is taken for `XTHL`. -/
def readAlias (text : List Char) : Option (Instr × List Char) :=
  match text with
  | '*' :: text => readText text
  | ['d', 'a', 'd', ' ', 's', 'o'] => some (.dad .sp, [])
  | ['x', 'h', 't', 'l'] => some (.xthl, [])
  | _ => none

def readRow (text : List Char) : Option (Instr × List Char) :=
  (readText text).or (readAlias text)

theorem readRow_rowText {b : U8} (hb : b ≠ 0xEB) {ds : List Char}
    (hds : (decode b).operandBytes = 0 → ds = []) :
    readRow (rowText b ds) = some (decode b, ds) := by
  unfold rowText
  split
  all_goals first
    | exact absurd rfl hb
    | rfl
    | obtain rfl := hds (by decide)
      rfl
    | rw [readRow, readText_text _ hds, Option.some_or]

theorem hexText_inj {width n n' : Nat} (h : hexText width n = hexText width n') : n = n' := by
  rw [← hexValue_hexText width n, h, hexValue_hexText]

/-- The digits and the number of operand bytes determine the operand. -/
theorem mnemonicArg_eq {dasm dasm' : DasmDisassembly} {op op' : DasmOp}
    (hsize : op.opdef.size = op'.opdef.size)
    (hdigits : (mnemonicArg dasm op).digits = (mnemonicArg dasm' op').digits) :
    mnemonicArg dasm op = mnemonicArg dasm' op' := by
  unfold mnemonicArg at hdigits ⊢
  rw [← hsize] at hdigits ⊢
  split at hdigits
  · exact congrArg OperandArg.byte (BitVec.eq_of_toNat_eq (hexText_inj hdigits))
  · exact congrArg OperandArg.word (BitVec.eq_of_toNat_eq (hexText_inj hdigits))
  · rfl

theorem mnemonicArg_digits_eq_nil {dasm : DasmDisassembly} {b : U8} {addr : U16} {index : Int}
    (h : (decode b).operandBytes = 0) :
    (mnemonicArg dasm ⟨sDasmLut b, addr, index⟩).digits = [] := by
  have hsize : (sDasmLut b).size = 1 := by rw [sDasmLut_size_eq, h]
  simp only [mnemonicArg, hsize]
  rfl

/-! ## Text and meaning -/

/-- The two rows that print the same text for different instructions. -/
def Confused (b b' : U8) : Prop :=
  (b = 0xE3 ∧ b' = 0xEB) ∨ (b = 0xEB ∧ b' = 0xE3)

instance (b b' : U8) : Decidable (Confused b b') :=
  inferInstanceAs (Decidable (_ ∨ _))

/-- Only the row `E3` shares its text with the row `EB`. -/
theorem eq_of_rowText_xchg {b : U8} {ds es : List Char} (hb : b ≠ 0xEB)
    (hds : (decode b).operandBytes = 0 → ds = []) (h : rowText b ds = rowText 0xEB es) :
    b = 0xE3 := by
  have hxthl : ∀ b : U8, decode b = .xthl → b = 0xE3 := by decide
  have hread : readRow (rowText b ds) = readRow (rowText 0xE3 []) := congrArg readRow h
  rw [readRow_rowText hb hds, readRow_rowText (by decide) fun _ => rfl] at hread
  exact hxthl b (Prod.mk.inj (Option.some.inj hread)).1

/-- Equal texts come from one instruction with one operand, but for the confused rows. -/
theorem decode_eq_of_text {dasm dasm' : DasmDisassembly} {b b' : U8} {addr addr' : U16}
    {index index' : Int} (hconf : ¬ Confused b b')
    (h : mnemonicToString dasm ⟨sDasmLut b, addr, index⟩ =
      mnemonicToString dasm' ⟨sDasmLut b', addr', index'⟩) :
    decode b = decode b' ∧ mnemonicArg dasm ⟨sDasmLut b, addr, index⟩ =
      mnemonicArg dasm' ⟨sDasmLut b', addr', index'⟩ := by
  have hnil := @mnemonicArg_digits_eq_nil dasm b addr index
  have hnil' := @mnemonicArg_digits_eq_nil dasm' b' addr' index'
  rw [mnemonicToString_eq, mnemonicToString_eq, String.ofList_inj] at h
  have harg (hdecode : decode b = decode b') := @mnemonicArg_eq dasm dasm'
    ⟨sDasmLut b, addr, index⟩ ⟨sDasmLut b', addr', index'⟩
    (by rw [sDasmLut_size_eq, sDasmLut_size_eq, hdecode])
  by_cases hb : b = 0xEB
  · by_cases hb' : b' = 0xEB
    · subst hb hb'
      exact ⟨rfl, harg rfl (by rw [hnil (by decide), hnil' (by decide)])⟩
    · subst hb
      exact absurd (Or.inr ⟨rfl, eq_of_rowText_xchg hb' hnil' h.symm⟩) hconf
  · by_cases hb' : b' = 0xEB
    · subst hb'
      exact absurd (Or.inl ⟨eq_of_rowText_xchg hb hnil h, rfl⟩) hconf
    · have hread := congrArg readRow h
      rw [readRow_rowText hb hnil, readRow_rowText hb' hnil'] at hread
      obtain ⟨hdecode, hdigits⟩ := Prod.mk.inj (Option.some.inj hread)
      exact ⟨hdecode, harg hdecode hdigits⟩

section Effect

variable {D : Type}

/-- Data memory with the operand bytes behind an opcode byte that has been fetched. -/
def placed (arg : OperandArg) (m : Machine (Ram D)) : Machine (Ram D) :=
  match arg with
  | .none => m
  | .byte b =>
      { m with world :=
        { m.world with mem := Function.update m.world.mem m.cpu.pc b } }
  | .word w =>
      { m with world :=
        { m.world with
          mem := Function.update
            (Function.update m.world.mem m.cpu.pc (w.extractLsb' 0 8))
            (m.cpu.pc + 1) (w.extractLsb' 8 8) } }

end Effect

/-- `exec_next` does the same for two instructions with their operand bytes. -/
def SameEffect (b : U8) (arg : OperandArg) (b' : U8) (arg' : OperandArg) : Prop :=
  ∀ (D : Type) (self : Ptr) (devices : Devices D) (m : Machine (Ram D)),
    execNext (ramEnv self devices) b (placed arg m) =
      execNext (ramEnv self devices) b' (placed arg' m)

/-- The opcode byte counts by its instruction only. -/
theorem execNext_congr {W : Type} (E : Env W) {b b' : U8} (h : decode b = decode b')
    (m : Machine W) : execNext E b m = execNext E b' m := by
  rw [execNext_eq_exec, execNext_eq_exec, Reference.exec, Reference.exec, h]

/-- `XTHL` reads the stack, which `XCHG` does not. -/
theorem not_sameEffect_of_confused {b b' : U8} {arg arg' : OperandArg} (h : Confused b b')
    (harg : arg = .none) (harg' : arg' = .none) : ¬ SameEffect b arg b' arg' := by
  intro hsame
  have hcycles := congrArg (fun m => m.cpu.cycles)
    (hsame Unit 0 noDevices ⟨zeroCpu, zeroRam⟩)
  rcases h with ⟨rfl, rfl⟩ | ⟨rfl, rfl⟩
  all_goals
    subst harg harg'
    exact absurd hcycles (by decide)

/--
The text that is printed for an instruction determines its meaning, but for the
two rows that both print `xhtl`.
-/
theorem text_determines_meaning_iff (dasm dasm' : DasmDisassembly) (b b' : U8)
    (addr addr' : U16) (index index' : Int) :
    (mnemonicToString dasm ⟨sDasmLut b, addr, index⟩ =
        mnemonicToString dasm' ⟨sDasmLut b', addr', index'⟩ →
      SameEffect b (mnemonicArg dasm ⟨sDasmLut b, addr, index⟩)
        b' (mnemonicArg dasm' ⟨sDasmLut b', addr', index'⟩)) ↔
      ¬ Confused b b' := by
  constructor
  · intro hmeaning hconf
    have htext : mnemonicToString dasm ⟨sDasmLut b, addr, index⟩ =
        mnemonicToString dasm' ⟨sDasmLut b', addr', index'⟩ := by
      rw [mnemonicToString_eq, mnemonicToString_eq]
      rcases hconf with ⟨rfl, rfl⟩ | ⟨rfl, rfl⟩ <;> rfl
    refine not_sameEffect_of_confused hconf ?_ ?_ (hmeaning htext)
    · rcases hconf with ⟨rfl, rfl⟩ | ⟨rfl, rfl⟩ <;> rfl
    · rcases hconf with ⟨rfl, rfl⟩ | ⟨rfl, rfl⟩ <;> rfl
  · intro hconf htext D self devices m
    obtain ⟨hdecode, harg⟩ := decode_eq_of_text hconf htext
    rw [harg]
    exact execNext_congr _ hdecode _

/-- A disassembly of `XTHL` and `XCHG`. -/
def exchangeDisassembly : DasmDisassembly where
  memory a := if a = 0 then 0xE3 else 0xEB
  programSize := 2
  ops := [⟨sDasmLut 0xE3, 0, 0⟩, ⟨sDasmLut 0xEB, 1, 1⟩]
  numOps := 2

theorem xthl_xchg_share_text :
    mnemonicToString exchangeDisassembly ⟨sDasmLut 0xE3, 0, 0⟩ =
        mnemonicToString exchangeDisassembly ⟨sDasmLut 0xEB, 1, 1⟩ ∧
      ¬ SameEffect 0xE3 (mnemonicArg exchangeDisassembly ⟨sDasmLut 0xE3, 0, 0⟩)
        0xEB (mnemonicArg exchangeDisassembly ⟨sDasmLut 0xEB, 1, 1⟩) := by
  constructor
  · decide
  · exact not_sameEffect_of_confused (by decide) rfl rfl

end Dasm
end AdcLibs
