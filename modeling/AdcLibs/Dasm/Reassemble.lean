import AdcLibs.Cpu.Encoding
import AdcLibs.Dasm.OpToString
import AdcLibs.Dasm.Text
import AdcLibs.Library.Columns
import Mathlib.Data.List.Forall2

/-!
# The printed disassembly as a source

What `8080_dasm_test.c` prints for a program can be assembled again: the columns of a line
give the address, the instruction and its operand bytes.  The description tells the rows
`E3` and `EB` apart, which share their mnemonic; only second encodings of an instruction
are lost.
-/

namespace AdcLibs
namespace Dasm

open Columns Cpu Cpu.Reference

/-- What the loop of `8080_dasm_test.c` prints, where every `malloc` succeeds. -/
def printedListing (dasm : DasmDisassembly) : List Char :=
  (dasm.ops.take dasm.numOps).flatMap fun op => (adc8080DasmOpToString dasm op).toList ++ ['\n']

/-! ## Assembling -/

/-- A line that has been assembled. -/
structure AssembledLine where
  addr : U16
  bytes : List U8
deriving DecidableEq, Repr

/-- The bytes of an operand, the low one first. -/
def operandCode (i : Instr) (value : Nat) : List U8 :=
  match i.operandBytes with
  | 1 => [BitVec.ofNat 8 value]
  | 2 => [BitVec.ofNat 8 value, BitVec.ofNat 8 (value / 2 ^ 8)]
  | _ => []

/-- The description of the row `EB`. -/
def exchangeDesc : List Char := (sDasmLut 0xEB).desc.toList

/-- The instruction of a line, with the digits of its operand. -/
def readOperation (mnemonic desc : List Char) : Option (Instr × List Char) :=
  if mnemonic = ['x', 'h', 't', 'l'] ∧ desc = exchangeDesc then some (.xchg, [])
  else readRow mnemonic

/-- Assemble a line; its columns start at 0, 8 and 74. -/
def assembleLine (line : List Char) : Option AssembledLine :=
  (readOperation (trim ' ' ((line.drop 8).take 15)) (line.drop 74)).map fun operation =>
    ⟨BitVec.ofNat 16 (hexValue (line.take 4)),
      operation.1.opcode :: operandCode operation.1 (hexValue operation.2)⟩

/-- Assemble a listing. -/
def assemble (text : List Char) : Option (List AssembledLine) :=
  readLines '\n' assembleLine text

/-! ## Columns of a line -/

theorem mem_toDigits {n : Nat} {c : Char} (h : c ∈ Nat.toDigits 16 n) :
    ∃ d : Fin 16, c = Nat.digitChar d := by
  induction n using Nat.strongRecOn with
  | ind n ih =>
      by_cases hn : n < 16
      · rw [Nat.toDigits_of_lt_base hn, List.mem_singleton] at h
        exact ⟨⟨n, hn⟩, h⟩
      · rw [Nat.toDigits_of_base_le (by decide) (Nat.le_of_not_lt hn), List.mem_append,
          List.mem_singleton] at h
        rcases h with h | h
        · exact ih (n / 16) (by omega) h
        · exact ⟨⟨n % 16, by omega⟩, h⟩

/-- Digits are no blanks and no line ends. -/
theorem mem_hexText {width n : Nat} {c : Char} (h : c ∈ hexText width n) : c ≠ ' ' ∧ c ≠ '\n' := by
  have hall : ∀ d : Fin 16, Nat.digitChar d ≠ ' ' ∧ Nat.digitChar d ≠ '\n' := by decide
  rw [hexText, List.mem_append] at h
  rcases h with h | h
  · rw [List.eq_of_mem_replicate h]
    decide
  · obtain ⟨d, rfl⟩ := mem_toDigits h
    exact hall d

/-- A text that ends in no blank and contains no line end. -/
structure Clean (text : List Char) : Prop where
  last : text.getLast? ≠ some ' '
  noLineEnd : '\n' ∉ text

instance (text : List Char) : Decidable (Clean text) :=
  decidable_of_iff (text.getLast? ≠ some ' ' ∧ '\n' ∉ text)
    ⟨fun h => ⟨h.1, h.2⟩, fun h => ⟨h.last, h.noLineEnd⟩⟩

theorem getLast?_hexText (width n : Nat) : (hexText width n).getLast? ≠ some ' ' ∧
    (hexText width n).getLast? ≠ none := by
  constructor
  · exact fun h => (mem_hexText (List.mem_of_getLast? h)).1 rfl
  · simp [hexText, Nat.toDigits_ne_nil]

/-- An argument in a format whose end is no blank; `front` is what is printed already. -/
theorem formatText_last (fmt : List Char) (n : Nat) (front : List Char)
    (h : (front ++ fmt).getLast? ≠ some ' ') : (front ++ formatText fmt n).getLast? ≠ some ' ' := by
  induction fmt, n using formatText.induct generalizing front with
  | case1 w fmt n =>
      obtain ⟨hblank, hsome⟩ := getLast?_hexText (w.toNat - '0'.toNat) n
      rw [formatText, List.getLast?_append, List.getLast?_append]
      cases hend : fmt.getLast? with
      | none =>
          obtain ⟨c, hc⟩ := Option.ne_none_iff_exists'.mp hsome
          rwa [Option.none_or, hc, Option.some_or, ← hc]
      | some c =>
          have hfmt : (front ++ '%' :: '0' :: w :: 'x' :: fmt).getLast? = some c := by
            simp [List.getLast?_append, List.getLast?_cons, hend]
          rwa [hfmt] at h
  | case2 c fmt n hne ih =>
      rw [formatText.eq_2 _ _ _ hne, List.append_cons]
      exact ih (front ++ [c]) (List.append_cons front c fmt ▸ h)
  | case3 n => rwa [formatText]

theorem formatText_noLineEnd {fmt : List Char} (h : '\n' ∉ fmt) (n : Nat) :
    '\n' ∉ formatText fmt n := by
  induction fmt, n using formatText.induct with
  | case1 w fmt n =>
      rw [formatText, List.mem_append]
      exact not_or.mpr ⟨fun h => (mem_hexText h).2 rfl, fun hmem => h (by simp [hmem])⟩
  | case2 c fmt n hne ih =>
      obtain ⟨hc, hfmt⟩ := not_or.mp fun hor => h (List.mem_cons.mpr hor)
      rw [formatText.eq_2 _ _ _ hne, List.mem_cons]
      exact not_or.mpr ⟨hc, ih hfmt⟩
  | case3 n => rwa [formatText]

/-- An argument in a clean format gives a clean text. -/
theorem formatText_clean {fmt : List Char} (h : Clean fmt) (n : Nat) :
    Clean (formatText fmt n) :=
  ⟨formatText_last fmt n [] h.last, formatText_noLineEnd h.noLineEnd n⟩

/-- The formats of the table are clean. -/
theorem rowText_conversion_clean (b : U8) :
    Clean (rowText b (conversion (decode b).operandBytes)) := by
  revert b
  decide +kernel

/-- A text whose bytes are no line ends contains none. -/
theorem noLineEnd_of_bytes {s : String} (h : s.toByteArray.data.toList.all (· != 10) = true) :
    '\n' ∉ s.toList := by
  intro hmem
  have hbytes : s.toByteArray.data.toList = s.toList.flatMap String.utf8EncodeChar := by
    have hencode := @String.toByteArray_ofList s.toList
    rw [String.ofList_toList] at hencode
    rw [hencode, List.utf8Encode, List.data_toByteArray]
  have hten : (10 : UInt8) ∈ s.toByteArray.data.toList := by
    rw [hbytes]
    exact List.mem_flatMap.mpr ⟨_, hmem, by decide⟩
  exact absurd (List.all_eq_true.mp h 10 hten) (by decide)

set_option maxRecDepth 10000 in
theorem sDasmRows_desc_bytes : sDasmRows.toList.all (fun row =>
    row.desc.toByteArray.data.toList.all (· != 10)) = true := by
  decide +kernel

theorem sDasmLut_desc_noLineEnd (b : U8) : '\n' ∉ (sDasmLut b).desc.toList := by
  refine noLineEnd_of_bytes (List.all_eq_true.mp sDasmRows_desc_bytes _ ?_)
  exact Vector.mem_toList_iff.mpr (Vector.getElem_mem _)

/-! ## The bytes of an operation -/

/-- The `n` bytes of memory from `start` on. -/
def bytesAt (memory : Nat → U8) (start n : Nat) : List U8 :=
  (List.range n).map fun k => memory (start + k)

theorem bytesAt_add (memory : Nat → U8) (start n k : Nat) :
    bytesAt memory start (n + k) = bytesAt memory start n ++ bytesAt memory (start + n) k := by
  simp only [bytesAt, List.range_add, List.map_append, List.map_map, Function.comp_def,
    Nat.add_assoc]

/-- The bytes of an operation in memory. -/
def opBytes (memory : Nat → U8) (op : DasmOp) : List U8 :=
  bytesAt memory op.addr.toNat op.opdef.size

/-- The two bytes of a word. -/
theorem ofNat_word (high low : U8) :
    BitVec.ofNat 8 (wordFromBytes high low).toNat = low ∧
      BitVec.ofNat 8 ((wordFromBytes high low).toNat / 2 ^ 8) = high := by
  have hword : wordFromBytes high low = high ++ low := wordFromBytes_eq high low
  rw [hword]
  constructor
  · rw [BitVec.ofNat_toNat]
    exact lowByte_append high low
  · refine (BitVec.eq_of_toNat_eq ?_).trans (highByte_append high low)
    simp [Nat.shiftRight_eq_div_pow]

section Operation

variable {dasm : DasmDisassembly} {b : U8} {addr : U16} {index : Int}

/-- The digits of the operand give its bytes. -/
theorem operandCode_digits :
    operandCode (decode b) (hexValue (mnemonicArg dasm ⟨sDasmLut b, addr, index⟩).digits) =
      (opBytes dasm.memory ⟨sDasmLut b, addr, index⟩).tail := by
  have hsize := sDasmLut_size_eq b
  have hbytes : (decode b).operandBytes ≤ 2 := by
    have hle := (sDasmLut_size b).2
    omega
  simp only [opBytes, bytesAt, mnemonicArg, hsize, operandCode]
  interval_cases h : (decode b).operandBytes
  · rfl
  · simp only [OperandArg.digits, hexValue_hexText]
    rw [BitVec.ofNat_toNat, BitVec.setWidth_eq]
    rfl
  · simp only [OperandArg.digits, hexValue_hexText]
    rw [(ofNat_word _ _).1, (ofNat_word _ _).2]
    rfl

/-- The digits are those of a number. -/
theorem exists_operandDigits : ∃ n, (mnemonicArg dasm ⟨sDasmLut b, addr, index⟩).digits =
    operandDigits (decode b).operandBytes n := by
  have hsize := sDasmLut_size_eq b
  have hbytes : (decode b).operandBytes ≤ 2 := by
    have hle := (sDasmLut_size b).2
    omega
  simp only [mnemonicArg, hsize]
  interval_cases h : (decode b).operandBytes
  · exact ⟨0, rfl⟩
  · exact ⟨_, rfl⟩
  · exact ⟨_, rfl⟩

/-- The text of the mnemonic column. -/
theorem rowText_clean : Clean (rowText b (mnemonicArg dasm ⟨sDasmLut b, addr, index⟩).digits) := by
  obtain ⟨n, hn⟩ := @exists_operandDigits dasm b addr index
  rw [hn, ← formatText_rowText]
  exact formatText_clean (rowText_conversion_clean b) n

/-- The row is read back, by its description where two rows share a mnemonic. -/
theorem readOperation_row {ds : List Char} (hds : (decode b).operandBytes = 0 → ds = []) :
    readOperation (rowText b ds) (padRight 12 (sDasmLut b).desc) = some (decode b, ds) := by
  by_cases hb : b = 0xEB
  · subst hb
    obtain rfl := hds (by decide)
    have hdesc : padRight 12 (sDasmLut 0xEB).desc = exchangeDesc := by decide
    rw [readOperation, if_pos ⟨rfl, hdesc⟩]
    rfl
  · rw [readOperation, if_neg, readRow_rowText hb hds]
    rintro ⟨hmnemonic, hdesc⟩
    have hxthl : b = 0xE3 := @eq_of_rowText_xchg b ds [] hb hds hmnemonic
    subst hxthl
    exact absurd hdesc (by decide)

/-- What stands between the mnemonic and the description. -/
def middleColumns (op : DasmOp) : List Char :=
  " ".toList ++ padRight 12 "" ++ "; condbits: ".toList ++ padRight 12 (condbitsToString op) ++
    " description: ".toList

theorem middleColumns_length (op : DasmOp) : (middleColumns op).length = 51 := by
  rw [middleColumns, condbitsToString]
  cases op.opdef.condbitsAffected with
  | _ => rfl

theorem opToString_columns (op : DasmOp) : (adc8080DasmOpToString dasm op).toList =
    (hexText 4 op.addr.toNat ++ "    ".toList) ++ (padRight 15 (mnemonicToString dasm op) ++
      (middleColumns op ++ padRight 12 op.opdef.desc)) := by
  have htext : adc8080DasmOpToString dasm op = String.ofList (hexText 4 op.addr.toNat ++
      "    ".toList ++
      padRight 15 (Id.run (mnemonicToStringBy (fun i => pure (dasm.memory i)) op)) ++
      " ".toList ++ padRight 12 "" ++ "; condbits: ".toList ++ padRight 12 (condbitsToString op) ++
      " description: ".toList ++ padRight 12 op.opdef.desc) := rfl
  rw [htext, mnemonicToStringBy_id, String.toList_ofList, middleColumns]
  simp only [List.append_assoc]

/-- The text of an operation assembles to its bytes. -/
theorem assembleLine_op :
    assembleLine (adc8080DasmOpToString dasm ⟨sDasmLut b, addr, index⟩).toList =
      some ⟨addr, (decode b).opcode :: (opBytes dasm.memory ⟨sDasmLut b, addr, index⟩).tail⟩ := by
  have haddr : (hexText 4 addr.toNat).length = 4 := hexText_length (by decide) addr.isLt
  have hmnemonic : (padRight 15 (mnemonicToString dasm ⟨sDasmLut b, addr, index⟩)).length = 15 := by
    have hrow := rowText_length_le b (mnemonicArg dasm ⟨sDasmLut b, addr, index⟩).digits
    have hdigits := (mnemonicArg dasm ⟨sDasmLut b, addr, index⟩).digits_length_le
    rw [mnemonicToString_eq, padRight, List.length_append, List.length_replicate,
      String.toList_ofList]
    omega
  have hmiddle := middleColumns_length ⟨sDasmLut b, addr, index⟩
  have htrim : trim ' ' (padRight 15 (mnemonicToString dasm ⟨sDasmLut b, addr, index⟩)) =
      rowText b (mnemonicArg dasm ⟨sDasmLut b, addr, index⟩).digits := by
    rw [mnemonicToString_eq, padRight, trim_append_replicate, String.toList_ofList,
      trim_eq_self rowText_clean.last]
  rw [opToString_columns, assembleLine]
  generalize padRight 15 (mnemonicToString dasm ⟨sDasmLut b, addr, index⟩) = mnemonic
    at hmnemonic htrim
  generalize middleColumns ⟨sDasmLut b, addr, index⟩ = middle at hmiddle
  have hfront : (hexText 4 addr.toNat ++ "    ".toList).length = 8 := by
    rw [List.length_append, haddr]
    rfl
  have hdesc (desc : List Char) : ((hexText 4 addr.toNat ++ "    ".toList) ++
      (mnemonic ++ (middle ++ desc))).drop 74 = desc := by
    rw [← List.append_assoc, ← List.append_assoc]
    refine List.drop_left' ?_
    rw [List.length_append, List.length_append, hfront, hmnemonic, hmiddle]
  rw [hdesc, List.drop_left' hfront, List.take_left' hmnemonic, htrim,
    readOperation_row mnemonicArg_digits_eq_nil, Option.map_some, operandCode_digits,
    List.append_assoc, List.take_left' haddr, hexValue_hexText, BitVec.ofNat_toNat,
    BitVec.setWidth_eq]

theorem condbitsToString_noLineEnd (op : DasmOp) : '\n' ∉ (condbitsToString op).toList := by
  rw [condbitsToString]
  cases op.opdef.condbitsAffected with
  | _ => decide

/-- The text of an operation is one line. -/
theorem opToString_noLineEnd :
    '\n' ∉ (adc8080DasmOpToString dasm ⟨sDasmLut b, addr, index⟩).toList := by
  have haddr : '\n' ∉ hexText 4 addr.toNat := fun h => (mem_hexText h).2 rfl
  have hmnemonic := (@rowText_clean dasm b addr index).noLineEnd
  have hcondbits := condbitsToString_noLineEnd ⟨sDasmLut b, addr, index⟩
  have hdesc := sDasmLut_desc_noLineEnd b
  rw [opToString_columns, mnemonicToString_eq]
  simp [middleColumns, padRight, haddr, hmnemonic, hcondbits, hdesc]

end Operation

/-! ## The whole listing -/

/-- The line that an operation assembles to. -/
def reencoded (memory : Nat → U8) (op : DasmOp) : AssembledLine :=
  ⟨op.addr, (decode (memory op.addr.toNat)).opcode :: (opBytes memory op).tail⟩

section Listing

variable {memory : Nat → U8} {programSize : Nat} {orgAddr : U16} {d : DasmDisassembly}

theorem BuiltBelowTop.assembled (h : BuiltBelowTop memory programSize orgAddr d) :
    assemble (printedListing d) = some (d.ops.map (reencoded memory)) := by
  obtain ⟨fuel, hd⟩ := h.built
  obtain ⟨hmemory, -, hnum, -⟩ := disassemble_spec hd
  rw [printedListing, hnum, List.take_length]
  refine readLines_flatMap fun op hop => ?_
  obtain ⟨opdef, addr, index⟩ := op
  obtain rfl : opdef = sDasmLut (memory addr.toNat) := h.covers.opdef _ hop
  refine ⟨opToString_noLineEnd, ?_⟩
  rw [assembleLine_op, hmemory]
  rfl

theorem opBytes_eq_cons {op : DasmOp} (hop : op.opdef = sDasmLut (memory op.addr.toNat)) :
    opBytes memory op = memory op.addr.toNat :: (opBytes memory op).tail := by
  obtain ⟨n, hn⟩ : ∃ n, op.opdef.size = n + 1 := by
    have hpos := (sDasmLut_size (memory op.addr.toNat)).1
    rw [← hop] at hpos
    exact Nat.exists_eq_succ_of_ne_zero (Nat.ne_of_gt hpos)
  rw [opBytes, bytesAt, hn, List.range_succ_eq_map]
  rfl

/-- An assembled line stands for an operation of the disassembly. -/
structure Reassembled (memory : Nat → U8) (op : DasmOp) (line : AssembledLine) : Prop where
  addr : line.addr = op.addr
  length : line.bytes.length = op.opdef.size
  operand : line.bytes.tail = (opBytes memory op).tail
  effect : ∃ b, line.bytes.head? = some b ∧
    ∀ {W : Type} (E : Env W) (m : Machine W),
      execNext E b m = execNext E (memory op.addr.toNat) m
  exact_iff : line.bytes = opBytes memory op ↔ ¬ SecondEncoding (memory op.addr.toNat)

theorem reassembled_reencoded {op : DasmOp} (hop : op.opdef = sDasmLut (memory op.addr.toNat)) :
    Reassembled memory op (reencoded memory op) where
  addr := rfl
  length := by
    have hlength : (opBytes memory op).length = op.opdef.size := by simp [opBytes, bytesAt]
    rw [← hlength, opBytes_eq_cons hop]
    rfl
  operand := rfl
  effect := ⟨_, rfl, fun E m => execNext_congr E (decode_opcode_decode _) m⟩
  exact_iff := by
    rw [opBytes_eq_cons hop, reencoded, List.cons_eq_cons, and_iff_left rfl]
    exact opcode_decode_iff _

/--
The printed listing of a program assembles to a line for every operation, at its address
and with its operand bytes, whose opcode has the same effect; the bytes are those of the
program unless the opcode is the second encoding of an instruction.
-/
theorem listing_reassembles (h : BuiltBelowTop memory programSize orgAddr d) :
    ∃ lines, assemble (printedListing d) = some lines ∧
      List.Forall₂ (Reassembled memory) d.ops lines := by
  refine ⟨_, h.assembled, ?_⟩
  rw [List.forall₂_map_right_iff, List.forall₂_same]
  exact fun op hop => reassembled_reencoded (h.covers.opdef op hop)

theorem listing_reassembles_sample :
    ∃ lines, assemble (printedListing sampleDisassembly) = some lines ∧
      List.Forall₂ (Reassembled sampleMemory) sampleDisassembly.ops lines :=
  listing_reassembles builtBelowTop_sample

/-- The operations up to one of them have the bytes from the origin on. -/
theorem Covers.opBytes_take (h : Covers memory programSize orgAddr d) {k : Nat}
    (hk : k ≤ d.ops.length) :
    ∃ n, (d.ops.take k).flatMap (opBytes memory) = bytesAt memory orgAddr.toNat n ∧
      (∀ op, d.ops[k]? = some op → op.addr.toNat = orgAddr.toNat + n) ∧
      ∀ j op, k = j + 1 → d.ops[j]? = some op →
        orgAddr.toNat + n = op.addr.toNat + op.opdef.size := by
  induction k with
  | zero =>
      refine ⟨0, rfl, fun op hop => ?_, fun j op hj => absurd hj (by omega)⟩
      have hne : programSize ≠ 0 := fun hzero => by simp [h.nil hzero] at hop
      obtain ⟨op', hop', haddr⟩ := h.first hne
      obtain rfl := Option.some.inj (hop'.symm.trans hop)
      rw [haddr, Nat.add_zero]
  | succ k ih =>
      obtain ⟨n, hbytes, haddr, -⟩ := ih (Nat.le_of_succ_le hk)
      obtain ⟨op, hget⟩ : ∃ op, d.ops[k]? = some op := ⟨_, List.getElem?_eq_getElem hk⟩
      have hstart := haddr op hget
      have htake : d.ops.take (k + 1) = d.ops.take k ++ [op] := by
        rw [List.take_add_one, hget, Option.toList_some]
      refine ⟨n + op.opdef.size, ?_, fun op' hop' => ?_, fun j op' hj hop' => ?_⟩
      · rw [htake, List.flatMap_append, hbytes, bytesAt_add, ← hstart, List.flatMap_singleton]
        rfl
      · rw [h.next k op op' hget hop', hstart, Nat.add_assoc]
      · obtain rfl := Nat.succ.inj hj
        obtain rfl := Option.some.inj (hget.symm.trans hop')
        rw [hstart, Nat.add_assoc]

/-- The operations have the bytes of the program, and the rest of the last instruction. -/
theorem Covers.opBytes_all (h : Covers memory programSize orgAddr d) :
    ∃ n, programSize ≤ n ∧ n ≤ programSize + 2 ∧
      d.ops.flatMap (opBytes memory) = bytesAt memory orgAddr.toNat n := by
  obtain ⟨n, hbytes, -, hlast⟩ := h.opBytes_take (Nat.le_refl d.ops.length)
  rw [List.take_length] at hbytes
  by_cases hzero : programSize = 0
  · refine ⟨0, Nat.le_of_eq hzero, Nat.zero_le _, ?_⟩
    rw [h.nil hzero]
    rfl
  · obtain ⟨op, hop, -⟩ := h.first hzero
    have hne : d.ops.length ≠ 0 := Nat.ne_of_gt (List.getElem?_eq_some_iff.mp hop).1
    obtain ⟨j, hj⟩ := Nat.exists_eq_succ_of_ne_zero hne
    obtain ⟨op, hop⟩ : ∃ op, d.ops[j]? = some op :=
      ⟨_, List.getElem?_eq_getElem (by omega)⟩
    have hend := hlast j op hj hop
    have hbounds : op.addr.toNat < orgAddr.toNat + programSize ∧
        orgAddr.toNat + programSize ≤ op.addr.toNat + op.opdef.size := by
      refine h.last op ?_
      rw [List.getLast?_eq_getElem?, show d.ops.length - 1 = j by omega, hop]
    have hsize : op.opdef.size ≤ 3 := by
      rw [h.opdef op (List.mem_of_getElem? hop)]
      exact (sDasmLut_size _).2
    exact ⟨n, by omega, by omega, hbytes⟩

/-- Two lists of pieces, each as long as the other's. -/
theorem flatMap_eq_iff {α β : Type} {f g : α → List β} {l : List α}
    (h : ∀ x ∈ l, (f x).length = (g x).length) :
    l.flatMap f = l.flatMap g ↔ ∀ x ∈ l, f x = g x := by
  induction l with
  | nil => simp
  | cons x l ih =>
      obtain ⟨hx, hl⟩ := List.forall_mem_cons.mp h
      rw [List.flatMap_cons, List.flatMap_cons, List.forall_mem_cons, ← ih hl]
      constructor
      · exact fun heq => List.append_inj heq hx
      · rintro ⟨hhead, hrest⟩
        rw [hhead, hrest]

/-- Pieces of the same lengths make lists of the same length. -/
theorem length_flatMap_congr {α β : Type} {f g : α → List β} {l : List α}
    (h : ∀ x ∈ l, (f x).length = (g x).length) : (l.flatMap f).length = (l.flatMap g).length := by
  rw [List.length_flatMap, List.length_flatMap, List.map_congr_left h]

/--
The assembled listing has the length of the program, together with the rest of its last
instruction, and the bytes in memory there exactly when no instruction of the program has a
second encoding.
-/
theorem listing_exact_iff (h : BuiltBelowTop memory programSize orgAddr d) :
    ∃ lines bytes, assemble (printedListing d) = some lines ∧
      lines.flatMap AssembledLine.bytes = bytes ∧
      programSize ≤ bytes.length ∧ bytes.length ≤ programSize + 2 ∧
      (bytes = bytesAt memory orgAddr.toNat bytes.length ↔
        ∀ op ∈ d.ops, ¬ SecondEncoding (memory op.addr.toNat)) := by
  obtain ⟨n, hlow, hhigh, hbytes⟩ := h.covers.opBytes_all
  have hline (op : DasmOp) (hop : op ∈ d.ops) :=
    reassembled_reencoded (h.covers.opdef op hop)
  have hsame (op : DasmOp) (hop : op ∈ d.ops) :
      (reencoded memory op).bytes.length = (opBytes memory op).length := by
    rw [(hline op hop).length]
    simp [opBytes, bytesAt]
  have hlength : ((d.ops.map (reencoded memory)).flatMap AssembledLine.bytes).length = n := by
    rw [List.flatMap_map, length_flatMap_congr hsame, hbytes]
    simp [bytesAt]
  refine ⟨_, _, h.assembled, rfl, hlength ▸ hlow, hlength ▸ hhigh, ?_⟩
  rw [hlength, ← hbytes, List.flatMap_map, flatMap_eq_iff hsame]
  exact forall₂_congr fun op hop => (hline op hop).exact_iff

end Listing

/-- The first three instructions of the sample program, all with operands. -/
def plainDisassembly : DasmDisassembly where
  memory := sampleMemory
  programSize := 8
  ops := sampleDisassembly.ops.take 3
  numOps := 3

theorem builtBelowTop_plain : BuiltBelowTop sampleMemory 8 0x0100 plainDisassembly where
  built := ⟨4, @disassemble_of_passes sampleMemory 8 0x0100 4 ⟨0x0108, 3⟩
    ⟨0x0108, 3, sampleDisassembly.ops.take 3⟩ (by decide +kernel) (by decide +kernel)⟩
  endBelowTop := by decide
  staysBelowTop := staysBelowTop_of_le _ (by decide) (by decide)

/-- The sample program has a `*NOP`, its first three instructions have their only encodings. -/
theorem listing_exact_iff_sample :
    (∃ lines bytes, assemble (printedListing sampleDisassembly) = some lines ∧
      lines.flatMap AssembledLine.bytes = bytes ∧
      bytes ≠ bytesAt sampleMemory 0x0100 bytes.length) ∧
    ∃ lines bytes, assemble (printedListing plainDisassembly) = some lines ∧
      lines.flatMap AssembledLine.bytes = bytes ∧
      bytes = bytesAt sampleMemory 0x0100 bytes.length := by
  obtain ⟨lines, bytes, hlines, hbytes, -, -, hiff⟩ := listing_exact_iff builtBelowTop_sample
  obtain ⟨plain, bytes', hplain, hbytes', -, -, hiff'⟩ := listing_exact_iff builtBelowTop_plain
  refine ⟨⟨lines, bytes, hlines, hbytes, fun heq => ?_⟩, plain, bytes', hplain, hbytes',
    hiff'.mpr ?_⟩
  · exact absurd (hiff.mp heq ⟨sDasmLut 0x08, 0x0108, 3⟩ (by decide +kernel)) (by decide +kernel)
  · decide +kernel

end Dasm
end AdcLibs
