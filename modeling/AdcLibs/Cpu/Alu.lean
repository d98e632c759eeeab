import AdcLibs.Cpu.Dispatch
import AdcLibs.Library.CarryBits

/-!
# The helpers compute what the reference says

One equation for each helper of `Cpu/Ops.lean`: the shifts, masks and xors of
the source against the numbers of the reference interpreter.  The carries of
`op_add` are read off the carry word (`CarryBits.masked_carry`), and `op_sub`
is addition of the complement.
-/

namespace AdcLibs
namespace Cpu

universe u

open Reference

variable {W : Type u}

/-! ## Bytes and words -/

theorem wordFromBytes_eq (high low : U8) : wordFromBytes high low = high ++ low := by
  apply BitVec.eq_of_toNat_eq
  have happ : (high ++ low : U16).toNat = high.toNat <<< 8 ||| low.toNat :=
    BitVec.toNat_append high low
  have hhigh : high.toNat <<< 8 < 65536 := by
    rw [Nat.shiftLeft_eq]
    omega
  rw [happ]
  simp [wordFromBytes, Nat.mod_eq_of_lt (Nat.lt_trans high.isLt (by omega : 2 ^ 8 < 65536)),
    Nat.mod_eq_of_lt (Nat.lt_trans low.isLt (by omega : 2 ^ 8 < 65536)),
    Nat.mod_eq_of_lt hhigh]

theorem bytesFromWord_eq (w : U16) :
    bytesFromWord w = (w.extractLsb' 8 8, w.extractLsb' 0 8) := by
  refine Prod.ext ?_ ?_
  · ext i hi
    simp [bytesFromWord]
  · apply BitVec.eq_of_toNat_eq
    have hmask : w.toNat % 256 &&& 255 = w.toNat % 256 % 256 :=
      Nat.and_two_pow_sub_one_eq_mod (w.toNat % 256) 8
    simp [bytesFromWord, hmask]

theorem lowByte_eq (w : U16) : (w &&& 0xFF).setWidth 8 = w.extractLsb' 0 8 :=
  congrArg Prod.snd (bytesFromWord_eq w)

theorem highByte_eq (w : U16) : (w >>> 8).setWidth 8 = w.extractLsb' 8 8 :=
  congrArg Prod.fst (bytesFromWord_eq w)

section Bus

variable (E : Env W)

theorem readWord_eq (addr : U16) (m : Machine W) :
    readWord E addr m = loadWord E addr m := by
  cases h : E.highFirst <;> simp only [readWord, loadWord, load, wordFromBytes_eq, h]

theorem writeWord_eq (addr w : U16) (m : Machine W) :
    writeWord E addr w m = storeWord E addr w m := by
  simp only [writeWord, storeWord, store, lowByte_eq, highByte_eq]

theorem nextWord_eq (m : Machine W) : nextWord E m = fetchWord E m := by
  simp only [nextWord, fetchWord, readWord_eq]

theorem stackPush_eq (w : U16) (m : Machine W) : stackPush E w m = pushWord E w m := by
  simp only [stackPush, pushWord, writeWord_eq]

theorem stackPop_eq (m : Machine W) : stackPop E m = popWord E m := by
  simp only [stackPop, popWord, readWord_eq]

end Bus

/-! ## Registers -/

theorem getRhl_eq (cpu : Adc8080Cpu) : getRhl cpu = Pair.h.get cpu :=
  wordFromBytes_eq _ _

theorem setRhl_eq (w : U16) (cpu : Adc8080Cpu) : setRhl w cpu = Pair.h.set w cpu := by
  simp only [setRhl, bytesFromWord_eq, Pair.set]

theorem Reference.Pair.getWord_eq (p : Pair) (cpu : Adc8080Cpu) :
    p.getWord cpu = p.get cpu := by
  cases p with
  | b => exact wordFromBytes_eq _ _
  | d => exact wordFromBytes_eq _ _
  | h => exact wordFromBytes_eq _ _
  | sp => rfl

theorem Reference.Pair.setWord_eq (p : Pair) (w : U16) (cpu : Adc8080Cpu) :
    p.setWord w cpu = p.set w cpu := by
  cases p with
  | b => simp only [Pair.setWord, setRbc, bytesFromWord_eq, Pair.set]
  | d => simp only [Pair.setWord, setRde, bytesFromWord_eq, Pair.set]
  | h => exact setRhl_eq w cpu
  | sp => rfl

theorem Reference.Operand.place_eq (d : Operand) (cpu : Adc8080Cpu) :
    d.place cpu = d.loc cpu := by
  cases d with
  | reg r => rfl
  | mem => exact congrArg Loc.at (getRhl_eq cpu)

theorem Reference.Loc.read_eq (E : Env W) (loc : Loc) (m : Machine W) :
    loc.read E m = loc.load E m := by
  cases loc <;> rfl

theorem Reference.Loc.write_eq (E : Env W) (loc : Loc) (v : U8) (m : Machine W) :
    loc.write E v m = loc.store E v m := by
  cases loc <;> rfl

theorem Reference.Cond.test_eq (cc : Cond) (cpu : Adc8080Cpu) :
    cc.test cpu = cc.holds cpu := by
  cases cc <;> simp [Cond.test, Cond.holds]

/-! ## Flags -/

/-- The loop of `adc_8080_cpu_init` counts the one bits. -/
theorem sParityLut_eq (v : U8) : sParityLut v = evenParity v := by
  revert v
  decide

theorem setCfZsp_eq (v : U8) (cpu : Adc8080Cpu) :
    setCfZsp v cpu = resultFlags v cpu := by
  have hs : (v >>> 7 != 0#8) = decide (128 ≤ v.toNat) := by
    revert v
    decide
  simp [setCfZsp, resultFlags, hs, sParityLut_eq, Bool.beq_eq_decide_eq]

theorem opInr_eq (v : U8) (cpu : Adc8080Cpu) : opInr v cpu = (v + 1, inrFlags v cpu) := by
  have haux : (v + 1#8 &&& 0x0F#8 == 0#8) = decide (v.toNat % 16 = 15) := by
    revert v
    decide
  simp [opInr, inrFlags, setCfZsp_eq, resultFlags, haux]

theorem opDcr_eq (v : U8) (cpu : Adc8080Cpu) : opDcr v cpu = (v - 1, dcrFlags v cpu) := by
  have haux : (v - 1#8 &&& 0x0F#8 == 0x0F#8) = decide (v.toNat % 16 = 0) := by
    revert v
    decide
  simp [opDcr, dcrFlags, setCfZsp_eq, resultFlags, haux]

/-! ## Addition and subtraction -/

/-- The sum that `op_add` takes in sixteen bits does not wrap. -/
theorem opAdd_sum (a v : U8) (c : Bool) :
    ((a.setWidth 16 + v.setWidth 16 + (BitVec.ofBool c).setWidth 16 : U16).setWidth 8 : U8) =
      BitVec.ofNat 8 (a.toNat + v.toNat + c.toNat) := by
  apply BitVec.eq_of_toNat_eq
  cases c <;> simp

theorem opAdd_eq (v : U8) (c : Bool) (cpu : Adc8080Cpu) :
    opAdd v c cpu = addTo v c cpu := by
  have hcy := CarryBits.masked_carry (v := 16) (i := 8) cpu.ra v c (by omega) (by omega)
  have haux := CarryBits.masked_carry (v := 16) (i := 4) cpu.ra v c (by omega) (by omega)
  rw [Nat.mod_eq_of_lt cpu.ra.isLt, Nat.mod_eq_of_lt v.isLt] at hcy
  simp only [opAdd, addTo, setCfZsp_eq, resultFlags, opAdd_sum]
  congr 1

theorem toNat_not_byte (v : U8) : (~~~v).toNat = 255 - v.toNat := by
  simp [BitVec.toNat_not]

theorem opSub_eq (v : U8) (c : Bool) (cpu : Adc8080Cpu) :
    opSub v c cpu = subFrom v c cpu := by
  have ha := cpu.ra.isLt
  have hv := v.isLt
  have hres : BitVec.ofNat 8 (cpu.ra.toNat + (255 - v.toNat) + (!c).toNat) =
      BitVec.ofInt 8 (cpu.ra.toNat - v.toNat - c.toNat) := by
    apply BitVec.eq_of_toNat_eq
    rw [BitVec.toNat_ofNat, BitVec.toNat_ofInt]
    cases c <;> simp <;> omega
  have hcy : (!decide (256 ≤ cpu.ra.toNat + (255 - v.toNat) + (!c).toNat)) =
      decide ((cpu.ra.toNat : Int) - v.toNat - c.toNat < 0) := by
    rw [← decide_not]
    apply decide_eq_decide.mpr
    cases c <;> simp <;> omega
  have haux : decide (16 ≤ cpu.ra.toNat % 16 + (255 - v.toNat) % 16 + (!c).toNat) =
      decide (v.toNat % 16 + c.toNat ≤ cpu.ra.toNat % 16) := by
    apply decide_eq_decide.mpr
    cases c <;> simp <;> omega
  simp only [opSub, opAdd_eq, addTo, subFrom, toNat_not_byte, hres, hcy, haux, resultFlags]

/-- The difference that `op_cmp` takes in sixteen bits, as a number. -/
theorem opCmp_toNat (a v : U8) :
    (a.setWidth 16 - v.setWidth 16 : U16).toNat = (65536 - v.toNat + a.toNat) % 65536 := by
  have ha := a.isLt
  have hv := v.isLt
  simp [BitVec.toNat_sub]
  omega

/-- The signed shift of `op_cmp` is nonzero exactly on a borrow. -/
theorem opCmp_borrow (a v : U8) :
    ((a.setWidth 16 - v.setWidth 16 : U16).sshiftRight 8 != 0) =
      decide (a.toNat < v.toNat) := by
  have ha := a.isLt
  have hv := v.isLt
  have hint : (a.setWidth 16 - v.setWidth 16 : U16).toInt = (a.toNat : Int) - v.toNat := by
    rw [BitVec.toInt_eq_toNat_cond, opCmp_toNat]
    split <;> omega
  have hshift : ((a.setWidth 16 - v.setWidth 16 : U16).sshiftRight 8).toInt =
      ((a.toNat : Int) - v.toNat) / 256 := by
    rw [BitVec.toInt_sshiftRight, hint, Int.shiftRight_eq_div_pow]
    rfl
  have hzero : (a.setWidth 16 - v.setWidth 16 : U16).sshiftRight 8 = 0#16 ↔
      ¬ a.toNat < v.toNat := by
    rw [← BitVec.toInt_inj, hshift]
    simp
    omega
  rw [Bool.eq_iff_iff]
  simp [hzero]

theorem opCmp_eq (v : U8) (cpu : Adc8080Cpu) :
    opCmp v cpu = { subFrom v false cpu with ra := cpu.ra } := by
  have ha := cpu.ra.isLt
  have hv := v.isLt
  have hres : ((cpu.ra.setWidth 16 - v.setWidth 16 : U16) &&& 0xFF).setWidth 8 =
      BitVec.ofInt 8 (cpu.ra.toNat - v.toNat - false.toNat) := by
    rw [lowByte_eq]
    apply BitVec.eq_of_toNat_eq
    rw [BitVec.extractLsb'_toNat, opCmp_toNat, BitVec.toNat_ofInt]
    simp
    omega
  have hcy : decide (cpu.ra.toNat < v.toNat) =
      decide ((cpu.ra.toNat : Int) - v.toNat - false.toNat < 0) := by
    apply decide_eq_decide.mpr
    simp
  have haux : (~~~(cpu.ra.setWidth 16 ^^^ (cpu.ra.setWidth 16 - v.setWidth 16) ^^^
      v.setWidth 16 : U16) &&& 1#16 <<< 4 != 0#16) =
        decide (v.toNat % 16 + false.toNat ≤ cpu.ra.toNat % 16) := by
    rw [CarryBits.and_one_shiftLeft_ne_zero _ (by omega),
      CarryBits.getLsbD_not_xor_sub _ _ (by omega)]
    apply decide_eq_decide.mpr
    simp
  simp only [opCmp, setCfZsp_eq, subFrom, hres, opCmp_borrow, hcy, resultFlags]
  congr 1

/-! ## Logic -/

theorem opAna_eq (v : U8) (cpu : Adc8080Cpu) :
    opAna v cpu = logic (cpu.ra &&& v) (cpu.ra.getLsbD 3 || v.getLsbD 3) cpu := by
  have haux : ((cpu.ra ||| v) &&& 1#8 <<< 3 != 0#8) =
      (cpu.ra.getLsbD 3 || v.getLsbD 3) := by
    rw [CarryBits.and_one_shiftLeft_ne_zero _ (by omega), BitVec.getLsbD_or]
  simp only [opAna, logic, setCfZsp_eq, resultFlags, ← haux]
  congr 1

theorem opXra_eq (v : U8) (cpu : Adc8080Cpu) :
    opXra v cpu = logic (cpu.ra ^^^ v) false cpu := by
  simp only [opXra, logic, setCfZsp_eq, resultFlags]

theorem opOra_eq (v : U8) (cpu : Adc8080Cpu) :
    opOra v cpu = logic (cpu.ra ||| v) false cpu := by
  simp only [opOra, logic, setCfZsp_eq, resultFlags]

theorem Reference.AluOp.call_eq (op : AluOp) (v : U8) (cpu : Adc8080Cpu) :
    op.call v cpu = op.exec v cpu := by
  cases op with
  | add => exact opAdd_eq v false cpu
  | adc => exact opAdd_eq v cpu.cfc cpu
  | sub => exact opSub_eq v false cpu
  | sbb => exact opSub_eq v cpu.cfc cpu
  | ana => exact opAna_eq v cpu
  | xra => exact opXra_eq v cpu
  | ora => exact opOra_eq v cpu
  | cmp => exact opCmp_eq v cpu

/-! ## Words, rotates, decimal adjustment -/

theorem opDad_eq (w : U16) (cpu : Adc8080Cpu) : opDad w cpu = addHl w cpu := by
  have hhl := (Pair.h.get cpu).isLt
  have hw := w.isLt
  have hsum : ((Pair.h.get cpu).setWidth 32 + w.setWidth 32 : BitVec 32).toNat =
      (Pair.h.get cpu).toNat + w.toNat := by
    simp
    omega
  have hcy : decide ((Pair.h.get cpu).setWidth 32 + w.setWidth 32 > (0xFFFF : BitVec 32)) =
      decide (65536 ≤ (Pair.h.get cpu).toNat + w.toNat) := by
    apply decide_eq_decide.mpr
    rw [gt_iff_lt, BitVec.lt_def, hsum]
    exact Iff.rfl
  have hres : (((Pair.h.get cpu).setWidth 32 + w.setWidth 32 : BitVec 32) &&&
      0xFFFF).setWidth 16 = BitVec.ofNat 16 ((Pair.h.get cpu).toNat + w.toNat) := by
    apply BitVec.eq_of_toNat_eq
    rw [BitVec.toNat_setWidth, BitVec.toNat_and, hsum]
    have hmask := Nat.and_two_pow_sub_one_eq_mod ((Pair.h.get cpu).toNat + w.toNat) 16
    simp at hmask ⊢
    omega
  simp only [opDad, getRhl_eq, setRhl_eq, addHl, hres, hcy]

theorem highByte_append (high low : U8) : (high ++ low : U16).extractLsb' 8 8 = high :=
  (BitVec.extractLsb'_append_eq_of_le (by omega)).trans (by simp)

theorem lowByte_append (high low : U8) : (high ++ low : U16).extractLsb' 0 8 = low :=
  (BitVec.extractLsb'_append_eq_of_add_le (by omega)).trans (by simp)

theorem append_highByte_lowByte (w : U16) :
    (w.extractLsb' 8 8 ++ w.extractLsb' 0 8 : U16) = w :=
  @BitVec.extractLsb'_append_extractLsb' 8 8 w

theorem append_inj {high low high' low' : U8} (h : (high ++ low : U16) = high' ++ low') :
    high = high' ∧ low = low' :=
  ⟨by rw [← highByte_append high low, h, highByte_append],
    by rw [← lowByte_append high low, h, lowByte_append]⟩

theorem getLsbD_append_low (high low : U8) {i : Nat} (hi : i < 8) :
    (high ++ low : U16).getLsbD i = low.getLsbD i :=
  BitVec.getLsbD_append.trans (by simp [hi])

theorem bytesFromWord_wordFromBytes (high low : U8) :
    bytesFromWord (wordFromBytes high low) = (high, low) := by
  rw [wordFromBytes_eq, bytesFromWord_eq]
  exact Prod.ext (highByte_append high low) (lowByte_append high low)

theorem opXchg_eq (cpu : Adc8080Cpu) : opXchg cpu = exchange cpu := by
  simp only [opXchg, getRhl, getRde, setRhl, setRde, bytesFromWord_wordFromBytes, exchange]

theorem opRlc_eq (cpu : Adc8080Cpu) : opRlc cpu = rotateLeft cpu := by
  have hcy : ∀ a : U8, (a >>> 7 != (0 : U8)) = a.getLsbD 7 := by decide
  have hra : ∀ a : U8, a <<< 1 ||| boolToU8 (a.getLsbD 7) = a.rotateLeft 1 := by
    decide
  simp only [opRlc, rotateLeft, hcy, hra]

theorem opRrc_eq (cpu : Adc8080Cpu) : opRrc cpu = rotateRight cpu := by
  have hcy : ∀ a : U8, (a &&& (1 : U8) != 0) = a.getLsbD 0 := by decide
  have hra : ∀ a : U8, a >>> 1 ||| boolToU8 (a.getLsbD 0) <<< 7 = a.rotateRight 1 := by
    decide
  simp only [opRrc, rotateRight, hcy, hra]

theorem opRal_eq (cpu : Adc8080Cpu) : opRal cpu = rotateCarryLeft cpu := by
  have hcy : ∀ (a : U8) (c : Bool),
      (a >>> 7 != (0 : U8)) = decide (256 ≤ 2 * a.toNat + c.toNat) := by
    decide
  have hra : ∀ (a : U8) (c : Bool),
      a <<< 1 ||| boolToU8 c = BitVec.ofNat 8 (2 * a.toNat + c.toNat) := by
    decide
  simp only [opRal, rotateCarryLeft, hcy _ cpu.cfc, hra]

theorem opRar_eq (cpu : Adc8080Cpu) : opRar cpu = rotateCarryRight cpu := by
  have hcy : ∀ (a : U8) (c : Bool),
      (a &&& (1 : U8) != 0) = decide ((a.toNat + 256 * c.toNat) % 2 = 1) := by
    decide
  have hra : ∀ (a : U8) (c : Bool),
      a >>> 1 ||| boolToU8 c <<< 7 = BitVec.ofNat 8 ((a.toNat + 256 * c.toNat) / 2) := by
    decide
  simp only [opRar, rotateCarryRight, hcy _ cpu.cfc, hra]

/-- The nibble tests of `op_daa` are comparisons of the whole accumulator. -/
theorem opDaa_eq (cpu : Adc8080Cpu) : opDaa cpu = adjust cpu := by
  have hlow : ∀ (a : U8) (aux : Bool),
      (decide (a &&& 0x0F > 9) || aux) = decide (9 < a.toNat % 16 ∨ aux) := by
    decide
  have hhigh : ∀ (a : U8) (c : Bool),
      (decide (a >>> 4 > 9) || c || decide (a >>> 4 ≥ 9) && decide (a &&& 0x0F > 9)) =
        decide (0x99 < a.toNat ∨ c) := by
    decide
  have hadd : ∀ p q : Bool,
      (if q then (if p then (0 : U8) + 0x06 else 0) + 0x60 else if p then 0 + 0x06 else 0) =
        (if p then 0x06 else 0) + (if q then 0x60 else 0) := by
    decide
  have hcy : (if decide (0x99 < cpu.ra.toNat ∨ cpu.cfc) = true then true else cpu.cfc) =
      decide (0x99 < cpu.ra.toNat ∨ cpu.cfc) := by
    cases cpu.cfc <;> simp
  simp only [opDaa, adjust, opAdd_eq, hhigh, hlow, hadd, hcy]
  simp only [decide_eq_true_eq]

/-! ## The flag byte -/

theorem pswByte_eq (cpu : Adc8080Cpu) : pswByte cpu = flagByte cpu := by
  have h : ∀ s z a p c : Bool,
      boolToU8 s <<< 7 ||| boolToU8 z <<< 6 ||| boolToU8 a <<< 4 ||| boolToU8 p <<< 2 |||
        (1 : U8) <<< 1 ||| boolToU8 c <<< 0 =
      BitVec.ofBool s ++ BitVec.ofBool z ++ 0#1 ++ BitVec.ofBool a ++ 0#1 ++
        BitVec.ofBool p ++ 1#1 ++ BitVec.ofBool c := by
    decide
  exact h _ _ _ _ _

theorem setPsw_eq (w : U16) (cpu : Adc8080Cpu) :
    setPsw w cpu = StackPair.psw.set w cpu := by
  have hbit : ∀ (v : U8) (i : Fin 8), (v >>> i.val &&& 1 != 0) = v.getLsbD i := by
    decide
  have hlow : ∀ i : Fin 8, (w.extractLsb' 0 8).getLsbD i = w.getLsbD i := by
    intro i
    simp
  have hflag (i : Fin 8) := (hbit (w.extractLsb' 0 8) i).trans (hlow i)
  simp only [setPsw, bytesFromWord_eq, StackPair.set]
  congr 1
  · exact hflag 7
  · exact hflag 6
  · exact hflag 4
  · exact hflag 2
  · exact hflag 0

end Cpu
end AdcLibs
