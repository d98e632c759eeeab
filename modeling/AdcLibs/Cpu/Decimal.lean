import AdcLibs.Cpu.Multibyte

/-!
# Decimal arithmetic on numbers of several bytes

A byte in packed decimal form holds two digits.  Behind an addition of two such
bytes `DAA` finds the sums of the low digits and of the high digits in the
accumulator and the flags, and leaves two digits and a carry that is the
hundreds.  So decimal additions, and subtractions by way of the complement to
99, fill carry chains in base 100.
-/

namespace AdcLibs
namespace Cpu

universe u

open Reference CarryChain Runs

/-! ## Packed decimals -/

/-- Both digits of a byte are decimal. -/
def Packed (v : U8) : Prop :=
  v.toNat / 16 ≤ 9 ∧ v.toNat % 16 ≤ 9

instance (v : U8) : Decidable (Packed v) :=
  inferInstanceAs (Decidable (_ ∧ _))

/-- The number that the two digits of a byte stand for. -/
def decimal (v : U8) : Nat :=
  10 * (v.toNat / 16) + v.toNat % 16

theorem Packed.decimal_lt {v : U8} (h : Packed v) : decimal v < 100 := by
  rcases h with ⟨hhigh, hlow⟩
  unfold decimal
  omega

/-- The number with the bytes `x l` in packed decimal form, least significant first. -/
def decimalNumber {α : Type} (x : α → U8) (ls : List α) : Nat :=
  numeral 100 (fun l => decimal (x l)) ls

/-- The digits of a byte and of its complement to 99h add up to 9, or to 10 with one more. -/
theorem Packed.complement {a v : U8} {c : Bool} (hv : Packed v)
    (ha : a.toNat = 0x99 + c.toNat - v.toNat) :
    a.toNat / 16 + v.toNat / 16 = 9 ∧ a.toNat % 16 + v.toNat % 16 = 9 + c.toNat := by
  rcases hv with ⟨hhigh, hlow⟩
  cases c with
  | false =>
      rw [Bool.toNat_false] at ha ⊢
      omega
  | true =>
      rw [Bool.toNat_true] at ha ⊢
      omega

/-! ## `DAA` -/

/-- Behind an addition whose digit sums are `low` and `high`, the adjustment leaves the
digits of their decimal value. -/
theorem adjust_digits {cpu : Adc8080Cpu} {low high : Nat} (hlow : low ≤ 19) (hhigh : high ≤ 18)
    (hra : cpu.ra.toNat = (16 * high + low) % 256)
    (hcfa : cpu.cfa = decide (16 ≤ low)) (hcfc : cpu.cfc = decide (256 ≤ 16 * high + low)) :
    Packed (adjust cpu).ra ∧
      10 * high + low = decimal (adjust cpu).ra + 100 * (adjust cpu).cfc.toNat := by
  have hsix : (9 < cpu.ra.toNat % 16 ∨ cpu.cfa = true) ↔ 10 ≤ low := by
    rw [hcfa, decide_eq_true_eq, hra]
    omega
  have hsixty : (0x99 < cpu.ra.toNat ∨ cpu.cfc = true) ↔ 154 ≤ 16 * high + low := by
    rw [hcfc, decide_eq_true_eq, hra]
    omega
  have hcarry : (adjust cpu).cfc = decide (154 ≤ 16 * high + low) :=
    decide_eq_decide.mpr hsixty
  have hresult : (adjust cpu).ra.toNat =
      ((16 * high + low) % 256 + ((if 10 ≤ low then 6 else 0) +
        if 154 ≤ 16 * high + low then 96 else 0)) % 256 := by
    rw [adjust_ra, if_congr hsix rfl rfl, if_congr hsixty rfl rfl, BitVec.toNat_add, hra]
    split <;> split <;> rfl
  rw [hcarry, toNat_decide]
  unfold Packed decimal
  rw [hresult]
  by_cases hsixty : 154 ≤ 16 * high + low
  · rw [if_pos hsixty, if_pos hsixty]
    split <;> omega
  · rw [if_neg hsixty, if_neg hsixty]
    split <;> omega

/-- `DAA` behind an addition of `v` with a carry `c` in. -/
theorem adjust_addTo {v : U8} {c : Bool} {cpu cpu' : Adc8080Cpu}
    (hra : cpu'.ra = (addTo v c cpu).ra) (hflags : flags cpu' = flags (addTo v c cpu))
    (hlow : cpu.ra.toNat % 16 + v.toNat % 16 + c.toNat ≤ 19)
    (hhigh : cpu.ra.toNat / 16 + v.toNat / 16 ≤ 18) :
    Packed (adjust cpu').ra ∧
      10 * (cpu.ra.toNat / 16 + v.toNat / 16) +
          (cpu.ra.toNat % 16 + v.toNat % 16 + c.toNat) =
        decimal (adjust cpu').ra + 100 * (adjust cpu').cfc.toNat := by
  have hsum : cpu.ra.toNat + v.toNat + c.toNat =
      16 * (cpu.ra.toNat / 16 + v.toNat / 16) +
        (cpu.ra.toNat % 16 + v.toNat % 16 + c.toNat) := by
    omega
  apply adjust_digits hlow hhigh
  · rw [hra, ← hsum]
    exact BitVec.toNat_ofNat _ _
  · exact congrArg Flags.cfa hflags
  · rw [← hsum]
    exact congrArg Flags.cfc hflags

/-! ## Runs -/

variable {W : Type u} {E : Env W}

/-- The bytes of one round: operands `x` and `y`, result `z`. -/
structure DecimalLink where
  x : U8
  y : U8
  z : U8

/-- The accumulator and the flags of two machines are the same. -/
def SameArithmetic (m m' : Machine W) : Prop :=
  m'.cpu.ra = m.cpu.ra ∧ flags m'.cpu = flags m.cpu

/-- After code that keeps the carry and loads `x`: `ADC` of `y`, then `DAA`. -/
def DecimalAddStep (E : Env W) (m : Machine W) (l : DecimalLink) (t : Machine W) : Prop :=
  ∃ m₁ adc, m₁.cpu.cfc = m.cpu.cfc ∧ m₁.cpu.ra = l.x ∧ Applies E .adc l.y adc m₁ ∧
    t = execNext E 0x27 (execNext E adc m₁) ∧ t.cpu.ra = l.z

/-- After code that keeps the carry and loads 99h: `ACI` of 0, `SUB` of `y`, `ADD` of `x`,
then `DAA`, with code between them that keeps the accumulator and the flags. -/
def DecimalSubStep (E : Env W) (m : Machine W) (l : DecimalLink) (t : Machine W) : Prop :=
  ∃ m₁ m₂ m₃ aci sub add, m₁.cpu.cfc = m.cpu.cfc ∧ m₁.cpu.ra = 0x99 ∧
    Applies E .adc 0 aci m₁ ∧ SameArithmetic (execNext E aci m₁) m₂ ∧
    Applies E .sub l.y sub m₂ ∧ SameArithmetic (execNext E sub m₂) m₃ ∧
    Applies E .add l.x add m₃ ∧
    t = execNext E 0x27 (execNext E add m₃) ∧ t.cpu.ra = l.z

section Steps

variable {m t : Machine W} {l : DecimalLink}

theorem execNext_daa (E : Env W) (m : Machine W) :
    (execNext E 0x27 m).cpu = adjust (begun 0x27 m).cpu := by
  rw [execNext_begun]
  rfl

/-- The column of a decimal addition. -/
theorem DecimalAddStep.column (hE : E.Frames) (h : DecimalAddStep E m l t) (hx : Packed l.x)
    (hy : Packed l.y) :
    Packed l.z ∧
      decimal l.x + decimal l.y + m.cpu.cfc.toNat =
        decimal l.z + 100 * t.cpu.cfc.toNat := by
  rcases h with ⟨m₁, adc, hc, hra, happlies, rfl, hz⟩
  rcases happlies.execNext hE with ⟨hsum, hflags⟩
  rcases hx with ⟨hxhigh, hxlow⟩
  rcases hy with ⟨hyhigh, hylow⟩
  have hcin := m₁.cpu.cfc.toNat_le
  rw [← hra] at hxhigh hxlow
  rcases @adjust_addTo l.y m₁.cpu.cfc m₁.cpu (begun 0x27 (execNext E adc m₁)).cpu hsum
    ((flags_begun _ _).trans hflags) (by omega) (by omega) with ⟨hpacked, hvalue⟩
  rw [← execNext_daa, hz] at hpacked
  rw [← execNext_daa, hz] at hvalue
  constructor
  · exact hpacked
  · rw [← hvalue, ← hra, ← hc]
    unfold decimal
    omega

/-- The column of a decimal subtraction: the carry is the absence of a borrow. -/
theorem DecimalSubStep.column (hE : E.Frames) (h : DecimalSubStep E m l t) (hx : Packed l.x)
    (hy : Packed l.y) :
    Packed l.z ∧
      decimal l.z + decimal l.y + (!m.cpu.cfc).toNat =
        decimal l.x + 100 * (!t.cpu.cfc).toNat := by
  rcases h with ⟨m₁, m₂, m₃, aci, sub, add, hc, hra, haci, hkeep₁, hsub, hkeep₂, hadd, rfl, hz⟩
  rcases hx with ⟨hxhigh, hxlow⟩
  have hcin := m₁.cpu.cfc.toNat_le
  have hyle : l.y.toNat ≤ 0x99 := by
    rcases hy with ⟨hyhigh, hylow⟩
    omega
  -- the complement of `y` to 99, and one more with the carry
  have hlift : m₂.cpu.ra.toNat = 0x99 + m₁.cpu.cfc.toNat := by
    have hexec : m₂.cpu.ra = (addTo 0 m₁.cpu.cfc m₁.cpu).ra :=
      hkeep₁.1.trans (haci.execNext hE).1
    have hadd := addTo_column 0 m₁.cpu.cfc m₁.cpu
    have hbyte := (addTo 0 m₁.cpu.cfc m₁.cpu).ra.isLt
    have hout := (addTo 0 m₁.cpu.cfc m₁.cpu).cfc.toNat_le
    rw [hra] at hadd
    change 0x99 + 0 + _ = _ at hadd
    rw [hexec]
    omega
  have hcomplement : m₃.cpu.ra.toNat = 0x99 + m₁.cpu.cfc.toNat - l.y.toNat := by
    have hexec : m₃.cpu.ra = (subFrom l.y false m₂.cpu).ra :=
      hkeep₂.1.trans (hsub.execNext hE).1
    have hdiff := subFrom_column l.y false m₂.cpu
    have hbyte := (subFrom l.y false m₂.cpu).ra.isLt
    have hout := (subFrom l.y false m₂.cpu).cfc.toNat_le
    rw [hlift, Bool.toNat_false] at hdiff
    rw [hexec]
    omega
  rcases hadd.execNext hE with ⟨hsum, hflags⟩
  rcases hy.complement hcomplement with ⟨hhigh, hlow⟩
  clear hcomplement hlift
  rcases @adjust_addTo l.x false m₃.cpu (begun 0x27 (execNext E add m₃)).cpu hsum
    ((flags_begun _ _).trans hflags) (by rw [Bool.toNat_false]; omega) (by omega)
    with ⟨hpacked, hvalue⟩
  rw [← execNext_daa, hz] at hpacked
  rw [← execNext_daa, hz, Bool.toNat_false] at hvalue
  constructor
  · exact hpacked
  · have hnot : ∀ b : Bool, (!b).toNat = 1 - b.toNat := by decide
    have hout := (execNext E 0x27 (execNext E add m₃)).cpu.cfc.toNat_le
    rw [hnot, hnot, ← hc]
    unfold decimal at hvalue ⊢
    omega

end Steps

/-! ## Carry chains -/

section Chains

variable {m t : Machine W} {ls : List DecimalLink}

theorem chain_decimalAdd (hE : E.Frames) (hls : ∀ l ∈ ls, Packed l.x ∧ Packed l.y)
    (hrun : Run (DecimalAddStep E) m ls t) :
    (∀ l ∈ ls, Packed l.z) ∧
      Chain 100 (fun l : DecimalLink => decimal l.x) (fun l => decimal l.y)
        (fun l => decimal l.z) ls m.cpu.cfc t.cpu.cfc := by
  constructor
  · exact hrun.forall_events (fun _ _ _ hl hstep => (hstep.column hE hl.1 hl.2).1) hls
  · exact Chain.of_run (fun m => m.cpu.cfc) hrun hls fun _ _ _ hl hstep =>
      (hstep.column hE hl.1 hl.2).2

theorem chain_decimalSub (hE : E.Frames) (hls : ∀ l ∈ ls, Packed l.x ∧ Packed l.y)
    (hrun : Run (DecimalSubStep E) m ls t) :
    (∀ l ∈ ls, Packed l.z) ∧
      Chain 100 (fun l : DecimalLink => decimal l.z) (fun l => decimal l.y)
        (fun l => decimal l.x) ls (!m.cpu.cfc) (!t.cpu.cfc) := by
  constructor
  · exact hrun.forall_events (fun _ _ _ hl hstep => (hstep.column hE hl.1 hl.2).1) hls
  · exact Chain.of_run (fun m => !m.cpu.cfc) hrun hls fun _ _ _ hl hstep =>
      (hstep.column hE hl.1 hl.2).2

/--
`ADC` and `DAA` add packed decimals of any length, and the complement to 99
with `SUB`, `ADD` and `DAA` subtracts them: the results are packed decimals
again, and the last carry says whether the sum, or the difference, is in range.
-/
theorem decimal_chains (hE : E.Frames) (hls : ∀ l ∈ ls, Packed l.x ∧ Packed l.y) :
    (m.cpu.cfc = false → Run (DecimalAddStep E) m ls t →
      (∀ l ∈ ls, Packed l.z) ∧
        decimalNumber DecimalLink.z ls =
          (decimalNumber DecimalLink.x ls + decimalNumber DecimalLink.y ls) %
            100 ^ ls.length ∧
        (t.cpu.cfc = true ↔ 100 ^ ls.length ≤
          decimalNumber DecimalLink.x ls + decimalNumber DecimalLink.y ls)) ∧
    (m.cpu.cfc = true → Run (DecimalSubStep E) m ls t →
      (∀ l ∈ ls, Packed l.z) ∧
        (decimalNumber DecimalLink.z ls : Int) =
          ((decimalNumber DecimalLink.x ls : Int) - decimalNumber DecimalLink.y ls) %
            100 ^ ls.length ∧
        (t.cpu.cfc = true ↔
          decimalNumber DecimalLink.y ls ≤ decimalNumber DecimalLink.x ls)) := by
  constructor
  · intro hclear hrun
    rcases chain_decimalAdd hE hls hrun with ⟨hzs, hchain⟩
    rw [hclear] at hchain
    refine ⟨hzs, ?_⟩
    exact hchain.sum_mod (by decide) fun l hl => (hzs l hl).decimal_lt
  · intro hset hrun
    rcases chain_decimalSub hE hls hrun with ⟨hzs, hchain⟩
    rw [hset] at hchain
    rcases hchain.difference_mod (by decide) (fun l hl => (hzs l hl).decimal_lt)
      (fun l hl => (hls l hl).1.decimal_lt) with ⟨hvalue, hborrow⟩
    refine ⟨hzs, hvalue, ?_⟩
    rw [Bool.not_eq_true'] at hborrow
    rw [← Nat.not_lt]
    exact (iff_of_eq (Bool.not_eq_false t.cpu.cfc).symm).trans (not_congr hborrow)

end Chains

/-! ## Runs on two bytes -/

/-- The machine behind a round of an addition with the operand in B. -/
def afterAdd (E : Env W) (x y : U8) (m : Machine W) : Machine W :=
  execNext E 0x27 (execNext E 0x88 (loaded x y m))

theorem decimalAddStep_loaded {x y z : U8} {m : Machine W}
    (hz : (afterAdd E x y m).cpu.ra = z) :
    DecimalAddStep E m ⟨x, y, z⟩ (afterAdd E x y m) :=
  ⟨loaded x y m, 0x88, rfl, rfl, ⟨.operand (.reg .b), by decide, rfl⟩, rfl, hz⟩

/-- A machine with another operand in B. -/
def withB (y : U8) (m : Machine W) : Machine W :=
  m.onCpu fun cpu => { cpu with rb := y }

/-- The machine before the `SUB` of a round of a subtraction. -/
def beforeSub (E : Env W) (y : U8) (m : Machine W) : Machine W :=
  withB y (execNext E 0x88 (loaded 0x99 0 m))

/-- The machine before the `ADD` of the round. -/
def beforeAdd (E : Env W) (x y : U8) (m : Machine W) : Machine W :=
  withB x (execNext E 0x90 (beforeSub E y m))

def afterSub (E : Env W) (x y : U8) (m : Machine W) : Machine W :=
  execNext E 0x27 (execNext E 0x80 (beforeAdd E x y m))

theorem sameArithmetic_withB (y : U8) (m : Machine W) : SameArithmetic m (withB y m) :=
  ⟨rfl, rfl⟩

theorem applies_withB {op : AluOp} {opcode : U8} (hdec : decode opcode = .alu op (.reg .b))
    (y : U8) (m : Machine W) : Applies E op y opcode (withB y m) :=
  ⟨.operand (.reg .b), hdec, rfl⟩

theorem decimalSubStep_loaded {x y z : U8} {m : Machine W}
    (hz : (afterSub E x y m).cpu.ra = z) :
    DecimalSubStep E m ⟨x, y, z⟩ (afterSub E x y m) := by
  have haci : Applies E .adc 0 0x88 (loaded 0x99 0 m) :=
    ⟨.operand (.reg .b), by decide, rfl⟩
  refine ⟨loaded 0x99 0 m, beforeSub E y m, beforeAdd E x y m, 0x88, 0x90, 0x80, rfl, rfl,
    haci, ?_, ?_, ?_, ?_, rfl, hz⟩
  · exact sameArithmetic_withB y _
  · exact applies_withB (by decide) y _
  · exact sameArithmetic_withB x _
  · exact applies_withB (by decide) x _

/-- 1288 and 0055, with their sum. -/
def sumLinks : List DecimalLink := [⟨0x88, 0x55, 0x43⟩, ⟨0x12, 0x00, 0x13⟩]

/-- 1288 and 0055, with their difference. -/
def differenceDecimals : List DecimalLink := [⟨0x88, 0x55, 0x33⟩, ⟨0x12, 0x00, 0x12⟩]

theorem run_sumLinks :
    Run (DecimalAddStep (ramEnv 0 noDevices)) ⟨zeroCpu, zeroRam⟩ sumLinks
      (afterAdd (ramEnv 0 noDevices) 0x12 0x00
        (afterAdd (ramEnv 0 noDevices) 0x88 0x55 ⟨zeroCpu, zeroRam⟩)) :=
  .cons (decimalAddStep_loaded (by decide))
    (.cons (decimalAddStep_loaded (by decide)) (.nil _))

theorem run_differenceDecimals :
    Run (DecimalSubStep (ramEnv 0 noDevices)) ⟨{ zeroCpu with cfc := true }, zeroRam⟩
      differenceDecimals
      (afterSub (ramEnv 0 noDevices) 0x12 0x00
        (afterSub (ramEnv 0 noDevices) 0x88 0x55 ⟨{ zeroCpu with cfc := true }, zeroRam⟩)) :=
  .cons (decimalSubStep_loaded (by decide))
    (.cons (decimalSubStep_loaded (by decide)) (.nil _))

theorem decimal_chains_1288 :
    decimalNumber DecimalLink.z sumLinks =
        (decimalNumber DecimalLink.x sumLinks + decimalNumber DecimalLink.y sumLinks) %
          100 ^ sumLinks.length ∧
      (decimalNumber DecimalLink.z differenceDecimals : Int) =
        ((decimalNumber DecimalLink.x differenceDecimals : Int) -
          decimalNumber DecimalLink.y differenceDecimals) % 100 ^ differenceDecimals.length := by
  have hE := ramEnv_frames 0 noDevices
  constructor
  · exact ((decimal_chains hE (by decide)).1 rfl run_sumLinks).2.1
  · exact ((decimal_chains hE (by decide)).2 rfl run_differenceDecimals).2.1

end Cpu
end AdcLibs
