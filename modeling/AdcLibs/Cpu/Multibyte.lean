import AdcLibs.Cpu.Arithmetic
import AdcLibs.Cpu.Ram
import AdcLibs.Library.CarryChain
import Mathlib.Algebra.Ring.Int.Defs

/-!
# Arithmetic on numbers of several bytes

Programs add and subtract numbers of several bytes with one operation a byte,
which leaves the carry to the next one.  A run alternates between the
operation and any code that keeps the carry and loads the next byte into the
accumulator.  Each operation fills one column of a carry chain in base 256.
-/

namespace AdcLibs
namespace Cpu

universe u

open Reference CarryChain Runs

/-! ## One byte -/

section Columns

variable (v : U8) (c : Bool) (cpu : Adc8080Cpu)

theorem addTo_column :
    cpu.ra.toNat + v.toNat + c.toNat =
      (addTo v c cpu).ra.toNat + 256 * (addTo v c cpu).cfc.toNat := by
  have ha := cpu.ra.isLt
  have hv := v.isLt
  have hc := c.toNat_le
  simp only [addTo, BitVec.toNat_ofNat, toNat_decide]
  split <;> omega

theorem subFrom_column :
    (subFrom v c cpu).ra.toNat + v.toNat + c.toNat =
      cpu.ra.toNat + 256 * (subFrom v c cpu).cfc.toNat := by
  have ha := cpu.ra.isLt
  have hv := v.isLt
  have hc := c.toNat_le
  simp only [subFrom, BitVec.toNat_ofInt, toNat_decide]
  split <;> omega

theorem rotateCarryLeft_column :
    cpu.ra.toNat + cpu.ra.toNat + cpu.cfc.toNat =
      (rotateCarryLeft cpu).ra.toNat + 256 * (rotateCarryLeft cpu).cfc.toNat := by
  have ha := cpu.ra.isLt
  have hc := cpu.cfc.toNat_le
  simp only [rotateCarryLeft, BitVec.toNat_ofNat, toNat_decide]
  split <;> omega

theorem rotateCarryRight_column :
    (rotateCarryRight cpu).ra.toNat + (rotateCarryRight cpu).ra.toNat +
        (rotateCarryRight cpu).cfc.toNat =
      cpu.ra.toNat + 256 * cpu.cfc.toNat := by
  have ha := cpu.ra.isLt
  have hc := cpu.cfc.toNat_le
  simp only [rotateCarryRight, BitVec.toNat_ofNat, toNat_decide]
  split <;> omega

end Columns

/-! ## Runs -/

variable {W : Type u} {E : Env W}

/-- An operation of a run: the accumulator holds `x` before and `z` after it, and the
operand is `y`. -/
structure Link where
  op : AluOp
  x : U8
  y : U8
  z : U8

/-- The operation is executed after code that keeps the carry and loads `x`. -/
def LinkStep (E : Env W) (m : Machine W) (l : Link) (t : Machine W) : Prop :=
  ∃ m₁ opcode, m₁.cpu.cfc = m.cpu.cfc ∧ m₁.cpu.ra = l.x ∧ Applies E l.op l.y opcode m₁ ∧
    t = execNext E opcode m₁ ∧ t.cpu.ra = l.z

/-- A rotation of a run: the accumulator holds `x` before and `z` after it. -/
structure Rotation where
  x : U8
  z : U8

def RotationStep (E : Env W) (i : Instr) (m : Machine W) (l : Rotation) (t : Machine W) : Prop :=
  ∃ m₁ opcode, m₁.cpu.cfc = m.cpu.cfc ∧ m₁.cpu.ra = l.x ∧ decode opcode = i ∧
    t = execNext E opcode m₁ ∧ t.cpu.ra = l.z

/-- The number with the bytes `x l`, least significant first. -/
def number {α : Type} (x : α → U8) (ls : List α) : Nat :=
  numeral 256 (fun l => (x l).toNat) ls

theorem byte_lt {α : Type} (x : α → U8) (ls : List α) : ∀ l ∈ ls, (x l).toNat < 256 :=
  fun l _ => (x l).isLt

section Steps

variable {m t : Machine W} {l : Link}

theorem LinkStep.exec (hE : E.Frames) (h : LinkStep E m l t) :
    ∃ cpu : Adc8080Cpu, cpu.ra = l.x ∧ cpu.cfc = m.cpu.cfc ∧
      (l.op.exec l.y cpu).ra = l.z ∧ (l.op.exec l.y cpu).cfc = t.cpu.cfc := by
  rcases h with ⟨m₁, opcode, hc, hx, happlies, rfl, hz⟩
  rcases happlies.execNext hE with ⟨hra, hflags⟩
  refine ⟨m₁.cpu, hx, hc, ?_, ?_⟩
  · rw [← hra, hz]
  · exact (congrArg Flags.cfc hflags).symm

/-- The column of an addition, with the carry that its operation takes in. -/
theorem LinkStep.add_column (hE : E.Frames) (h : LinkStep E m l t) {c : Bool}
    (hop : l.op = .add ∧ c = false ∨ l.op = .adc ∧ c = m.cpu.cfc) :
    l.x.toNat + l.y.toNat + c.toNat = l.z.toNat + 256 * t.cpu.cfc.toNat := by
  rcases h.exec hE with ⟨cpu, hx, hc, hz, ht⟩
  have hexec : l.op.exec l.y cpu = addTo l.y c cpu := by
    rcases hop with ⟨hop, rfl⟩ | ⟨hop, rfl⟩
    · rw [hop]
      rfl
    · rw [hop, ← hc]
      rfl
  rw [← hx, ← hz, ← ht, hexec]
  exact addTo_column l.y c cpu

theorem LinkStep.sub_column (hE : E.Frames) (h : LinkStep E m l t) {c : Bool}
    (hop : l.op = .sub ∧ c = false ∨ l.op = .sbb ∧ c = m.cpu.cfc) :
    l.z.toNat + l.y.toNat + c.toNat = l.x.toNat + 256 * t.cpu.cfc.toNat := by
  rcases h.exec hE with ⟨cpu, hx, hc, hz, ht⟩
  have hexec : l.op.exec l.y cpu = subFrom l.y c cpu := by
    rcases hop with ⟨hop, rfl⟩ | ⟨hop, rfl⟩
    · rw [hop]
      rfl
    · rw [hop, ← hc]
      rfl
  rw [← hx, ← hz, ← ht, hexec]
  exact subFrom_column l.y c cpu

variable {r : Rotation}

theorem RotationStep.left_column (h : RotationStep E .ral m r t) :
    r.x.toNat + r.x.toNat + m.cpu.cfc.toNat = r.z.toNat + 256 * t.cpu.cfc.toNat := by
  rcases h with ⟨m₁, opcode, hc, hx, hdec, rfl, hz⟩
  rw [← hx, ← hc, ← hz, execNext_begun, hdec]
  exact rotateCarryLeft_column (begun opcode m₁).cpu

theorem RotationStep.right_column (h : RotationStep E .rar m r t) :
    r.z.toNat + r.z.toNat + t.cpu.cfc.toNat = r.x.toNat + 256 * m.cpu.cfc.toNat := by
  rcases h with ⟨m₁, opcode, hc, hx, hdec, rfl, hz⟩
  rw [← hx, ← hc, ← hz, execNext_begun, hdec]
  exact rotateCarryRight_column (begun opcode m₁).cpu

end Steps

/-! ## Carry chains -/

section Chains

variable {m t : Machine W} {l : Link} {ls : List Link}

/-- A run of `ADC` is a carry chain. -/
theorem chain_adc (hE : E.Frames) (hls : ∀ l ∈ ls, l.op = .adc)
    (hrun : Run (LinkStep E) m ls t) :
    Chain 256 (·.x.toNat) (·.y.toNat) (·.z.toNat) ls m.cpu.cfc t.cpu.cfc :=
  Chain.of_run (fun m => m.cpu.cfc) hrun hls fun _ _ _ hop hstep =>
    hstep.add_column hE (Or.inr ⟨hop, rfl⟩)

/-- A run of `SBB` is a carry chain whose sums are the bytes subtracted from. -/
theorem chain_sbb (hE : E.Frames) (hls : ∀ l ∈ ls, l.op = .sbb)
    (hrun : Run (LinkStep E) m ls t) :
    Chain 256 (·.z.toNat) (·.y.toNat) (·.x.toNat) ls m.cpu.cfc t.cpu.cfc :=
  Chain.of_run (fun m => m.cpu.cfc) hrun hls fun _ _ _ hop hstep =>
    hstep.sub_column hE (Or.inr ⟨hop, rfl⟩)

theorem chain_add (hE : E.Frames) (hl : l.op = .add) (hls : ∀ l ∈ ls, l.op = .adc)
    (hrun : Run (LinkStep E) m (l :: ls) t) :
    Chain 256 (·.x.toNat) (·.y.toNat) (·.z.toNat) (l :: ls) false t.cpu.cfc := by
  rcases run_cons_iff.mp hrun with ⟨m', hstep, hrun⟩
  exact .cons (hstep.add_column hE (Or.inl ⟨hl, rfl⟩)) (chain_adc hE hls hrun)

theorem chain_sub (hE : E.Frames) (hl : l.op = .sub) (hls : ∀ l ∈ ls, l.op = .sbb)
    (hrun : Run (LinkStep E) m (l :: ls) t) :
    Chain 256 (·.z.toNat) (·.y.toNat) (·.x.toNat) (l :: ls) false t.cpu.cfc := by
  rcases run_cons_iff.mp hrun with ⟨m', hstep, hrun⟩
  exact .cons (hstep.sub_column hE (Or.inl ⟨hl, rfl⟩)) (chain_sbb hE hls hrun)

variable {rs : List Rotation}

/-- Rotating left from the lowest byte on adds the number to itself. -/
theorem chain_ral (hrun : Run (RotationStep E .ral) m rs t) :
    Chain 256 (·.x.toNat) (·.x.toNat) (·.z.toNat) rs m.cpu.cfc t.cpu.cfc :=
  Chain.of_run (fun m => m.cpu.cfc) hrun (fun _ _ => trivial) fun _ _ _ _ hstep =>
    hstep.left_column

/-- Rotating right from the highest byte on undoes such an addition: the chain is built
from its upper end. -/
theorem chain_rar (hrun : Run (RotationStep E .rar) m rs t) :
    Chain 256 (·.z.toNat) (·.z.toNat) (·.x.toNat) rs.reverse t.cpu.cfc m.cpu.cfc :=
  Chain.of_run_reverse (fun m => m.cpu.cfc) hrun (fun _ _ => trivial) fun _ _ _ _ hstep =>
    hstep.right_column

end Chains

/-- The top bit of a number of `n` bytes is what doubling it carries out. -/
theorem testBit_top {n N : Nat} (hn : 1 ≤ n) (hN : N < 256 ^ n) (c : Bool) :
    N.testBit (8 * n - 1) = decide (256 ^ n ≤ 2 * N + c.toNat) := by
  have hc := c.toNat_le
  have hpow : (256 : Nat) ^ n = 2 * 2 ^ (8 * n - 1) := by
    have hexp : 8 * n = 8 * n - 1 + 1 := by omega
    calc (256 : Nat) ^ n = 2 ^ (8 * n) := (Nat.pow_mul 2 8 n).symm
      _ = 2 ^ (8 * n - 1) * 2 := by rw [hexp, Nat.pow_succ, Nat.add_sub_cancel]
      _ = 2 * 2 ^ (8 * n - 1) := Nat.mul_comm _ _
  rw [Nat.testBit_eq_decide_div_mod_eq, hpow]
  rw [hpow] at hN
  apply decide_eq_decide.mpr
  by_cases htop : 2 ^ (8 * n - 1) ≤ N
  · have hdiv : N / 2 ^ (8 * n - 1) = 1 :=
      Nat.div_eq_of_lt_le (by omega) (by omega)
    rw [hdiv]
    omega
  · have hdiv : N / 2 ^ (8 * n - 1) = 0 := Nat.div_eq_of_lt (by omega)
    rw [hdiv]
    omega

/-- A number of bytes is below the power of 256. -/
theorem number_lt {α : Type} (x : α → U8) (ls : List α) : number x ls < 256 ^ ls.length :=
  numeral_lt (by decide) (byte_lt x ls)

/-! ## The four operations -/

section Results

variable {m t : Machine W} {l : Link} {ls : List Link} {r : Rotation} {rs : List Rotation}

theorem add_run (hE : E.Frames) (hl : l.op = .add) (hls : ∀ l ∈ ls, l.op = .adc)
    (hrun : Run (LinkStep E) m (l :: ls) t) :
    number Link.z (l :: ls) =
        (number Link.x (l :: ls) + number Link.y (l :: ls)) % 256 ^ (l :: ls).length ∧
      (t.cpu.cfc = true ↔
        256 ^ (l :: ls).length ≤ number Link.x (l :: ls) + number Link.y (l :: ls)) :=
  (chain_add hE hl hls hrun).sum_mod (by decide) (byte_lt Link.z (l :: ls))

theorem sub_run (hE : E.Frames) (hl : l.op = .sub) (hls : ∀ l ∈ ls, l.op = .sbb)
    (hrun : Run (LinkStep E) m (l :: ls) t) :
    (number Link.z (l :: ls) : Int) =
        ((number Link.x (l :: ls) : Int) - number Link.y (l :: ls)) %
          256 ^ (l :: ls).length ∧
      (t.cpu.cfc = true ↔ number Link.x (l :: ls) < number Link.y (l :: ls)) :=
  (chain_sub hE hl hls hrun).difference_mod (by decide) (byte_lt Link.z (l :: ls))
    (byte_lt Link.x (l :: ls))

theorem ral_run (hrs : rs ≠ []) (hrun : Run (RotationStep E .ral) m rs t) :
    number Rotation.z rs =
        (2 * number Rotation.x rs + m.cpu.cfc.toNat) % 256 ^ rs.length ∧
      t.cpu.cfc = (number Rotation.x rs).testBit (8 * rs.length - 1) := by
  have hlen : 1 ≤ rs.length := List.length_pos_iff.mpr hrs
  rcases (chain_ral hrun).sum_mod (by decide) (byte_lt Rotation.z rs) with ⟨hz, hc⟩
  rw [← Nat.two_mul] at hz hc
  constructor
  · exact hz
  · rw [testBit_top hlen (number_lt _ rs) m.cpu.cfc, Bool.eq_iff_iff, decide_eq_true_eq]
    exact hc

theorem rar_run (hrs : rs ≠ []) (hrun : Run (RotationStep E .rar) m rs t) :
    number Rotation.z rs.reverse =
        (number Rotation.x rs.reverse + m.cpu.cfc.toNat * 256 ^ rs.length) / 2 ∧
      t.cpu.cfc = (number Rotation.x rs.reverse).testBit 0 := by
  have hsum := (chain_rar hrun).sum
  have hlen : 1 ≤ rs.length := List.length_pos_iff.mpr hrs
  have hc := t.cpu.cfc.toNat_le
  have heven : ∃ p, 256 ^ rs.length * m.cpu.cfc.toNat = 2 * p := by
    rcases Nat.exists_eq_add_of_le' hlen with ⟨k, hk⟩
    refine ⟨256 ^ k * 128 * m.cpu.cfc.toNat, ?_⟩
    rw [hk, Nat.pow_succ]
    ring
  rcases heven with ⟨p, hp⟩
  change number Rotation.z rs.reverse + number Rotation.z rs.reverse + t.cpu.cfc.toNat =
    number Rotation.x rs.reverse + _ at hsum
  rw [List.length_reverse, hp] at hsum
  rw [Nat.mul_comm m.cpu.cfc.toNat, hp, Nat.testBit_zero]
  constructor
  · omega
  · rw [Bool.eq_iff_iff, decide_eq_true_eq]
    cases hcarry : t.cpu.cfc with
    | false =>
        rw [hcarry, Bool.toNat_false] at hsum
        simp only [Bool.false_eq_true, false_iff]
        omega
    | true =>
        rw [hcarry, Bool.toNat_true] at hsum
        simp only [true_iff]
        omega

/--
The carry links the bytes: `ADD` and `ADC`, `SUB` and `SBB`, `RAL` from the
lowest byte on and `RAR` from the highest one on compute with the whole
numbers, for every length.
-/
theorem carry_chains (hE : E.Frames) (m t : Machine W) :
    (∀ l ls, l.op = .add → (∀ l ∈ ls, l.op = .adc) → Run (LinkStep E) m (l :: ls) t →
      number Link.z (l :: ls) =
          (number Link.x (l :: ls) + number Link.y (l :: ls)) % 256 ^ (l :: ls).length ∧
        (t.cpu.cfc = true ↔
          256 ^ (l :: ls).length ≤ number Link.x (l :: ls) + number Link.y (l :: ls))) ∧
    (∀ l ls, l.op = .sub → (∀ l ∈ ls, l.op = .sbb) → Run (LinkStep E) m (l :: ls) t →
      (number Link.z (l :: ls) : Int) =
          ((number Link.x (l :: ls) : Int) - number Link.y (l :: ls)) %
            256 ^ (l :: ls).length ∧
        (t.cpu.cfc = true ↔ number Link.x (l :: ls) < number Link.y (l :: ls))) ∧
    (∀ rs, rs ≠ [] → Run (RotationStep E .ral) m rs t →
      number Rotation.z rs =
          (2 * number Rotation.x rs + m.cpu.cfc.toNat) % 256 ^ rs.length ∧
        t.cpu.cfc = (number Rotation.x rs).testBit (8 * rs.length - 1)) ∧
    (∀ rs, rs ≠ [] → Run (RotationStep E .rar) m rs t →
      number Rotation.z rs.reverse =
          (number Rotation.x rs.reverse + m.cpu.cfc.toNat * 256 ^ rs.length) / 2 ∧
        t.cpu.cfc = (number Rotation.x rs.reverse).testBit 0) := by
  refine ⟨?_, ?_, ?_, ?_⟩
  · intro l ls hl hls hrun
    exact add_run hE hl hls hrun
  · intro l ls hl hls hrun
    exact sub_run hE hl hls hrun
  · intro rs hrs hrun
    exact ral_run hrs hrun
  · intro rs hrs hrun
    exact rar_run hrs hrun

end Results

/-! ## Runs on two words -/

/-- A machine with two loaded registers. -/
def loaded (x y : U8) (m : Machine W) : Machine W :=
  m.onCpu fun cpu => { cpu with ra := x, rb := y }

section Loaded

variable {op : AluOp} {x y z opcode : U8} {m : Machine W}

theorem linkStep_loaded (hdec : decode opcode = .alu op (.reg .b))
    (hz : (execNext E opcode (loaded x y m)).cpu.ra = z) :
    LinkStep E m ⟨op, x, y, z⟩ (execNext E opcode (loaded x y m)) :=
  ⟨loaded x y m, opcode, rfl, rfl, ⟨.operand (.reg .b), hdec, rfl⟩, rfl, hz⟩

theorem rotationStep_loaded {i : Instr} (hdec : decode opcode = i)
    (hz : (execNext E opcode (loaded x y m)).cpu.ra = z) :
    RotationStep E i m ⟨x, z⟩ (execNext E opcode (loaded x y m)) :=
  ⟨loaded x y m, opcode, rfl, rfl, hdec, rfl, hz⟩

end Loaded

/-- The machine behind two operations, each with its operands in A and B. -/
def afterTwo (op op' x x' y y' : U8) : Machine (Ram Unit) :=
  execNext (ramEnv 0 noDevices) op' (loaded x' y'
    (execNext (ramEnv 0 noDevices) op (loaded x y ⟨zeroCpu, zeroRam⟩)))

/-- Adding 3401h to 12FFh with `ADD B` and `ADC B`. -/
def wordLinks : List Link := [⟨.add, 0xFF, 0x01, 0x00⟩, ⟨.adc, 0x12, 0x34, 0x47⟩]

theorem run_wordLinks :
    Run (LinkStep (ramEnv 0 noDevices)) ⟨zeroCpu, zeroRam⟩ wordLinks
      (afterTwo 0x80 0x88 0xFF 0x12 0x01 0x34) :=
  .cons (linkStep_loaded (by decide) (by decide))
    (.cons (linkStep_loaded (by decide) (by decide)) (.nil _))

/-- Subtracting 3401h from 1200h with `SUB B` and `SBB B`. -/
def differenceLinks : List Link := [⟨.sub, 0x00, 0x01, 0xFF⟩, ⟨.sbb, 0x12, 0x34, 0xDD⟩]

theorem run_differenceLinks :
    Run (LinkStep (ramEnv 0 noDevices)) ⟨zeroCpu, zeroRam⟩ differenceLinks
      (afterTwo 0x90 0x98 0x00 0x12 0x01 0x34) :=
  .cons (linkStep_loaded (by decide) (by decide))
    (.cons (linkStep_loaded (by decide) (by decide)) (.nil _))

/-- Rotating the bytes 81h and 40h one after the other, to the left and to the right. -/
def leftRotations : List Rotation := [⟨0x81, 0x02⟩, ⟨0x40, 0x81⟩]

def rightRotations : List Rotation := [⟨0x81, 0x40⟩, ⟨0x40, 0xA0⟩]

theorem run_leftRotations :
    Run (RotationStep (ramEnv 0 noDevices) .ral) ⟨zeroCpu, zeroRam⟩ leftRotations
      (afterTwo 0x17 0x17 0x81 0x40 0 0) :=
  .cons (rotationStep_loaded (by decide) (by decide))
    (.cons (rotationStep_loaded (by decide) (by decide)) (.nil _))

theorem run_rightRotations :
    Run (RotationStep (ramEnv 0 noDevices) .rar) ⟨zeroCpu, zeroRam⟩ rightRotations
      (afterTwo 0x1F 0x1F 0x81 0x40 0 0) :=
  .cons (rotationStep_loaded (by decide) (by decide))
    (.cons (rotationStep_loaded (by decide) (by decide)) (.nil _))

theorem carry_chains_word :
    number Link.z wordLinks =
        (number Link.x wordLinks + number Link.y wordLinks) % 256 ^ wordLinks.length ∧
      (number Link.z differenceLinks : Int) =
        ((number Link.x differenceLinks : Int) - number Link.y differenceLinks) %
          256 ^ differenceLinks.length ∧
      number Rotation.z leftRotations =
        (2 * number Rotation.x leftRotations + 0) % 256 ^ leftRotations.length ∧
      number Rotation.z rightRotations.reverse =
        (number Rotation.x rightRotations.reverse + 0 * 256 ^ rightRotations.length) / 2 := by
  have hchains := carry_chains (ramEnv_frames 0 noDevices) ⟨zeroCpu, zeroRam⟩
  refine ⟨?_, ?_, ?_, ?_⟩
  · exact ((hchains _).1 _ _ rfl (by decide) run_wordLinks).1
  · exact ((hchains _).2.1 _ _ rfl (by decide) run_differenceLinks).1
  · exact ((hchains _).2.2.1 _ (List.cons_ne_nil _ _) run_leftRotations).1
  · exact ((hchains _).2.2.2 _ (List.cons_ne_nil _ _) run_rightRotations).1

end Cpu
end AdcLibs
