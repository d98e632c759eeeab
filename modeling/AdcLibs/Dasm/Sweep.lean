import AdcLibs.Dasm.Disassemble
import AdcLibs.Library.LinearSweep

/-!
# The disassembler's sweep

The cursors are sixteen bits wide.  As long as the linear sweep of the program
stays below `0x10000`, the loops follow it and end; an instruction that
starts in the program and ends above the top sends the cursor back to address 0
or 1.  The results below say exactly what follows.
-/

namespace AdcLibs
namespace Dasm

open Cpu Loops LinearSweep

/-- The size of the instruction at an address. -/
def instrSize (memory : Nat → U8) (addr : Nat) : Nat :=
  (sDasmLut (memory addr)).size

/-- The linear sweep from `start` passes no address above `0xFFFF`. -/
def StaysBelowTop (memory : Nat → U8) (start stop : Nat) : Prop :=
  ∀ a, Boundary (instrSize memory) start stop a → a ≤ 0xFFFF

variable {memory : Nat → U8}

/-- A cursor that does not wrap follows the sweep. -/
theorem nextAddr_toNat {a : U16} (h : a.toNat + instrSize memory a.toNat ≤ 0xFFFF) :
    (nextAddr memory a).toNat = a.toNat + instrSize memory a.toNat := by
  have hsize : (sDasmLut (memory a.toNat)).size = instrSize memory a.toNat := rfl
  rw [nextAddr, hsize, BitVec.toNat_add, BitVec.toNat_ofNat]
  omega

theorem nextAddr_ofNat {a : Nat} (h : a ≤ 0xFFFF) :
    nextAddr memory (BitVec.ofNat 16 a) = BitVec.ofNat 16 (a + instrSize memory a) := by
  have htoNat : (BitVec.ofNat 16 a).toNat = a := by
    rw [BitVec.toNat_ofNat]
    omega
  rw [nextAddr, htoNat, BitVec.ofNat_add]
  rfl

theorem cursorCond_iff {stop : U16} {a : U16} :
    cursorCond stop a = true ↔ a.toNat < stop.toNat := by
  rw [cursorCond, decide_eq_true_eq, BitVec.lt_def]

section Cursor

variable {start stop : U16}

/-- The cursor's loop, on the sweep. -/
def OnSweep (memory : Nat → U8) (start stop a : U16) : Prop :=
  Boundary (instrSize memory) start.toNat stop.toNat a.toNat

theorem OnSweep.next (hbelow : StaysBelowTop memory start.toNat stop.toNat) {a : U16}
    (h : OnSweep memory start stop a) (hcond : cursorCond stop a = true) :
    OnSweep memory start stop (nextAddr memory a) ∧
      (nextAddr memory a).toNat = a.toNat + instrSize memory a.toNat := by
  have hnext := Boundary.next h (cursorCond_iff.mp hcond)
  have htoNat := nextAddr_toNat (hbelow _ hnext)
  exact ⟨by rw [OnSweep, htoNat]; exact hnext, htoNat⟩

/-- Below the top the loop ends. -/
theorem terminates_of_staysBelowTop
    (hbelow : StaysBelowTop memory start.toNat stop.toNat) :
    Terminates (cursorCond stop) (nextAddr memory) start := by
  refine terminates_of_measure (I := OnSweep memory start stop)
    (fun a => stop.toNat - a.toNat) ?_ .start
  intro a ha hcond
  obtain ⟨hnext, htoNat⟩ := ha.next hbelow hcond
  have hlt := cursorCond_iff.mp hcond
  have hsize := (sDasmLut_size (memory a.toNat)).1
  rw [show (sDasmLut (memory a.toNat)).size = instrSize memory a.toNat from rfl] at hsize
  exact ⟨hnext, by omega⟩

/-- Below the top the loop visits addresses of the program only. -/
theorem visits_of_staysBelowTop
    (hbelow : StaysBelowTop memory start.toNat stop.toNat) {a : U16}
    (h : Visits (cursorCond stop) (nextAddr memory) start a) :
    start.toNat ≤ a.toNat ∧ a.toNat < stop.toNat := by
  obtain ⟨hiter, hcond⟩ := h
  have ha : OnSweep memory start stop a :=
    hiter.invariant (fun _ hs hc => (hs.next hbelow hc).1) .start
  exact ⟨ha.start_le, cursorCond_iff.mp hcond⟩

/-- The cursor passes every boundary of the sweep, modulo `2^16`. -/
theorem iterates_boundary {b : Nat}
    (h : Boundary (instrSize memory) start.toNat stop.toNat b) :
    Iterates (cursorCond stop) (nextAddr memory) start (BitVec.ofNat 16 b) := by
  induction h with
  | start =>
      rw [BitVec.ofNat_toNat, BitVec.setWidth_eq]
      exact .refl _
  | @next a _ ha ih =>
      have hstop := stop.isLt
      have htoNat : (BitVec.ofNat 16 a).toNat = a := by
        rw [BitVec.toNat_ofNat]
        omega
      rw [← nextAddr_ofNat (by omega)]
      exact ih.tail (cursorCond_iff.mpr (by rw [htoNat]; exact ha))

/--
A sweep that passes the top sends the cursor back to 0 or 1, and the loop goes
on from there.
-/
theorem wraps_of_not_staysBelowTop
    (h : ¬ StaysBelowTop memory start.toNat stop.toNat) :
    ∃ a : U16, ∃ b : Bool,
      Iterates (cursorCond stop) (nextAddr memory) start a ∧ cursorCond stop a = true ∧
      nextAddr memory a = BitVec.ofNat 16 b.toNat ∧ b.toNat < stop.toNat ∧
      Boundary (instrSize memory) start.toNat stop.toNat (0x10000 + b.toNat) := by
  simp only [StaysBelowTop, not_forall] at h
  obtain ⟨b, hb, htop⟩ := h
  have hstart := start.isLt
  have hstop := stop.isLt
  obtain ⟨a, ha, hlt, rfl⟩ : ∃ a, Boundary (instrSize memory) start.toNat stop.toNat a ∧
      a < stop.toNat ∧ a + instrSize memory a = b :=
    hb.eq_start_or_next.resolve_left (by omega)
  have hsize : instrSize memory a ≤ 3 := (sDasmLut_size (memory a)).2
  have htoNat : (BitVec.ofNat 16 a).toNat = a := by
    rw [BitVec.toNat_ofNat]
    omega
  obtain ⟨w, hw⟩ : ∃ w : Bool, a + instrSize memory a = 0x10000 + w.toNat := by
    rcases (by omega : a + instrSize memory a = 0x10000 ∨ a + instrSize memory a = 0x10001) with
      h | h
    · exact ⟨false, h⟩
    · exact ⟨true, h⟩
  refine ⟨BitVec.ofNat 16 a, w, iterates_boundary ha, ?_, ?_, by omega, hw ▸ ha.next hlt⟩
  · exact cursorCond_iff.mpr (by rw [htoNat]; exact hlt)
  · rw [nextAddr_ofNat (by omega), hw, BitVec.ofNat_add]
    exact BitVec.zero_add _

/--
When the loop both ends and visits addresses from `start` on only, the sweep
stays below the top, or the program starts at 0, its last instruction wraps to 1
and the sweep from 1 stays below the top.
-/
theorem staysBelowTop_or_wraps_to_one
    (hends : Terminates (cursorCond stop) (nextAddr memory) start)
    (hvisits : ∀ a, Visits (cursorCond stop) (nextAddr memory) start a →
      start.toNat ≤ a.toNat) :
    StaysBelowTop memory start.toNat stop.toNat ∨
      (start = 0 ∧ Boundary (instrSize memory) 0 stop.toNat 0x10001 ∧
        StaysBelowTop memory 1 stop.toNat) := by
  by_contra hnot
  rw [not_or] at hnot
  obtain ⟨habove, hwraps⟩ := hnot
  obtain ⟨a, w, hiter, hcond, hback, hw, hb⟩ := wraps_of_not_staysBelowTop habove
  have hwcond : cursorCond stop (BitVec.ofNat 16 w.toNat) = true :=
    cursorCond_iff.mpr (by cases w <;> simpa using hw)
  have hstart := hvisits _ ⟨hback ▸ hiter.tail hcond, hwcond⟩
  -- the cursor may not come back to `start`
  have hne : nextAddr memory a ≠ start := fun heq =>
    not_terminates_of_cycle hiter hcond heq hends
  obtain ⟨rfl, rfl⟩ : start = 0 ∧ w = true := by
    cases w with
    | false =>
        refine absurd ?_ hne
        rw [hback]
        have hzero : start.toNat = 0 := by simpa using hstart
        exact BitVec.eq_of_toNat_eq hzero.symm
    | true =>
        refine ⟨?_, rfl⟩
        by_contra hzero
        refine hne ?_
        rw [hback]
        apply BitVec.eq_of_toNat_eq
        have : start.toNat ≠ 0 := fun h => hzero (BitVec.eq_of_toNat_eq h)
        simp at hstart ⊢
        omega
  refine hwraps ⟨rfl, hb, ?_⟩
  -- from 1 the cursor may come back neither to 0 nor to 1
  by_contra habove₁
  have hone := hiter.tail hcond
  rw [hback] at hone
  obtain ⟨a', w', hiter', hcond', hback', _, _⟩ :=
    @wraps_of_not_staysBelowTop memory 1 stop habove₁
  cases w' with
  | false => exact not_terminates_of_cycle (hone.trans hiter') hcond' hback' hends
  | true =>
      exact not_terminates_of_cycle hiter' hcond' hback' (hone.terminates_iff.mp hends)

end Cursor

/-! ## Coverage -/

/-- The disassembly `d` is the linear sweep of `programSize` bytes at `orgAddr`. -/
structure Covers (memory : Nat → U8) (programSize : Nat) (orgAddr : U16)
    (d : DasmDisassembly) : Prop where
  nil : programSize = 0 → d.ops = []
  first : programSize ≠ 0 → ∃ op, d.ops[0]? = some op ∧ op.addr = orgAddr
  opdef : ∀ op ∈ d.ops, op.opdef = sDasmLut (memory op.addr.toNat)
  next : ∀ (i : Nat) (op op' : DasmOp), d.ops[i]? = some op → d.ops[i + 1]? = some op' →
    op'.addr.toNat = op.addr.toNat + op.opdef.size
  last : ∀ op, d.ops.getLast? = some op →
    op.addr.toNat < orgAddr.toNat + programSize ∧
      orgAddr.toNat + programSize ≤ op.addr.toNat + op.opdef.size
  index : ∀ (i : Nat) (op : DasmOp), d.ops[i]? = some op → op.index = i
  numOps : d.numOps = d.ops.length

section Linked

variable {start stop a b : U16} {i : Int} {ops : List DasmOp}

theorem Linked.opdef (h : Linked memory stop a i ops b) :
    ∀ op ∈ ops, op.opdef = sDasmLut (memory op.addr.toNat) := by
  induction h with
  | nil a i => exact fun op hop => absurd hop List.not_mem_nil
  | cons _ _ ih =>
      intro op hop
      rcases List.mem_cons.mp hop with rfl | hop
      · rfl
      · exact ih op hop

theorem Linked.index (h : Linked memory stop a i ops b) :
    ∀ (k : Nat) (op : DasmOp), ops[k]? = some op → op.index = i + k := by
  induction h with
  | nil a i => exact fun k op hop => by simp at hop
  | cons _ _ ih =>
      intro k op hop
      cases k with
      | zero =>
          obtain rfl := Option.some.inj hop
          exact (Int.add_zero _).symm
      | succ k =>
          rw [ih k op hop]
          push_cast
          omega

/-- The first entry is at the start. -/
theorem Linked.first (h : Linked memory stop a i ops b) (hlt : a < stop) (hb : ¬ b < stop) :
    ∃ op, ops[0]? = some op ∧ op.addr = a := by
  cases h with
  | nil => exact absurd hlt hb
  | cons _ _ => exact ⟨_, rfl, rfl⟩

theorem Linked.eq_nil (h : Linked memory stop a i ops b) (ha : ¬ a < stop) : ops = [] := by
  cases h with
  | nil => rfl
  | cons hlt _ => exact absurd hlt ha

/-- Consecutive entries are linked by the cursor's arithmetic. -/
theorem Linked.next (h : Linked memory stop a i ops b) :
    ∀ (k : Nat) (op op' : DasmOp), ops[k]? = some op → ops[k + 1]? = some op' →
      op'.addr = nextAddr memory op.addr := by
  induction h with
  | nil a i => exact fun k op op' hop => by simp at hop
  | @cons a b i ops _ hrest ih =>
      intro k op op' hop hop'
      cases k with
      | zero =>
          obtain rfl := Option.some.inj hop
          cases hrest with
          | nil => simp at hop'
          | cons _ _ =>
              obtain rfl := Option.some.inj hop'
              rfl
      | succ k => exact ih k op op' hop hop'

/-- The cursor stops behind the last entry. -/
theorem Linked.last (h : Linked memory stop a i ops b) :
    ∀ op, ops.getLast? = some op → op.addr < stop ∧ b = nextAddr memory op.addr := by
  induction h with
  | nil a i => exact fun op hop => by simp at hop
  | @cons a b i ops hlt hrest ih =>
      intro op hop
      cases hrest with
      | nil =>
          obtain rfl := Option.some.inj hop
          exact ⟨hlt, rfl⟩
      | cons hlt' hrest =>
          rw [List.getLast?_cons_cons] at hop
          exact ih op hop

/-- All entries are below the stop address and on the sweep, if it stays below the top. -/
theorem Linked.onSweep (h : Linked memory stop a i ops b)
    (hbelow : StaysBelowTop memory start.toNat stop.toNat)
    (ha : OnSweep memory start stop a) :
    ∀ op ∈ ops, OnSweep memory start stop op.addr ∧ op.addr < stop := by
  induction h with
  | nil a i => exact fun op hop => absurd hop List.not_mem_nil
  | @cons a b i ops hlt _ ih =>
      intro op hop
      rcases List.mem_cons.mp hop with rfl | hop
      · exact ⟨ha, hlt⟩
      · exact ih (ha.next hbelow (decide_eq_true hlt)).1 op hop

end Linked

theorem endAddr_toNat {programSize : Nat} {orgAddr : U16}
    (h : orgAddr.toNat + programSize ≤ 0xFFFF) :
    (endAddr programSize orgAddr).toNat = orgAddr.toNat + programSize := by
  rw [endAddr, BitVec.toNat_ofNat]
  omega

/-- Below the top the disassembly covers the program. -/
theorem disassemble_covers {programSize : Nat} {orgAddr : U16} {fuel : Nat}
    {d : DasmDisassembly} (hsize : orgAddr.toNat + programSize ≤ 0xFFFF)
    (hbelow : StaysBelowTop memory orgAddr.toNat (orgAddr.toNat + programSize))
    (h : adc8080DasmDisassemble fuel true true (some memory) programSize orgAddr =
      some (some d)) : Covers memory programSize orgAddr d := by
  obtain ⟨_, _, hnum, b, hlinked, hb⟩ := disassemble_spec h
  have hstop := endAddr_toNat hsize
  rw [← hstop] at hbelow
  have hsweep := hlinked.onSweep hbelow .start
  have hnext : ∀ op ∈ d.ops,
      (nextAddr memory op.addr).toNat = op.addr.toNat + op.opdef.size := by
    intro op hop
    rw [hlinked.opdef op hop]
    exact ((hsweep op hop).1.next hbelow (decide_eq_true (hsweep op hop).2)).2
  refine
    { nil := ?_, first := ?_, opdef := hlinked.opdef, next := ?_, last := ?_, index := ?_,
      numOps := hnum }
  · rintro rfl
    rw [Nat.add_zero] at hstop
    refine hlinked.eq_nil ?_
    rw [BitVec.lt_def, hstop]
    omega
  · intro hne
    refine hlinked.first ?_ hb
    rw [BitVec.lt_def, hstop]
    omega
  · intro k op op' hop hop'
    rw [hlinked.next k op op' hop hop', hnext op (List.mem_of_getElem? hop)]
  · intro op hop
    obtain ⟨hlt, rfl⟩ := hlinked.last op hop
    rw [BitVec.lt_def, hstop] at hlt hb
    rw [hnext op (List.mem_of_getLast? hop)] at hb
    exact ⟨hlt, Nat.le_of_not_lt hb⟩
  · intro k op hop
    rw [hlinked.index k op hop, Int.zero_add]

/-- A program that ends at `0xFFFD` at the latest is disassembled below the top. -/
theorem staysBelowTop_of_le (memory : Nat → U8) {start stop : Nat} (hstart : start ≤ stop)
    (hstop : stop ≤ 0xFFFD) : StaysBelowTop memory start stop := by
  intro a ha
  have hlt := ha.lt_of_size_le (k := 3) (fun _ => (sDasmLut_size _).2) hstart (by decide)
  omega

/-- Below the top there is a disassembly, and it covers the program. -/
theorem exists_covers {programSize : Nat} {orgAddr : U16}
    (hsize : orgAddr.toNat + programSize ≤ 0xFFFF)
    (hbelow : StaysBelowTop memory orgAddr.toNat (orgAddr.toNat + programSize)) :
    ∃ d n, (∀ fuel, n ≤ fuel →
        adc8080DasmDisassemble fuel true true (some memory) programSize orgAddr =
          some (some d)) ∧ Covers memory programSize orgAddr d := by
  have hends : LoopsTerminate memory programSize orgAddr := by
    rw [loopsTerminate_iff]
    exact terminates_of_staysBelowTop (by rw [endAddr_toNat hsize]; exact hbelow)
  obtain ⟨d, n, hd⟩ := disassemble_total hends
  exact ⟨d, n, hd, disassemble_covers hsize hbelow (hd n (Nat.le_refl n))⟩

/-- An entry is followed by another one or is the last. -/
theorem next_or_last {ops : List DasmOp} {k : Nat} {op : DasmOp} (hop : ops[k]? = some op) :
    (∃ op', ops[k + 1]? = some op') ∨ ops.getLast? = some op := by
  cases hk : ops[k + 1]? with
  | some op' => exact Or.inl ⟨op', rfl⟩
  | none =>
      right
      rw [List.getElem?_eq_none_iff] at hk
      have hlen := (List.getElem?_eq_some_iff.mp hop).1
      rw [List.getLast?_eq_getElem?, show ops.length - 1 = k by omega, hop]

theorem Covers.size_eq {programSize : Nat} {orgAddr : U16} {d : DasmDisassembly}
    (h : Covers memory programSize orgAddr d) {k : Nat} {op : DasmOp}
    (hop : d.ops[k]? = some op) : op.opdef.size = instrSize memory op.addr.toNat := by
  rw [h.opdef op (List.mem_of_getElem? hop)]
  rfl

/-- Every entry is at or above the origin. -/
theorem Covers.org_le {programSize : Nat} {orgAddr : U16} {d : DasmDisassembly}
    (h : Covers memory programSize orgAddr d) {k : Nat} {op : DasmOp}
    (hop : d.ops[k]? = some op) : orgAddr.toNat ≤ op.addr.toNat := by
  have hne : programSize ≠ 0 := fun hzero => by simp [h.nil hzero] at hop
  induction k generalizing op with
  | zero =>
      obtain ⟨op', hop', haddr⟩ := h.first hne
      obtain rfl := Option.some.inj (hop.symm.trans hop')
      exact Nat.le_of_eq (congrArg BitVec.toNat haddr.symm)
  | succ k ih =>
      obtain ⟨op', hop'⟩ : ∃ op', d.ops[k]? = some op' := by
        have hlen := (List.getElem?_eq_some_iff.mp hop).1
        exact ⟨_, List.getElem?_eq_getElem (by omega)⟩
      have := ih hop'
      rw [h.next k op' op hop' hop]
      omega

/-- Every entry starts inside the program. -/
theorem Covers.addr_lt {programSize : Nat} {orgAddr : U16} {d : DasmDisassembly}
    (h : Covers memory programSize orgAddr d) {k : Nat} {op : DasmOp}
    (hop : d.ops[k]? = some op) : op.addr.toNat < orgAddr.toNat + programSize := by
  have hlen := (List.getElem?_eq_some_iff.mp hop).1
  induction hn : d.ops.length - k generalizing k op with
  | zero => omega
  | succ n ih =>
      rcases next_or_last hop with ⟨op', hop'⟩ | hlast
      · have hlen' := (List.getElem?_eq_some_iff.mp hop').1
        have := ih hop' hlen' (by omega)
        rw [h.next k op op' hop hop'] at this
        omega
      · exact (h.last op hlast).1

/--
Every boundary of the sweep below the stop address is the address of an entry,
if the disassembly covers the program.
-/
theorem Covers.entry_of_boundary {programSize : Nat} {orgAddr : U16} {d : DasmDisassembly}
    (h : Covers memory programSize orgAddr d) {a : Nat}
    (ha : Boundary (instrSize memory) orgAddr.toNat (orgAddr.toNat + programSize) a)
    (hlt : a < orgAddr.toNat + programSize) :
    ∃ (k : Nat) (op : DasmOp), d.ops[k]? = some op ∧ op.addr.toNat = a := by
  induction ha with
  | start =>
      obtain ⟨op, hop, haddr⟩ := h.first (by omega)
      exact ⟨0, op, hop, congrArg BitVec.toNat haddr⟩
  | @next a _ hlt' ih =>
      obtain ⟨k, op, hop, rfl⟩ := ih hlt'
      rcases next_or_last hop with ⟨op', hop'⟩ | hlast
      · exact ⟨k + 1, op', hop', by rw [h.next k op op' hop hop', h.size_eq hop]⟩
      · have := (h.last op hlast).2
        rw [h.size_eq hop] at this
        omega

/--
The returned disassembly is the linear sweep of the program exactly when the
program ends below `0x10000` and so does the sweep.
-/
theorem disassemble_covers_iff (memory : Nat → U8) (programSize : Nat) (orgAddr : U16)
    (hsize : orgAddr.toNat + programSize ≤ 0x10000) :
    (∃ fuel d, adc8080DasmDisassemble fuel true true (some memory) programSize orgAddr =
        some (some d) ∧ Covers memory programSize orgAddr d) ↔
      (orgAddr.toNat + programSize ≤ 0xFFFF ∧
        StaysBelowTop memory orgAddr.toNat (orgAddr.toNat + programSize)) := by
  constructor
  · rintro ⟨fuel, d, h, hcovers⟩
    obtain ⟨_, _, _, b, hlinked, hb⟩ := disassemble_spec h
    by_cases htop : orgAddr.toNat + programSize = 0x10000
    · -- the end address is 0, so nothing was disassembled
      have hstop : endAddr programSize orgAddr = 0 := by
        rw [endAddr, Nat.add_comm, htop]
        rfl
      have horg := orgAddr.isLt
      obtain ⟨op, hop, _⟩ := hcovers.first (by omega)
      rw [hlinked.eq_nil (hstop ▸ BitVec.not_lt_zero)] at hop
      simp at hop
    · refine ⟨by omega, fun c hc => ?_⟩
      have hstop := endAddr_toNat (by omega : orgAddr.toNat + programSize ≤ 0xFFFF)
      by_contra habove
      cases hc with
      | start =>
          have := orgAddr.isLt
          omega
      | @next a ha hlt =>
          obtain ⟨k, op, hop, rfl⟩ := hcovers.entry_of_boundary ha hlt
          rcases next_or_last hop with ⟨op', hop'⟩ | hlast
          · have hnext := hcovers.next k op op' hop hop'
            have := op'.addr.isLt
            rw [hcovers.size_eq hop] at hnext
            omega
          · -- the cursor behind the last entry is 0 or 1, which is below the stop address
            obtain ⟨_, rfl⟩ := hlinked.last op hlast
            have hsize : instrSize memory op.addr.toNat ≤ 3 := (sDasmLut_size _).2
            have hwrap : (nextAddr memory op.addr).toNat =
                (op.addr.toNat + instrSize memory op.addr.toNat) % 0x10000 := by
              rw [nextAddr, BitVec.toNat_add, BitVec.toNat_ofNat]
              change (_ + instrSize memory op.addr.toNat % _) % _ = _
              omega
            rw [BitVec.lt_def, hwrap, hstop] at hb
            omega
  · rintro ⟨hle, hbelow⟩
    obtain ⟨d, n, hd, hcovers⟩ := exists_covers hle hbelow
    exact ⟨n, d, hd n (Nat.le_refl n), hcovers⟩

/-- The sample program stays below the top. -/
theorem staysBelowTop_sample : StaysBelowTop sampleMemory 0x0100 (0x0100 + 16) :=
  staysBelowTop_of_le _ (by decide) (by decide)

theorem disassemble_covers_iff_sample :
    Covers sampleMemory 16 0x0100 sampleDisassembly := by
  obtain ⟨fuel, d, hd, hcovers⟩ := (disassemble_covers_iff sampleMemory 16 0x0100
    (by decide)).mpr ⟨by decide, staysBelowTop_sample⟩
  rwa [disassemble_unique hd disassemble_sample] at hcovers

/-- A program that fills memory is disassembled to nothing. -/
theorem disassemble_misses_full_memory :
    ¬ ∃ fuel d, adc8080DasmDisassemble fuel true true (some fun _ => 0x00) 0x10000 0 =
      some (some d) ∧ Covers (fun _ => 0x00) 0x10000 0 d := by
  rintro ⟨fuel, d, h, hcovers⟩
  obtain ⟨_, _, _, b, hlinked, _⟩ := disassemble_spec h
  obtain ⟨op, hop, _⟩ := hcovers.first (by decide)
  rw [hlinked.eq_nil (by decide)] at hop
  simp at hop

/-! ## Termination -/

/--
Disassembling ends, inside the program, exactly when the program fills memory
to its top (and the loops do nothing), or its sweep stays below the top, or it
starts at 0, wraps to 1 and stays below the top from there.
-/
theorem disassemble_ends_iff (memory : Nat → U8) (programSize : Nat) (orgAddr : U16)
    (hsize : orgAddr.toNat + programSize ≤ 0x10000) :
    (LoopsTerminate memory programSize orgAddr ∧
      LoopsVisit memory programSize orgAddr fun a =>
        orgAddr.toNat ≤ a.toNat ∧ a.toNat < orgAddr.toNat + programSize) ↔
    (orgAddr.toNat + programSize = 0x10000 ∨
      StaysBelowTop memory orgAddr.toNat (orgAddr.toNat + programSize) ∨
      (orgAddr = 0 ∧ Boundary (instrSize memory) 0 programSize 0x10001 ∧
        StaysBelowTop memory 1 programSize)) := by
  rw [loopsTerminate_iff, loopsVisit_iff]
  by_cases htop : orgAddr.toNat + programSize = 0x10000
  · -- the end address is 0, and neither loop runs its body
    have hstop : endAddr programSize orgAddr = 0 := by
      rw [endAddr, Nat.add_comm, htop]
      rfl
    have hcond : ∀ a, cursorCond 0 a = false := by
      intro a
      simp [cursorCond]
    refine iff_of_true ⟨?_, ?_⟩ (Or.inl htop)
    · rw [hstop]
      exact ⟨orgAddr, .done (hcond _)⟩
    · rintro a ⟨_, ha⟩
      rw [hstop, hcond] at ha
      exact absurd ha (by decide)
  · have hstop := endAddr_toNat (by omega : orgAddr.toNat + programSize ≤ 0xFFFF)
    constructor
    · rintro ⟨hends, hvisits⟩
      rcases staysBelowTop_or_wraps_to_one hends fun a ha => (hvisits a ha).1 with
        hbelow | ⟨rfl, hone, hbelow⟩
      · exact Or.inr (Or.inl (hstop ▸ hbelow))
      · have hzero : (0 : U16).toNat + programSize = programSize := Nat.zero_add _
        rw [hstop, hzero] at hone hbelow
        exact Or.inr (Or.inr ⟨rfl, hone, hbelow⟩)
    · rintro (hfull | hbelow | ⟨rfl, hone, hbelow⟩)
      · exact absurd hfull htop
      · rw [← hstop] at hbelow ⊢
        exact ⟨terminates_of_staysBelowTop hbelow, fun a ha => visits_of_staysBelowTop hbelow ha⟩
      · have hzero : (0 : U16).toNat + programSize = programSize := Nat.zero_add _
        rw [← hzero, ← hstop] at hone hbelow
        have hiter := @iterates_boundary memory 0 _ _ hone
        refine ⟨hiter.terminates_iff.mpr ?_, fun a ha => ⟨Nat.zero_le _, ?_⟩⟩
        · exact @terminates_of_staysBelowTop memory 1 _ hbelow
        · exact hstop ▸ cursorCond_iff.mp ha.2

theorem disassemble_ends_iff_sample :
    LoopsTerminate sampleMemory 16 0x0100 ∧
      LoopsVisit sampleMemory 16 0x0100 fun a => 0x0100 ≤ a.toNat ∧ a.toNat < 0x0100 + 16 :=
  (disassemble_ends_iff sampleMemory 16 0x0100 (by decide)).mpr
    (Or.inr (Or.inl staysBelowTop_sample))

/-- `LXI B` at FFFEh and `NOP` everywhere else. -/
def straddleMemory (a : Nat) : U8 :=
  if a = 0xFFFE then 0x01 else 0x00

/-- The one-byte program of `straddleMemory` at FFFEh is disassembled for ever, starting
with address 1. -/
theorem disassemble_straddles_top :
    ¬ LoopsTerminate straddleMemory 1 0xFFFE ∧
      ¬ LoopsVisit straddleMemory 1 0xFFFE fun a =>
        0xFFFE ≤ a.toNat ∧ a.toNat < 0xFFFE + 1 := by
  have hstop : endAddr 1 0xFFFE = 0xFFFF := by decide
  have hback : nextAddr straddleMemory 0xFFFE = 1 := by decide
  have hfirst : Iterates (cursorCond 0xFFFF) (nextAddr straddleMemory) 0xFFFE 1 :=
    hback ▸ (Iterates.refl _).tail (by decide)
  rw [loopsTerminate_iff, loopsVisit_iff, hstop]
  refine ⟨?_, fun hvisits => ?_⟩
  · -- the `NOP`s lead from 1 to FFFEh
    have hnops : ∀ k, k ≤ 0xFFFD → Boundary (instrSize straddleMemory) 1 0xFFFF (1 + k) := by
      intro k
      induction k with
      | zero => exact fun _ => .start
      | succ k ih =>
          intro hk
          have hnop : straddleMemory (1 + k) = 0x00 := if_neg (by omega)
          have hone : instrSize straddleMemory (1 + k) = 1 := by
            rw [instrSize, hnop]
            decide
          have hnext := (ih (by omega)).next (by omega)
          rw [hone] at hnext
          exact hnext
    have hiter : Iterates (cursorCond 0xFFFF) (nextAddr straddleMemory) 1 0xFFFE :=
      iterates_boundary (hnops 0xFFFD (by decide))
    rw [hfirst.terminates_iff]
    exact not_terminates_of_cycle hiter (by decide) hback
  · have hone := hvisits 1 ⟨hfirst, by decide⟩
    exact absurd hone.1 (by decide)

end Dasm
end AdcLibs
