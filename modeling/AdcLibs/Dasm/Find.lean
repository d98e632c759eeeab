import AdcLibs.Dasm.Lookup
import AdcLibs.Dasm.Sweep
import AdcLibs.Library.SortedSearch
import Mathlib.Data.Nat.Basic

/-!
# `adc_8080_dasm_find` on a covered program

The operations of a disassembly that covers its program are sorted by address,
as `compareops` compares them.  So any `bsearch` finds the operation at an
address when there is one, and there is one exactly at the boundaries of the
sweep inside the program.
-/

namespace AdcLibs
namespace Dasm

open Cpu LinearSweep SortedSearch

/-! ## `bsearch` -/

section Bsearch

variable {α : Type} {compar : α → Int} {base : List α}

/-- Empty bounds enclose no element. -/
theorem result_none_of_bounds {low high : Nat} (hle : ¬ low < high)
    (hbounds : ∀ (i : Nat) (x : α), base[i]? = some x → compar x = 0 → low ≤ i ∧ i < high) :
    Result compar base none := by
  intro x hx hzero
  obtain ⟨i, hi⟩ := List.mem_iff_getElem?.mp hx
  have := hbounds i x hi hzero
  omega

/-- The search between two bounds that enclose every element at the key. -/
theorem bsearchBetween_result (hord : Ordered compar base) {fuel low high : Nat}
    (hfuel : high - low ≤ fuel) (hhigh : high ≤ base.length)
    (hbounds : ∀ (i : Nat) (x : α), base[i]? = some x → compar x = 0 → low ≤ i ∧ i < high) :
    Result compar base (bsearchBetween compar base fuel low high) := by
  induction fuel generalizing low high with
  | zero => exact result_none_of_bounds (by omega) hbounds
  | succ fuel ih =>
      rw [bsearchBetween]
      split
      · next hlt =>
          simp only
          obtain ⟨mid, hmid⟩ : ∃ mid, (low + high) / 2 = mid := ⟨_, rfl⟩
          obtain ⟨x, hx⟩ : ∃ x, base[mid]? = some x :=
            ⟨_, List.getElem?_eq_getElem (by omega)⟩
          rw [hmid, hx, Option.bind_some]
          split
          · next hzero => exact ⟨List.mem_of_getElem? hx, hzero⟩
          · split
            · next hneg =>
                -- the middle is above the key, and so is what follows it
                refine ih (by omega) (by omega) ?_
                intro i y hi hy
                refine ⟨(hbounds i y hi hy).1, ?_⟩
                by_contra hge
                have := hord.neg_of_le hx hi (by omega) hneg
                omega
            · next hpos =>
                refine ih (by omega) (by omega) ?_
                intro i y hi hy
                refine ⟨?_, (hbounds i y hi hy).2⟩
                by_contra hge
                have := hord.pos_of_le hi hx (by omega) (by omega)
                omega
      · next hle => exact result_none_of_bounds hle hbounds

/-- The bisection is a `bsearch`. -/
theorem searches_bsearch : Searches (bsearch (α := α)) := by
  intro compar base hord
  refine bsearchBetween_result hord (by omega) (Nat.le_refl _) ?_
  intro i x hi _
  exact ⟨Nat.zero_le i, (List.getElem?_eq_some_iff.mp hi).1⟩

end Bsearch

/-! ## The operations of a covered program -/

section Covers

variable {memory : Nat → U8} {programSize : Nat} {orgAddr : U16} {d : DasmDisassembly}

/-- Every entry is at a boundary of the sweep. -/
theorem Covers.boundary_of_entry (h : Covers memory programSize orgAddr d) {k : Nat}
    {op : DasmOp} (hop : d.ops[k]? = some op) :
    Boundary (instrSize memory) orgAddr.toNat (orgAddr.toNat + programSize) op.addr.toNat := by
  induction k generalizing op with
  | zero =>
      have hne : programSize ≠ 0 := fun hzero => by simp [h.nil hzero] at hop
      obtain ⟨op', hop', haddr⟩ := h.first hne
      obtain rfl := Option.some.inj (hop.symm.trans hop')
      rw [haddr]
      exact .start
  | succ k ih =>
      obtain ⟨op', hop'⟩ : ∃ op', d.ops[k]? = some op' := by
        have hlen := (List.getElem?_eq_some_iff.mp hop).1
        exact ⟨_, List.getElem?_eq_getElem (by omega)⟩
      rw [h.next k op' op hop' hop, h.size_eq hop']
      exact (ih hop').next (h.addr_lt hop')

/-- The addresses increase by one at least from an entry to the next. -/
theorem Covers.addr_add_le (h : Covers memory programSize orgAddr d) {i j : Nat}
    {op op' : DasmOp} (hop : d.ops[i]? = some op) (hop' : d.ops[i + j]? = some op') :
    op.addr.toNat + j ≤ op'.addr.toNat := by
  induction j generalizing op' with
  | zero =>
      obtain rfl := Option.some.inj (hop.symm.trans hop')
      exact Nat.le_refl _
  | succ j ih =>
      obtain ⟨op'', hop''⟩ : ∃ op'', d.ops[i + j]? = some op'' := by
        have hlen := (List.getElem?_eq_some_iff.mp hop').1
        exact ⟨_, List.getElem?_eq_getElem (by omega)⟩
      have hle := ih hop''
      have hpos : 1 ≤ instrSize memory op''.addr.toNat := (sDasmLut_size _).1
      rw [h.next (i + j) op'' op' hop'' hop', h.size_eq hop'']
      omega

theorem Covers.sorted (h : Covers memory programSize orgAddr d) :
    d.ops.Pairwise fun op op' => op.addr.toNat < op'.addr.toNat := by
  rw [List.pairwise_iff_getElem]
  intro i j hi hj hij
  have hle := h.addr_add_le (i := i) (j := j - i) (List.getElem?_eq_getElem hi)
    (by rw [Nat.add_sub_cancel' (Nat.le_of_lt hij)]; exact List.getElem?_eq_getElem hj)
  omega

/-- Two entries with one address are the same entry. -/
theorem Covers.entry_unique (h : Covers memory programSize orgAddr d) {i j : Nat}
    {op op' : DasmOp} (hop : d.ops[i]? = some op) (hop' : d.ops[j]? = some op')
    (haddr : op.addr = op'.addr) : i = j := by
  rcases Nat.lt_trichotomy i j with hlt | heq | hlt
  · have hle := h.addr_add_le (i := i) (j := j - i) hop
      (by rw [Nat.add_sub_cancel' (Nat.le_of_lt hlt)]; exact hop')
    rw [haddr] at hle
    omega
  · exact heq
  · have hle := h.addr_add_le (i := j) (j := i - j) hop'
      (by rw [Nat.add_sub_cancel' (Nat.le_of_lt hlt)]; exact hop)
    rw [haddr] at hle
    omega

/-- A covered program has fewer than `2^16` operations. -/
theorem Covers.length_le (h : Covers memory programSize orgAddr d) :
    d.ops.length ≤ 0x10000 := by
  by_contra hlong
  obtain ⟨op, hop⟩ : ∃ op, d.ops[0]? = some op := ⟨_, List.getElem?_eq_getElem (by omega)⟩
  obtain ⟨op', hop'⟩ : ∃ op', d.ops[0 + 0x10000]? = some op' :=
    ⟨_, List.getElem?_eq_getElem (by omega)⟩
  have hle := h.addr_add_le hop hop'
  have := op'.addr.isLt
  omega

theorem addr_ne_of_no_entry {ops : List DasmOp} {a : U16}
    (h : ¬ ∃ (k : Nat) (op : DasmOp), ops[k]? = some op ∧ op.addr = a) :
    ∀ op ∈ ops, op.addr ≠ a := by
  intro op hop haddr
  obtain ⟨k, hk⟩ := List.mem_iff_getElem?.mp hop
  exact h ⟨k, op, hk, haddr⟩

/-- No operation of a program is the special one. -/
theorem Covers.not_notfound (h : Covers memory programSize orgAddr d) {k : Nat} {op : DasmOp}
    (hop : d.ops[k]? = some op) : adc8080DasmOpNotfound op = false := by
  have hsize : 1 ≤ instrSize memory op.addr.toNat := (sDasmLut_size _).1
  rw [← h.size_eq hop] at hsize
  have hne : op.opdef.size ≠ 0 := by omega
  simp [adc8080DasmOpNotfound, hne]

theorem notfound_sOpNotfound : adc8080DasmOpNotfound sOpNotfound = true := rfl

end Covers

/-! ## Finding -/

section Find

variable (search : (DasmOp → Int) → List DasmOp → Nat → Option DasmOp)

/-- `adc_8080_dasm_find` with any `bsearch`. -/
def findBy (dasm : Option DasmDisassembly) (addr : U16) : DasmOp :=
  match dasm with
  | none => sOpNotfound
  | some dasm =>
      match search (compareops addr) dasm.ops dasm.numOps with
      | none => sOpNotfound
      | some op => op

theorem findBy_bsearch : findBy bsearch = adc8080DasmFind := rfl

variable {search} {memory : Nat → U8} {programSize : Nat} {orgAddr : U16} {d : DasmDisassembly}

/-- The comparator's three answers. -/
theorem compareops_cases (a : U16) (op : DasmOp) :
    (a.toNat < op.addr.toNat ∧ compareops a op = -1) ∨
      (op.addr = a ∧ compareops a op = 0) ∨
      (op.addr.toNat < a.toNat ∧ compareops a op = 1) := by
  by_cases hlt : a < op.addr
  · exact .inl ⟨BitVec.lt_def.mp hlt, if_pos hlt⟩
  · by_cases heq : a = op.addr
    · exact .inr (.inl ⟨heq.symm, (if_neg hlt).trans (if_pos heq)⟩)
    · refine .inr (.inr ⟨?_, (if_neg hlt).trans (if_neg heq)⟩)
      have hne : a.toNat ≠ op.addr.toNat := fun h => heq (BitVec.eq_of_toNat_eq h)
      rw [BitVec.lt_def] at hlt
      omega

theorem compareops_le {a : U16} {op : DasmOp} :
    compareops a op ≤ 0 ↔ a.toNat ≤ op.addr.toNat := by
  rcases compareops_cases a op with ⟨hlt, hval⟩ | ⟨rfl, hval⟩ | ⟨hlt, hval⟩ <;>
    rw [hval] <;> omega

theorem compareops_lt {a : U16} {op : DasmOp} :
    compareops a op < 0 ↔ a.toNat < op.addr.toNat := by
  rcases compareops_cases a op with ⟨hlt, hval⟩ | ⟨rfl, hval⟩ | ⟨hlt, hval⟩ <;>
    rw [hval] <;> omega

theorem compareops_eq_zero {a : U16} {op : DasmOp} : compareops a op = 0 ↔ op.addr = a := by
  constructor
  · intro hzero
    rcases compareops_cases a op with ⟨-, hval⟩ | ⟨haddr, -⟩ | ⟨-, hval⟩
    · omega
    · exact haddr
    · omega
  · rintro rfl
    rcases compareops_cases op.addr op with ⟨hlt, -⟩ | ⟨-, hval⟩ | ⟨hlt, -⟩
    · exact absurd hlt (Nat.lt_irrefl _)
    · exact hval
    · exact absurd hlt (Nat.lt_irrefl _)

theorem Covers.search_result (h : Covers memory programSize orgAddr d)
    (hsearch : Searches search) (a : U16) :
    Result (compareops a) d.ops (search (compareops a) d.ops d.numOps) := by
  rw [h.numOps]
  exact hsearch _ _ (ordered_of_sorted (fun op => op.addr.toNat) (fun _ => compareops_le)
    (fun _ => compareops_lt) h.sorted)

/-- The operation at an address is found. -/
theorem Covers.findBy_entry (h : Covers memory programSize orgAddr d)
    (hsearch : Searches search) {k : Nat} {op : DasmOp} (hop : d.ops[k]? = some op) :
    findBy search (some d) op.addr = op := by
  have hresult := (h.search_result hsearch op.addr).eq_some (List.mem_of_getElem? hop)
    (compareops_eq_zero.mpr rfl) (fun op' hop' hzero => by
      obtain ⟨j, hj⟩ := List.mem_iff_getElem?.mp hop'
      obtain rfl := h.entry_unique hj hop (compareops_eq_zero.mp hzero)
      exact Option.some.inj (hj.symm.trans hop))
  simp only [findBy, hresult]

/-- Without an operation at the address, the special one is returned. -/
theorem Covers.findBy_none (h : Covers memory programSize orgAddr d)
    (hsearch : Searches search) {a : U16} (hnone : ∀ op ∈ d.ops, op.addr ≠ a) :
    findBy search (some d) a = sOpNotfound := by
  have hresult := (h.search_result hsearch a).eq_none
    fun op hop hzero => hnone op hop (compareops_eq_zero.mp hzero)
  simp only [findBy, hresult]

/-- The special operation exactly where no instruction of the sweep starts. -/
theorem Covers.findBy_notfound_iff (h : Covers memory programSize orgAddr d)
    (hsearch : Searches search) (a : U16) :
    adc8080DasmOpNotfound (findBy search (some d) a) = true ↔
      ¬ (Boundary (instrSize memory) orgAddr.toNat (orgAddr.toNat + programSize) a.toNat ∧
        a.toNat < orgAddr.toNat + programSize) := by
  by_cases hentry : ∃ (k : Nat) (op : DasmOp), d.ops[k]? = some op ∧ op.addr = a
  · obtain ⟨k, op, hop, rfl⟩ := hentry
    rw [h.findBy_entry hsearch hop, h.not_notfound hop]
    exact iff_of_false Bool.false_ne_true fun hnot =>
      hnot ⟨h.boundary_of_entry hop, h.addr_lt hop⟩
  · rw [h.findBy_none hsearch (addr_ne_of_no_entry hentry)]
    refine iff_of_true notfound_sOpNotfound ?_
    rintro ⟨hboundary, hlt⟩
    obtain ⟨k, op, hop, haddr⟩ := h.entry_of_boundary hboundary hlt
    exact hentry ⟨k, op, hop, BitVec.eq_of_toNat_eq haddr⟩

/--
With any `bsearch`: a program that ends at `0xFFFD` at the latest has a
disassembly sorted by address, in which an instruction that the linear sweep
starts inside the program is found at its own index, and nothing is found at any
other address.
-/
theorem find_boundaries (search : (DasmOp → Int) → List DasmOp → Nat → Option DasmOp)
    (hsearch : Searches search) (memory : Nat → U8) (programSize : Nat) (orgAddr : U16)
    (hsize : orgAddr.toNat + programSize ≤ 0xFFFD) :
    ∃ d n, (∀ fuel, n ≤ fuel →
        adc8080DasmDisassemble fuel true true (some memory) programSize orgAddr =
          some (some d)) ∧
      d.ops.Pairwise (fun op op' => op.addr < op'.addr) ∧
      ∀ a : U16,
        ((Boundary (instrSize memory) orgAddr.toNat (orgAddr.toNat + programSize) a.toNat ∧
            a.toNat < orgAddr.toNat + programSize) →
          ∃ (k : Nat) (op : DasmOp), d.ops[k]? = some op ∧ op.addr = a ∧ op.index = k ∧
            findBy search (some d) a = op ∧ adc8080DasmOpNotfound op = false) ∧
        (¬ (Boundary (instrSize memory) orgAddr.toNat (orgAddr.toNat + programSize) a.toNat ∧
            a.toNat < orgAddr.toNat + programSize) →
          adc8080DasmOpNotfound (findBy search (some d) a) = true) := by
  obtain ⟨d, n, hd, hcovers⟩ := exists_covers (by omega)
    (staysBelowTop_of_le memory (Nat.le_add_right _ _) hsize)
  refine ⟨d, n, hd, hcovers.sorted.imp fun hlt => BitVec.lt_def.mpr hlt, ?_⟩
  intro a
  constructor
  · rintro ⟨hboundary, hlt⟩
    obtain ⟨k, op, hop, haddr⟩ := hcovers.entry_of_boundary hboundary hlt
    obtain rfl : op.addr = a := BitVec.eq_of_toNat_eq haddr
    exact ⟨k, op, hop, rfl, hcovers.index k op hop, hcovers.findBy_entry hsearch hop,
      hcovers.not_notfound hop⟩
  · exact (hcovers.findBy_notfound_iff hsearch a).mpr

/-- The bisection finds the `STA` of the sample program, but neither its operand nor what
is behind the program. -/
theorem find_boundaries_sample :
    sampleDisassembly.ops.Pairwise (fun op op' => op.addr < op'.addr) ∧
      (∃ k : Nat, sampleDisassembly.ops[k]? = some (adc8080DasmFind sampleDisassembly 0x0105) ∧
        (adc8080DasmFind sampleDisassembly 0x0105).addr = 0x0105) ∧
      adc8080DasmOpNotfound (adc8080DasmFind sampleDisassembly 0x0106) = true ∧
      adc8080DasmOpNotfound (adc8080DasmFind sampleDisassembly 0x0110) = true := by
  obtain ⟨d, n, hd, hsorted, hfind⟩ :=
    find_boundaries bsearch searches_bsearch sampleMemory 16 0x0100 (by decide)
  obtain rfl := disassemble_unique (hd n (Nat.le_refl n)) disassemble_sample
  have hlxi : 0x0100 + instrSize sampleMemory 0x0100 = 0x0103 := by decide +kernel
  have hmvi : 0x0103 + instrSize sampleMemory 0x0103 = 0x0105 := by decide +kernel
  have hsecond : Boundary (instrSize sampleMemory) 0x0100 (0x0100 + 16) 0x0103 :=
    hlxi ▸ Boundary.start.next (by decide)
  have hsta : Boundary (instrSize sampleMemory) 0x0100 (0x0100 + 16) 0x0105 :=
    hmvi ▸ hsecond.next (by decide)
  obtain ⟨k, op, hop, haddr, -, hfound, -⟩ := (hfind 0x0105).1 ⟨hsta, by decide⟩
  rw [findBy_bsearch] at hfound hfind
  refine ⟨hsorted, ⟨k, hfound ▸ hop, hfound ▸ haddr⟩, (hfind 0x0106).2 fun hin => ?_,
    (hfind 0x0110).2 fun hin => absurd hin.2 (by decide)⟩
  obtain ⟨k, op, hop, haddr, -⟩ := (hfind 0x0106).1 hin
  have hnone : ∀ op ∈ sampleDisassembly.ops, op.addr ≠ 0x0106 := by decide
  exact hnone op (List.mem_of_getElem? hop) haddr

end Find

end Dasm
end AdcLibs
