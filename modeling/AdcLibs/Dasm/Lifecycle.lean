import AdcLibs.Dasm.Lookup
import AdcLibs.Library.LiveHeap
import Mathlib.Data.Finset.Basic

/-!
# The life cycle of a disassembly

The functions of `adc_8080_dasm.c` on a heap: `adc_8080_dasm_disassemble`
allocates a block for the operations and one for the struct that points to it,
`adc_8080_dasm_find` and `adc_8080_dasm_list` go through these pointers, and
`adc_8080_dasm_free` releases both blocks.  The outcomes of the two `malloc`
calls are given, and what a run does to the heap is read off the set of live
blocks.
-/

namespace AdcLibs
namespace Dasm
namespace OnHeap

open Cpu Loops LiveHeap

/-- The struct `adc_8080_dasm_disassembly`, with the pointer to its operations. -/
structure Struct where
  memory : Nat → U8
  programSize : Nat
  ops : Ptr
  numOps : Nat

inductive Block
  | ops (entries : List DasmOp)
  | struct (s : Struct)

/-- The outcomes of the two `malloc` calls, in their order: `none` is `NULL`, and a
block is new. -/
structure Mallocs (h : Heap Block) where
  ops : Option Ptr
  dasm : Option Ptr
  ops_new : ∀ p ∈ ops, p ≠ NULL ∧ p ∉ h.live
  dasm_new : ∀ p ∈ dasm, p ≠ NULL ∧ p ∉ h.live ∧ p ∉ ops

/-- `adc_8080_dasm_disassemble` returns a pointer; `none` means that a loop ran out of
fuel. -/
def adc8080DasmDisassemble (fuel : Nat) (h : Heap Block) (mallocs : Mallocs h)
    (memory : Option (Nat → U8)) (programSize : Nat) (orgAddr : U16) :
    Option (Ptr × Heap Block) :=
  match memory with
  | none => some (NULL, h)
  | some memory =>
      let startAddr := orgAddr
      let stop := endAddr programSize orgAddr
      (whileFuel (countCond stop) (countBody memory) fuel ⟨startAddr, 0⟩).bind fun count =>
        match mallocs.ops with
        | none => some (NULL, h)
        | some ops =>
            (whileFuel (fillCond stop) (fillBody memory) fuel ⟨startAddr, 0, []⟩).bind fun fill =>
              let h := h.alloc ops (.ops fill.ops)
              match mallocs.dasm with
              | none => some (NULL, h)
              | some dasm =>
                  some (dasm, h.alloc dasm (.struct ⟨memory, programSize, ops, count.numOps⟩))

/-- `*dasm` -/
def derefStruct (dasm : Ptr) (h : Heap Block) : Except Fault Struct :=
  (h.access dasm).bind fun
    | .struct s => .ok s
    | .ops _ => .error .deadAccess

/-- The elements of `dasm->ops` -/
def derefOps (ops : Ptr) (h : Heap Block) : Except Fault (List DasmOp) :=
  (h.access ops).bind fun
    | .ops entries => .ok entries
    | .struct _ => .error .deadAccess

/-- `adc_8080_dasm_free`: the argument is `NULL` or points to a variable with a pointer,
and the result is what the variable holds afterwards. -/
def adc8080DasmFree (dasm : Option Ptr) (h : Heap Block) : Except Fault (Ptr × Heap Block) :=
  match dasm with
  | none => .error .nullAccess
  | some dasm =>
      (derefStruct dasm h).bind fun s =>
        (if s.ops ≠ NULL then h.free s.ops else .ok h).bind fun h =>
          (h.free dasm).map fun h => (NULL, h)

/-- The disassembly behind a pointer, as far as a lookup reads it: without operations the
array is not accessed. -/
def view (dasm : Ptr) (h : Heap Block) : Except Fault DasmDisassembly :=
  (derefStruct dasm h).bind fun s =>
    (if s.numOps = 0 then .ok [] else derefOps s.ops h).map fun entries =>
      ⟨s.memory, s.programSize, entries, s.numOps⟩

/-- `adc_8080_dasm_find` -/
def adc8080DasmFind (dasm : Ptr) (addr : U16) (h : Heap Block) : Except Fault DasmOp :=
  if dasm = NULL then .ok (Dasm.adc8080DasmFind none addr)
  else (view dasm h).map fun d => Dasm.adc8080DasmFind (some d) addr

/-- `adc_8080_dasm_list` -/
def adc8080DasmList (dasm : Ptr) (numLines : Nat) (addr : U16) (h : Heap Block) :
    Except Fault Listing :=
  if dasm = NULL then .ok (Dasm.adc8080DasmList none numLines addr)
  else (view dasm h).map fun d => Dasm.adc8080DasmList (some d) numLines addr

/-! ## Sequences of calls -/

/-- A call with the variable that holds the result of `adc_8080_dasm_disassemble`. -/
inductive Call
  | find (addr : U16)
  | list (numLines : Nat) (addr : U16)
  | free
deriving DecidableEq, Repr

/-- The variable and the heap. -/
structure State where
  dasm : Ptr
  heap : Heap Block

def runCall (s : State) : Call → Except Fault State
  | .find addr => (adc8080DasmFind s.dasm addr s.heap).map fun _ => s
  | .list numLines addr => (adc8080DasmList s.dasm numLines addr s.heap).map fun _ => s
  | .free => (adc8080DasmFree (some s.dasm) s.heap).map fun r => ⟨r.1, r.2⟩

def runCalls : List Call → State → Except Fault State
  | [], s => .ok s
  | c :: cs, s => (runCall s c).bind (runCalls cs)

/-! ## What a pointer owns -/

/-- The disassembly behind the variable. -/
def State.disassembly (s : State) : Option DasmDisassembly :=
  (derefStruct s.dasm s.heap).toOption.bind fun st =>
    (derefOps st.ops s.heap).toOption.map fun entries =>
      ⟨st.memory, st.programSize, entries, st.numOps⟩

/-- The variable holds a disassembly: two blocks that are not among those of `h`. -/
structure Built (h : Heap Block) (s : State) (st : Struct) (entries : List DasmOp) : Prop where
  dasm_ne : s.dasm ≠ NULL
  ops_ne : st.ops ≠ NULL
  ops_ne_dasm : st.ops ≠ s.dasm
  dasm_new : s.dasm ∉ h.live
  ops_new : st.ops ∉ h.live
  live : s.heap.live = insert s.dasm (insert st.ops h.live)
  struct : s.heap.access s.dasm = .ok (.struct st)
  ops : s.heap.access st.ops = .ok (.ops entries)

section Built

variable {h : Heap Block} {s : State} {st : Struct} {entries : List DasmOp}

theorem Built.derefStruct (hs : Built h s st entries) :
    derefStruct s.dasm s.heap = .ok st := by
  rw [OnHeap.derefStruct, hs.struct]
  rfl

theorem Built.derefOps (hs : Built h s st entries) :
    derefOps st.ops s.heap = .ok entries := by
  rw [OnHeap.derefOps, hs.ops]
  rfl

theorem Built.disassembly (hs : Built h s st entries) :
    s.disassembly = some ⟨st.memory, st.programSize, entries, st.numOps⟩ := by
  simp only [State.disassembly, hs.derefStruct, hs.derefOps, Except.toOption, Option.bind_some,
    Option.map_some]

/-- The two blocks that `adc_8080_dasm_disassemble` allocates. -/
theorem built_alloc {mallocs : Mallocs h} {dasm : Ptr} (hops : mallocs.ops = some st.ops)
    (hdasm : mallocs.dasm = some dasm) (entries : List DasmOp) :
    Built h ⟨dasm, (h.alloc st.ops (.ops entries)).alloc dasm (.struct st)⟩ st entries := by
  obtain ⟨hne, hnew⟩ := mallocs.ops_new _ hops
  obtain ⟨hdne, hdnew, hdops⟩ := mallocs.dasm_new _ hdasm
  have hne' : st.ops ≠ dasm := fun heq => hdops (heq ▸ hops)
  exact {
    dasm_ne := hdne
    ops_ne := hne
    ops_ne_dasm := hne'
    dasm_new := hdnew
    ops_new := hnew
    live := rfl
    struct := Heap.access_alloc_self hdne _ _
    ops := (Heap.access_alloc_of_ne hne' _ _).trans (Heap.access_alloc_self hne _ _) }

theorem Built.view (hs : Built h s st entries) : ∃ d, view s.dasm s.heap = .ok d := by
  rw [OnHeap.view, hs.derefStruct]
  by_cases hnum : st.numOps = 0
  · exact ⟨⟨st.memory, st.programSize, [], st.numOps⟩, by simp [Except.bind, Except.map, hnum]⟩
  · exact ⟨⟨st.memory, st.programSize, entries, st.numOps⟩, by
      simp [Except.bind, Except.map, hnum, hs.derefOps]⟩

/-- Lookups leave a disassembly as it is. -/
theorem Built.runCall_lookup (hs : Built h s st entries) {c : Call} (hc : c ≠ .free) :
    runCall s c = .ok s := by
  obtain ⟨d, hd⟩ := hs.view
  cases c with
  | find addr =>
      rw [runCall, adc8080DasmFind, if_neg hs.dasm_ne, hd]
      rfl
  | list numLines addr =>
      rw [runCall, adc8080DasmList, if_neg hs.dasm_ne, hd]
      rfl
  | free => exact absurd rfl hc

/-- Releasing a disassembly leaves the blocks there were before it. -/
theorem Built.runCall_free (hs : Built h s st entries) :
    ∃ h', runCall s .free = .ok ⟨NULL, h'⟩ ∧ h'.live = h.live := by
  have hops : st.ops ∈ s.heap.live := by
    rw [hs.live]
    exact Finset.mem_insert_of_mem (Finset.mem_insert_self _ _)
  have hdasm : s.dasm ∈ s.heap.live.erase st.ops := by
    rw [hs.live]
    exact Finset.mem_erase.mpr ⟨hs.ops_ne_dasm.symm, Finset.mem_insert_self _ _⟩
  have hlive : (s.heap.live.erase st.ops).erase s.dasm = h.live := by
    have hnew : st.ops ∉ insert s.dasm h.live := by
      rw [Finset.mem_insert, not_or]
      exact ⟨hs.ops_ne_dasm, hs.ops_new⟩
    rw [hs.live, Finset.insert_comm, Finset.erase_insert hnew,
      Finset.erase_insert hs.dasm_new]
  have hfree₁ := Heap.free_of_live hs.ops_ne hops
  have hfree₂ := Heap.free_of_live (h := { s.heap with live := s.heap.live.erase st.ops })
    hs.dasm_ne hdasm
  refine ⟨{ s.heap with live := (s.heap.live.erase st.ops).erase s.dasm }, ?_, hlive⟩
  rw [runCall, adc8080DasmFree, hs.derefStruct]
  simp only [Except.bind, if_pos hs.ops_ne, hfree₁, hfree₂, Except.map]

end Built

/-! ## Runs -/

section Null

variable (h : Heap Block)

theorem runCall_null {c : Call} (hc : c ≠ .free) : runCall ⟨NULL, h⟩ c = .ok ⟨NULL, h⟩ := by
  cases c with
  | find addr => rfl
  | list numLines addr => rfl
  | free => exact absurd rfl hc

/-- Releasing `NULL` reads the struct behind it. -/
theorem runCall_free_null : runCall ⟨NULL, h⟩ .free = .error .nullAccess := rfl

theorem runCalls_null {calls : List Call} :
    (∃ t, runCalls calls ⟨NULL, h⟩ = .ok t) ↔ .free ∉ calls := by
  induction calls with
  | nil => exact iff_of_true ⟨_, rfl⟩ List.not_mem_nil
  | cons c calls ih =>
      by_cases hc : c = .free
      · subst hc
        rw [runCalls, runCall_free_null]
        exact iff_of_false (fun ⟨_, ht⟩ => nomatch ht) fun hmem => hmem List.mem_cons_self
      · rw [runCalls, runCall_null h hc, List.mem_cons, not_or, ← ih]
        exact ⟨fun ht => ⟨fun heq => hc heq.symm, ht⟩, fun ht => ht.2⟩

end Null

section Runs

variable {h : Heap Block} {s : State} {st : Struct} {entries : List DasmOp}

/-- A run on a disassembly fails exactly when it releases it a second time. -/
theorem Built.runCalls (hs : Built h s st entries) {calls : List Call} :
    (∃ t, runCalls calls s = .ok t) ↔ calls.count .free ≤ 1 := by
  induction calls with
  | nil => exact iff_of_true ⟨_, rfl⟩ (by simp)
  | cons c calls ih =>
      by_cases hc : c = .free
      · subst hc
        obtain ⟨h', hfree, -⟩ := hs.runCall_free
        have hcount : calls.count .free + 1 ≤ 1 ↔ .free ∉ calls := by
          rw [← List.count_eq_zero]
          omega
        rw [OnHeap.runCalls, hfree, List.count_cons_self, hcount]
        exact runCalls_null h'
      · rw [OnHeap.runCalls, hs.runCall_lookup hc, List.count_cons_of_ne hc]
        exact ih

/-- After a release the blocks are those there were before the disassembly. -/
theorem Built.after_free (hs : Built h s st entries) {calls : List Call} {t : State}
    (ht : OnHeap.runCalls (calls ++ [.free]) s = .ok t) : t.heap.live = h.live := by
  induction calls with
  | nil =>
      obtain ⟨h', hfree, hlive⟩ := hs.runCall_free
      rw [List.nil_append, OnHeap.runCalls, hfree] at ht
      obtain rfl := Except.ok.inj ht
      exact hlive
  | cons c calls ih =>
      by_cases hc : c = .free
      · subst hc
        obtain ⟨h', hfree, -⟩ := hs.runCall_free
        rw [List.cons_append, OnHeap.runCalls, hfree] at ht
        exact absurd (List.mem_append_right calls List.mem_cons_self)
          ((runCalls_null h').mp ⟨t, ht⟩)
      · rw [List.cons_append, OnHeap.runCalls, hs.runCall_lookup hc] at ht
        exact ih ht

end Runs

/-! ## `adc_8080_dasm_disassemble` -/

section Disassemble

variable {fuel : Nat} {h : Heap Block} {mallocs : Mallocs h} {memory : Option (Nat → U8)}
  {programSize : Nat} {orgAddr : U16} {s : State}

/-- Every allocation that `adc_8080_dasm_disassemble` asks for succeeds. -/
def Succeeds (memory : Option (Nat → U8)) (mallocs : Mallocs h) : Prop :=
  memory ≠ none ∧ mallocs.ops ≠ none ∧ mallocs.dasm ≠ none

/-- The second allocation fails after the first one succeeded. -/
def Abandons (memory : Option (Nat → U8)) (mallocs : Mallocs h) : Prop :=
  memory ≠ none ∧ mallocs.ops ≠ none ∧ mallocs.dasm = none

/-- How a call of `adc_8080_dasm_disassemble` leaves the heap. -/
theorem disassemble_cases
    (hrun : adc8080DasmDisassemble fuel h mallocs memory programSize orgAddr =
      some (s.dasm, s.heap)) :
    (¬ Succeeds memory mallocs ∧ ¬ Abandons memory mallocs ∧ s = ⟨NULL, h⟩) ∨
      (Abandons memory mallocs ∧ s.dasm = NULL ∧ ∃ p ∈ s.heap.live, p ∉ h.live) ∨
      (Succeeds memory mallocs ∧ ∃ st entries, Built h s st entries) := by
  cases memory with
  | none =>
      obtain ⟨hdasm, hheap⟩ := Prod.mk.inj (Option.some.inj hrun)
      refine Or.inl ⟨fun hs => hs.1 rfl, fun hs => hs.1 rfl, ?_⟩
      rw [hdasm, hheap]
  | some memory =>
      obtain ⟨count, -, hrun⟩ := Option.bind_eq_some_iff.mp hrun
      cases hops : mallocs.ops with
      | none =>
          rw [hops] at hrun
          obtain ⟨hdasm, hheap⟩ := Prod.mk.inj (Option.some.inj hrun)
          refine Or.inl ⟨fun hs => hs.2.1 hops, fun hs => hs.2.1 hops, ?_⟩
          rw [hdasm, hheap]
      | some ops =>
          rw [hops] at hrun
          obtain ⟨fill, -, hrun⟩ := Option.bind_eq_some_iff.mp hrun
          obtain ⟨hne, hnew⟩ := mallocs.ops_new ops hops
          cases hmalloc : mallocs.dasm with
          | none =>
              rw [hmalloc] at hrun
              obtain ⟨hdasm, hheap⟩ := Prod.mk.inj (Option.some.inj hrun)
              refine Or.inr (Or.inl ⟨⟨by simp, by simp [hops], hmalloc⟩, hdasm.symm, ops, ?_, hnew⟩)
              rw [← hheap]
              exact Finset.mem_insert_self _ _
          | some dasm =>
              rw [hmalloc] at hrun
              obtain ⟨hdasm, hheap⟩ := Prod.mk.inj (Option.some.inj hrun)
              obtain ⟨d, heap⟩ := s
              obtain rfl := hdasm
              obtain rfl := hheap
              exact Or.inr (Or.inr ⟨⟨by simp, by simp [hops], by simp [hmalloc]⟩,
                ⟨memory, programSize, ops, count.numOps⟩, fill.ops,
                built_alloc hops hmalloc fill.ops⟩)

/-- The blocks of a call that returned hold the disassembly that the loops compute. -/
theorem disassemble_refines
    (hrun : adc8080DasmDisassemble fuel h mallocs memory programSize orgAddr =
      some (s.dasm, s.heap)) :
    Dasm.adc8080DasmDisassemble fuel mallocs.ops.isSome mallocs.dasm.isSome memory programSize
      orgAddr = some s.disassembly := by
  obtain ⟨d, heap⟩ := s
  cases memory with
  | none =>
      obtain ⟨rfl, rfl⟩ := Prod.mk.inj (Option.some.inj hrun)
      rfl
  | some memory =>
      obtain ⟨count, hcount, hrun⟩ := Option.bind_eq_some_iff.mp hrun
      rw [Dasm.adc8080DasmDisassemble]
      simp only [hcount, Option.bind_some]
      cases hops : mallocs.ops with
      | none =>
          rw [hops] at hrun
          obtain ⟨rfl, rfl⟩ := Prod.mk.inj (Option.some.inj hrun)
          rfl
      | some ops =>
          rw [hops] at hrun
          obtain ⟨fill, hfill, hrun⟩ := Option.bind_eq_some_iff.mp hrun
          simp only [hfill, Option.isSome_some, Bool.not_true, Bool.false_eq_true, if_false,
            Option.bind_some]
          cases hmalloc : mallocs.dasm with
          | none =>
              rw [hmalloc] at hrun
              obtain ⟨rfl, rfl⟩ := Prod.mk.inj (Option.some.inj hrun)
              rfl
          | some dasm =>
              rw [hmalloc] at hrun
              obtain ⟨rfl, rfl⟩ := Prod.mk.inj (Option.some.inj hrun)
              have hbuilt : Built h _ ⟨memory, programSize, ops, count.numOps⟩ fill.ops :=
                built_alloc hops hmalloc fill.ops
              rw [hbuilt.disassembly]
              rfl

/-! ## Safety of the life cycle -/

/-- From the state that `adc_8080_dasm_disassemble` leaves, over the heap `h` before it:
nothing of it stays allocated behind `NULL` or after a release, and no call fails. -/
structure Safe (h : Heap Block) (s : State) (calls : List Call) : Prop where
  null : s.dasm = NULL → s.heap.live = h.live
  runs : ∃ t, runCalls calls s = .ok t
  released : ∀ before after t, calls = before ++ .free :: after →
    runCalls (before ++ [.free]) s = .ok t → t.heap.live = h.live

/--
The life cycle is safe exactly when the second allocation does not fail after
the first one succeeded, and a disassembly is released at most once, `NULL`
never.
-/
theorem lifecycle_safe_iff (calls : List Call)
    (hrun : adc8080DasmDisassemble fuel h mallocs memory programSize orgAddr =
      some (s.dasm, s.heap)) :
    Safe h s calls ↔
      ¬ Abandons memory mallocs ∧
        (.free ∉ calls ∨ Succeeds memory mallocs ∧ calls.count .free = 1) := by
  rcases disassemble_cases hrun with ⟨hfail, hkeep, rfl⟩ | ⟨hleak, hnull, p, hlive, hnew⟩ |
    ⟨hsucceed, st, entries, hbuilt⟩
  · constructor
    · intro hsafe
      exact ⟨hkeep, Or.inl ((runCalls_null h).mp hsafe.runs)⟩
    · rintro ⟨-, hfree | ⟨hsucceed, -⟩⟩
      · refine ⟨fun _ => rfl, (runCalls_null h).mpr hfree, ?_⟩
        rintro before after t rfl -
        exact absurd (List.mem_append_right before List.mem_cons_self) hfree
      · exact absurd hsucceed hfail
  · constructor
    · intro hsafe
      exact absurd (hsafe.null hnull ▸ hlive) hnew
    · intro hcond
      exact absurd hleak hcond.1
  · have hcount : calls.count .free ≤ 1 ↔ .free ∉ calls ∨ calls.count .free = 1 := by
      rw [← List.count_eq_zero]
      omega
    constructor
    · intro hsafe
      have hle := hcount.mp (hbuilt.runCalls.mp hsafe.runs)
      exact ⟨fun hleak => hsucceed.2.2 hleak.2.2, hle.imp_right fun hone => ⟨hsucceed, hone⟩⟩
    · rintro ⟨-, hfree⟩
      refine ⟨fun hnull => absurd hnull hbuilt.dasm_ne,
        hbuilt.runCalls.mpr (hcount.mpr (hfree.imp_right And.right)), ?_⟩
      intro before after t _ ht
      exact hbuilt.after_free ht

end Disassemble

/-- No block is allocated. -/
def emptyHeap : Heap Block := ⟨∅, fun _ => .ops []⟩

/-- Memory full of `NOP`s. -/
def nops (_ : Nat) : U8 := 0x00

/-- Both allocations succeed. -/
def twoBlocks : Mallocs emptyHeap where
  ops := some 1
  dasm := some 2
  ops_new := by decide
  dasm_new := by decide

/-- The second allocation fails. -/
def oneBlock : Mallocs emptyHeap where
  ops := some 1
  dasm := none
  ops_new := by decide
  dasm_new := by decide

/-- The heap with the operations of a program of one `NOP` at 0. -/
def nopOps : Heap Block := emptyHeap.alloc 1 (.ops [⟨sDasmLut 0x00, 0, 0⟩])

/-- The disassembly of that program. -/
def nopDisassembly : State := ⟨2, nopOps.alloc 2 (.struct ⟨nops, 1, 1, 1⟩)⟩

theorem lifecycle_safe_iff_nop :
    Safe emptyHeap nopDisassembly [.find 0, .list 4 0, .free] ↔
      ¬ Abandons (some nops) twoBlocks ∧
        (Call.free ∉ [Call.find 0, .list 4 0, .free] ∨ Succeeds (some nops) twoBlocks ∧
          [Call.find 0, .list 4 0, .free].count .free = 1) :=
  @lifecycle_safe_iff 2 emptyHeap twoBlocks (some nops) 1 0 nopDisassembly _ rfl

/-- Releasing the `NULL` of a call without memory fails, and when the second allocation
fails, the block of the first one is lost. -/
theorem lifecycle_unsafe :
    adc8080DasmDisassemble 2 emptyHeap twoBlocks none 1 0 = some (NULL, emptyHeap) ∧
      ¬ Safe emptyHeap ⟨NULL, emptyHeap⟩ [.free] ∧
      adc8080DasmDisassemble 2 emptyHeap oneBlock (some nops) 1 0 = some (NULL, nopOps) ∧
      ¬ Safe emptyHeap ⟨NULL, nopOps⟩ [] := by
  refine ⟨rfl, ?_, rfl, ?_⟩
  · intro hsafe
    rcases hsafe.runs with ⟨t, ht⟩
    rw [runCalls, runCall_free_null] at ht
    exact nomatch ht
  · intro hsafe
    have hlive : nopOps.live = ∅ := hsafe.null rfl
    have hmem : 1 ∈ nopOps.live := Finset.mem_insert_self _ _
    rw [hlive] at hmem
    exact absurd hmem (Finset.notMem_empty 1)

end OnHeap
end Dasm
end AdcLibs
