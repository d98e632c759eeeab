import AdcLibs.Cpu.State
import AdcLibs.Library.Runs

/-!
# The interrupt system, abstractly

Five fields decide when an interrupt request is served.  This module states
what they are for, without registers, memory or opcode tables: a machine is
running or halted, interrupts are enabled or not, at most one request is
pending, and `EI` takes effect one instruction late.  The code is shown to
follow this model in `Cpu/Interrupts.lean`; here its runs are studied.
-/

namespace AdcLibs
namespace Cpu

/-- The opcode bytes the interrupt system gives a meaning to. -/
def opEi : U8 := 0xFB
def opDi : U8 := 0xF3
def opHlt : U8 := 0x76

/-- What one call of the public functions does to the interrupt system. -/
inductive Event
  | request (opcode : U8)
  | recognized (opcode : U8)
  | executed (opcode : U8)
  | idle
deriving DecidableEq, Repr

/-- The event executes `EI`, fetched or injected. -/
def Event.IsEi (e : Event) : Prop :=
  e = .recognized opEi ∨ e = .executed opEi

/-- The event is a request or the recognition of one. -/
def Event.IsInterrupt : Event → Prop
  | .request _ => True
  | .recognized _ => True
  | _ => False

@[ext] structure IntState where
  halted : Bool
  inte : Bool
  pending : Bool
  opcode : U8
  delay : Bool
deriving DecidableEq, Repr

namespace IntState

/-- A pending request is recognized when interrupts are enabled and not delayed. -/
def recognizes (s : IntState) : Bool :=
  s.pending && s.inte && !s.delay

/-- The effect of executing an opcode: every instruction but `EI` ends the delay. -/
def execute (op : U8) (s : IntState) : IntState :=
  { s with
    halted := s.halted || op == opHlt
    inte := if op = opEi then true else if op = opDi then false else s.inte
    delay := op == opEi }

/-- Recognition takes the request, disables interrupts and leaves `HLT`. -/
def acknowledge (s : IntState) : IntState :=
  { s with pending := false, inte := false, halted := false }

inductive Step : IntState → Event → IntState → Prop
  | request (s : IntState) (op : U8) :
      Step s (.request op) { s with pending := true, opcode := op }
  | recognized (s : IntState) (h : s.recognizes = true) :
      Step s (.recognized s.opcode) (s.acknowledge.execute s.opcode)
  | executed (s : IntState) (op : U8) (h : s.recognizes = false)
      (hrun : s.halted = false) :
      Step s (.executed op) (s.execute op)
  | idle (s : IntState) (h : s.recognizes = false) (hhalt : s.halted = true) :
      Step s .idle s

open Runs

/-- A delayed `EI` has enabled interrupts and the processor is running. -/
def DelayInv (s : IntState) : Prop :=
  s.delay = true → s.inte = true ∧ s.halted = false

theorem execute_delayInv (op : U8) {s : IntState} (hrun : s.halted = false) :
    (s.execute op).DelayInv := by
  intro hdelay
  have hop : op = opEi := by simpa [execute] using hdelay
  subst hop
  exact ⟨by simp [execute], by simp [execute, hrun, opEi, opHlt]⟩

theorem Step.delayInv {s t : IntState} {e : Event} (hs : s.DelayInv)
    (h : Step s e t) : t.DelayInv := by
  cases h with
  | request op => exact hs
  | recognized h => exact execute_delayInv _ rfl
  | executed op h hrun => exact execute_delayInv op hrun
  | idle h hhalt => exact hs

/-! ## Enabling -/

/-- Without an `EI`, disabled interrupts stay disabled. -/
theorem Step.inte_false {s t : IntState} {e : Event} (he : ¬ e.IsEi)
    (hs : s.inte = false) (h : Step s e t) : t.inte = false := by
  cases h with
  | request op => exact hs
  | recognized h =>
      have hop : s.opcode ≠ opEi := fun heq => he (Or.inl (by rw [heq]))
      simp [execute, acknowledge, hop]
  | executed op h hrun =>
      have hop : op ≠ opEi := fun heq => he (Or.inr (by rw [heq]))
      simp [execute, hop, hs]
  | idle h hhalt => exact hs

/-- With interrupts disabled nothing is recognized, so only a fetched `EI` enables. -/
theorem Step.inte_clear {s t : IntState} {e : Event} (he : e ≠ .executed opEi)
    (hs : s.inte = false) (h : Step s e t) : t.inte = false := by
  cases h with
  | request op => exact hs
  | recognized h => simp [recognizes, hs] at h
  | executed op h hrun =>
      have hop : op ≠ opEi := fun heq => he (by rw [heq])
      simp [execute, hop, hs]
  | idle h hhalt => exact hs

/-- After recognizing an opcode other than `EI` interrupts are disabled. -/
theorem Step.recognized_inte {s t : IntState} {op : U8}
    (h : Step s (.recognized op) t) (hop : op ≠ opEi) : t.inte = false := by
  cases h with
  | recognized h => simp [execute, acknowledge, hop]

/-- After `EI` the delay is on. -/
theorem Step.ei_delay {s t : IntState} {e : Event} (he : e.IsEi) (h : Step s e t) :
    t.delay = true := by
  cases h with
  | request op => simp [Event.IsEi] at he
  | recognized h =>
      have hop : s.opcode = opEi := by simpa [Event.IsEi] using he
      simp [execute, hop]
  | executed op h hrun =>
      have hop : op = opEi := by simpa [Event.IsEi] using he
      simp [execute, hop]
  | idle h hhalt => simp [Event.IsEi] at he

/-- The delay lasts until an instruction of the program executes. -/
theorem Run.executed_of_delay {s t : IntState} {es : List Event}
    (hrun : Run Step s es t) (hs : s.delay = true) (ht : t.delay = false) :
    ∃ op, Event.executed op ∈ es := by
  induction hrun with
  | nil s => simp [hs] at ht
  | @cons s s' t e es h _ ih =>
      cases h with
      | request op =>
          obtain ⟨op', hop'⟩ := ih hs ht
          exact ⟨op', List.mem_cons_of_mem _ hop'⟩
      | recognized h => simp [recognizes, hs] at h
      | executed op h hrun => exact ⟨op, List.mem_cons_self⟩
      | idle h hhalt =>
          obtain ⟨op', hop'⟩ := ih hs ht
          exact ⟨op', List.mem_cons_of_mem _ hop'⟩

/-- A recognition needs enabled interrupts and no delay. -/
theorem Step.recognized_iff {s t : IntState} {op : U8} (h : Step s (.recognized op) t) :
    s.pending = true ∧ s.inte = true ∧ s.delay = false ∧ s.opcode = op := by
  cases h with
  | recognized h => simpa [recognizes, and_assoc] using h

/--
Between two recognitions an `EI` executes, in the step of the first one or
later, and an instruction completes after the last such `EI`.
-/
theorem Run.ei_between {s t : IntState} {op₁ op₂ : U8} {mid : List Event}
    (hrun : Run Step s (.recognized op₁ :: mid ++ [.recognized op₂]) t) :
    ∃ a e b, .recognized op₁ :: mid = a ++ e :: b ∧ e.IsEi ∧
      (∀ x ∈ b, ¬ x.IsEi) ∧ ∃ op, .executed op ∈ b := by
  obtain ⟨s₂, hseg, hlast⟩ := run_append_iff.mp hrun
  obtain ⟨t', hstep₂, _⟩ := run_cons_iff.mp hlast
  obtain ⟨_, hinte, hdelay, _⟩ := hstep₂.recognized_iff
  rcases last_or_none Event.IsEi (.recognized op₁ :: mid) with
    hnone | ⟨a, e, b, hsplit, he, hb⟩
  · -- no `EI` at all: the first recognition disables, and nothing enables again
    obtain ⟨s₁, hstep₁, hmid⟩ := run_cons_iff.mp hseg
    have hop : op₁ ≠ opEi := fun h => hnone _ List.mem_cons_self (Or.inl (by rw [h]))
    have hoff : s₂.inte = false :=
      hmid.invariant_of_events (P := fun e => ¬ e.IsEi)
        (fun _ _ _ hP hs h => Step.inte_false hP hs h)
        (fun x hx => hnone x (List.mem_cons_of_mem _ hx))
        (hstep₁.recognized_inte hop)
    rw [hoff] at hinte
    exact absurd hinte (by decide)
  · rw [hsplit] at hseg
    obtain ⟨sₐ, _, hrest⟩ := run_append_iff.mp hseg
    obtain ⟨sₑ, hstepₑ, hb'⟩ := run_cons_iff.mp hrest
    exact ⟨a, e, b, hsplit, he, hb,
      Run.executed_of_delay hb' (hstepₑ.ei_delay he) hdelay⟩

/-! ## Requests -/

/-- Nothing but a recognition or a later request changes a pending request. -/
theorem Run.request_kept {s t : IntState} {es : List Event} {op : U8}
    (hrun : Run Step s es t) (hes : ∀ e ∈ es, ¬ e.IsInterrupt)
    (hs : s.pending = true ∧ s.opcode = op) : t.pending = true ∧ t.opcode = op := by
  refine hrun.invariant_of_events (I := fun s => s.pending = true ∧ s.opcode = op)
    (P := fun e => ¬ e.IsInterrupt) ?_ hes hs
  intro s e t he hs h
  cases h with
  | request op => exact absurd trivial he
  | recognized h => exact absurd trivial he
  | executed op h hrun => exact hs
  | idle h hhalt => exact hs

/-- What is not pending becomes pending by a request only. -/
theorem Step.not_pending {s t : IntState} {e : Event}
    (he : ∀ op, e ≠ .request op) (hs : s.pending = false) (h : Step s e t) :
    t.pending = false := by
  cases h with
  | request op => exact absurd rfl (he op)
  | recognized h => rfl
  | executed op h hrun => exact hs
  | idle h hhalt => exact hs

theorem Step.recognized_clears {s t : IntState} {op : U8}
    (h : Step s (.recognized op) t) : t.pending = false := by
  cases h with
  | recognized h => rfl

/--
The request that a step recognizes: the last interrupt event before it is the
request of that opcode, or there is none and the request was pending at the start.
-/
theorem Run.request_before {s t : IntState} {es : List Event} {op : U8}
    (hrun : Run Step s (es ++ [.recognized op]) t) :
    (∃ a b, es = a ++ .request op :: b ∧ ∀ e ∈ b, ¬ e.IsInterrupt) ∨
      ((∀ e ∈ es, ¬ e.IsInterrupt) ∧ s.pending = true ∧ s.opcode = op) := by
  obtain ⟨s₂, hes, hlast⟩ := run_append_iff.mp hrun
  obtain ⟨t', hstep₂, _⟩ := run_cons_iff.mp hlast
  obtain ⟨hpend, _, _, hop⟩ := hstep₂.recognized_iff
  have hback : ∀ {s : IntState} {b : List Event}, Run Step s b s₂ →
      (∀ e ∈ b, ¬ e.IsInterrupt) → s.pending = true ∧ s.opcode = op := by
    intro s b hb hnone
    have hpending : s.pending = true := by
      by_contra hnot
      have hs : s.pending = false := by simpa using hnot
      have hoff : s₂.pending = false :=
        hb.invariant_of_events (P := fun e => ¬ e.IsInterrupt)
          (I := fun s => s.pending = false)
          (fun _ e _ he hs h => Step.not_pending (fun op heq => he (heq ▸ trivial)) hs h)
          hnone hs
      rw [hoff] at hpend
      exact absurd hpend (by decide)
    exact ⟨hpending, ((Run.request_kept hb hnone ⟨hpending, rfl⟩).2.symm.trans hop)⟩
  rcases last_or_none Event.IsInterrupt es with hnone | ⟨a, e, b, rfl, he, hb⟩
  · exact Or.inr ⟨hnone, hback hes hnone⟩
  · left
    obtain ⟨sₐ, _, hrest⟩ := run_append_iff.mp hes
    obtain ⟨sₑ, hstepₑ, hb'⟩ := run_cons_iff.mp hrest
    obtain ⟨hpendₑ, hopₑ⟩ := hback hb' hb
    cases e with
    | request op' =>
        refine ⟨a, b, ?_, hb⟩
        cases hstepₑ with
        | request => exact hopₑ ▸ rfl
    | recognized op' =>
        rw [hstepₑ.recognized_clears] at hpendₑ
        exact absurd hpendₑ (by decide)
    | executed op' => exact absurd he id
    | idle => exact absurd he id

end IntState

end Cpu
end AdcLibs
