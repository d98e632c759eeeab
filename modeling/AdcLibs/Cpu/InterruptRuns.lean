import AdcLibs.Cpu.Interrupts
import AdcLibs.Cpu.Ram

/-!
# Interrupts over whole runs

Any interleaving of steps and interrupt requests, from a machine that is
neither halted nor in the delay of an `EI`.
-/

namespace AdcLibs
namespace Cpu

universe u

open Runs

variable {W : Type u} {E : Env W}

/-- A step changes no control field but the interrupt fields. -/
theorem stepBody_control (hE : E.Frames) (m : Machine W) :
    ∃ int, (stepBody E m).mach.cpu.control = { m.cpu.control with int := int } := by
  cases hrec : recognizes m.cpu with
  | true =>
      rw [stepBody_recognized hrec, Machine.onCpu_cpu, control_cycles, execNext_control hE]
      exact ⟨_, rfl⟩
  | false =>
      cases hhalt : m.cpu.halted with
      | false =>
          rw [stepBody_executed hrec hhalt, Machine.onCpu_cpu, control_cycles,
            execNext_control hE, show nextByte E m = Reference.fetch E m from rfl,
            Reference.fetch_cpu hE]
          exact ⟨_, rfl⟩
      | true =>
          rw [stepBody_idle hrec hhalt]
          exact ⟨m.cpu.intState, rfl⟩

/-- Handlers that do not modify the struct leave its pointers alone. -/
theorem stepBody_handlersSet (hE : E.Frames) {m : Machine W} (hs : m.cpu.HandlersSet) :
    (stepBody E m).mach.cpu.HandlersSet := by
  have hlinks : ∀ cpu : Adc8080Cpu, cpu.HandlersSet ↔ cpu.control.readByte ≠ NULL ∧
      cpu.control.writeByte ≠ NULL ∧ cpu.control.readDevice ≠ NULL ∧
        cpu.control.writeDevice ≠ NULL := fun _ => Iff.rfl
  obtain ⟨int, hcontrol⟩ := stepBody_control hE m
  rw [hlinks] at hs ⊢
  rw [hcontrol]
  exact hs

theorem CallStep.handlersSet (hE : E.Frames) {m m' : Machine W} {e : Event}
    (hs : m.cpu.HandlersSet) (h : CallStep E m e m') : m'.cpu.HandlersSet := by
  cases h with
  | interrupt op => exact hs
  | step r h =>
      obtain ⟨_, rfl⟩ := adc8080CpuStep_eq_some.mp h
      exact stepBody_handlersSet hE hs

/-- Every step ends with the cycle count cleared. -/
theorem stepBody_cycles (m : Machine W) : (stepBody E m).mach.cpu.cycles = 0 := rfl

/-- A machine that halted did so in a step, which cleared the cycle count. -/
theorem CallStep.halted_cycles {m m' : Machine W} {e : Event}
    (hs : m.cpu.halted = true → m.cpu.cycles = 0) (h : CallStep E m e m') :
    m'.cpu.halted = true → m'.cpu.cycles = 0 := by
  cases h with
  | interrupt op => exact hs
  | step r h =>
      obtain ⟨_, rfl⟩ := adc8080CpuStep_eq_some.mp h
      exact fun _ => stepBody_cycles m

/-- What a run `es` from `m₀` to `m` guarantees about interrupts. -/
structure Served (E : Env W) (m₀ : Machine W) (es : List Event) (m : Machine W) : Prop where
  /-- A delay means enabled interrupts and a running processor. -/
  delay : m.cpu.interruptDelay = true → m.cpu.inte = true ∧ m.cpu.halted = false
  /-- Between two recognitions there is an `EI`, and an instruction after the last one. -/
  ei : ∀ pre op₁ mid op₂ post,
    es = pre ++ .recognized op₁ :: mid ++ .recognized op₂ :: post →
      ∃ a e b, .recognized op₁ :: mid = a ++ e :: b ∧ e.IsEi ∧
        (∀ x ∈ b, ¬ x.IsEi) ∧ ∃ op, .executed op ∈ b
  /-- A request stays pending until it is recognized or replaced. -/
  kept : ∀ pre op post, es = pre ++ .request op :: post →
    (∀ e ∈ post, ¬ e.IsInterrupt) →
      m.cpu.interruptPending = true ∧ m.cpu.interruptOpcode = op
  /-- So does a request that was pending at the start. -/
  keptInitial : (∀ e ∈ es, ¬ e.IsInterrupt) → m₀.cpu.interruptPending = true →
    m.cpu.interruptPending = true ∧ m.cpu.interruptOpcode = m₀.cpu.interruptOpcode
  /-- What is recognized is the last request made, and nothing was recognized since. -/
  requested : ∀ pre op post, es = pre ++ .recognized op :: post →
    (∃ a b, pre = a ++ .request op :: b ∧ ∀ e ∈ b, ¬ e.IsInterrupt) ∨
      ((∀ e ∈ pre, ¬ e.IsInterrupt) ∧ m₀.cpu.interruptPending = true ∧
        m₀.cpu.interruptOpcode = op)
  /-- A second recognition has a request of its own. -/
  once : ∀ pre op₁ mid op₂ post,
    es = pre ++ .recognized op₁ :: mid ++ .recognized op₂ :: post →
      ∃ a b, mid = a ++ .request op₂ :: b ∧ ∀ e ∈ b, ¬ e.IsInterrupt
  /-- A request that can be recognized is recognized by the next step, halted or not. -/
  prompt : m.cpu.interruptPending = true → m.cpu.inte = true →
    m.cpu.interruptDelay = false →
      ∃ r, adc8080CpuStep E m = some r ∧
        CallStep E m (.recognized m.cpu.interruptOpcode) r.mach ∧
        r.mach.cpu.interruptPending = false
  /-- A halted step that recognizes nothing changes nothing and returns 0. -/
  idle : m.cpu.halted = true → recognizes m.cpu = false →
    adc8080CpuStep E m = some ⟨0, m⟩

/-- The last interrupt event before a recognition, cut at an earlier recognition. -/
theorem request_after_recognized {pre mid a b : List Event} {op₁ op₂ : U8}
    (hsplit : pre ++ .recognized op₁ :: mid = a ++ .request op₂ :: b)
    (hb : ∀ e ∈ b, ¬ e.IsInterrupt) :
    ∃ a', mid = a' ++ .request op₂ :: b := by
  rcases List.append_eq_append_iff.mp hsplit with ⟨c, hac, hc⟩ | ⟨c, hpre, hc⟩
  · cases c with
    | nil => simp at hc
    | cons x c =>
        simp only [List.cons_append, List.cons.injEq] at hc
        exact ⟨c, hc.2⟩
  · cases c with
    | nil => simp at hc
    | cons x c =>
        simp only [List.cons_append, List.cons.injEq] at hc
        exact absurd trivial (hb (.recognized op₁) (by rw [hc.2]; simp))

/-- Interrupts are served as they should be in every run. -/
theorem run_served (hE : E.Frames) {m₀ m : Machine W} {es : List Event}
    (hset : m₀.cpu.HandlersSet) (hhalt : m₀.cpu.halted = false)
    (hdelay : m₀.cpu.interruptDelay = false) (hrun : Run (CallStep E) m₀ es m) :
    Served E m₀ es m := by
  have hsim := Run.simulates hE hrun
  have hset' : m.cpu.HandlersSet :=
    hrun.invariant (fun _ _ _ hs h => h.handlersSet hE hs) hset
  have hcycles : m.cpu.halted = true → m.cpu.cycles = 0 :=
    hrun.invariant (I := fun m => m.cpu.halted = true → m.cpu.cycles = 0)
      (fun _ _ _ hs h => h.halted_cycles hs) (fun h => by simp [hhalt] at h)
  have hrequested : ∀ pre op post, es = pre ++ .recognized op :: post →
      (∃ a b, pre = a ++ .request op :: b ∧ ∀ e ∈ b, ¬ e.IsInterrupt) ∨
        ((∀ e ∈ pre, ¬ e.IsInterrupt) ∧ m₀.cpu.interruptPending = true ∧
          m₀.cpu.interruptOpcode = op) := by
    rintro pre op post rfl
    have hcut : pre ++ Event.recognized op :: post = pre ++ [.recognized op] ++ post := by
      simp
    rw [hcut] at hsim
    obtain ⟨_, hpre, _⟩ := run_append_iff.mp hsim
    exact IntState.Run.request_before hpre
  refine
    { delay := ?_, ei := ?_, kept := ?_, keptInitial := ?_, requested := hrequested,
      once := ?_, prompt := ?_, idle := ?_ }
  · refine hsim.invariant (I := IntState.DelayInv) (fun _ _ _ hs h => h.delayInv hs) ?_
    intro h
    rw [show m₀.cpu.intState.delay = false from hdelay] at h
    exact absurd h (by decide)
  · rintro pre op₁ mid op₂ post rfl
    have hcut : pre ++ Event.recognized op₁ :: mid ++ Event.recognized op₂ :: post =
        pre ++ ((.recognized op₁ :: mid ++ [.recognized op₂]) ++ post) := by
      simp
    rw [hcut] at hsim
    obtain ⟨_, _, hrest⟩ := run_append_iff.mp hsim
    obtain ⟨_, hseg, _⟩ := run_append_iff.mp hrest
    exact IntState.Run.ei_between hseg
  · rintro pre op post rfl hpost
    obtain ⟨_, _, hrest⟩ := run_append_iff.mp hsim
    obtain ⟨s, hstep, hpost'⟩ := run_cons_iff.mp hrest
    refine IntState.Run.request_kept hpost' hpost ?_
    cases hstep with
    | request => exact ⟨rfl, rfl⟩
  · intro hes hpend
    exact IntState.Run.request_kept hsim hes ⟨hpend, rfl⟩
  · intro pre op₁ mid op₂ post hes
    rcases hrequested (pre ++ .recognized op₁ :: mid) op₂ post hes with
      ⟨a, b, hsplit, hb⟩ | ⟨hnone, _⟩
    · obtain ⟨a', hmid⟩ := request_after_recognized hsplit hb
      exact ⟨a', b, hmid, hb⟩
    · exact absurd trivial (hnone (.recognized op₁) (by simp))
  · intro hpend hinte hnodelay
    have hrec : recognizes m.cpu = true := by simp [recognizes, hpend, hinte, hnodelay]
    have hstep : adc8080CpuStep E m = some (stepBody E m) :=
      adc8080CpuStep_eq_some.mpr ⟨hset', rfl⟩
    have hcall : CallStep E m (.recognized m.cpu.interruptOpcode) (stepBody E m).mach := by
      have h := CallStep.step m _ hstep
      rwa [stepEvent, if_pos hrec] at h
    exact ⟨_, hstep, hcall, (hcall.simulates hE).recognized_clears⟩
  · intro hhalted hrec
    refine adc8080CpuStep_eq_some.mpr ⟨hset', ?_⟩
    have hzero := hcycles hhalted
    rw [stepBody_idle hrec hhalted, hzero]
    refine Ret.ext rfl (Machine.ext ?_ rfl)
    exact Adc8080Cpu.ext rfl rfl rfl rfl rfl rfl rfl rfl rfl rfl rfl rfl rfl rfl rfl rfl rfl
      rfl rfl hzero.symm rfl rfl rfl rfl rfl

/-- The step of a machine with handlers, as an event of a run. -/
theorem CallStep.of_stepEvent {m : Machine W} {e : Event} (hset : m.cpu.HandlersSet)
    (he : stepEvent E m = e) : CallStep E m e (stepBody E m).mach := by
  subst he
  exact .step m _ (adc8080CpuStep_eq_some.mpr ⟨hset, rfl⟩)

/-- `EI; HLT` at 0040h, and routines for `RST 1` (`EI; RET`) and `RST 2`. -/
def servicedMachine : Machine (Ram Unit) where
  cpu :=
    { zeroCpu with
      pc := 0x0040
      sp := 0x0080
      readByte := 1
      writeByte := 2
      readDevice := 3
      writeDevice := 4 }
  world := ⟨fun a => ([(0x0008, 0xFB), (0x0009, 0xC9), (0x0040, 0xFB), (0x0041, 0x76)].lookup
    a).getD 0x00, (), []⟩

/--
A service out of `HLT` and, after the `EI` of the routine and one instruction, a second one.
The first prefix ends halted without a request, the second with one that is due.
-/
theorem run_served_twice :
    let E := ramEnv 0x1000 noDevices
    let toHalt : List Event := [.executed opEi, .executed opHlt]
    let toRequest : List Event := [.idle, .request 0xCF]
    let toEnd : List Event := [.recognized 0xCF, .executed opEi, .request 0xD7,
      .executed 0xC9, .recognized 0xD7, .executed 0x00]
    (∃ m, m.cpu.halted = true ∧ recognizes m.cpu = false ∧ Served E servicedMachine toHalt m) ∧
    (∃ m, m.cpu.interruptPending = true ∧ m.cpu.inte = true ∧ m.cpu.interruptDelay = false ∧
      Served E servicedMachine (toHalt ++ toRequest) m) ∧
    ∃ m, Served E servicedMachine (toHalt ++ toRequest ++ toEnd) m := by
  intro E toHalt toRequest toEnd
  have hserved {es : List Event} {m : Machine (Ram Unit)} :
      Run (CallStep E) servicedMachine es m → Served E servicedMachine es m :=
    run_served (ramEnv_frames 0x1000 noDevices) ⟨by decide, by decide, by decide, by decide⟩
      rfl rfl
  have hhalt : Run (CallStep E) servicedMachine toHalt _ :=
    .cons (.of_stepEvent (by decide +kernel) (by decide +kernel))
      (.cons (.of_stepEvent (by decide +kernel) (by decide +kernel)) (.nil _))
  have hpending : Run (CallStep E) servicedMachine (toHalt ++ toRequest) _ :=
    run_append_iff.mpr ⟨_, hhalt,
      .cons (.of_stepEvent (by decide +kernel) (by decide +kernel))
        (.cons (.interrupt _ 0xCF) (.nil _))⟩
  have hend : Run (CallStep E) servicedMachine (toHalt ++ toRequest ++ toEnd) _ :=
    run_append_iff.mpr ⟨_, hpending,
      .cons (.of_stepEvent (by decide +kernel) (by decide +kernel))
        (.cons (.of_stepEvent (by decide +kernel) (by decide +kernel))
          (.cons (.interrupt _ 0xD7)
            (.cons (.of_stepEvent (by decide +kernel) (by decide +kernel))
              (.cons (.of_stepEvent (by decide +kernel) (by decide +kernel))
                (.cons (.of_stepEvent (by decide +kernel) (by decide +kernel)) (.nil _))))))⟩
  exact ⟨⟨_, by decide +kernel, by decide +kernel, hserved hhalt⟩,
    ⟨_, by decide +kernel, by decide +kernel, by decide +kernel, hserved hpending⟩,
    _, hserved hend⟩

end Cpu
end AdcLibs
