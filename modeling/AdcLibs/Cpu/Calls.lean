import AdcLibs.Cpu.InterruptRuns

/-!
# Sequences of calls

What a client does with the cpu is a sequence of calls of
`adc_8080_cpu_step` and `adc_8080_cpu_interrupt`.  The second half of the
module looks at such a sequence from its steps: the requests made after a step
and before the next one are a gap, and a list of gaps is a schedule.
-/

namespace AdcLibs
namespace Cpu

universe u

open Runs

variable {W : Type u}

inductive Call
  | step
  | interrupt (opcode : U8)
deriving DecidableEq, Repr

/-- What a sequence of calls returns and what happens in it. -/
structure Trace (W : Type u) where
  cycles : List Int
  events : List Event
  mach : Machine W

variable (E : Env W)

/-- Run a sequence of calls; `none` when an assertion fails. -/
def runCalls : List Call → Machine W → Option (Trace W)
  | [], m => some ⟨[], [], m⟩
  | .interrupt op :: cs, m =>
      (runCalls cs (m.onCpu (adc8080CpuInterrupt op))).map fun t =>
        { t with events := .request op :: t.events }
  | .step :: cs, m =>
      (adc8080CpuStep E m).bind fun r =>
        (runCalls cs r.mach).map fun t =>
          { t with cycles := r.val :: t.cycles, events := stepEvent E m :: t.events }

/-- The events of a sequence of calls are those of a run. -/
theorem runCalls_run {cs : List Call} {m : Machine W} {t : Trace W}
    (h : runCalls E cs m = some t) : Run (CallStep E) m t.events t.mach := by
  induction cs generalizing m t with
  | nil =>
      simp only [runCalls, Option.some.injEq] at h
      subst h
      exact .nil m
  | cons c cs ih =>
      cases c with
      | interrupt op =>
          simp only [runCalls, Option.map_eq_some_iff] at h
          obtain ⟨t', ht', rfl⟩ := h
          exact .cons (.interrupt m op) (ih ht')
      | step =>
          simp only [runCalls, Option.bind_eq_some_iff, Option.map_eq_some_iff] at h
          obtain ⟨r, hr, t', ht', rfl⟩ := h
          exact .cons (.step m r hr) (ih ht')

/-- The registers and flags of the struct. -/
structure Visible where
  regs : List U8
  pc : U16
  sp : U16
  flags : List Bool
deriving DecidableEq, Repr

def Adc8080Cpu.visible (cpu : Adc8080Cpu) : Visible where
  regs := [cpu.ra, cpu.rb, cpu.rc, cpu.rd, cpu.re, cpu.rh, cpu.rl]
  pc := cpu.pc
  sp := cpu.sp
  flags := [cpu.cfs, cpu.cfz, cpu.cfa, cpu.cfp, cpu.cfc]

/-! ## Schedules -/

/-- Each gap is a step followed by requests. -/
def schedule (gaps : List (List U8)) : List Call :=
  gaps.flatMap fun gap => .step :: gap.map .interrupt

/-- The requests of a gap. -/
def requestAll (gap : List U8) (m : Machine W) : Machine W :=
  gap.foldl (fun m op => m.onCpu (adc8080CpuInterrupt op)) m

/-- The machine after a step and the requests of its gap. -/
def afterGap (m : Machine W) (gap : List U8) : Machine W :=
  requestAll gap (stepBody E m).mach

def afterGaps (gaps : List (List U8)) (m : Machine W) : Machine W :=
  gaps.foldl (afterGap E) m

/-- What the steps of a schedule do, in order. -/
def gapEvents : List (List U8) → Machine W → List Event
  | [], _ => []
  | gap :: gaps, m => stepEvent E m :: gapEvents gaps (afterGap E m gap)

def Event.isRequest : Event → Bool
  | .request _ => true
  | _ => false

section Gaps

variable {E}

theorem afterGaps_cons (gap : List U8) (gaps : List (List U8)) (m : Machine W) :
    afterGaps E (gap :: gaps) m = afterGaps E gaps (afterGap E m gap) := rfl

theorem afterGaps_append (gaps gaps' : List (List U8)) (m : Machine W) :
    afterGaps E (gaps ++ gaps') m = afterGaps E gaps' (afterGaps E gaps m) :=
  List.foldl_append

theorem gapEvents_append (gaps gaps' : List (List U8)) (m : Machine W) :
    gapEvents E (gaps ++ gaps') m =
      gapEvents E gaps m ++ gapEvents E gaps' (afterGaps E gaps m) := by
  induction gaps generalizing m with
  | nil => rfl
  | cons gap gaps ih => simp only [List.cons_append, gapEvents, ih, afterGaps_cons]

/-- A step never handles the event of a request. -/
theorem stepEvent_isRequest (m : Machine W) : (stepEvent E m).isRequest = false := by
  unfold stepEvent
  split
  · rfl
  · split <;> rfl

theorem requestAll_world (gap : List U8) (m : Machine W) :
    (requestAll gap m).world = m.world := by
  induction gap generalizing m with
  | nil => rfl
  | cons op gap ih => exact ih _

/-- A property that ignores the request fields survives the requests of a gap. -/
theorem requestAll_induction {P : Machine W → Prop}
    (hrequest : ∀ m op, P m → P (m.onCpu (adc8080CpuInterrupt op)))
    (gap : List U8) {m : Machine W} (hm : P m) : P (requestAll gap m) := by
  induction gap generalizing m with
  | nil => exact hm
  | cons op gap ih => exact ih (hrequest m op hm)

/-- The requests of a gap, as calls. -/
theorem runCalls_requests (gap : List U8) (cs : List Call) (m : Machine W) :
    runCalls E (gap.map .interrupt ++ cs) m =
      (runCalls E cs (requestAll gap m)).map fun t =>
        { t with events := gap.map .request ++ t.events } := by
  induction gap generalizing m with
  | nil => simp [requestAll]
  | cons op gap ih =>
      simp only [List.map_cons, List.cons_append, runCalls, ih, Option.map_map]
      rfl

/-- A schedule never fails, and its trace is that of its steps and gaps. -/
theorem runCalls_schedule (hE : E.Frames) (gaps : List (List U8)) {m : Machine W}
    (hset : m.cpu.HandlersSet) :
    ∃ t, runCalls E (schedule gaps) m = some t ∧ t.mach = afterGaps E gaps m ∧
      t.events.filter (fun e => !e.isRequest) = gapEvents E gaps m := by
  induction gaps generalizing m with
  | nil => exact ⟨_, rfl, rfl, rfl⟩
  | cons gap gaps ih =>
      have hnext : (afterGap E m gap).cpu.HandlersSet :=
        requestAll_induction (P := fun m => m.cpu.HandlersSet) (fun _ _ h => h) gap
          (stepBody_handlersSet hE hset)
      obtain ⟨t, ht, hmach, hevents⟩ := ih hnext
      have hstep : adc8080CpuStep E m = some (stepBody E m) :=
        adc8080CpuStep_eq_some.mpr ⟨hset, rfl⟩
      have hrun : runCalls E (schedule (gap :: gaps)) m =
          some ⟨(stepBody E m).val :: t.cycles,
            stepEvent E m :: (gap.map .request ++ t.events), t.mach⟩ := by
        rw [schedule, List.flatMap_cons, List.cons_append, runCalls, hstep, Option.bind_some,
          runCalls_requests]
        rw [schedule, afterGap] at ht
        rw [ht]
        rfl
      refine ⟨_, hrun, hmach, ?_⟩
      have hrequests : (gap.map Event.request).filter (fun e => !e.isRequest) = [] := by
        simp [Event.isRequest]
      simp only [List.filter_cons, stepEvent_isRequest, List.filter_append, hrequests,
        hevents, gapEvents]
      rfl

end Gaps

end Cpu
end AdcLibs
