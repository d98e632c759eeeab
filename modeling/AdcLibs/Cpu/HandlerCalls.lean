import AdcLibs.Cpu.Projection
import AdcLibs.Cpu.RamSteps

/-!
# The calls of the handlers

An environment that logs every call the library makes to a handler.  Logging
changes nothing (`logEnv_projects`), and the log shows the first argument of
each call beside the `userdata` of the struct at that moment.  Memory handlers
are always passed `userdata`, device handlers the address of the struct.
-/

namespace AdcLibs
namespace Cpu

universe u

open Reference

inductive Handler
  | readByte
  | writeByte
  | readDevice
  | writeDevice
deriving DecidableEq, Repr

def Handler.isDevice : Handler → Bool
  | .readDevice | .writeDevice => true
  | _ => false

/-- A call of a handler: its first argument, what `cpu->userdata` is at the call, and
the address or the device number. -/
structure HandlerCall where
  handler : Handler
  arg : Ptr
  userdata : Ptr
  addr : U16
deriving DecidableEq, Repr

/-- A world with the calls of handlers made so far, latest first. -/
structure Logged (W : Type u) where
  world : W
  calls : List HandlerCall

variable {W : Type u}

/-- A logged machine that becomes `m'` by the call `c`. -/
def Machine.logged (m : Machine (Logged W)) (c : HandlerCall) (m' : Machine W) :
    Machine (Logged W) :=
  ⟨m'.cpu, ⟨m'.world, c :: m.world.calls⟩⟩

/-- The environment `E` with a log. -/
def logEnv (E : Env W) : Env (Logged W) where
  self := E.self
  highFirst := E.highFirst
  callReadByte f p a m :=
    let r := E.callReadByte f p a (m.map Logged.world)
    ⟨r.val, m.logged ⟨.readByte, p, m.cpu.userdata, a⟩ r.mach⟩
  callWriteByte f p a b m :=
    m.logged ⟨.writeByte, p, m.cpu.userdata, a⟩ (E.callWriteByte f p a b (m.map Logged.world))
  callReadDevice f p d m :=
    let r := E.callReadDevice f p d (m.map Logged.world)
    ⟨r.val, m.logged ⟨.readDevice, p, m.cpu.userdata, d.setWidth 16⟩ r.mach⟩
  callWriteDevice f p d b m :=
    m.logged ⟨.writeDevice, p, m.cpu.userdata, d.setWidth 16⟩
      (E.callWriteDevice f p d b (m.map Logged.world))

/-- Logging changes nothing. -/
theorem logEnv_projects (E : Env W) : Env.Projects Logged.world (logEnv E) E where
  self := rfl
  highFirst := rfl
  readByte _ _ _ _ := rfl
  writeByte _ _ _ _ _ := rfl
  readDevice _ _ _ _ := rfl
  writeDevice _ _ _ _ _ := rfl

/-- A machine with an empty log. -/
def Machine.unlogged (m : Machine W) : Machine (Logged W) :=
  ⟨m.cpu, ⟨m.world, []⟩⟩

/-! ## Calls of the memory handlers -/

/-- From `m` to `m'` only memory handlers are called, and with `userdata`. -/
def MemoryCalls (m m' : Machine (Logged W)) : Prop :=
  ∃ cs, m'.world.calls = cs ++ m.world.calls ∧
    ∀ c ∈ cs, c.handler.isDevice = false ∧ c.arg = c.userdata

theorem MemoryCalls.refl (m : Machine (Logged W)) : MemoryCalls m m :=
  ⟨[], rfl, fun _ hc => absurd hc List.not_mem_nil⟩

theorem MemoryCalls.trans {m m' m'' : Machine (Logged W)} (h : MemoryCalls m m')
    (h' : MemoryCalls m' m'') : MemoryCalls m m'' := by
  obtain ⟨cs, hcs, hall⟩ := h
  obtain ⟨cs', hcs', hall'⟩ := h'
  refine ⟨cs' ++ cs, by rw [hcs', hcs, List.append_assoc], fun c hc => ?_⟩
  rcases List.mem_append.mp hc with hc | hc
  · exact hall' c hc
  · exact hall c hc

section Calls

variable (E : Env W)

theorem memoryCalls_load (addr : U16) (m : Machine (Logged W)) :
    MemoryCalls m (load (logEnv E) addr m).mach :=
  ⟨[⟨.readByte, m.cpu.userdata, m.cpu.userdata, addr⟩], rfl, by simp [Handler.isDevice]⟩

theorem memoryCalls_store (addr : U16) (v : U8) (m : Machine (Logged W)) :
    MemoryCalls m (store (logEnv E) addr v m) :=
  ⟨[⟨.writeByte, m.cpu.userdata, m.cpu.userdata, addr⟩], rfl, by simp [Handler.isDevice]⟩

theorem memoryCalls_loadWord (addr : U16) (m : Machine (Logged W)) :
    MemoryCalls m (loadWord (logEnv E) addr m).mach := by
  simp only [loadWord]
  split
  · exact (memoryCalls_load E _ m).trans (memoryCalls_load E _ _)
  · exact (memoryCalls_load E _ m).trans (memoryCalls_load E _ _)

theorem memoryCalls_storeWord (addr w : U16) (m : Machine (Logged W)) :
    MemoryCalls m (storeWord (logEnv E) addr w m) :=
  (memoryCalls_store E _ _ m).trans (memoryCalls_store E _ _ _)

theorem memoryCalls_fetch (m : Machine (Logged W)) :
    MemoryCalls m (fetch (logEnv E) m).mach :=
  memoryCalls_load E _ (m.onCpu _)

theorem memoryCalls_fetchWord (m : Machine (Logged W)) :
    MemoryCalls m (fetchWord (logEnv E) m).mach :=
  memoryCalls_loadWord E _ m

theorem memoryCalls_pushWord (w : U16) (m : Machine (Logged W)) :
    MemoryCalls m (pushWord (logEnv E) w m) :=
  memoryCalls_storeWord E _ w (m.onCpu _)

theorem memoryCalls_popWord (m : Machine (Logged W)) :
    MemoryCalls m (popWord (logEnv E) m).mach :=
  memoryCalls_loadWord E _ m

theorem memoryCalls_locLoad (loc : Loc) (m : Machine (Logged W)) :
    MemoryCalls m (loc.load (logEnv E) m).mach := by
  cases loc with
  | reg r => exact .refl m
  | «at» addr => exact memoryCalls_load E addr m

theorem memoryCalls_locStore (loc : Loc) (v : U8) (m : Machine (Logged W)) :
    MemoryCalls m (loc.store (logEnv E) v m) := by
  cases loc with
  | reg r => exact .refl m
  | «at» addr => exact memoryCalls_store E addr v m

/-- `IN` and `OUT` -/
def Reference.Instr.isDevice : Instr → Bool
  | .inp | .out => true
  | _ => false

/-- Every other instruction calls memory handlers only, with `userdata`. -/
theorem memoryCalls_exec {i : Instr} (h : i.isDevice = false) (m : Machine (Logged W)) :
    MemoryCalls m (i.exec (logEnv E) m) := by
  have hword := memoryCalls_fetchWord E m
  cases i with
  | nop | hlt | ei | di | stc | cmc | cma | rlc | rrc | ral | rar | daa => exact .refl m
  | pchl | sphl | xchg => exact .refl m
  | inx p | dcx p | dad p => exact .refl m
  | inp | out => exact absurd h Bool.noConfusion
  | mov d s => exact (memoryCalls_locLoad E _ m).trans (memoryCalls_locStore E _ _ _)
  | inr d | dcr d =>
      exact (memoryCalls_locLoad E _ m).trans (memoryCalls_locStore E _ _ (Machine.onCpu _ _))
  | mvi d => exact (memoryCalls_fetch E m).trans (memoryCalls_locStore E _ _ _)
  | alu op s => exact memoryCalls_locLoad E _ m
  | aluImm op => exact memoryCalls_fetch E m
  | lxi p => exact hword
  | push p => exact memoryCalls_pushWord E _ m
  | pop p => exact memoryCalls_popWord E m
  | stax p => exact memoryCalls_store E _ _ m
  | ldax p => exact memoryCalls_load E _ m
  | sta => exact hword.trans (memoryCalls_store E _ _ _)
  | lda => exact hword.trans (memoryCalls_load E _ _)
  | shld => exact hword.trans (memoryCalls_storeWord E _ _ _)
  | lhld => exact hword.trans (memoryCalls_loadWord E _ _)
  | jmp => exact hword
  | jmpCond cc =>
      simp only [Instr.exec]
      split <;> exact hword
  | call => exact hword.trans (memoryCalls_pushWord E _ _)
  | callCond cc =>
      simp only [Instr.exec]
      split
      · exact hword.trans (memoryCalls_pushWord E _ _)
      · exact hword
  | ret => exact memoryCalls_popWord E m
  | retCond cc =>
      simp only [Instr.exec]
      split
      · exact memoryCalls_popWord E m
      · exact .refl m
  | rst n => exact memoryCalls_pushWord E _ m
  | xthl => exact (memoryCalls_loadWord E _ m).trans (memoryCalls_storeWord E _ _ _)

end Calls

/-! ## What a step executes -/

/-- The opcode byte that a step executes and the machine in which it does so; `none` in a
halted step. -/
def executes (E : Env W) (m : Machine W) : Option (U8 × Machine W) :=
  if recognizes m.cpu then
    some (m.cpu.interruptOpcode, m.onCpu fun cpu =>
      { cpu with interruptPending := false, inte := false, halted := false })
  else if !m.cpu.halted then some ((nextByte E m).val, (nextByte E m).mach)
  else none

theorem stepBody_executes (E : Env W) (m : Machine W) :
    (stepBody E m).mach =
      (((executes E m).map fun x => (decode x.1).exec E (begun x.1 x.2)).getD m).onCpu
        fun cpu => { cpu with cycles := 0 } := by
  cases hrec : recognizes m.cpu with
  | true =>
      rw [stepBody_recognized hrec, execNext_eq_exec, executes, if_pos hrec]
      rfl
  | false =>
      cases hhalt : m.cpu.halted with
      | false =>
          rw [stepBody_executed hrec hhalt, execNext_eq_exec]
          simp only [executes, hrec, hhalt]
          rfl
      | true =>
          rw [stepBody_idle hrec hhalt]
          simp only [executes, hrec, hhalt]
          rfl

/-- What `cpu->userdata` is when a step calls a device handler; `none` if it calls none. -/
def deviceCall (E : Env W) (m : Machine W) : Option Ptr :=
  (executes E m).bind fun x =>
    if (decode x.1).isDevice then some (fetch E (begun x.1 x.2)).mach.cpu.userdata else none

/-- The same for every device call of a sequence of calls, in order. -/
def deviceCalls (E : Env W) : List Call → Machine W → List Ptr
  | [], _ => []
  | .interrupt op :: cs, m => deviceCalls E cs (m.onCpu (adc8080CpuInterrupt op))
  | .step :: cs, m => (deviceCall E m).toList ++ deviceCalls E cs (stepBody E m).mach

/-- Handlers that leave the struct alone find the `userdata` that it had before the step. -/
theorem deviceCall_eq {E : Env W} (hE : E.Frames) {m : Machine W} {p : Ptr}
    (h : deviceCall E m = some p) : p = m.cpu.userdata := by
  obtain ⟨⟨op, m'⟩, hex, hp⟩ := Option.bind_eq_some_iff.mp h
  have huser : m'.cpu.userdata = m.cpu.userdata := by
    unfold executes at hex
    split at hex
    · obtain ⟨-, rfl⟩ := Prod.mk.inj (Option.some.inj hex)
      rfl
    · split at hex
      · obtain ⟨-, rfl⟩ := Prod.mk.inj (Option.some.inj hex)
        rw [show nextByte E m = fetch E m from rfl, fetch_cpu hE]
      · exact absurd hex (by simp)
  split at hp
  · rw [← Option.some.inj hp, fetch_cpu hE]
    exact huser
  · exact absurd hp (by simp)

section Projects

universe v

variable {W' : Type v} {φ : W' → W} {E' : Env W'} {E : Env W} (h : Env.Projects φ E' E)
include h

theorem executes_map (m : Machine W') :
    executes E (m.map φ) = (executes E' m).map fun x => (x.1, x.2.map φ) := by
  have hfetch : nextByte E (m.map φ) = (nextByte E' m).map φ := fetch_map h m
  simp only [executes, Machine.map_cpu, Machine.map_onCpu, hfetch]
  split
  · rfl
  · split <;> rfl

theorem deviceCall_map (m : Machine W') : deviceCall E (m.map φ) = deviceCall E' m := by
  have hbegun : ∀ x : U8 × Machine W',
      (fetch E (begun x.1 (x.2.map φ))).mach.cpu = (fetch E' (begun x.1 x.2)).mach.cpu :=
    fun x => by
      rw [begun, Machine.map_onCpu, fetch_map h]
      rfl
  simp only [deviceCall, executes_map h, Option.bind_map, Function.comp_def, hbegun]

end Projects

/-! ## Every call of a run -/

/-- The calls made from `m` to `m'` all pass `userdata` exactly when each of `ps` is `self`. -/
def PassesIff (self : Ptr) (ps : List Ptr) (m m' : Machine (Logged W)) : Prop :=
  ∃ cs, m'.world.calls = cs ++ m.world.calls ∧
    ((∀ c ∈ cs, c.arg = c.userdata) ↔ ∀ p ∈ ps, p = self)

theorem PassesIff.refl (self : Ptr) (m : Machine (Logged W)) : PassesIff self [] m m :=
  ⟨[], rfl, by simp⟩

theorem PassesIff.trans {self : Ptr} {ps ps' : List Ptr} {m m' m'' : Machine (Logged W)}
    (h : PassesIff self ps m m') (h' : PassesIff self ps' m' m'') :
    PassesIff self (ps ++ ps') m m'' := by
  obtain ⟨cs, hcs, hiff⟩ := h
  obtain ⟨cs', hcs', hiff'⟩ := h'
  refine ⟨cs' ++ cs, by rw [hcs', hcs, List.append_assoc], ?_⟩
  rw [List.forall_mem_append, List.forall_mem_append, hiff, hiff', and_comm]

theorem MemoryCalls.passesIff {m m' : Machine (Logged W)} (h : MemoryCalls m m')
    (self : Ptr) : PassesIff self [] m m' := by
  obtain ⟨cs, hcs, hall⟩ := h
  exact ⟨cs, hcs, iff_of_true (fun c hc => (hall c hc).2) (by simp)⟩

section Runs

variable (E : Env W)

/-- A device handler is passed the address of the struct. -/
theorem passesIff_device {i : Instr} (h : i.isDevice = true) (m : Machine (Logged W)) :
    PassesIff E.self [(fetch (logEnv E) m).mach.cpu.userdata] m (i.exec (logEnv E) m) := by
  have hfetch := (memoryCalls_fetch E m).passesIff E.self
  cases i with
  | inp => exact hfetch.trans ⟨[⟨.readDevice, E.self, _, _⟩], rfl, by simp [eq_comm]⟩
  | out => exact hfetch.trans ⟨[⟨.writeDevice, E.self, _, _⟩], rfl, by simp [eq_comm]⟩
  | _ => exact absurd h Bool.noConfusion

theorem memoryCalls_executes {m m' : Machine (Logged W)} {op : U8}
    (h : executes (logEnv E) m = some (op, m')) : MemoryCalls m m' := by
  unfold executes at h
  split at h
  · obtain ⟨-, rfl⟩ := Prod.mk.inj (Option.some.inj h)
    exact MemoryCalls.refl m
  · split at h
    · obtain ⟨-, rfl⟩ := Prod.mk.inj (Option.some.inj h)
      exact memoryCalls_fetch E m
    · exact absurd h (by simp)

theorem passesIff_step (m : Machine (Logged W)) :
    PassesIff E.self (deviceCall E (m.map Logged.world)).toList m
      (stepBody (logEnv E) m).mach := by
  rw [stepBody_executes, deviceCall_map (logEnv_projects E)]
  cases hex : executes (logEnv E) m with
  | none =>
      rw [deviceCall, hex]
      exact PassesIff.refl E.self m
  | some x =>
      obtain ⟨op, m'⟩ := x
      have hcalls := memoryCalls_executes E hex
      rw [deviceCall, hex, Option.bind_some]
      cases hdev : (decode op).isDevice with
      | true => exact (hcalls.passesIff E.self).trans (passesIff_device E hdev (begun op m'))
      | false =>
          exact (hcalls.trans (memoryCalls_exec E hdev (begun op m'))).passesIff E.self

/-- A sequence of calls of the public functions. -/
theorem passesIff_run {cs : List Call} {m : Machine (Logged W)} {t : Trace (Logged W)}
    (h : runCalls (logEnv E) cs m = some t) :
    PassesIff E.self (deviceCalls E cs (m.map Logged.world)) m t.mach := by
  induction cs generalizing m t with
  | nil =>
      simp only [runCalls, Option.some.injEq] at h
      subst h
      exact PassesIff.refl E.self m
  | cons c cs ih =>
      cases c with
      | interrupt op =>
          simp only [runCalls, Option.map_eq_some_iff] at h
          obtain ⟨t', ht', rfl⟩ := h
          exact ih ht'
      | step =>
          simp only [runCalls, Option.bind_eq_some_iff, Option.map_eq_some_iff] at h
          obtain ⟨r, hr, t', ht', rfl⟩ := h
          obtain ⟨-, rfl⟩ := adc8080CpuStep_eq_some.mp hr
          have hrest := ih ht'
          rw [deviceCalls, stepBody_map (logEnv_projects E)]
          exact (passesIff_step E m).trans hrest

/--
In every run the handlers are passed `cpu->userdata` in each call exactly when
`cpu->userdata` is the cpu itself at each call of a device handler.
-/
theorem handlers_receive_userdata_iff {cs : List Call} {m : Machine W} {t : Trace (Logged W)}
    (h : runCalls (logEnv E) cs m.unlogged = some t) :
    (∀ c ∈ t.mach.world.calls, c.arg = c.userdata) ↔
      ∀ p ∈ deviceCalls E cs m, p = E.self := by
  obtain ⟨ds, hds, hiff⟩ := passesIff_run E h
  have hcalls : t.mach.world.calls = ds := hds.trans (List.append_nil ds)
  rw [hcalls]
  exact hiff

end Runs

/-- A program of `OUT` instructions, of a client with the given `userdata`. -/
def outProgram (userdata : Nat) : Machine (Ram Unit) where
  cpu := { zeroCpu with
    userdata := userdata
    readByte := 1
    writeByte := 1
    readDevice := 1
    writeDevice := 1 }
  world := { zeroRam with mem := fun _ => 0xD3 }

/-- The program of a client whose `userdata` is not the cpu. -/
def outMachine : Machine (Ram Unit) := outProgram 7

/-- The cpu is at the address 5. -/
theorem handlers_receive_userdata_iff_out :
    (∃ t, runCalls (logEnv (ramEnv 5 noDevices)) [.step, .interrupt 0xC7, .step]
        (outProgram 7).unlogged = some t ∧
      deviceCalls (ramEnv 5 noDevices) [.step, .interrupt 0xC7, .step] (outProgram 7) = [7, 7] ∧
      ¬ ∀ c ∈ t.mach.world.calls, c.arg = c.userdata) ∧
    ∃ t, runCalls (logEnv (ramEnv 5 noDevices)) [.step, .interrupt 0xC7, .step]
        (outProgram 5).unlogged = some t ∧
      deviceCalls (ramEnv 5 noDevices) [.step, .interrupt 0xC7, .step] (outProgram 5) = [5, 5] ∧
      ∀ c ∈ t.mach.world.calls, c.arg = c.userdata := by
  refine ⟨⟨_, rfl, rfl, ?_⟩, _, rfl, rfl, ?_⟩
  · rw [handlers_receive_userdata_iff (ramEnv 5 noDevices)
      (rfl : runCalls (logEnv (ramEnv 5 noDevices)) [.step, .interrupt 0xC7, .step]
        (outProgram 7).unlogged = some _)]
    exact fun h => absurd (h 7 (List.mem_cons_self)) (by decide)
  · rw [handlers_receive_userdata_iff (ramEnv 5 noDevices)
      (rfl : runCalls (logEnv (ramEnv 5 noDevices)) [.step, .interrupt 0xC7, .step]
        (outProgram 5).unlogged = some _)]
    exact fun p hp => List.eq_of_mem_replicate (n := 2) hp

/-- `OUT` passes the cpu to `write_device`. -/
theorem out_passes_cpu :
    ∃ t, runCalls (logEnv (ramEnv 5 noDevices)) [.step] outMachine.unlogged = some t ∧
      ¬ ∀ c ∈ t.mach.world.calls, c.arg = c.userdata :=
  ⟨_, rfl, by decide⟩

end Cpu
end AdcLibs
