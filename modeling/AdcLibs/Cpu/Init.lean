import AdcLibs.Cpu.Calls

/-!
# What `adc_8080_cpu_init` erases

`adc_8080_cpu_init` is called on a struct with arbitrary prior contents, then
the client installs its handlers, userdata and starting pc.  Every field is
assigned except `inte`.
-/

namespace AdcLibs
namespace Cpu

universe u

open Runs

variable {W : Type u}

/-! ## The parity table -/

theorem foldl_set_getElem {n : Nat} (f : Fin n → Bool) (l : List (Fin n))
    (lut : Vector Bool n) (i : Fin n) (h : i ∈ l ∨ lut[i] = f i) :
    (l.foldl (fun lut (j : Fin n) => lut.set j (f j)) lut)[i] = f i := by
  induction l generalizing lut with
  | nil => exact h.resolve_left List.not_mem_nil
  | cons j l ih =>
      refine ih _ ?_
      by_cases hij : i = j
      · subst hij
        exact .inr (Vector.getElem_set_self _)
      · have hne : (j : Nat) ≠ i := fun heq => hij (Fin.ext heq.symm)
        rcases h with hmem | hlut
        · exact .inl ((List.mem_cons.mp hmem).resolve_left hij)
        · exact .inr ((Vector.getElem_set_ne _ _ hne).trans hlut)

/-- The loop of `adc_8080_cpu_init` leaves nothing of an earlier parity table. -/
theorem fillParityLut_getElem (lut : Vector Bool 256) (v : U8) :
    (fillParityLut lut).get v.toFin = sParityLut v := by
  have hlut := foldl_set_getElem (fun i : Fin 256 => parityOnes i % 2 == 0)
    (List.finRange 256) lut v.toFin (.inl (List.mem_finRange _))
  exact hlut

/-! ## Booting -/

/-- What the client assigns after `adc_8080_cpu_init`. -/
structure Client where
  userdata : Ptr
  readByte : Ptr
  writeByte : Ptr
  readDevice : Ptr
  writeDevice : Ptr
  pc : U16

/-- The asserted pointers are those of the client. -/
def Client.HandlersSet (client : Client) : Prop :=
  client.readByte ≠ NULL ∧ client.writeByte ≠ NULL ∧
    client.readDevice ≠ NULL ∧ client.writeDevice ≠ NULL

/-- The struct after `adc_8080_cpu_init` and the client's assignments. -/
def boot (prior : Adc8080Cpu) (client : Client) : Adc8080Cpu :=
  { adc8080CpuInit prior with
    userdata := client.userdata
    readByte := client.readByte
    writeByte := client.writeByte
    readDevice := client.readDevice
    writeDevice := client.writeDevice
    pc := client.pc }

theorem boot_eq (prior₁ prior₂ : Adc8080Cpu) (client : Client) :
    boot prior₁ client = { boot prior₂ client with inte := prior₁.inte } := rfl

theorem boot_congr {prior₁ prior₂ : Adc8080Cpu} (h : prior₁.inte = prior₂.inte)
    (client : Client) : boot prior₁ client = boot prior₂ client := by
  rw [boot_eq prior₁ prior₂, h]
  rfl

/-! ## Two runs -/

variable (E : Env W)

/-- What a client sees of a sequence of calls: cycles, everything outside the struct,
registers and flags. -/
def observe (cs : List Call) (m : Machine W) : Option (List Int × W × Visible) :=
  (runCalls E cs m).map fun t => (t.cycles, t.mach.world, t.mach.cpu.visible)

/-- No interrupt is recognized before the program executes an `EI`. -/
def NoEarlyInterrupt (m : Machine W) : Prop :=
  ∀ cs t, runCalls E cs m = some t → ∀ pre op post,
    t.events = pre ++ .recognized op :: post → .executed opEi ∈ pre

/-- Two prior contents make no difference, and interrupts wait for an `EI`. -/
def Erased (prior₁ prior₂ : Adc8080Cpu) (client : Client) (world : W) : Prop :=
  (∀ cs, observe E cs ⟨boot prior₁ client, world⟩ =
      observe E cs ⟨boot prior₂ client, world⟩) ∧
    NoEarlyInterrupt E ⟨boot prior₁ client, world⟩ ∧
    NoEarlyInterrupt E ⟨boot prior₂ client, world⟩

section Clear

variable {E}

/-- A struct with `inte` clear waits for an `EI`. -/
theorem noEarlyInterrupt_of_clear (hE : E.Frames) {m : Machine W}
    (hinte : m.cpu.inte = false) : NoEarlyInterrupt E m := by
  rintro cs t ht pre op post hevents
  by_contra hnone
  have hsim := Run.simulates hE (runCalls_run E ht)
  rw [hevents] at hsim
  obtain ⟨s, hpre, hrest⟩ := run_append_iff.mp hsim
  have hclear : s.inte = false :=
    hpre.invariant_of_events (I := fun s => s.inte = false)
      (P := fun e => e ≠ .executed opEi) (fun _ _ _ he hs h => h.inte_clear he hs)
      (fun e he heq => hnone (heq ▸ he)) hinte
  obtain ⟨_, hstep, _⟩ := run_cons_iff.mp hrest
  rw [hstep.recognized_iff.2.1] at hclear
  exact absurd hclear (by decide)

/-- A request before the first step is recognized at once when `inte` is left set. -/
theorem clear_of_noEarlyInterrupt {prior : Adc8080Cpu} {client : Client}
    (hset : client.HandlersSet) {world : W}
    (h : NoEarlyInterrupt E ⟨boot prior client, world⟩) : prior.inte = false := by
  by_contra hinte
  have hinte : prior.inte = true := by simpa using hinte
  let m : Machine W := ⟨adc8080CpuInterrupt 0x00 (boot prior client), world⟩
  have hrec : recognizes m.cpu = true := by
    simp [m, recognizes, adc8080CpuInterrupt, boot, adc8080CpuInit, hinte]
  have hstep : adc8080CpuStep E m = some (stepBody E m) :=
    adc8080CpuStep_eq_some.mpr ⟨hset, rfl⟩
  have hrun : runCalls E [.interrupt 0x00, .step] ⟨boot prior client, world⟩ =
      some ⟨[(stepBody E m).val], [.request 0x00, .recognized 0x00], (stepBody E m).mach⟩ := by
    change ((adc8080CpuStep E m).bind _).map _ = _
    rw [hstep]
    change some (Trace.mk [_] [.request 0x00, stepEvent E m] _) = _
    rw [stepEvent, if_pos hrec]
    rfl
  have hei := h _ _ hrun [.request 0x00] 0x00 [] rfl
  simp at hei

end Clear

/--
Initialisation erases the past up to `inte`: equal `inte` gives equal
observations whatever the handlers do, and with handlers that leave the struct
alone the past is erased exactly when `inte` was clear.
-/
theorem init_erases_iff (prior₁ prior₂ : Adc8080Cpu) (client : Client) (world : W) :
    (prior₁.inte = prior₂.inte →
      ∀ cs, observe E cs ⟨boot prior₁ client, world⟩ =
        observe E cs ⟨boot prior₂ client, world⟩) ∧
    (E.Frames → client.HandlersSet →
      (Erased E prior₁ prior₂ client world ↔
        prior₁.inte = false ∧ prior₂.inte = false)) := by
  refine ⟨fun h cs => by rw [boot_congr h], fun hE hset => ⟨?_, ?_⟩⟩
  · rintro ⟨_, hearly₁, hearly₂⟩
    exact ⟨clear_of_noEarlyInterrupt hset hearly₁, clear_of_noEarlyInterrupt hset hearly₂⟩
  · rintro ⟨h₁, h₂⟩
    exact ⟨fun cs => by rw [boot_congr (h₁.trans h₂.symm)],
      noEarlyInterrupt_of_clear hE h₁, noEarlyInterrupt_of_clear hE h₂⟩

/-- A client at the usual origin of a program. -/
def exampleClient : Client where
  userdata := 0x2000
  readByte := 0x3000
  writeByte := 0x3010
  readDevice := 0x3020
  writeDevice := 0x3030
  pc := 0x0100

/-- A struct that an earlier program left halted, with a request pending. -/
def usedCpu : Adc8080Cpu :=
  { zeroCpu with
    ra := 0x5A, rh := 0x12, rl := 0x34
    pc := 0x0689
    sp := 0x07BD
    cfz := true, cfc := true
    halted := true
    interruptPending := true
    interruptOpcode := 0xC7
    interruptDelay := true
    cycles := 4924
    userdata := 0x4000
    readByte := 0x5000 }

theorem init_erases_iff_used :
    Erased (ramEnv 0x1000 noDevices) usedCpu zeroCpu exampleClient zeroRam ∧
      ¬ Erased (ramEnv 0x1000 noDevices) usedCpu { usedCpu with inte := true }
        exampleClient zeroRam := by
  have hiff (prior₁ prior₂ : Adc8080Cpu) :=
    (init_erases_iff (ramEnv 0x1000 noDevices) prior₁ prior₂ exampleClient zeroRam).2
      (ramEnv_frames 0x1000 noDevices) ⟨by decide, by decide, by decide, by decide⟩
  exact ⟨(hiff _ _).mpr ⟨rfl, rfl⟩, fun h => absurd ((hiff _ _).mp h).2 (by decide)⟩

/-- A struct that was interruptible is interruptible after `adc_8080_cpu_init`. -/
theorem init_keeps_inte :
    ¬ Erased (ramEnv 0x1000 noDevices) { zeroCpu with inte := true } zeroCpu
      exampleClient zeroRam := by
  rintro ⟨hobserve, _, _⟩
  have hpc := congrArg (Option.map fun o => o.2.2.pc) (hobserve [.interrupt 0x00, .step])
  exact absurd hpc (by decide)

end Cpu
end AdcLibs
