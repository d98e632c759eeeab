import AdcLibs.Cpu.RamSteps
import AdcLibs.Library.Blocks

/-!
# Interrupt service routines

A routine that saves the registers, runs a straight-line body, restores the
registers, enables interrupts and returns is transparent to the program it
interrupts, whenever further requests arrive.  The proof carries one invariant
through the routine: where pc and sp stand, what the stack holds, and which
register pairs have their old values.
-/

namespace AdcLibs
namespace Cpu

universe u

open Reference Blocks

/-! ## Routines -/

/-- No control transfer, `HLT` or `EI`, and no use of the stack pointer. -/
def Reference.Instr.isStraight (i : Instr) : Bool :=
  !i.isTransfer && !i.usesSp && i != .hlt && i != .ei

/-- An instruction of a straight-line body, as its bytes in memory. -/
structure StraightInstr where
  opcode : U8
  operands : List U8
  length_eq : operands.length = (decode opcode).operandBytes
  straight : (decode opcode).isStraight = true

def StraightInstr.bytes (i : StraightInstr) : List U8 :=
  i.opcode :: i.operands

/-- The routine of `RST n` with its body. -/
structure Isr where
  n : BitVec 3
  body : List StraightInstr

namespace Isr

/-- The opcode `RST n`. -/
def rst (r : Isr) : U8 := 0b11#2 ++ r.n ++ 0b111#3

def base (r : Isr) : U16 := 8 * r.n.setWidth 16

/-- `PUSH PSW`, `PUSH B`, `PUSH D`, `PUSH H` -/
def saves : List U8 := [0xF5, 0xC5, 0xD5, 0xE5]

/-- `POP H`, `POP D`, `POP B`, `POP PSW`, `EI`, `RET` -/
def restores : List U8 := [0xE1, 0xD1, 0xC1, 0xF1, 0xFB, 0xC9]

def bodyBytes (body : List StraightInstr) : List U8 :=
  body.flatMap StraightInstr.bytes

/-- The bytes of the routine. -/
def code (r : Isr) : List U8 :=
  saves ++ bodyBytes r.body ++ restores

/-- The opcodes of the routine, one for each instruction. -/
def opcodes (r : Isr) : List U8 :=
  saves ++ r.body.map StraightInstr.opcode ++ restores

/-- The steps of a service: the recognition and the routine. -/
def steps (r : Isr) : Nat := r.opcodes.length + 1

end Isr

/-- The ten bytes below the stack pointer. -/
def stackBytes (sp : U16) : List U16 := block (sp - 10) 10

/-- The bytes of a pushed word. -/
def wordBytes (w : U16) : List U8 := [w.extractLsb' 0 8, w.extractLsb' 8 8]

/-! ## Pairs of the stack -/

namespace Reference

/-- The flags a flag byte is made of. -/
theorem flagByte_bits (cpu : Adc8080Cpu) :
    (flagByte cpu).getLsbD 7 = cpu.cfs ∧ (flagByte cpu).getLsbD 6 = cpu.cfz ∧
      (flagByte cpu).getLsbD 4 = cpu.cfa ∧ (flagByte cpu).getLsbD 2 = cpu.cfp ∧
      (flagByte cpu).getLsbD 0 = cpu.cfc := by
  unfold flagByte
  generalize cpu.cfs = s, cpu.cfz = z, cpu.cfa = a, cpu.cfp = p, cpu.cfc = c
  revert s z a p c
  decide

theorem flagByte_congr {cpu cpu₀ : Adc8080Cpu} (hs : cpu.cfs = cpu₀.cfs)
    (hz : cpu.cfz = cpu₀.cfz) (ha : cpu.cfa = cpu₀.cfa) (hp : cpu.cfp = cpu₀.cfp)
    (hc : cpu.cfc = cpu₀.cfc) : flagByte cpu = flagByte cpu₀ := by
  simp only [flagByte, hs, hz, ha, hp, hc]

/-- The registers and flags a pair reads are those it is set from. -/
theorem StackPair.get_set (p : StackPair) (cpu cpu₀ : Adc8080Cpu) :
    p.get (p.set (p.get cpu₀) cpu) = p.get cpu₀ := by
  cases p with
  | b | d | h => exact append_highByte_lowByte _
  | psw =>
      obtain ⟨hs, hz, ha, hp, hc⟩ := flagByte_bits cpu₀
      have hflags : flagByte (StackPair.psw.set (StackPair.psw.get cpu₀) cpu) =
          flagByte cpu₀ := by
        apply flagByte_congr
        · exact (getLsbD_append_low _ _ (by decide)).trans hs
        · exact (getLsbD_append_low _ _ (by decide)).trans hz
        · exact (getLsbD_append_low _ _ (by decide)).trans ha
        · exact (getLsbD_append_low _ _ (by decide)).trans hp
        · exact (getLsbD_append_low _ _ (by decide)).trans hc
      have ha : (StackPair.psw.set (StackPair.psw.get cpu₀) cpu).ra = cpu₀.ra :=
        highByte_append cpu₀.ra (flagByte cpu₀)
      exact congrArg₂ (fun a f : U8 => (a ++ f : U16)) ha hflags

theorem StackPair.get_set_of_ne {p q : StackPair} (h : q ≠ p) (w : U16)
    (cpu : Adc8080Cpu) : q.get (p.set w cpu) = q.get cpu := by
  cases p <;> cases q <;> first | rfl | exact absurd rfl h

/-- The four pairs together are the seven registers and the five flags. -/
theorem StackPair.get_injective {cpu cpu₀ : Adc8080Cpu}
    (h : ∀ p : StackPair, p.get cpu = p.get cpu₀) :
    cpu.ra = cpu₀.ra ∧ cpu.rb = cpu₀.rb ∧ cpu.rc = cpu₀.rc ∧ cpu.rd = cpu₀.rd ∧
      cpu.re = cpu₀.re ∧ cpu.rh = cpu₀.rh ∧ cpu.rl = cpu₀.rl ∧
      cpu.cfs = cpu₀.cfs ∧ cpu.cfz = cpu₀.cfz ∧ cpu.cfa = cpu₀.cfa ∧
      cpu.cfp = cpu₀.cfp ∧ cpu.cfc = cpu₀.cfc := by
  obtain ⟨ha, hf⟩ := append_inj (h .psw)
  obtain ⟨hb, hc⟩ := append_inj (h .b)
  obtain ⟨hd, he⟩ := append_inj (h .d)
  obtain ⟨hh, hl⟩ := append_inj (h .h)
  obtain ⟨s, z, a, p, c⟩ := flagByte_bits cpu
  obtain ⟨s₀, z₀, a₀, p₀, c₀⟩ := flagByte_bits cpu₀
  rw [hf] at s z a p c
  exact ⟨ha, hb, hc, hd, he, hh, hl, s.symm.trans s₀, z.symm.trans z₀, a.symm.trans a₀,
    p.symm.trans p₀, c.symm.trans c₀⟩

end Reference

/-! ## The invariant -/

variable {D : Type u}

/--
The machine inside the routine `r`, entered from `m₀`: the bytes `done` of the
routine are behind pc, `stack` is what was pushed since the recognition, the
pairs in `known` have their old values, and the body has written `ws`.
`en` tells whether the final `EI` has been executed.
-/
structure Inside (r : Isr) (m₀ : Machine (Ram D)) (done : List U8) (en : Bool)
    (stack : List U8) (known : List StackPair) (ws : List U16) (m : Machine (Ram D)) :
    Prop where
  running : m.cpu.halted = false
  inte : m.cpu.inte = en
  delay : m.cpu.interruptDelay = en
  pc : m.cpu.pc = r.base + BitVec.ofNat 16 done.length
  sp : m.cpu.sp = m₀.cpu.sp - BitVec.ofNat 16 stack.length
  code : Holds m.world.mem r.base r.code
  stack : Holds m.world.mem m.cpu.sp stack
  known : ∀ p ∈ known, p.get m.cpu = p.get m₀.cpu
  frame : ∀ a, a ∉ stackBytes m₀.cpu.sp → a ∉ ws → m.world.mem a = m₀.world.mem a

/-- The bytes below the old stack pointer are stack bytes. -/
theorem block_subset_stackBytes {sp a : U16} {n : Nat} (hn : n ≤ 10)
    (ha : a ∈ block (sp - BitVec.ofNat 16 n) n) : a ∈ stackBytes sp := by
  rw [mem_block_iff_toNat] at ha
  rw [stackBytes, mem_block_iff_toNat]
  bv_omega

/-- A word is pushed below what the stack holds. -/
theorem holds_push {ram : Ram D} {sp : U16} {stack : List U8}
    (h : Holds ram.mem sp stack) (hlen : stack.length ≤ 65534) (lo hi : U8) :
    Holds ((ram.put (sp - 2) lo).put (sp - 2 + 1) hi).mem (sp - 2) (lo :: hi :: stack) := by
  have hne : sp - 2 ≠ sp - 2 + 1 := by bv_omega
  have hsp : sp - 2 + 1 + 1 = sp := by bv_omega
  refine ⟨?_, ?_, ?_⟩
  · rw [Ram.put_mem_of_ne _ _ hne, Ram.put_mem_self]
  · rw [Ram.put_mem_self]
  · rw [hsp]
    refine h.congr fun a ha => ?_
    rw [mem_block_iff_toNat] at ha
    have h₁ : a ≠ sp - 2 := by
      rintro rfl
      bv_omega
    have h₂ : a ≠ sp - 2 + 1 := by
      rintro rfl
      bv_omega
    rw [Ram.put_mem_of_ne _ _ h₂, Ram.put_mem_of_ne _ _ h₁]

namespace Inside

variable {r : Isr} {m₀ m : Machine (Ram D)} {done rest stack : List U8} {en : Bool}
  {known : List StackPair} {ws : List U16} {op : U8}

theorem not_recognizes (h : Inside r m₀ done en stack known ws m) :
    recognizes m.cpu = false := by
  rw [recognizes, h.inte, h.delay]
  cases en <;> simp

/-- Requests change nothing the invariant speaks of. -/
theorem requests (gap : List U8) (h : Inside r m₀ done en stack known ws m) :
    Inside r m₀ done en stack known ws (requestAll gap m) := by
  refine requestAll_induction (P := Inside r m₀ done en stack known ws) ?_ gap h
  intro m op h
  refine ⟨h.running, h.inte, h.delay, h.pc, h.sp, h.code, h.stack, ?_, h.frame⟩
  intro p hp
  rw [← h.known p hp]
  cases p <;> rfl

theorem fetch (h : Inside r m₀ done en stack known ws m)
    (hcode : r.code = done ++ op :: rest) : m.world.mem m.cpu.pc = op := by
  have hheld := h.code
  rw [hcode] at hheld
  rw [h.pc]
  exact hheld.get

variable (self : Ptr) (devices : Devices D)

theorem event (h : Inside r m₀ done en stack known ws m)
    (hcode : r.code = done ++ op :: rest) :
    stepEvent (ramEnv self devices) m = .executed op := by
  rw [stepEvent_ram self devices h.not_recognizes h.running, h.fetch hcode]

theorem step (h : Inside r m₀ done en stack known ws m)
    (hcode : r.code = done ++ op :: rest) :
    (stepBody (ramEnv self devices) m).mach =
      ((decode op).exec (ramEnv self devices) (ready m)).onCpu
        fun cpu => { cpu with cycles := 0 } := by
  rw [stepBody_ram self devices h.not_recognizes h.running, h.fetch hcode]

/-- The opcode fetched, pc is behind it. -/
theorem ready_pc (h : Inside r m₀ done en stack known ws m) :
    (ready m).cpu.pc = r.base + BitVec.ofNat 16 (done ++ [op]).length := by
  change m.cpu.pc + 1 = _
  rw [h.pc, List.length_append, BitVec.ofNat_add, ← BitVec.add_assoc]
  rfl

/-- `PUSH` inside the routine. -/
theorem push (h : Inside r m₀ done false stack known ws m) {p : StackPair}
    (hdec : decode op = .push p) (hcode : r.code = done ++ op :: rest)
    (hroom : stack.length + 2 ≤ 10)
    (hdisj : ∀ a ∈ stackBytes m₀.cpu.sp, a ∉ block r.base r.code.length) (gap : List U8) :
    Inside r m₀ (done ++ [op]) false (wordBytes (p.get m.cpu) ++ stack) known ws
      (afterGap (ramEnv self devices) m gap) := by
  have hget : ∀ q : StackPair, q.get { (ready m).cpu with sp := m.cpu.sp - 2, cycles := 0 } =
      q.get m.cpu := by
    intro q
    cases q <;> rfl
  have hready : p.get (ready m).cpu = p.get m.cpu := by
    cases p <;> rfl
  have hsp : m.cpu.sp - 2 = m₀.cpu.sp - BitVec.ofNat 16 (stack.length + 2) := by
    rw [h.sp]
    bv_omega
  have hbelow : ∀ a ∈ block (m.cpu.sp - 2) 2, a ∈ stackBytes m₀.cpu.sp := by
    intro a ha
    apply block_subset_stackBytes hroom
    rw [← hsp]
    rw [mem_block_iff_toNat] at ha ⊢
    omega
  have h₁ : m.cpu.sp - 2 ∈ stackBytes m₀.cpu.sp := hbelow _ (by simp [block_succ])
  have h₂ : m.cpu.sp - 2 + 1 ∈ stackBytes m₀.cpu.sp := hbelow _ (by simp [block_succ])
  have hmem : ∀ (lo hi : U8) a, a ∉ stackBytes m₀.cpu.sp →
      ((m.world.put (m.cpu.sp - 2) lo).put (m.cpu.sp - 2 + 1) hi).mem a = m.world.mem a := by
    intro lo hi a ha
    have hne₁ : a ≠ m.cpu.sp - 2 := fun heq => ha (heq ▸ h₁)
    have hne₂ : a ≠ m.cpu.sp - 2 + 1 := fun heq => ha (heq ▸ h₂)
    rw [Ram.put_mem_of_ne _ _ hne₂, Ram.put_mem_of_ne _ _ hne₁]
  refine requests gap ?_
  rw [h.step self devices hcode, hdec]
  refine
    { running := h.running
      inte := h.inte
      delay := rfl
      pc := h.ready_pc
      sp := hsp
      code := h.code.congr fun a ha => hmem _ _ a fun hs => hdisj a hs ha
      stack := ?_
      known := fun q hq => (hget q).trans (h.known q hq)
      frame := fun a hs hw => (hmem _ _ a hs).trans (h.frame a hs hw) }
  rw [← hready]
  exact holds_push h.stack (by omega) _ _

/-- `POP` of a pair whose old value is on top of the stack. -/
theorem pop {p : StackPair}
    (h : Inside r m₀ done false (wordBytes (p.get m₀.cpu) ++ stack) known ws m)
    (hdec : decode op = .pop p) (hcode : r.code = done ++ op :: rest) (hp : p ∉ known)
    (gap : List U8) :
    Inside r m₀ (done ++ [op]) false stack (p :: known) ws
      (afterGap (ramEnv self devices) m gap) := by
  have hword : m.world.word m.cpu.sp = p.get m₀.cpu := by
    obtain ⟨hlo, hhi, _⟩ := h.stack
    rw [Ram.word, hlo, hhi]
    exact append_highByte_lowByte _
  have hsp : m.cpu.sp + 2 = m₀.cpu.sp - BitVec.ofNat 16 stack.length := by
    rw [h.sp, List.length_append, show (wordBytes (p.get m₀.cpu)).length = 2 from rfl]
    bv_omega
  have hcpu : (afterGap (ramEnv self devices) m []).cpu =
      { p.set (p.get m₀.cpu) { (ready m).cpu with sp := m.cpu.sp + 2 } with cycles := 0 } := by
    rw [afterGap, h.step self devices hcode, hdec, ← hword]
    rfl
  have hworld : (afterGap (ramEnv self devices) m []).world = m.world := by
    rw [afterGap, h.step self devices hcode, hdec]
    rfl
  refine requests gap ?_
  change Inside _ _ _ _ _ _ _ (afterGap (ramEnv self devices) m [])
  refine
    { running := ?_, inte := ?_, delay := ?_, pc := ?_, sp := ?_, code := ?_, stack := ?_,
      known := ?_, frame := ?_ }
  · rw [hcpu]
    cases p <;> exact h.running
  · rw [hcpu]
    cases p <;> exact h.inte
  · rw [hcpu]
    cases p <;> rfl
  · rw [hcpu]
    exact (p.set_pc _ _).trans h.ready_pc
  · rw [hcpu]
    exact (p.set_sp _ _).trans hsp
  · rw [hworld]
    exact h.code
  · rw [hworld, hcpu]
    have htop : m.cpu.sp + 1 + 1 = (p.set (p.get m₀.cpu)
        { (ready m).cpu with sp := m.cpu.sp + 2 }).sp := by
      rw [p.set_sp]
      bv_omega
    obtain ⟨_, _, hrest⟩ := h.stack
    rw [← htop]
    exact hrest
  · intro q hq
    have hcycles : ∀ cpu : Adc8080Cpu, q.get { cpu with cycles := 0 } = q.get cpu := by
      intro cpu
      cases q <;> rfl
    rw [hcpu, hcycles]
    rcases List.mem_cons.mp hq with rfl | hq
    · exact q.get_set _ _
    · have hne : q ≠ p := fun heq => hp (heq ▸ hq)
      rw [StackPair.get_set_of_ne hne, ← h.known q hq]
      cases q <;> rfl
  · rw [hworld]
    exact h.frame

/-- An instruction of the body that writes neither the stack bytes nor the routine. -/
theorem straight (h : Inside r m₀ done false stack known ws m) (i : StraightInstr)
    (hcode : r.code = done ++ i.bytes ++ rest) (hroom : stack.length ≤ 10) (gap : List U8)
    {ws' : List U16}
    (hws : m.world.Written ws' (afterGap (ramEnv self devices) m gap).world)
    (havoid : ∀ a ∈ ws', a ∉ stackBytes m₀.cpu.sp ∧ a ∉ block r.base r.code.length) :
    Inside r m₀ (done ++ i.bytes) false stack [] (ws' ++ ws)
      (afterGap (ramEnv self devices) m gap) := by
  have hcode' : r.code = done ++ i.opcode :: (i.operands ++ rest) := by
    rw [hcode, StraightInstr.bytes, List.append_assoc]
    rfl
  have hE : (ramEnv self devices).Frames := ramEnv_frames self devices
  have hstraight := i.straight
  simp only [Instr.isStraight, Bool.and_eq_true, Bool.not_eq_true', bne_iff_ne] at hstraight
  obtain ⟨⟨⟨htransfer, hsp⟩, hhlt⟩, hei⟩ := hstraight
  have hstep := h.step self devices hcode'
  have hcontrol := Instr.exec_control hE (decode i.opcode) (ready m)
  have hint : ∀ s : IntState, s.inte = false →
      ((decode i.opcode).onInt s).halted = s.halted ∧
        ((decode i.opcode).onInt s).inte = false ∧
        ((decode i.opcode).onInt s).delay = s.delay := by
    intro s hs
    cases hi : decode i.opcode <;> simp_all [Instr.onInt]
  obtain ⟨hrunning, hinte, hdelay⟩ := hint (ready m).cpu.intState h.inte
  have hpc : (stepBody (ramEnv self devices) m).mach.cpu.pc =
      r.base + BitVec.ofNat 16 (done ++ i.bytes).length := by
    have hlen : (done ++ i.bytes).length =
        (done ++ [i.opcode]).length + (decode i.opcode).operandBytes := by
      simp only [StraightInstr.bytes, List.length_append, List.length_cons, List.length_nil,
        i.length_eq]
      omega
    rw [hstep]
    refine (Instr.exec_pc hE (Instr.transfers_of_not_isTransfer htransfer _)).trans ?_
    rw [h.ready_pc, hlen, BitVec.ofNat_add, BitVec.add_assoc]
  have hspEq : (stepBody (ramEnv self devices) m).mach.cpu.sp = m.cpu.sp := by
    rw [hstep]
    exact Instr.exec_sp hE hsp (ready m)
  rw [afterGap, requestAll_world] at hws
  refine requests gap ?_
  refine
    { running := ?_
      inte := ?_
      delay := ?_
      pc := hpc
      sp := hspEq.trans h.sp
      code := h.code.congr fun a ha => hws.mem a fun hw => (havoid a hw).2 ha
      stack := ?_
      known := fun _ hp => absurd hp List.not_mem_nil
      frame := ?_ }
  · rw [hstep]
    exact (congrArg (fun c => c.int.halted) hcontrol).trans (hrunning.trans h.running)
  · rw [hstep]
    exact (congrArg (fun c => c.int.inte) hcontrol).trans hinte
  · rw [hstep]
    exact (congrArg (fun c => c.int.delay) hcontrol).trans hdelay
  · rw [hspEq]
    refine h.stack.congr fun a ha => hws.mem a fun hw => (havoid a hw).1 ?_
    rw [h.sp] at ha
    exact block_subset_stackBytes hroom ha
  · intro a hs hw
    rw [List.mem_append, not_or] at hw
    exact (hws.mem a hw.1).trans (h.frame a hs hw.2)

/-- `EI` inside the routine enables interrupts late. -/
theorem ei (h : Inside r m₀ done false stack known ws m) (hdec : decode op = .ei)
    (hcode : r.code = done ++ op :: rest) (gap : List U8) :
    Inside r m₀ (done ++ [op]) true stack known ws
      (afterGap (ramEnv self devices) m gap) := by
  refine requests gap ?_
  rw [h.step self devices hcode, hdec]
  refine
    { running := h.running, inte := rfl, delay := rfl, pc := h.ready_pc, sp := h.sp,
      code := h.code, stack := h.stack, known := ?_, frame := h.frame }
  intro q hq
  rw [← h.known q hq]
  cases q <;> rfl

/-- The body, instruction by instruction. -/
theorem body_run (body : List StraightInstr) (gaps : List (List U8))
    (hgaps : gaps.length = body.length) (h : Inside r m₀ done false stack known ws m)
    (hknown : known = []) (hcode : r.code = done ++ Isr.bodyBytes body ++ rest)
    (hroom : stack.length ≤ 10) {ws' : List U16}
    (hws : m.world.Written ws' (afterGaps (ramEnv self devices) gaps m).world)
    (havoid : ∀ a ∈ ws', a ∉ stackBytes m₀.cpu.sp ∧ a ∉ block r.base r.code.length) :
    gapEvents (ramEnv self devices) gaps m =
        (body.map StraightInstr.opcode).map Event.executed ∧
      Inside r m₀ (done ++ Isr.bodyBytes body) false stack [] (ws' ++ ws)
        (afterGaps (ramEnv self devices) gaps m) := by
  induction body generalizing gaps m done known ws ws' with
  | nil =>
      obtain rfl := List.length_eq_zero_iff.mp hgaps
      obtain rfl := hws.unique (.refl _)
      subst hknown
      refine ⟨rfl, ?_⟩
      rw [Isr.bodyBytes, List.flatMap_nil, List.append_nil]
      exact h
  | cons i body ih =>
      obtain ⟨gap, gaps, rfl⟩ := List.exists_cons_of_length_eq_add_one hgaps
      obtain ⟨ws₁, hws₁⟩ : ∃ ws, m.world.Written ws
          (afterGap (ramEnv self devices) m gap).world := by
        rw [afterGap, requestAll_world]
        exact stepBody_written self devices m
      obtain ⟨ws₂, hws₂⟩ := afterGaps_written self devices gaps
        (afterGap (ramEnv self devices) m gap)
      obtain rfl := hws.unique (hws₁.trans hws₂)
      have hbytes : Isr.bodyBytes (i :: body) = i.bytes ++ Isr.bodyBytes body := rfl
      have hcode₁ : r.code = done ++ i.bytes ++ (Isr.bodyBytes body ++ rest) := by
        rw [hcode, hbytes]
        simp only [List.append_assoc]
      have hcode₂ : r.code = (done ++ i.bytes) ++ Isr.bodyBytes body ++ rest := by
        rw [hcode₁]
        simp only [List.append_assoc]
      have hcode₃ : r.code = done ++ i.opcode :: (i.operands ++ (Isr.bodyBytes body ++ rest)) := by
        rw [hcode₁, StraightInstr.bytes]
        simp only [List.append_assoc, List.cons_append]
      have hnext := h.straight self devices i hcode₁ hroom gap hws₁ fun a ha =>
        havoid a (List.mem_append_right _ ha)
      obtain ⟨hevents, hlast⟩ := ih gaps (by simpa using hgaps) hnext rfl hcode₂ hws₂
        fun a ha => havoid a (List.mem_append_left _ ha)
      refine ⟨?_, ?_⟩
      · rw [gapEvents, h.event self devices hcode₃, hevents]
        rfl
      · rw [hbytes, ← List.append_assoc, List.append_assoc ws₂]
        exact hlast

end Inside

/-! ## Recognition and return -/

section Service

variable {r : Isr} {m₀ m : Machine (Ram D)} (self : Ptr) (devices : Devices D)

theorem decode_rst (n : BitVec 3) : decode (0b11#2 ++ n ++ 0b111#3) = .rst n := by
  revert n
  decide

/-- Recognition of `RST n` enters the routine with the old pc on the stack. -/
theorem Inside.start (hpend : m₀.cpu.interruptPending = true) (hinte : m₀.cpu.inte = true)
    (hdelay : m₀.cpu.interruptDelay = false) (hop : m₀.cpu.interruptOpcode = r.rst)
    (hcode : Holds m₀.world.mem r.base r.code)
    (hdisj : ∀ a ∈ stackBytes m₀.cpu.sp, a ∉ block r.base r.code.length) (gap : List U8) :
    stepEvent (ramEnv self devices) m₀ = .recognized r.rst ∧
      Inside r m₀ [] false (wordBytes m₀.cpu.pc) [.psw, .b, .d, .h] []
        (afterGap (ramEnv self devices) m₀ gap) := by
  have hrec : recognizes m₀.cpu = true := by
    rw [recognizes, hpend, hinte, hdelay]
    rfl
  have hstep := stepBody_ram_recognized self devices hrec
  rw [hop, Isr.rst, decode_rst] at hstep
  refine ⟨?_, Inside.requests gap ?_⟩
  · rw [stepEvent, if_pos hrec, hop]
  · have hbelow : ∀ a ∈ block (m₀.cpu.sp - 2) 2, a ∈ stackBytes m₀.cpu.sp :=
      fun a ha => block_subset_stackBytes (n := 2) (by decide) ha
    have h₁ : m₀.cpu.sp - 2 ∈ stackBytes m₀.cpu.sp := hbelow _ (by simp [block_succ])
    have h₂ : m₀.cpu.sp - 2 + 1 ∈ stackBytes m₀.cpu.sp := hbelow _ (by simp [block_succ])
    have hmem : ∀ (lo hi : U8) a, a ∉ stackBytes m₀.cpu.sp →
        ((m₀.world.put (m₀.cpu.sp - 2) lo).put (m₀.cpu.sp - 2 + 1) hi).mem a =
          m₀.world.mem a := by
      intro lo hi a ha
      have hne₁ : a ≠ m₀.cpu.sp - 2 := fun heq => ha (heq ▸ h₁)
      have hne₂ : a ≠ m₀.cpu.sp - 2 + 1 := fun heq => ha (heq ▸ h₂)
      rw [Ram.put_mem_of_ne _ _ hne₂, Ram.put_mem_of_ne _ _ hne₁]
    rw [hstep]
    refine
      { running := rfl
        inte := rfl
        delay := rfl
        pc := (BitVec.add_zero _).symm
        sp := rfl
        code := hcode.congr fun a ha => hmem _ _ a fun hs => hdisj a hs ha
        stack := @holds_push _ _ _ [] trivial (by decide) _ _
        known := ?_
        frame := fun a hs _ => hmem _ _ a hs }
    intro p _
    cases p <;> rfl

/-- What the interrupted program finds after the routine. -/
structure Transparent (m₀ : Machine (Ram D)) (ws : List U16) (m : Machine (Ram D)) :
    Prop where
  visible : m.cpu.visible = m₀.cpu.visible
  halted : m.cpu.halted = false
  inte : m.cpu.inte = true
  mem : ∀ a, a ∉ stackBytes m₀.cpu.sp → a ∉ ws → m.world.mem a = m₀.world.mem a

/-- Requests do not change what the program finds. -/
theorem Transparent.requests {ws : List U16} (gap : List U8) (h : Transparent m₀ ws m) :
    Transparent m₀ ws (requestAll gap m) :=
  requestAll_induction (P := Transparent m₀ ws)
    (fun _ _ h => ⟨h.visible, h.halted, h.inte, h.mem⟩) gap h

/-- `RET` with the old pc on top and all registers restored ends the service. -/
theorem Inside.ret {done rest : List U8} {ws : List U16}
    (h : Inside r m₀ done true (wordBytes m₀.cpu.pc) [.psw, .b, .d, .h] ws m)
    (hcode : r.code = done ++ 0xC9 :: rest) (gap : List U8) :
    Transparent m₀ ws (afterGap (ramEnv self devices) m gap) := by
  have hword : m.world.word m.cpu.sp = m₀.cpu.pc := by
    obtain ⟨hlo, hhi, _⟩ := h.stack
    rw [Ram.word, hlo, hhi]
    exact append_highByte_lowByte _
  have hsp : m.cpu.sp + 2 = m₀.cpu.sp := by
    rw [h.sp, show (wordBytes m₀.cpu.pc).length = 2 from rfl]
    bv_omega
  have hall : ∀ p : StackPair, p.get m.cpu = p.get m₀.cpu := fun p =>
    h.known p (by cases p <;> simp)
  obtain ⟨ha, hb, hc, hd, he, hh, hl, hcfs, hcfz, hcfa, hcfp, hcfc⟩ :=
    StackPair.get_injective hall
  refine Transparent.requests gap ?_
  have hret : Instr.ret.exec (ramEnv self devices) (ready m) =
      ⟨{ (ready m).cpu with pc := m.world.word m.cpu.sp, sp := m.cpu.sp + 2 }, m.world⟩ := rfl
  rw [h.step self devices hcode, show decode 0xC9 = .ret from by decide, hret]
  refine ⟨?_, h.running, h.inte, h.frame⟩
  simp only [Adc8080Cpu.visible, Machine.onCpu_cpu, ready, hword, hsp, ha, hb, hc, hd, he, hh,
    hl, hcfs, hcfz, hcfa, hcfp, hcfc]

/-- The stack while the body runs: the pairs saved from `m₀`, then the return address. -/
def savedStack (m₀ : Machine (Ram D)) : List U8 :=
  wordBytes (StackPair.h.get m₀.cpu) ++ (wordBytes (StackPair.d.get m₀.cpu) ++
    (wordBytes (StackPair.b.get m₀.cpu) ++ (wordBytes (StackPair.psw.get m₀.cpu) ++
      wordBytes m₀.cpu.pc)))

/-- Recognition and the four `PUSH`es. -/
theorem Inside.enter (hpend : m₀.cpu.interruptPending = true) (hinte : m₀.cpu.inte = true)
    (hdelay : m₀.cpu.interruptDelay = false) (hop : m₀.cpu.interruptOpcode = r.rst)
    (hcode : Holds m₀.world.mem r.base r.code)
    (hdisj : ∀ a ∈ stackBytes m₀.cpu.sp, a ∉ block r.base r.code.length)
    (gaps : List (List U8)) (hgaps : gaps.length = 5) :
    gapEvents (ramEnv self devices) gaps m₀ =
        .recognized r.rst :: Isr.saves.map Event.executed ∧
      Inside r m₀ Isr.saves false (savedStack m₀) [] []
        (afterGaps (ramEnv self devices) gaps m₀) := by
  obtain ⟨g₁, gaps, rfl⟩ := List.exists_cons_of_length_eq_add_one hgaps
  obtain ⟨g₂, gaps, rfl⟩ := List.exists_cons_of_length_eq_add_one (by simpa using hgaps)
  obtain ⟨g₃, gaps, rfl⟩ := List.exists_cons_of_length_eq_add_one (by simpa using hgaps)
  obtain ⟨g₄, gaps, rfl⟩ := List.exists_cons_of_length_eq_add_one (by simpa using hgaps)
  obtain ⟨g₅, gaps, rfl⟩ := List.exists_cons_of_length_eq_add_one (by simpa using hgaps)
  obtain rfl : gaps = [] := by simpa using hgaps
  obtain ⟨hevent₁, h₁⟩ := Inside.start self devices hpend hinte hdelay
    hop hcode hdisj g₁
  have hcode₂ : r.code = [] ++ 0xF5 ::
      ([0xC5, 0xD5, 0xE5] ++ Isr.bodyBytes r.body ++ Isr.restores) := rfl
  have hcode₃ : r.code = [0xF5] ++ 0xC5 ::
      ([0xD5, 0xE5] ++ Isr.bodyBytes r.body ++ Isr.restores) := rfl
  have hcode₄ : r.code = [0xF5, 0xC5] ++ 0xD5 ::
      ([0xE5] ++ Isr.bodyBytes r.body ++ Isr.restores) := rfl
  have hcode₅ : r.code = [0xF5, 0xC5, 0xD5] ++ 0xE5 ::
      (Isr.bodyBytes r.body ++ Isr.restores) := rfl
  have h₂ := h₁.push self devices (p := .psw) (by decide) hcode₂
    (by simp [wordBytes]) hdisj g₂
  rw [h₁.known .psw (by simp)] at h₂
  have h₃ := h₂.push self devices (p := .b) (by decide) hcode₃
    (by simp [wordBytes]) hdisj g₃
  rw [h₂.known .b (by simp)] at h₃
  have h₄ := h₃.push self devices (p := .d) (by decide) hcode₄
    (by simp [wordBytes]) hdisj g₄
  rw [h₃.known .d (by simp)] at h₄
  have h₅ := h₄.push self devices (p := .h) (by decide) hcode₅
    (by simp [wordBytes]) hdisj g₅
  rw [h₄.known .h (by simp)] at h₅
  refine ⟨?_, { h₅ with known := fun _ hp => absurd hp List.not_mem_nil }⟩
  simp only [gapEvents, hevent₁, h₁.event self devices hcode₂, h₂.event self devices hcode₃,
    h₃.event self devices hcode₄, h₄.event self devices hcode₅]
  rfl

/-- The four `POP`s, `EI` and `RET`. -/
theorem Inside.leave {ws : List U16}
    (h : Inside r m₀ (Isr.saves ++ Isr.bodyBytes r.body) false (savedStack m₀) [] ws m)
    (gaps : List (List U8)) (hgaps : gaps.length = 6) :
    gapEvents (ramEnv self devices) gaps m = Isr.restores.map Event.executed ∧
      Transparent m₀ ws (afterGaps (ramEnv self devices) gaps m) := by
  obtain ⟨g₁, gaps, rfl⟩ := List.exists_cons_of_length_eq_add_one hgaps
  obtain ⟨g₂, gaps, rfl⟩ := List.exists_cons_of_length_eq_add_one (by simpa using hgaps)
  obtain ⟨g₃, gaps, rfl⟩ := List.exists_cons_of_length_eq_add_one (by simpa using hgaps)
  obtain ⟨g₄, gaps, rfl⟩ := List.exists_cons_of_length_eq_add_one (by simpa using hgaps)
  obtain ⟨g₅, gaps, rfl⟩ := List.exists_cons_of_length_eq_add_one (by simpa using hgaps)
  obtain ⟨g₆, gaps, rfl⟩ := List.exists_cons_of_length_eq_add_one (by simpa using hgaps)
  obtain rfl : gaps = [] := by simpa using hgaps
  have hcode₁ : r.code = Isr.saves ++ Isr.bodyBytes r.body ++ 0xE1 ::
      [0xD1, 0xC1, 0xF1, 0xFB, 0xC9] := rfl
  have hnext : ∀ {done rest : List U8} {op op' : U8}, r.code = done ++ op :: op' :: rest →
      r.code = (done ++ [op]) ++ op' :: rest := by
    intro done rest op op' hcode
    rw [hcode, List.append_assoc]
    rfl
  have hcode₂ := hnext hcode₁
  have hcode₃ := hnext hcode₂
  have hcode₄ := hnext hcode₃
  have hcode₅ := hnext hcode₄
  have hcode₆ := hnext hcode₅
  have h₁ := h.pop self devices (by decide) hcode₁ (by simp) g₁
  have h₂ := h₁.pop self devices (by decide) hcode₂ (by simp) g₂
  have h₃ := h₂.pop self devices (by decide) hcode₃ (by simp) g₃
  have h₄ := h₃.pop self devices (by decide) hcode₄ (by simp) g₄
  have h₅ := h₄.ei self devices (by decide) hcode₅ g₅
  have h₆ := h₅.ret self devices hcode₆ g₆
  refine ⟨?_, h₆⟩
  simp only [gapEvents, h.event self devices hcode₁, h₁.event self devices hcode₂,
    h₂.event self devices hcode₃, h₃.event self devices hcode₄, h₄.event self devices hcode₅,
    h₅.event self devices hcode₆]
  rfl

end Service

/-! ## The service -/

section Service

variable (E : Env (Ram D)) (r : Isr) (gaps : List (List U8)) (m : Machine (Ram D))

/-- The addresses that the body writes: what the log gains between the fifth step
and the last step of the body. -/
def bodyWrites : List U16 :=
  let before := writesAfter E (gaps.take 5) m
  let after := writesAfter E (gaps.take (5 + r.body.length)) m
  after.take (after.length - before.length)

end Service

/--
A service is transparent.  From any machine with a request of `RST n` that can
be recognized, and for every schedule of further requests, the steps recognize it
and run the routine once through its `RET`; then the program finds its registers,
flags, pc and sp as they were, and memory as the body left it.
-/
theorem isr_transparent (r : Isr) (self : Ptr) (devices : Devices D)
    (m₀ : Machine (Ram D)) (hset : m₀.cpu.HandlersSet)
    (hpend : m₀.cpu.interruptPending = true) (hinte : m₀.cpu.inte = true)
    (hdelay : m₀.cpu.interruptDelay = false) (hop : m₀.cpu.interruptOpcode = r.rst)
    (hcode : Holds m₀.world.mem r.base r.code)
    (hdisj : ∀ a ∈ stackBytes m₀.cpu.sp, a ∉ block r.base r.code.length)
    (gaps : List (List U8)) (hgaps : gaps.length = r.steps)
    (hbody : ∀ a ∈ bodyWrites (ramEnv self devices) r gaps m₀,
      a ∉ stackBytes m₀.cpu.sp ∧ a ∉ block r.base r.code.length) :
    ∃ t, runCalls (ramEnv self devices) (schedule gaps) m₀ = some t ∧
      t.events.filter (fun e => !e.isRequest) =
        .recognized r.rst :: r.opcodes.map Event.executed ∧
      Transparent m₀ (bodyWrites (ramEnv self devices) r gaps m₀) t.mach := by
  have hE : (ramEnv self devices).Frames := ramEnv_frames self devices
  have hlength : gaps.length = 5 + r.body.length + 6 := by
    rw [hgaps, Isr.steps, Isr.opcodes]
    simp only [List.length_append, List.length_map, Isr.saves, Isr.restores, List.length_cons,
      List.length_nil]
    omega
  obtain ⟨enter, body, leave, rfl, henter, hbodyLength, hleave⟩ :
      ∃ enter body leave, gaps = enter ++ body ++ leave ∧ enter.length = 5 ∧
        body.length = r.body.length ∧ leave.length = 6 := by
    refine ⟨gaps.take 5, (gaps.drop 5).take r.body.length, gaps.drop (5 + r.body.length),
      ?_, ?_, ?_, ?_⟩
    · rw [← List.take_add, List.take_append_drop]
    · simp only [List.length_take]
      omega
    · simp only [List.length_take, List.length_drop]
      omega
    · simp only [List.length_drop]
      omega
  have hlog : ∀ gaps, writesAfter (ramEnv self devices) gaps m₀ =
      (afterGaps (ramEnv self devices) gaps m₀).world.writes :=
    fun gaps => writesAfter_eq self devices gaps hset
  obtain ⟨hevents₁, h₁⟩ := Inside.enter self devices hpend hinte
    hdelay hop hcode hdisj enter henter
  obtain ⟨ws, hws⟩ := afterGaps_written self devices body
    (afterGaps (ramEnv self devices) enter m₀)
  have hwrites : bodyWrites (ramEnv self devices) r (enter ++ body ++ leave) m₀ = ws := by
    have htake₁ : (enter ++ body ++ leave).take 5 = enter := by
      rw [List.append_assoc, ← henter, List.take_left]
    have htake₂ : (enter ++ body ++ leave).take (5 + r.body.length) = enter ++ body := by
      rw [← henter, ← hbodyLength, ← List.length_append, List.take_left]
    simp only [bodyWrites, htake₁, htake₂, hlog, afterGaps_append, hws.writes,
      List.length_append, Nat.add_sub_cancel, List.take_left]
  rw [hwrites] at hbody ⊢
  obtain ⟨hevents₂, h₂⟩ := h₁.body_run self devices r.body body hbodyLength rfl rfl
    (by simp [savedStack, wordBytes]) hws hbody
  rw [List.append_nil] at h₂
  obtain ⟨hevents₃, h₃⟩ := h₂.leave self devices leave hleave
  obtain ⟨t, ht, hmach, hevents⟩ := runCalls_schedule hE (enter ++ body ++ leave) hset
  refine ⟨t, ht, ?_, ?_⟩
  · rw [hevents, gapEvents_append, gapEvents_append, afterGaps_append, hevents₁, hevents₂,
      hevents₃, Isr.opcodes]
    simp only [List.map_append, List.cons_append]
  · rw [hmach, afterGaps_append, afterGaps_append]
    exact h₃

/-- `MVI A, 5` and `STA 2000h` in the routine of `RST 7`. -/
def storeIsr : Isr where
  n := 7
  body := [⟨0x3E, [0x05], by decide, by decide⟩, ⟨0x32, [0x00, 0x20], by decide, by decide⟩]

/-- A halted machine with `RST 7` pending and a stack that wraps. -/
def haltedMachine : Machine (Ram Unit) where
  cpu :=
    { zeroCpu with
      pc := 0x0101
      sp := 0x0004
      halted := true
      inte := true
      interruptPending := true
      interruptOpcode := 0xFF
      readByte := 1
      writeByte := 2
      readDevice := 3
      writeDevice := 4 }
  world := ⟨fun a => storeIsr.code.getD (a - 0x38).toNat 0, (), []⟩

/-- The service of that machine, with a request between `EI` and `RET`. -/
theorem isr_transparent_halted :
    let gaps : List (List U8) := List.replicate 11 [] ++ [[0xC7], []]
    let E := ramEnv 0x1000 noDevices
    ∃ t, runCalls E (schedule gaps) haltedMachine = some t ∧
      t.events.filter (fun e => !e.isRequest) =
        .recognized storeIsr.rst :: storeIsr.opcodes.map Event.executed ∧
      Transparent haltedMachine (bodyWrites E storeIsr gaps haltedMachine) t.mach := by
  have hbase : storeIsr.base = 0x38 := by decide
  have hlength : storeIsr.code.length = 15 := by decide
  have hsp : haltedMachine.cpu.sp = 0x0004 := rfl
  have hdisj : ∀ a ∈ stackBytes haltedMachine.cpu.sp,
      a ∉ block storeIsr.base storeIsr.code.length := by
    intro a ha
    rw [stackBytes, hsp, mem_block_iff_toNat] at ha
    rw [hbase, hlength, mem_block_iff_toNat]
    bv_omega
  have hbody : bodyWrites (ramEnv 0x1000 noDevices) storeIsr
      (List.replicate 11 [] ++ [[0xC7], []]) haltedMachine = [0x2000] := by
    decide
  refine isr_transparent storeIsr 0x1000 noDevices haltedMachine
    ⟨by decide, by decide, by decide, by decide⟩ rfl rfl rfl (by decide)
    (by decide) hdisj _ (by decide) ?_
  rw [hbody, hbase, hlength, hsp]
  rintro a ha
  obtain rfl := List.mem_singleton.mp ha
  exact ⟨by decide, by decide⟩

end Cpu
end AdcLibs
