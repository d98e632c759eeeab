import AdcLibs.Cpu.Arithmetic
import AdcLibs.Cpu.Isr

/-!
# The stack is last-in first-out

A sequence of `PUSH`es, with any code between them that keeps the stack
pointer and memory, followed by the `POP`s of the same pairs in reverse order,
gives every pair its value back.  The stack may wrap around the top of memory
and may fill all of it.
-/

namespace AdcLibs
namespace Cpu

universe u

open Reference Blocks Runs

/-! ## Values of pairs -/

/-- What a pair stands for: a word, or the accumulator and the five flags. -/
inductive PairValue
  | word (w : U16)
  | psw (a : U8) (f : Flags)
deriving DecidableEq, Repr

def Reference.StackPair.value : StackPair → Adc8080Cpu → PairValue
  | .b, cpu => .word (Pair.b.get cpu)
  | .d, cpu => .word (Pair.d.get cpu)
  | .h, cpu => .word (Pair.h.get cpu)
  | .psw, cpu => .psw cpu.ra (flags cpu)

/-- The word that is pushed determines the value. -/
theorem Reference.StackPair.value_of_get {p : StackPair} {cpu cpu' : Adc8080Cpu}
    (h : p.get cpu = p.get cpu') : p.value cpu = p.value cpu' := by
  cases p with
  | b | d | h => exact congrArg PairValue.word h
  | psw =>
      rcases append_inj h with ⟨ha, hf⟩
      rcases flagByte_bits cpu with ⟨hs, hz, hac, hp, hc⟩
      rcases flagByte_bits cpu' with ⟨hs', hz', hac', hp', hc'⟩
      rw [hf] at hs hz hac hp hc
      have hflags : flags cpu = flags cpu' := by
        ext
        · exact hs.symm.trans hs'
        · exact hz.symm.trans hz'
        · exact hac.symm.trans hac'
        · exact hp.symm.trans hp'
        · exact hc.symm.trans hc'
      exact congrArg₂ PairValue.psw ha hflags

/-- The bits that hold no flag: bit 1 is set, bits 3 and 5 are clear. -/
def FixedBits (v : U8) : Prop :=
  v.getLsbD 1 = true ∧ v.getLsbD 3 = false ∧ v.getLsbD 5 = false

instance (v : U8) : Decidable (FixedBits v) :=
  inferInstanceAs (Decidable (_ ∧ _ ∧ _))

theorem flagByte_fixedBits (cpu : Adc8080Cpu) : FixedBits (flagByte cpu) := by
  unfold flagByte
  generalize cpu.cfs = s, cpu.cfz = z, cpu.cfa = a, cpu.cfp = p, cpu.cfc = c
  revert s z a p c
  decide

/-! ## Runs -/

/-- A pair at its `PUSH` or behind its `POP`, with the cpu struct there. -/
structure StackEvent where
  pair : StackPair
  cpu : Adc8080Cpu

def StackEvent.value (e : StackEvent) : PairValue := e.pair.value e.cpu

/-- The bytes that the `PUSH` of a pair stores. -/
def StackEvent.bytes (e : StackEvent) : List U8 := wordBytes (e.pair.get e.cpu)

variable {D : Type u}

/-- Registers and flags may differ, the stack pointer and memory do not. -/
def SameStack (m m' : Machine (Ram D)) : Prop :=
  m'.cpu.sp = m.cpu.sp ∧ m'.world.mem = m.world.mem

section Steps

variable (self : Ptr) (devices : Devices D)

def PushStep (m : Machine (Ram D)) (e : StackEvent) (t : Machine (Ram D)) : Prop :=
  ∃ m₁ opcode, SameStack m m₁ ∧ decode opcode = .push e.pair ∧ e.cpu = m₁.cpu ∧
    SameStack (execNext (ramEnv self devices) opcode m₁) t

def PopStep (m : Machine (Ram D)) (e : StackEvent) (t : Machine (Ram D)) : Prop :=
  ∃ m₁ opcode, SameStack m m₁ ∧ decode opcode = .pop e.pair ∧
    e.cpu = (execNext (ramEnv self devices) opcode m₁).cpu ∧
    SameStack (execNext (ramEnv self devices) opcode m₁) t

variable {opcode : U8} {p : StackPair}

theorem get_begun (p : StackPair) (opcode : U8) (m : Machine (Ram D)) :
    p.get (begun opcode m).cpu = p.get m.cpu := by
  cases p <;> rfl

theorem execNext_push (hdec : decode opcode = .push p) (m : Machine (Ram D)) :
    (execNext (ramEnv self devices) opcode m).cpu.sp = m.cpu.sp - 2 ∧
      (execNext (ramEnv self devices) opcode m).world =
        (m.world.put (m.cpu.sp - 2) ((p.get m.cpu).extractLsb' 0 8)).put (m.cpu.sp - 2 + 1)
          ((p.get m.cpu).extractLsb' 8 8) := by
  rw [execNext_begun, hdec, Instr.exec, pushWord_ram, get_begun]
  exact ⟨rfl, rfl⟩

theorem execNext_pop (hdec : decode opcode = .pop p) (m : Machine (Ram D)) :
    (execNext (ramEnv self devices) opcode m).cpu =
        p.set (m.world.word m.cpu.sp) { (begun opcode m).cpu with sp := m.cpu.sp + 2 } ∧
      (execNext (ramEnv self devices) opcode m).world = m.world := by
  rw [execNext_begun, hdec]
  exact ⟨rfl, rfl⟩

variable {self devices} {m t : Machine (Ram D)} {e : StackEvent} {bs : List U8}

/-- `PUSH` puts its bytes on top of what the stack holds. -/
theorem PushStep.holds (h : PushStep self devices m e t) (hheld : Holds m.world.mem m.cpu.sp bs)
    (hlen : bs.length ≤ 65534) :
    t.cpu.sp = m.cpu.sp - 2 ∧ Holds t.world.mem t.cpu.sp (e.bytes ++ bs) := by
  rcases h with ⟨m₁, opcode, ⟨hsp, hmem⟩, hdec, hcpu, hsp', hmem'⟩
  rcases execNext_push self devices hdec m₁ with ⟨hpush, hworld⟩
  have hheld₁ : Holds m₁.world.mem m₁.cpu.sp bs := by
    rw [hsp, hmem]
    exact hheld
  have hspt : t.cpu.sp = m₁.cpu.sp - 2 := hsp'.trans hpush
  constructor
  · rw [hspt, hsp]
  · rw [hmem', hspt, hworld, StackEvent.bytes, hcpu]
    exact holds_push hheld₁ hlen _ _

/-- `PUSH` writes the two bytes below the stack pointer. -/
theorem PushStep.frame (h : PushStep self devices m e t) {a : U16}
    (ha : a ∉ block (m.cpu.sp - 2) 2) : t.world.mem a = m.world.mem a := by
  rcases h with ⟨m₁, opcode, ⟨hsp, hmem⟩, hdec, hcpu, -, hmem'⟩
  rcases execNext_push self devices hdec m₁ with ⟨-, hworld⟩
  have hlow : a ≠ m.cpu.sp - 2 := fun heq => ha (by simp [block_succ, heq])
  have hhigh : a ≠ m.cpu.sp - 2 + 1 := fun heq => ha (by simp [block_succ, heq])
  rw [hmem', hworld, hsp, Ram.put_mem_of_ne _ _ hhigh, Ram.put_mem_of_ne _ _ hlow, hmem]

/-- `POP` takes the bytes on top: a pair gets back what it was pushed from. -/
theorem PopStep.restores {e' : StackEvent} (h : PopStep self devices m e t)
    (hpair : e.pair = e'.pair) (hheld : Holds m.world.mem m.cpu.sp (e'.bytes ++ bs)) :
    e.value = e'.value ∧ t.cpu.sp = m.cpu.sp + 2 ∧ t.world.mem = m.world.mem ∧
      Holds t.world.mem t.cpu.sp bs := by
  rcases h with ⟨m₁, opcode, ⟨hsp, hmem⟩, hdec, hcpu, hsp', hmem'⟩
  rcases execNext_pop self devices hdec m₁ with ⟨hpop, hworld⟩
  rcases hheld with ⟨hlow, hhigh, hrest⟩
  have hword : m₁.world.word m₁.cpu.sp = e'.pair.get e'.cpu := by
    rw [Ram.word, hmem, hsp, hlow, hhigh]
    exact append_highByte_lowByte _
  have hspt : t.cpu.sp = m.cpu.sp + 2 := by
    rw [hsp', hpop, StackPair.set_sp, hsp]
  have hmemt : t.world.mem = m.world.mem := by
    rw [hmem', hworld, hmem]
  refine ⟨?_, hspt, hmemt, ?_⟩
  · rw [StackEvent.value, StackEvent.value, hpair]
    apply StackPair.value_of_get
    rw [hcpu, hpop, hword, hpair]
    exact StackPair.get_set _ _ _
  · have hnext : m.cpu.sp + 1 + 1 = m.cpu.sp + 2 := by bv_omega
    rw [hmemt, hspt, ← hnext]
    exact hrest

end Steps

section Whole

variable {self : Ptr} {devices : Devices D} {m t u : Machine (Ram D)}

/-- The bytes of several events, the first one lowest. -/
def eventBytes (es : List StackEvent) : List U8 := es.flatMap StackEvent.bytes

/-- The two bytes of one more `PUSH` and the bytes of the others are the bytes of all. -/
theorem not_mem_below {sp a : U16} {n : Nat} (hn : 2 * (n + 1) ≤ 65536)
    (ha : a ∉ block (sp - BitVec.ofNat 16 (2 * (n + 1))) (2 * (n + 1))) :
    a ∉ block (sp - 2) 2 ∧ a ∉ block (sp - 2 - BitVec.ofNat 16 (2 * n)) (2 * n) := by
  rw [mem_block_iff_toNat] at ha ⊢
  rw [mem_block_iff_toNat]
  constructor
  · bv_omega
  · bv_omega

/-- After the `PUSH`es the stack holds the pairs, the last one on top. -/
theorem push_run {es : List StackEvent} {bs : List U8}
    (hrun : Run (PushStep self devices) m es t) (hheld : Holds m.world.mem m.cpu.sp bs)
    (hlen : 2 * es.length + bs.length ≤ 65536) :
    t.cpu.sp = m.cpu.sp - BitVec.ofNat 16 (2 * es.length) ∧
      Holds t.world.mem t.cpu.sp (eventBytes es.reverse ++ bs) ∧
      ∀ a, a ∉ block (m.cpu.sp - BitVec.ofNat 16 (2 * es.length)) (2 * es.length) →
        t.world.mem a = m.world.mem a := by
  induction hrun generalizing bs with
  | nil m =>
      refine ⟨?_, hheld, fun _ _ => rfl⟩
      rw [List.length_nil]
      bv_omega
  | @cons m s t e es hstep _ ih =>
      rw [List.length_cons] at hlen
      rcases hstep.holds hheld (by omega) with ⟨hsp, hheld⟩
      have hroom : 2 * es.length + (e.bytes ++ bs).length ≤ 65536 := by
        rw [List.length_append, show e.bytes.length = 2 from rfl]
        omega
      rcases ih hheld hroom with ⟨hspt, hheldt, hframe⟩
      refine ⟨?_, ?_, ?_⟩
      · rw [hspt, hsp, List.length_cons]
        bv_omega
      · rw [eventBytes, List.reverse_cons, List.flatMap_append, List.append_assoc]
        exact hheldt
      · intro a ha
        rw [List.length_cons] at ha
        rcases not_mem_below (by omega) ha with ⟨hfirst, hrest⟩
        rw [← hsp] at hrest
        rw [hframe a hrest, hstep.frame hfirst]

/-- The `POP`s of what the stack holds give every pair its value. -/
theorem pop_run {es es' : List StackEvent} (hrun : Run (PopStep self devices) t es u)
    (hpairs : es.map StackEvent.pair = es'.map StackEvent.pair)
    (hheld : Holds t.world.mem t.cpu.sp (eventBytes es')) :
    es.map StackEvent.value = es'.map StackEvent.value ∧
      u.cpu.sp = t.cpu.sp + BitVec.ofNat 16 (2 * es.length) ∧ u.world.mem = t.world.mem := by
  induction hrun generalizing es' with
  | nil m =>
      rcases List.map_eq_nil_iff.mp hpairs.symm with rfl
      refine ⟨rfl, ?_, rfl⟩
      rw [List.length_nil]
      bv_omega
  | @cons m s t e es hstep _ ih =>
      rcases List.exists_cons_of_ne_nil (by rintro rfl; exact nomatch hpairs : es' ≠ [])
        with ⟨e', es', rfl⟩
      rcases List.cons.inj hpairs with ⟨hpair, hpairs⟩
      rcases hstep.restores hpair hheld with ⟨hvalue, hsp, hmem, hheld⟩
      rcases ih hpairs hheld with ⟨hvalues, hspu, hmemu⟩
      refine ⟨?_, ?_, ?_⟩
      · rw [List.map_cons, List.map_cons, hvalue, hvalues]
      · rw [hspu, hsp, List.length_cons]
        bv_omega
      · rw [hmemu, hmem]

/--
The stack is last-in first-out: whatever pairs are pushed, up to all of
memory, the `POP`s in reverse order give each pair the value that it had at
its `PUSH`, restore the stack pointer, and only the bytes of the pushed words
change.  A pushed flag byte has bit 1 set and bits 3 and 5 clear.
-/
theorem stack_lifo (pushes pops : List StackEvent) (hlen : pushes.length ≤ 32768)
    (hpushes : Run (PushStep self devices) m pushes t)
    (hpops : Run (PopStep self devices) t pops u)
    (hpairs : pops.map StackEvent.pair = (pushes.map StackEvent.pair).reverse) :
    pops.map StackEvent.value = (pushes.map StackEvent.value).reverse ∧
      u.cpu.sp = m.cpu.sp ∧
      (∀ a, a ∉ block (m.cpu.sp - BitVec.ofNat 16 (2 * pushes.length)) (2 * pushes.length) →
        u.world.mem a = m.world.mem a) ∧
      ∀ (s : Machine (Ram D)) (opcode : U8), decode opcode = .push .psw →
        FixedBits ((execNext (ramEnv self devices) opcode s).world.mem
          (execNext (ramEnv self devices) opcode s).cpu.sp) := by
  have hempty : Holds m.world.mem m.cpu.sp [] := trivial
  have hroom : 2 * pushes.length + ([] : List U8).length ≤ 65536 := by
    rw [List.length_nil]
    omega
  rcases push_run hpushes hempty hroom with ⟨hsp, hheld, hframe⟩
  rw [List.append_nil] at hheld
  rw [← List.map_reverse] at hpairs
  rcases pop_run hpops hpairs hheld with ⟨hvalues, hspu, hmem⟩
  have hcount : pops.length = pushes.length := by
    have hlengths := congrArg List.length hpairs
    rwa [List.length_map, List.length_map, List.length_reverse] at hlengths
  refine ⟨?_, ?_, ?_, ?_⟩
  · rw [hvalues, List.map_reverse]
  · rw [hspu, hsp, hcount]
    bv_omega
  · intro a ha
    rw [hmem, hframe a ha]
  · intro s opcode hdec
    rcases execNext_push self devices hdec s with ⟨hsp, hworld⟩
    have hbyte : (execNext (ramEnv self devices) opcode s).world.mem
        (execNext (ramEnv self devices) opcode s).cpu.sp = flagByte s.cpu := by
      have hne : s.cpu.sp - 2 ≠ s.cpu.sp - 2 + 1 := by bv_omega
      rw [hsp, hworld, Ram.put_mem_of_ne _ _ hne, Ram.put_mem_self]
      exact lowByte_append _ _
    rw [hbyte]
    exact flagByte_fixedBits s.cpu

end Whole

/-- A machine with the stack pointer at 1. -/
def beforePushes : Machine (Ram Unit) := ⟨{ zeroCpu with ra := 0x12, sp := 1 }, zeroRam⟩

def afterPushPsw : Machine (Ram Unit) := execNext (ramEnv 0 noDevices) 0xF5 beforePushes

def afterPushB : Machine (Ram Unit) := execNext (ramEnv 0 noDevices) 0xC5 afterPushPsw

def afterPopB : Machine (Ram Unit) := execNext (ramEnv 0 noDevices) 0xC1 afterPushB

def afterPopPsw : Machine (Ram Unit) := execNext (ramEnv 0 noDevices) 0xF1 afterPopB

theorem run_pushes :
    Run (PushStep 0 noDevices) beforePushes [⟨.psw, beforePushes.cpu⟩, ⟨.b, afterPushPsw.cpu⟩]
      afterPushB :=
  .cons ⟨beforePushes, 0xF5, ⟨rfl, rfl⟩, by decide, rfl, ⟨rfl, rfl⟩⟩
    (.cons ⟨afterPushPsw, 0xC5, ⟨rfl, rfl⟩, by decide, rfl, ⟨rfl, rfl⟩⟩ (.nil afterPushB))

theorem run_pops :
    Run (PopStep 0 noDevices) afterPushB [⟨.b, afterPopB.cpu⟩, ⟨.psw, afterPopPsw.cpu⟩]
      afterPopPsw :=
  .cons ⟨afterPushB, 0xC1, ⟨rfl, rfl⟩, by decide, rfl, ⟨rfl, rfl⟩⟩
    (.cons ⟨afterPopB, 0xF1, ⟨rfl, rfl⟩, by decide, rfl, ⟨rfl, rfl⟩⟩ (.nil afterPopPsw))

/-- The pushed words lie on both sides of the top of memory. -/
theorem stack_lifo_wraps :
    [StackPair.b.value afterPopB.cpu, StackPair.psw.value afterPopPsw.cpu] =
        [StackPair.b.value afterPushPsw.cpu, StackPair.psw.value beforePushes.cpu] ∧
      afterPopPsw.cpu.sp = beforePushes.cpu.sp :=
  have h := stack_lifo _ _ (by decide) run_pushes run_pops rfl
  ⟨h.1, h.2.1⟩

end Cpu
end AdcLibs
