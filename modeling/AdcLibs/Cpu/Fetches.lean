import AdcLibs.Cpu.Projection
import AdcLibs.Cpu.RamSteps

/-!
# What a step fetches

A step runs with versions of `next_byte` and `next_word` that record what they
return.  Recording changes nothing (`recordedStep_map`), and the record shows
which operand each case of the switch really fetches: a step that recognizes no
interrupt fetches its opcode and then as many bytes as the encoding of the
instruction has (`stepFetches_fetched`).
-/

namespace AdcLibs
namespace Cpu

universe u v

open Reference

/-- What one call of `next_byte` or `next_word` returns. -/
inductive Fetch
  | byte (b : U8)
  | word (w : U16)
deriving DecidableEq, Repr

/-- A world with the fetches made so far. -/
structure Recorded (W : Type u) where
  world : W
  fetches : List Fetch

variable {W : Type u}

/-- The fetches `fetches` beside the world. -/
def Recorded.beside (fetches : List Fetch) (w : W) : Recorded W :=
  ⟨w, fetches⟩

/-- One more fetch. -/
def Recorded.add (x : Fetch) (w : Recorded W) : Recorded W :=
  ⟨w.world, w.fetches ++ [x]⟩

section Record

variable (E : Env W)

/-- The environment `E` beside a record. -/
def recordEnv : Env (Recorded W) where
  self := E.self
  highFirst := E.highFirst
  callReadByte f p a m :=
    (E.callReadByte f p a (m.map Recorded.world)).map (Recorded.beside m.world.fetches)
  callWriteByte f p a b m :=
    (E.callWriteByte f p a b (m.map Recorded.world)).map (Recorded.beside m.world.fetches)
  callReadDevice f p d m :=
    (E.callReadDevice f p d (m.map Recorded.world)).map (Recorded.beside m.world.fetches)
  callWriteDevice f p d b m :=
    (E.callWriteDevice f p d b (m.map Recorded.world)).map (Recorded.beside m.world.fetches)

/-- `next_byte` and `next_word`, with what they return added to the record. -/
def recordFetchers : Fetchers (Recorded W) where
  nextByte m :=
    let b := nextByte (recordEnv E) m
    ⟨b.val, b.mach.map (Recorded.add (.byte b.val))⟩
  nextWord m :=
    let w := nextWord (recordEnv E) m
    ⟨w.val, w.mach.map (Recorded.add (.word w.val))⟩

/-- `adc_8080_cpu_step` on an empty record. -/
def recordedStep (m : Machine W) : Ret Int (Recorded W) :=
  stepBodyWith (recordEnv E) (recordFetchers E) (m.map (Recorded.beside []))

/-- What `next_byte` and `next_word` return during a step, in order. -/
def stepFetches (m : Machine W) : List Fetch :=
  (recordedStep E m).mach.world.fetches

/-- The operand of an instruction, fetched where pc stands. -/
def Reference.Instr.fetches (i : Instr) (m : Machine W) : List Fetch :=
  match i.operandBytes with
  | 1 => [.byte (fetch E m).val]
  | 2 => [.word (fetchWord E m).val]
  | _ => []

end Record

section Recording

variable {E : Env W}

theorem recordEnv_beside (fetches : List Fetch) :
    Env.Projects (Recorded.beside fetches) E (recordEnv E) where
  self := rfl
  highFirst := rfl
  readByte _ _ _ _ := rfl
  writeByte _ _ _ _ _ := rfl
  readDevice _ _ _ _ := rfl
  writeDevice _ _ _ _ _ := rfl

theorem recordEnv_add (x : Fetch) :
    Env.Projects (Recorded.add x) (recordEnv E) (recordEnv E) where
  self := rfl
  highFirst := rfl
  readByte _ _ _ _ := rfl
  writeByte _ _ _ _ _ := rfl
  readDevice _ _ _ _ := rfl
  writeDevice _ _ _ _ _ := rfl

/-- A recorded fetch is a fetch after its record was made. -/
theorem recordFetchers_nextByte (m : Machine (Recorded W)) :
    (recordFetchers E).nextByte m =
      nextByte (recordEnv E) (m.map (Recorded.add (.byte (fetch (recordEnv E) m).val))) :=
  (fetch_map (recordEnv_add _) m).symm

theorem recordFetchers_nextWord (m : Machine (Recorded W)) :
    (recordFetchers E).nextWord m =
      nextWord (recordEnv E) (m.map (Recorded.add (.word (fetchWord (recordEnv E) m).val))) := by
  rw [nextWord_eq, fetchWord_map (recordEnv_add _) m, recordFetchers]
  simp only [nextWord_eq]
  rfl

/-- An instruction form adds its operand to the record, and does what it always does. -/
theorem Reference.Instr.dispatch_record (i : Instr) (m : Machine (Recorded W)) :
    i.dispatch (recordEnv E) (recordFetchers E) m =
      i.exec (recordEnv E)
        (m.map fun w => ⟨w.world, w.fetches ++ i.fetches (recordEnv E) m⟩) := by
  rw [← Instr.dispatch_eq_exec]
  cases i with
  | mvi d | aluImm op | inp | out =>
      simp only [Instr.dispatch, recordFetchers_nextByte]
      rfl
  | lxi p | sta | lda | shld | lhld | jmp | jmpCond cc | call | callCond cc =>
      simp only [Instr.dispatch, recordFetchers_nextWord]
      rfl
  | push p | pop p =>
      simp only [Instr.fetches, Instr.operandBytes, List.append_nil]
      cases p <;> rfl
  | _ =>
      simp only [Instr.fetches, Instr.operandBytes, List.append_nil]
      rfl

theorem Reference.Instr.fetches_beside (i : Instr) (fetches : List Fetch) (m : Machine W) :
    i.fetches (recordEnv E) (m.map (Recorded.beside fetches)) = i.fetches E m := by
  simp only [Instr.fetches, fetch_map (recordEnv_beside fetches),
    fetchWord_map (recordEnv_beside fetches), Ret.map_val]

/-- `exec_next` adds the operand of its opcode to the record. -/
theorem execNextWith_record (opcode : U8) (fetches : List Fetch) (m : Machine W) :
    execNextWith (recordEnv E) (recordFetchers E) opcode (m.map (Recorded.beside fetches)) =
      (execNext E opcode m).map
        (Recorded.beside (fetches ++ (decode opcode).fetches E (begun opcode m))) := by
  have hentered : execNextWith (recordEnv E) (recordFetchers E) opcode
      (m.map (Recorded.beside fetches)) =
        (decode opcode).dispatch (recordEnv E) (recordFetchers E)
          ((begun opcode m).map (Recorded.beside fetches)) := by
    simp only [execNextWith, execSwitch_eq_dispatch, clearDelay_eq, sCyclesLut_eq]
    rfl
  rw [hentered, Instr.dispatch_record, Instr.fetches_beside, execNext_eq_exec]
  exact Instr.exec_map (recordEnv_beside _) _ (begun opcode m)

/-- The machine in which a recognized request executes. -/
def acknowledged (m : Machine W) : Machine W :=
  m.onCpu fun cpu => { cpu with interruptPending := false, inte := false, halted := false }

theorem stepBodyWith_recognized (F : Fetchers W) {m : Machine W}
    (hrec : recognizes m.cpu = true) :
    stepBodyWith E F m = retire (execNextWith E F m.cpu.interruptOpcode (acknowledged m)) := by
  simp only [stepBodyWith, hrec, if_true]
  rfl

theorem stepBodyWith_fetched (F : Fetchers W) {m : Machine W}
    (hrec : recognizes m.cpu = false) (hrun : m.cpu.halted = false) :
    stepBodyWith E F m =
      retire (execNextWith E F (F.nextByte m).val (F.nextByte m).mach) := by
  simp only [stepBodyWith, hrec, hrun]
  rfl

theorem retire_map {W' : Type v} (φ : W → W') (m : Machine W) :
    (retire m).map φ = retire (m.map φ) := rfl

/-- A recorded opcode fetch. -/
theorem recordFetchers_opcode (m : Machine W) :
    (recordFetchers E).nextByte (m.map (Recorded.beside [])) =
      (nextByte E m).map (Recorded.beside [.byte (nextByte E m).val]) := by
  rw [recordFetchers_nextByte, fetch_map (recordEnv_beside [])]
  exact fetch_map (recordEnv_beside [.byte (nextByte E m).val]) m

/-- A step that recognizes a request fetches the operand of the requested opcode. -/
theorem recordedStep_recognized {m : Machine W} (hrec : recognizes m.cpu = true) :
    recordedStep E m = (stepBody E m).map (Recorded.beside
      ((decode m.cpu.interruptOpcode).fetches E
        (begun m.cpu.interruptOpcode (acknowledged m)))) := by
  have hrec' : recognizes (m.map (Recorded.beside [])).cpu = true := hrec
  have hnext := execNextWith_record (E := E) m.cpu.interruptOpcode [] (acknowledged m)
  rw [List.nil_append] at hnext
  rw [recordedStep, stepBodyWith_recognized _ hrec', stepBody, stepBodyWith_recognized _ hrec,
    retire_map, execNextWith_fetchers, ← hnext]
  rfl

/-- A step that fetches takes the opcode, and then the operand of its instruction. -/
theorem recordedStep_fetched {m : Machine W} (hrec : recognizes m.cpu = false)
    (hrun : m.cpu.halted = false) :
    recordedStep E m = (stepBody E m).map (Recorded.beside
      (.byte (nextByte E m).val :: (decode (nextByte E m).val).fetches E
        (begun (nextByte E m).val (nextByte E m).mach))) := by
  have hrec' : recognizes (m.map (Recorded.beside [])).cpu = false := hrec
  have hnext := execNextWith_record (E := E) (nextByte E m).val [.byte (nextByte E m).val]
    (nextByte E m).mach
  rw [List.singleton_append] at hnext
  rw [recordedStep, stepBodyWith_fetched _ hrec' hrun, stepBody, stepBodyWith_fetched _ hrec hrun,
    recordFetchers_opcode, retire_map, execNextWith_fetchers, fetchers_nextByte, ← hnext]
  rfl

/-- A halted step that recognizes nothing fetches nothing. -/
theorem recordedStep_idle {m : Machine W} (hrec : recognizes m.cpu = false)
    (hhalt : m.cpu.halted = true) :
    recordedStep E m = (stepBody E m).map (Recorded.beside []) := by
  simp only [recordedStep, stepBody, stepBodyWith, Machine.map_cpu, hrec, hhalt]
  rfl

/-- Recording changes nothing. -/
theorem recordedStep_map (m : Machine W) :
    (recordedStep E m).map Recorded.world = stepBody E m := by
  cases hrec : recognizes m.cpu with
  | true =>
      rw [recordedStep_recognized hrec]
      rfl
  | false =>
      cases hhalt : m.cpu.halted with
      | true =>
          rw [recordedStep_idle hrec hhalt]
          rfl
      | false =>
          rw [recordedStep_fetched hrec hhalt]
          rfl

/-- What the step of a running machine without a due request fetches. -/
theorem stepFetches_fetched {m : Machine W} (hrec : recognizes m.cpu = false)
    (hrun : m.cpu.halted = false) :
    stepFetches E m = .byte (nextByte E m).val ::
      (decode (nextByte E m).val).fetches E
        (begun (nextByte E m).val (nextByte E m).mach) := by
  rw [stepFetches, recordedStep_fetched hrec hrun]
  rfl

end Recording

end Cpu
end AdcLibs
