import AdcLibs.Library.LockedCalls
import AdcLibs.Log.Guarded
import Mathlib.Data.Prod.Lex

/-!
# Threads that log

`adc__log` called by any number of threads.  A thread does one thing at a time: it gets
through `lock`, looks at the level or at an entry of the table, has one effect on a stream,
is in a handler, configures the logger for it, or gets through `unlock`.  Between any two
of these the other threads may do anything.

* A lock handler does what the header asks of it: with its userdata it names a lock,
  called with 1 it waits until nobody has that lock and takes it, called with 0 it gives
  it back.
* The logger is configured before the threads begin, and by the clients' handlers, which
  do not log themselves.
-/

namespace AdcLibs
namespace AdcLog

open Argp
open LockedCalls
open Loops
open Runs

variable {C : ClientTypes} {P : Platform C}

/-! ## The steps of a log call -/

/-- A call of a log macro. -/
structure LogCall (C : ClientTypes) where
  level : AdcLogLevel
  file : Str
  line : Int
  fmt : Str
  args : C.Args

def LogCall.action (call : LogCall C) : LogAction C :=
  .log call.level call.file call.line call.fmt call.args

/-- What the threads share; a lock handler with its userdata is a lock that is held or
not. -/
structure SharedLog (C : ClientTypes) where
  state : LogState C (LogWorld C)
  held : C.LockHandler × Option C.Ptr → Bool

/-- What `adc__log` keeps to itself in the loop, with the record of its calls. -/
structure LogFrame (C : ClientTypes) where
  i : Nat
  msg : AdcLogMsg C
  delivered : List (HandlerCall C)
  requests : List (ApiCall C)

/-- Where a thread is in `adc__log`: behind `lock`, or at the condition of the loop when
the effects and the requests of the callback before it are through. -/
inductive LogPoint (C : ClientTypes)
  | locked (call : LogCall C)
  | serving (call : LogCall C) (effects : List (Effect C)) (calls : List (ApiCall C))
      (frame : LogFrame C)

section Code

variable (P : Platform C)

/-- `adc__log` behind `lock`: the level is tested, and `stderr_callback` called. -/
def stderrPoint (call : LogCall C) (s : LogState C (LogWorld C)) : LogPoint C :=
  let msg : AdcLogMsg C :=
    ⟨some call.fmt, some call.file, call.line, call.level.code, none, none, none⟩
  if call.level.code ≥ s.logger.level then
    let msg := vaStart call.args (initMsg (streamEnv P) msg (some P.stderr) s.world)
    .serving call (streamEffects (stderrCallback P.vfprintf msg)) [] ⟨0, vaEnd msg, [], []⟩
  else .serving call [] [] ⟨0, msg, [], []⟩

/-- The body of the loop, up to the effects of the handler that it calls. -/
def entryPoint (call : LogCall C) (frame : LogFrame C) (s : LogState C (LogWorld C)) :
    LogPoint C :=
  let cb := s.logger.callbacks frame.i
  match cb.dueHandler call.level.code with
  | some handler =>
      let msg := vaStart call.args (initMsg (streamEnv P) frame.msg cb.userdata s.world)
      let calls := handler.reaction P msg s.logger.view s.world
      .serving call (handler.effects P msg) calls
        ⟨frame.i + 1, vaEnd (handler.leaves P msg s.logger.view s.world),
          frame.delivered ++ [⟨handler, msg⟩], frame.requests ++ calls⟩
  | none => .serving call [] [] { frame with i := frame.i + 1 }

/-- What a thread does between `lock` and `unlock`. -/
def advanceLog (p : LogPoint C) (s : SharedLog C) : Option (LogPoint C × SharedLog C) :=
  match p with
  | .locked call => some (stderrPoint P call s.state, s)
  | .serving call (effect :: effects) calls frame =>
      some (.serving call effects calls frame,
        { s with state := { s.state with world := s.state.world.emit P [effect] } })
  | .serving call [] (request :: calls) frame =>
      some (.serving call [] calls frame,
        { s with state := request.exec (streamEnv P) s.state })
  | .serving call [] [] frame =>
      if frame.i < s.state.logger.numCallbacks then
        some (entryPoint P call frame s.state,
          { s with state := { s.state with slots := s.state.slots ++ [frame.i] } })
      else none

variable [DecidableEq C.LockHandler] [DecidableEq C.Ptr]

/-- `lock`, which waits as long as the lock is held. -/
def enterLog (call : LogCall C) (s : SharedLog C) : Option (LogPoint C × SharedLog C) :=
  let state := callLockHandler (streamEnv P) true s.state
  match s.state.logger.lockHandler with
  | some handler =>
      let lock := (handler, s.state.logger.userdata)
      if s.held lock then none
      else some (.locked call, ⟨state, Function.update s.held lock true⟩)
  | none => some (.locked call, ⟨state, s.held⟩)

/-- `unlock` -/
def leaveLog (s : SharedLog C) : SharedLog C where
  state := callLockHandler (streamEnv P) false s.state
  held :=
    match s.state.logger.lockHandler with
    | some handler => Function.update s.held (handler, s.state.logger.userdata) false
    | none => s.held

/-- `adc__log` as a thread runs it. -/
def logCode : Code (LogCall C) (LogPoint C) (SharedLog C) where
  enter := enterLog P
  advance := advanceLog P
  leave := fun _ => leaveLog P

end Code

/-! ## What is ahead of a thread -/

/-- The dispatch of a thread once it is through with what it has begun. -/
def LogPoint.ahead (P : Platform C) (p : LogPoint C) (s : LogState C (LogWorld C)) :
    DispatchState C (LogWorld C) :=
  match p with
  | .serving _ effects calls frame =>
      ⟨frame.i, frame.msg,
        configure (streamEnv P) calls { s with world := s.world.emit P effects },
        frame.delivered, frame.requests⟩
  | .locked call =>
      let msg : AdcLogMsg C :=
        ⟨some call.fmt, some call.file, call.line, call.level.code, none, none, none⟩
      if call.level.code ≥ s.logger.level then
        let msg := vaStart call.args (initMsg (streamEnv P) msg (some P.stderr) s.world)
        ⟨0, vaEnd msg,
          { s with world := s.world.emit P (streamEffects (stderrCallback P.vfprintf msg)) },
          [], []⟩
      else ⟨0, msg, s, [], []⟩

def LogPoint.call : LogPoint C → LogCall C
  | .locked call => call
  | .serving call _ _ _ => call

/-- The loop starts with what is ahead behind `lock`. -/
theorem adcLogStart_eq (call : LogCall C) (s : LogState C (LogWorld C)) :
    adcLogStart (streamEnv P) call.level.code call.file call.line call.fmt call.args s =
      some ((LogPoint.locked call).ahead P (callLockHandler (streamEnv P) true s)) := by
  simp only [adcLogStart, LogPoint.ahead]
  split
  · exact Option.map_eq_some_iff.mpr ⟨_, write_streamEnv _ _, rfl⟩
  · rfl

theorem stderrPoint_ahead (call : LogCall C) (s : LogState C (LogWorld C)) :
    (stderrPoint P call s).call = call ∧
      (stderrPoint P call s).ahead P s = (LogPoint.locked call).ahead P s := by
  simp only [stderrPoint, LogPoint.ahead]
  split
  · exact ⟨rfl, rfl⟩
  · refine ⟨rfl, ?_⟩
    simp only [emit_nil]
    rfl

/-- An entry is served by what the thread has ahead of it afterwards. -/
theorem entryPoint_ahead (call : LogCall C) (frame : LogFrame C) {s : LogState C (LogWorld C)}
    {u : DispatchState C (LogWorld C)}
    (hbody : dispatchBody (streamEnv P) call.level.code call.args
      ⟨frame.i, frame.msg, s, frame.delivered, frame.requests⟩ = some u) :
    (entryPoint P call frame s).call = call ∧
      (entryPoint P call frame s).ahead P { s with slots := s.slots ++ [frame.i] } =
        u := by
  rw [entryPoint]
  obtain ⟨hidle, rfl⟩ | ⟨handler, effect, hdue, hcall, rfl⟩ := dispatchBody_cases hbody
  · simp only [DispatchState.entry] at hidle
    rw [hidle]
    refine ⟨rfl, ?_⟩
    simp only [LogPoint.ahead, emit_nil]
    rfl
  · rw [call_streamEnv] at hcall
    obtain rfl := Option.some.inj hcall
    simp only [DispatchState.entry] at hdue
    rw [hdue]
    exact ⟨rfl, rfl⟩

/-- A thread stays in its call; what is ahead of it stays, or is one round less. -/
theorem advance_ahead {p : LogPoint C} {s : SharedLog C} {x : LogPoint C × SharedLog C}
    (h : advanceLog P p s = some x) :
    x.1.call = p.call ∧ x.2.held = s.held ∧
      (x.1.ahead P x.2.state = p.ahead P s.state ∨
        dispatchCond (p.ahead P s.state) = true ∧
          dispatchBody (streamEnv P) p.call.level.code p.call.args (p.ahead P s.state) =
            some (x.1.ahead P x.2.state)) := by
  match p with
  | .locked call =>
      obtain rfl := Option.some.inj h
      obtain ⟨hcall, hahead⟩ := stderrPoint_ahead (P := P) call s.state
      exact ⟨hcall, rfl, .inl hahead⟩
  | .serving call (effect :: effects) calls frame =>
      obtain rfl := Option.some.inj h
      refine ⟨rfl, rfl, .inl ?_⟩
      simp only [LogPoint.ahead, emit_emit, List.singleton_append]
  | .serving call [] (request :: calls) frame =>
      obtain rfl := Option.some.inj h
      refine ⟨rfl, rfl, .inl ?_⟩
      simp only [LogPoint.ahead, emit_nil]
      rfl
  | .serving call [] [] frame =>
      rw [advanceLog] at h
      split at h
      · next hlt =>
          obtain rfl := Option.some.inj h
          obtain ⟨u, hbody⟩ := dispatchBody_ne_none (P := P) call.level.code call.args
            ⟨frame.i, frame.msg, s.state, frame.delivered, frame.requests⟩
          obtain ⟨hcall, hahead⟩ := entryPoint_ahead call frame hbody
          have hnow : (LogPoint.serving call [] [] frame).ahead P s.state =
              ⟨frame.i, frame.msg, s.state, frame.delivered, frame.requests⟩ := by
            simp only [LogPoint.ahead, emit_nil]
            rfl
          rw [hnow, hahead]
          exact ⟨hcall, rfl, .inr ⟨decide_eq_true hlt, hbody⟩⟩
      · cases h

/-- At the end nothing is ahead. -/
theorem ahead_of_end {p : LogPoint C} {s : SharedLog C} (h : advanceLog P p s = none) :
    dispatchCond (p.ahead P s.state) = false ∧ (p.ahead P s.state).state = s.state := by
  match p with
  | .locked _ | .serving _ (_ :: _) _ _ | .serving _ [] (_ :: _) _ => cases h
  | .serving call [] [] frame =>
      rw [advanceLog] at h
      split at h
      · cases h
      · next hge =>
          simp only [LogPoint.ahead, emit_nil]
          exact ⟨decide_eq_false hge, rfl⟩

/-! ## The lock -/

/-- The lock handler is set, with its userdata. -/
structure Configured (P : Platform C) (lock : C.LockHandler × Option C.Ptr)
    (s : LogState C (LogWorld C)) : Prop where
  wellFormed : WellFormed (streamEnv P) s
  lockConfig : s.logger.view.lockConfig = (some lock.1, lock.2)

theorem Configured.exec {lock : C.LockHandler × Option C.Ptr} {s : LogState C (LogWorld C)}
    (h : Configured P lock s) {request : ApiCall C}
    (hkeeps : request.setsLock = false) : Configured P lock (request.exec (streamEnv P) s) := by
  refine ⟨exec_wellFormed h.wellFormed request, ?_⟩
  rw [exec_view, apply_lockConfig hkeeps, h.lockConfig]

theorem Configured.callLockHandler {lock : C.LockHandler × Option C.Ptr}
    {s : LogState C (LogWorld C)} (h : Configured P lock s) (b : Bool) :
    Configured P lock (callLockHandler (streamEnv P) b s) := by
  refine ⟨callLockHandler_wellFormed h.wellFormed b, ?_⟩
  rw [(callLockHandler_logger (streamEnv P) b s).1, h.lockConfig]

/-- What the handlers have still to configure. -/
def LogPoint.requests : LogPoint C → List (ApiCall C)
  | .locked _ => []
  | .serving _ _ calls _ => calls

/-- No thread is between `lock` and `unlock`. -/
structure Between (P : Platform C) (lock : C.LockHandler × Option C.Ptr) (s : SharedLog C) :
    Prop where
  configured : Configured P lock s.state
  free : s.held lock = false

/-- A thread is between `lock` and `unlock`. -/
structure Inside (P : Platform C) (lock : C.LockHandler × Option C.Ptr) (p : LogPoint C)
    (s : SharedLog C) : Prop where
  configured : Configured P lock s.state
  taken : s.held lock = true
  keeps : ∀ request ∈ p.requests, request.setsLock = false

/-- The entries that a thread has still to serve, and what it has still to do before. -/
def LogPoint.rank (P : Platform C) (p : LogPoint C) (_ : SharedLog C) : Nat ×ₗ Nat :=
  match p with
  | .locked _ => toLex (P.adcLogMaxCallbacks + 1, 0)
  | .serving _ effects calls frame =>
      toLex (P.adcLogMaxCallbacks - frame.i, effects.length + calls.length)

theorem Configured.fields {lock : C.LockHandler × Option C.Ptr} {s : LogState C (LogWorld C)}
    (h : Configured P lock s) :
    s.logger.lockHandler = some lock.1 ∧ s.logger.userdata = lock.2 :=
  Prod.ext_iff.mp h.lockConfig

theorem advance_inside (hkeeps : KeepsLock P) {lock : C.LockHandler × Option C.Ptr}
    {p : LogPoint C} {s : SharedLog C} {x : LogPoint C × SharedLog C} (h : Inside P lock p s)
    (hadvance : advanceLog P p s = some x) :
    Inside P lock x.1 x.2 ∧ x.1.rank P x.2 < p.rank P s := by
  obtain ⟨hconfigured, htaken, hrequests⟩ := h
  match p with
  | .locked call =>
      obtain rfl := Option.some.inj hadvance
      simp only [stderrPoint]
      split
      · refine ⟨⟨hconfigured, htaken, fun _ h => absurd h List.not_mem_nil⟩, ?_⟩
        exact Prod.Lex.toLex_lt_toLex.mpr (.inl (Nat.lt_succ_self _))
      · refine ⟨⟨hconfigured, htaken, fun _ h => absurd h List.not_mem_nil⟩, ?_⟩
        exact Prod.Lex.toLex_lt_toLex.mpr (.inl (Nat.lt_succ_self _))
  | .serving call (effect :: effects) calls frame =>
      obtain rfl := Option.some.inj hadvance
      have hwf := hconfigured.wellFormed
      refine ⟨⟨⟨⟨hwf.fits, hwf.slots_lt⟩, hconfigured.lockConfig⟩, htaken, hrequests⟩, ?_⟩
      refine Prod.Lex.toLex_lt_toLex.mpr (.inr ⟨rfl, ?_⟩)
      exact Nat.add_lt_add_right (Nat.lt_succ_self _) _
  | .serving call [] (request :: calls) frame =>
      obtain rfl := Option.some.inj hadvance
      obtain ⟨hrequest, hrest⟩ := List.forall_mem_cons.mp hrequests
      refine ⟨⟨hconfigured.exec hrequest, htaken, hrest⟩, ?_⟩
      refine Prod.Lex.toLex_lt_toLex.mpr (.inr ⟨rfl, ?_⟩)
      exact Nat.add_lt_add_left (Nat.lt_succ_self _) _
  | .serving call [] [] frame =>
      rw [advanceLog] at hadvance
      split at hadvance
      · next hlt =>
          obtain rfl := Option.some.inj hadvance
          have hwf := touch_wellFormed hconfigured.wellFormed hlt s.state.world
          have hfits := hconfigured.wellFormed.fits
          have hless : P.adcLogMaxCallbacks - (frame.i + 1) < P.adcLogMaxCallbacks - frame.i := by
            change s.state.logger.numCallbacks ≤ P.adcLogMaxCallbacks at hfits
            omega
          simp only [entryPoint]
          split
          · next handler hdue =>
              refine ⟨⟨⟨hwf, hconfigured.lockConfig⟩, htaken, ?_⟩,
                Prod.Lex.toLex_lt_toLex.mpr (.inl hless)⟩
              cases handler with
              | file => exact fun _ h => absurd h List.not_mem_nil
              | client client => exact hkeeps client _ _ _
          · exact ⟨⟨⟨hwf, hconfigured.lockConfig⟩, htaken, fun _ h => absurd h List.not_mem_nil⟩,
              Prod.Lex.toLex_lt_toLex.mpr (.inl hless)⟩
      · cases hadvance

/-- Nothing that was written is taken back. -/
theorem advance_effects {p : LogPoint C} {s : SharedLog C} {x : LogPoint C × SharedLog C}
    (h : advanceLog P p s = some x) :
    s.state.world.effects <+: x.2.state.world.effects := by
  match p with
  | .locked call =>
      obtain rfl := Option.some.inj h
      exact List.prefix_rfl
  | .serving call (effect :: effects) calls frame =>
      obtain rfl := Option.some.inj h
      exact List.prefix_append _ _
  | .serving call [] (request :: calls) frame =>
      obtain rfl := Option.some.inj h
      rw [exec_world]
  | .serving call [] [] frame =>
      rw [advanceLog] at h
      split at h
      · obtain rfl := Option.some.inj h
        exact List.prefix_rfl
      · cases h

/-! ## The start -/

variable {ι : Type} {config : List (ApiCall C)} {now : Nat}
  {programs : ι → List (LogCall C)} {handler : C.LockHandler}
  {userdata : Option C.Ptr}

/-- Threads that log, when the logger has been configured. -/
def logThreads (P : Platform C) (config : List (ApiCall C)) (now : Nat)
    (programs : ι → List (LogCall C)) : System ι (LogCall C) (LogPoint C) (SharedLog C) :=
  start programs ⟨configure (streamEnv P) config (initState ⟨now, []⟩), fun _ => false⟩

theorem between_start
    (hset : (configure (streamEnv P) config (initState ⟨now, []⟩)).logger.view.lockConfig =
      (some handler, userdata)) :
    Between P (handler, userdata)
      ⟨configure (streamEnv P) config (initState ⟨now, []⟩), fun _ => false⟩ where
  configured := ⟨configure_wellFormed (wellFormed_init (streamEnv P) ⟨now, []⟩) config, hset⟩
  free := rfl

theorem execActions_configure (s : LogState C (LogWorld C)) (actions : List (LogAction C)) :
    execActions P (config.map .configure ++ actions) s =
      execActions P actions (configure (streamEnv P) config s) := by
  induction config generalizing s with
  | nil => rfl
  | cons call config ih => exact ih (call.exec (streamEnv P) s)

/-! ## Calls of one thread -/

section Calls

variable [DecidableEq C.LockHandler] [DecidableEq C.Ptr]

theorem goes_rounds {x y : LogPoint C × SharedLog C} (h : (logCode P).Goes x y) :
    y.1.call = x.1.call ∧
      Rounds dispatchCond (dispatchBody (streamEnv P) x.1.call.level.code x.1.call.args)
        (x.1.ahead P x.2.state) (y.1.ahead P y.2.state) := by
  induction h using Relation.ReflTransGen.head_induction_on with
  | refl => exact ⟨rfl, .refl _⟩
  | head hadvance _ ih =>
      obtain ⟨hcall, -, hahead⟩ := advance_ahead hadvance
      obtain ⟨hsame, ih⟩ := ih
      rw [hcall] at ih
      refine ⟨hsame.trans hcall, ?_⟩
      rcases hahead with hstays | ⟨hcond, hbody⟩
      · rwa [hstays] at ih
      · exact .next hcond hbody ih

theorem enterLog_eq {call : LogCall C} {s : SharedLog C} {x : LogPoint C × SharedLog C}
    (h : enterLog P call s = some x) :
    x.1 = .locked call ∧ x.2.state = callLockHandler (streamEnv P) true s.state := by
  simp only [enterLog] at h
  split at h
  · split at h
    · cases h
    · obtain rfl := Option.some.inj h
      exact ⟨rfl, rfl⟩
  · obtain rfl := Option.some.inj h
    exact ⟨rfl, rfl⟩

/-- A call that a thread makes alone is a call of `adc__log`. -/
theorem completes_exec {call : LogCall C} {s s' : SharedLog C}
    (hwf : WellFormed (streamEnv P) s.state) (h : (logCode P).Completes call s s') :
    call.action.exec P s.state = some s'.state := by
  obtain ⟨x, y, henter, hgoes, hadvance, rfl⟩ := h
  obtain ⟨hpoint, hstate⟩ := enterLog_eq henter
  obtain ⟨hcond, hahead⟩ := ahead_of_end hadvance
  have hrounds := (goes_rounds hgoes).2
  rw [hpoint, hstate] at hrounds
  obtain ⟨t, -, ht, -⟩ :=
    adcLog_logged call.level.code call.file call.line call.fmt call.args hwf
  obtain ⟨start, hstart, hloop⟩ := Option.bind_eq_some_iff.mp ht
  obtain ⟨u, hu, rfl⟩ := Option.map_eq_some_iff.mp hloop
  rw [adcLogStart_eq] at hstart
  obtain rfl := Option.some.inj hstart
  obtain ⟨hreached, hend⟩ := rounds_of_whileChecked hu
  obtain rfl := hreached.unique hend hrounds hcond
  rw [LogCall.action, LogAction.exec, ht, Option.map_some]
  exact congrArg (fun state => some (callLockHandler (streamEnv P) false state)) hahead

theorem completes_wellFormed {call : LogCall C} {s s' : SharedLog C}
    (hwf : WellFormed (streamEnv P) s.state) (h : (logCode P).Completes call s s') :
    WellFormed (streamEnv P) s'.state := by
  obtain ⟨s₁, effects, hexec, hwf', -⟩ := exec_logStep call.action hwf
  rw [completes_exec hwf h] at hexec
  rw [Option.some.inj hexec]
  exact hwf'

/-- Calls that the threads make one after another are a run of the program that makes
them. -/
theorem serial_exec {s s' : SharedLog C} {order : List (ι × LogCall C)}
    (hwf : WellFormed (streamEnv P) s.state) (h : (logCode P).Serial s order s') :
    execActions P (order.map fun e => e.2.action) s.state = some s'.state := by
  induction h with
  | nil s => rfl
  | cons hcall _ ih =>
      rw [List.map_cons, execActions, List.foldlM_cons, completes_exec hwf hcall]
      exact ih (completes_wellFormed hwf hcall)

theorem enterLog_configured {lock : C.LockHandler × Option C.Ptr} {s : SharedLog C}
    (h : Configured P lock s.state) (call : LogCall C) :
    enterLog P call s =
      if s.held lock then none
      else some (.locked call,
        ⟨callLockHandler (streamEnv P) true s.state, Function.update s.held lock true⟩) := by
  obtain ⟨hhandler, huserdata⟩ := h.fields
  simp only [enterLog, hhandler, huserdata]

theorem logCode_locks (hkeeps : KeepsLock P) (lock : C.LockHandler × Option C.Ptr) :
    (logCode P).Locks (Between P lock) (Inside P lock) (LogPoint.rank P) where
  ready {s} h call := by
    refine ⟨_, (enterLog_configured h.configured call).trans (if_neg ?_)⟩
    rw [h.free]
    exact Bool.false_ne_true
  enter {call s x} h henter := by
    have hfree : ¬ s.held lock = true := by
      rw [h.free]
      exact Bool.false_ne_true
    obtain rfl := Option.some.inj
      (((enterLog_configured h.configured call).trans (if_neg hfree)).symm.trans henter)
    exact ⟨h.configured.callLockHandler true, Function.update_self .., fun _ h =>
      absurd h List.not_mem_nil⟩
  waits {p s} h call := (enterLog_configured h.configured call).trans (if_pos h.taken)
  advance := advance_inside hkeeps
  leave {p s} h _ := by
    obtain ⟨hhandler, huserdata⟩ := h.configured.fields
    refine ⟨h.configured.callLockHandler false, ?_⟩
    simp only [logCode, leaveLog, hhandler, huserdata]
    exact Function.update_self ..

theorem goes_effects {x y : LogPoint C × SharedLog C} (h : (logCode P).Goes x y) :
    x.2.state.world.effects <+: y.2.state.world.effects := by
  induction h with
  | refl => exact List.prefix_rfl
  | tail _ hadvance ih => exact ih.trans (advance_effects hadvance)

theorem leaveLog_effects (s : SharedLog C) :
    s.state.world.effects <+: (leaveLog P s).state.world.effects := by
  rw [leaveLog, callLockHandler_effects]
  exact List.prefix_append _ _

/-! ## Interleavings -/

variable [DecidableEq ι]

/--
When a lock handler is set, and no handler of a client replaces it or logs itself, any
number of threads can log.  In every interleaving at most one thread is between `lock` and
`unlock`; what is written so far is the beginning of what the program writes that makes the
calls one after another, in the order in which they got the lock, and where no thread is
inside all of it; and this order is that of each thread.
-/
theorem threads_serialized (hkeeps : KeepsLock P)
    (hset : (configure (streamEnv P) config (initState ⟨now, []⟩)).logger.view.lockConfig =
      (some handler, userdata))
    {es : List (ι × Event (LogCall C))} {t : System ι (LogCall C) (LogPoint C) (SharedLog C)}
    (hrun : Run (Step (logCode P)) (logThreads P config now programs) es t) :
    (∀ i j, (t.threads i).inside ≠ none → (t.threads j).inside ≠ none → i = j) ∧
      (∀ i, programs i = callsOf i (entered es) ++ (t.threads i).calls) ∧
      ∃ s, execActions P (config.map .configure ++ (entered es).map fun e => e.2.action)
            (initState ⟨now, []⟩) = some s ∧
        t.shared.state.world.effects <+: s.world.effects ∧
        ((∀ i, (t.threads i).inside = none) → t.shared.state = s) := by
  have hlocks := logCode_locks hkeeps (handler, userdata)
  have hstart := between_start hset
  have hserialized := (serialized_start programs hstart).run hlocks hrun
  refine ⟨fun i j hi hj => ?_, callsOf_run hrun, ?_⟩
  · obtain ⟨p, hp⟩ := Option.ne_none_iff_exists'.mp hi
    by_contra hij
    exact hj ((hserialized.inside_eq hp).2.1 j (Ne.symm hij))
  · obtain ⟨s, hserial, hnone, hahead⟩ := hserialized.completed hlocks
    refine ⟨s.state, ?_, ?_, fun h => congrArg SharedLog.state (hnone h)⟩
    · rw [execActions_configure]
      exact serial_exec hstart.configured.wellFormed hserial
    · rcases hahead with hsame | ⟨p, y, hgoes, rfl⟩
      · rw [hsame]
      · exact (goes_effects hgoes).trans (leaveLog_effects y.2)

end Calls

/-- Two threads, of which one is behind `lock`. -/
def testThreads : System Bool (LogCall ⟨Nat, Nat, Nat, Nat⟩) (LogPoint ⟨Nat, Nat, Nat, Nat⟩)
    (SharedLog ⟨Nat, Nat, Nat, Nat⟩) :=
  logThreads testPlatform [.setLockHandler (some 5) (some 8)] 0
    fun _ => [⟨.info, "a.c".toList, 7, "x".toList, 0⟩]

theorem threads_serialized_test :
    ∃ es t, Run (Step (logCode testPlatform)) testThreads es t ∧ es.length = 2 ∧
      ∃ s, execActions testPlatform
          ([.configure (.setLockHandler (some 5) (some 8))] ++
            (entered es).map fun e => e.2.action) (initState ⟨0, []⟩) = some s ∧
        t.shared.state.world.effects <+: s.world.effects := by
  have hrun : Run (Step (logCode testPlatform)) testThreads
      [(true, .enter ⟨.info, "a.c".toList, 7, "x".toList, 0⟩), (true, .advance)] _ :=
    .cons (.enter rfl rfl) (.cons (.advance rfl rfl) (.nil _))
  obtain ⟨-, -, s, hexec, hprefix, -⟩ := threads_serialized keepsLock_testPlatform rfl hrun
  exact ⟨_, _, hrun, rfl, s, hexec, hprefix⟩

end AdcLog
end AdcLibs
