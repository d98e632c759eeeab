import AdcLibs.Library.Loops
import AdcLibs.Log.Callbacks

/-!
# The logger of `adc_log.h`

The table of callbacks with the functions that register them, and `adc__log` with its
dispatch loop.

* The slots of the table are an unbounded area, and the slots that are read or written
  are recorded, so that they can be compared with `ADC_LOG_MAX_CALLBACKS`.
* `W` is everything but the logger and the message.  A handler of a client is any
  function of these that returns: it leaves a message, a world and the calls of the
  logger's functions that it made.  It does not log itself.
* The lock handler and the streams change the world only.
* A read of something that is not there leaves a world, or the program does not come back
  from it.  What it leaves is a parameter; `none` is not to come back.
-/

namespace AdcLibs
namespace AdcLog

open Argp

variable (C : ClientTypes) (W : Type)

/-- `adc_log_log_handler` -/
inductive Handler
  | file
  | client (h : C.Client)

/-- `adc_log_callback` -/
structure AdcLogCallback where
  handler : Option (Handler C)
  userdata : Option C.Ptr
  level : Int

/-- The type of `s_logger`. -/
structure Logger where
  userdata : Option C.Ptr
  lockHandler : Option C.LockHandler
  level : Int
  numCallbacks : Nat
  callbacks : Nat → AdcLogCallback C

/-- `s_logger` as the program starts. -/
def sLogger : Logger C := ⟨none, none, AdcLogLevel.debug.code, 0, fun _ => ⟨none, none, 0⟩⟩

/-- A call of one of the functions that configure the logger. -/
inductive ApiCall
  | setLockHandler (handler : Option C.LockHandler) (userdata : Option C.Ptr)
  | setLevel (level : Int)
  | addCallback (handler : Option (Handler C)) (userdata : Option C.Ptr) (level : Int)
  | addFp (fp : Option C.Ptr) (level : Int)

/-- What a handler does in a call. -/
structure HandlerEffect where
  msg : AdcLogMsg C
  world : W
  calls : List (ApiCall C)

/-- What the logger is compiled and linked with. -/
structure LogEnv where
  adcLogMaxCallbacks : Nat
  stderr : C.Ptr
  /-- The local time of now. -/
  localtime : W → Option Tm
  /-- The text that a format and its arguments give. -/
  vfprintf : Str → C.Args → Option Str
  stream : StreamOp C → W → W
  /-- What is left by a read of something that is not there. -/
  undefined : W → Option W
  lockCall : C.LockHandler → Bool → Option C.Ptr → W → W
  call : C.Client → AdcLogMsg C → Logger C → W → HandlerEffect C W

/-- The logger with the world around it, and the slots that were read or written. -/
@[ext]
structure LogState where
  logger : Logger C
  world : W
  slots : List Nat

variable {C W} (env : LogEnv C W)

/-- The state in which the program starts. -/
def initState (world : W) : LogState C W := ⟨sLogger C, world, []⟩

/-! ## Configuring -/

/-- `adc_log_set_lock_handler` -/
def adcLogSetLockHandler (handler : Option C.LockHandler) (userdata : Option C.Ptr)
    (s : LogState C W) : LogState C W :=
  { s with logger := { s.logger with lockHandler := handler, userdata := userdata } }

/-- `adc_log_set_level` -/
def adcLogSetLevel (level : Int) (s : LogState C W) : LogState C W :=
  { s with logger := { s.logger with level := level } }

/-- `adc_log_add_callback` -/
def adcLogAddCallback (handler : Option (Handler C)) (userdata : Option C.Ptr) (level : Int)
    (s : LogState C W) : Int × LogState C W :=
  let n := s.logger.numCallbacks
  if n ≥ env.adcLogMaxCallbacks then (-1, s)
  else
    let cb : AdcLogCallback C := ⟨handler, userdata, level⟩
    (0,
      { s with
        logger :=
          { s.logger with
            numCallbacks := n + 1
            callbacks := fun k => if k = n then cb else s.logger.callbacks k }
        slots := s.slots ++ [n] })

/-- `adc_log_add_fp` -/
def adcLogAddFp (fp : Option C.Ptr) (level : Int) (s : LogState C W) : Int × LogState C W :=
  adcLogAddCallback env (some .file) fp level s

/-- The state after a call. -/
def ApiCall.exec : ApiCall C → LogState C W → LogState C W
  | .setLockHandler handler userdata, s => adcLogSetLockHandler handler userdata s
  | .setLevel level, s => adcLogSetLevel level s
  | .addCallback handler userdata level, s =>
      (adcLogAddCallback env handler userdata level s).2
  | .addFp fp level, s => (adcLogAddFp env fp level s).2

/-- The state after a sequence of calls. -/
def configure (calls : List (ApiCall C)) (s : LogState C W) : LogState C W :=
  calls.foldl (fun s call => call.exec env s) s

/-! ## Logging -/

/-- `init_msg` -/
def initMsg (msg : AdcLogMsg C) (userdata : Option C.Ptr) (world : W) : AdcLogMsg C :=
  { msg with
    time := if msg.time.isNone then env.localtime world else msg.time
    userdata := userdata }

/-- `va_start` -/
def vaStart (args : C.Args) (msg : AdcLogMsg C) : AdcLogMsg C := { msg with args := some args }

/-- `va_end` -/
def vaEnd (msg : AdcLogMsg C) : AdcLogMsg C := { msg with args := none }

/-- `lock` and `unlock` -/
def callLockHandler (lock : Bool) (s : LogState C W) : LogState C W :=
  match s.logger.lockHandler with
  | some handler =>
      { s with world := env.lockCall handler lock s.logger.userdata s.world }
  | none => s

/-- The world after what a callback writes. -/
def LogEnv.write (ops : Option (List (StreamOp C))) (world : W) : Option W :=
  match ops with
  | some ops => some (ops.foldl (fun world op => env.stream op world) world)
  | none => env.undefined world

/-- A call of a handler; `vfprintf` uses the arguments up. -/
def Handler.call (msg : AdcLogMsg C) (logger : Logger C) (world : W) :
    Handler C → Option (HandlerEffect C W)
  | .file =>
      (env.write (fileCallback env.vfprintf msg) world).map fun world =>
        ⟨{ msg with args := none }, world, []⟩
  | .client h => some (env.call h msg logger world)

/-- A call of a handler, with the message as it gets it. -/
structure HandlerCall (C : ClientTypes) where
  handler : Handler C
  msg : AdcLogMsg C

/-- The state of the dispatch loop, the calls of handlers so far, and what these
handlers called. -/
structure DispatchState (C : ClientTypes) (W : Type) where
  i : Nat
  msg : AdcLogMsg C
  state : LogState C W
  delivered : List (HandlerCall C)
  requests : List (ApiCall C)

/-- The condition of the dispatch loop. -/
def dispatchCond (s : DispatchState C W) : Bool := s.i < s.state.logger.numCallbacks

/-- The body of the dispatch loop. -/
def dispatchBody (level : Int) (args : C.Args) (s : DispatchState C W) :
    Option (DispatchState C W) :=
  let cb := s.state.logger.callbacks s.i
  let state := { s.state with slots := s.state.slots ++ [s.i] }
  match cb.handler with
  | some handler =>
      if level ≥ cb.level then
        let msg := vaStart args (initMsg env s.msg cb.userdata state.world)
        (handler.call env msg state.logger state.world).map fun effect =>
          { i := s.i + 1
            msg := vaEnd effect.msg
            state := configure env effect.calls { state with world := effect.world }
            delivered := s.delivered ++ [⟨handler, msg⟩]
            requests := s.requests ++ effect.calls }
      else some { s with i := s.i + 1, state := state }
  | none => some { s with i := s.i + 1, state := state }

/-- `adc__log` up to its loop -/
def adcLogStart (level : Int) (file : Str) (line : Int) (fmt : Str) (args : C.Args)
    (s : LogState C W) : Option (DispatchState C W) :=
  let msg : AdcLogMsg C := ⟨some fmt, some file, line, level, none, none, none⟩
  let s := callLockHandler env true s
  if level ≥ s.logger.level then
    let msg := vaStart args (initMsg env msg (some env.stderr) s.world)
    (env.write (stderrCallback env.vfprintf msg) s.world).map fun world =>
      ⟨0, vaEnd msg, { s with world := world }, [], []⟩
  else some ⟨0, msg, s, [], []⟩

/-- `adc__log` from its loop on; the loop can test its condition once more than the table
has slots. -/
def adcLogLoop (level : Int) (args : C.Args) (s : DispatchState C W) :
    Option (DispatchState C W) :=
  (Loops.whileChecked dispatchCond (dispatchBody env level args) (env.adcLogMaxCallbacks + 1)
    s).map fun t => { t with state := callLockHandler env false t.state }

/-- `adc__log` -/
def adcLog (level : Int) (file : Str) (line : Int) (fmt : Str) (args : C.Args)
    (s : LogState C W) : Option (DispatchState C W) :=
  (adcLogStart env level file line fmt args s).bind (adcLogLoop env level args)

end AdcLog
end AdcLibs
