import AdcLibs.Log.Dispatch

/-!
# What the logger writes

The logger run in a world of its own: a clock that moves on in every effect, and the
effects so far in their order.

* The text that `vfprintf` makes of a format and its arguments is a parameter, and so are
  the local time and the time that an effect takes.
* A client's handler reads the message, and leaves of it what it likes; it may configure
  the logger.  What it does may depend on the logger as its user sees it and on all effects
  before.  It does not log itself.
* An effect `fault` is a read of something that is not there.  The program goes on as if
  nothing had been written; nothing is meant to be said of what it does then.
-/

namespace AdcLibs
namespace AdcLog

open Argp

variable (C : ClientTypes)

/-- An effect of the logger. -/
inductive Effect
  | lockCall (handler : C.LockHandler) (lock : Bool) (userdata : Option C.Ptr)
  | stream (op : StreamOp C)
  | clientCall (h : C.Client) (msg : AdcLogMsg C)
  | fault

structure LogWorld where
  now : Nat
  effects : List (Effect C)

/-- The logger as its user sees it. -/
@[ext]
structure LoggerView where
  lockHandler : Option C.LockHandler
  userdata : Option C.Ptr
  level : Int
  table : List (AdcLogCallback C)

/-- What the program is run with. -/
structure Platform where
  adcLogMaxCallbacks : Nat
  stderr : C.Ptr
  localtime : Nat → Option Tm
  vfprintf : Str → C.Args → Option Str
  /-- The time after an effect that begins at some time. -/
  later : Effect C → Nat → Nat
  /-- What a client's handler leaves of the message. -/
  leaves : C.Client → AdcLogMsg C → LoggerView C → LogWorld C → AdcLogMsg C
  /-- What it configures. -/
  reaction : C.Client → AdcLogMsg C → LoggerView C → LogWorld C → List (ApiCall C)

variable {C} (P : Platform C)

/-- Effects that begin at the time `now` are over at this time. -/
def Platform.after (effects : List (Effect C)) (now : Nat) : Nat :=
  effects.foldl (fun now effect => P.later effect now) now

/-- The world after effects. -/
def LogWorld.emit (world : LogWorld C) (effects : List (Effect C)) : LogWorld C :=
  ⟨P.after effects world.now, world.effects ++ effects⟩

def Logger.view (logger : Logger C) : LoggerView C :=
  ⟨logger.lockHandler, logger.userdata, logger.level, logger.table⟩

/-- The logger, run in the world. -/
def streamEnv : LogEnv C (LogWorld C) where
  adcLogMaxCallbacks := P.adcLogMaxCallbacks
  stderr := P.stderr
  localtime := fun world => P.localtime world.now
  vfprintf := P.vfprintf
  stream := fun op world => world.emit P [.stream op]
  undefined := fun world => some (world.emit P [.fault])
  lockCall := fun handler lock userdata world => world.emit P [.lockCall handler lock userdata]
  call := fun h msg logger world =>
    ⟨P.leaves h msg logger.view world, world.emit P [.clientCall h msg],
      P.reaction h msg logger.view world⟩

/-! ## Runs -/

/-- What a program does with the logger. -/
inductive LogAction (C : ClientTypes)
  | configure (call : ApiCall C)
  | log (level : AdcLogLevel) (file : Str) (line : Int) (fmt : Str) (args : C.Args)

/-- The state after an action. -/
def LogAction.exec (s : LogState C (LogWorld C)) :
    LogAction C → Option (LogState C (LogWorld C))
  | .configure call => some (call.exec (streamEnv P) s)
  | .log level file line fmt args =>
      (adcLog (streamEnv P) level.code file line fmt args s).map DispatchState.state

/-- The state after a sequence of actions. -/
def execActions (actions : List (LogAction C)) (s : LogState C (LogWorld C)) :
    Option (LogState C (LogWorld C)) :=
  actions.foldlM (LogAction.exec P) s

/-! ## Effects -/

variable {P}

@[simp] theorem after_nil (now : Nat) : P.after [] now = now := rfl

theorem after_append (xs ys : List (Effect C)) (now : Nat) :
    P.after (xs ++ ys) now = P.after ys (P.after xs now) := List.foldl_append

@[simp] theorem emit_nil (world : LogWorld C) : world.emit P [] = world := by
  rw [LogWorld.emit, List.append_nil, after_nil]

@[simp] theorem emit_emit (world : LogWorld C) (xs ys : List (Effect C)) :
    (world.emit P xs).emit P ys = world.emit P (xs ++ ys) := by
  simp only [LogWorld.emit, after_append, List.append_assoc]

/-- The effects of what a callback writes. -/
def streamEffects : Option (List (StreamOp C)) → List (Effect C)
  | some ops => ops.map .stream
  | none => [.fault]

/-- What a callback writes is emitted, one write after another. -/
theorem write_streamEnv (ops : Option (List (StreamOp C))) (world : LogWorld C) :
    (streamEnv P).write ops world = some (world.emit P (streamEffects ops)) := by
  cases ops with
  | none => rfl
  | some ops =>
      refine congrArg some ?_
      induction ops generalizing world with
      | nil => exact (emit_nil world).symm
      | cons op ops ih =>
          rw [List.foldl_cons, ih]
          exact emit_emit world [.stream op] (streamEffects (some ops))

variable (P) in
/-- The effects of a call of a handler. -/
def Handler.effects (msg : AdcLogMsg C) : Handler C → List (Effect C)
  | .file => streamEffects (fileCallback P.vfprintf msg)
  | .client h => [.clientCall h msg]

variable (P) in
/-- What it leaves of the message. -/
def Handler.leaves (msg : AdcLogMsg C) (v : LoggerView C) (world : LogWorld C) :
    Handler C → AdcLogMsg C
  | .file => { msg with args := none }
  | .client h => P.leaves h msg v world

variable (P) in
/-- What it configures. -/
def Handler.reaction (msg : AdcLogMsg C) (v : LoggerView C) (world : LogWorld C) :
    Handler C → List (ApiCall C)
  | .file => []
  | .client h => P.reaction h msg v world

/-- A handler comes back from every call. -/
theorem call_streamEnv (handler : Handler C) (msg : AdcLogMsg C) (logger : Logger C)
    (world : LogWorld C) :
    handler.call (streamEnv P) msg logger world =
      some ⟨handler.leaves P msg logger.view world, world.emit P (handler.effects P msg),
        handler.reaction P msg logger.view world⟩ := by
  cases handler with
  | client h => rfl
  | file =>
      rw [Handler.call, write_streamEnv]
      rfl

end AdcLog
end AdcLibs
