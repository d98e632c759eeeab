import AdcLibs.Library.BoundedTable
import AdcLibs.Library.GrowingScan
import AdcLibs.Log.Model

/-!
# Dispatch

The dispatch loop tests its index against a number of callbacks that the handlers can
raise.  It is a scan of a table that only grows and has a bound: it ends, and the
handlers it has called are those of the final table that are due at the level of the
message, whatever the handlers did to the message and to the logger.  It comes to its end
unless a stream is due and gets a message that it cannot read.
-/

namespace AdcLibs
namespace AdcLog

open Argp
open BoundedTable
open GrowingScan
open Loops
open Runs

variable {C : ClientTypes} {W : Type} {env : LogEnv C W}

/-! ## The table -/

/-- The registered callbacks, in the order of their registration. -/
def Logger.table (logger : Logger C) : List (AdcLogCallback C) :=
  (List.range logger.numCallbacks).map logger.callbacks

@[simp] theorem length_table (logger : Logger C) :
    logger.table.length = logger.numCallbacks := by
  rw [Logger.table, List.length_map, List.length_range]

theorem getElem?_table {logger : Logger C} {i : Nat} (h : i < logger.numCallbacks) :
    logger.table[i]? = some (logger.callbacks i) := by
  rw [Logger.table, List.getElem?_map, List.getElem?_range h, Option.map_some]

/-- The callback that a call registers. -/
def ApiCall.callback : ApiCall C → Option (AdcLogCallback C)
  | .addCallback handler userdata level => some ⟨handler, userdata, level⟩
  | .addFp fp level => some ⟨some .file, fp, level⟩
  | _ => none

/-- The table fits, and so do the slots that were read or written. -/
structure WellFormed (env : LogEnv C W) (s : LogState C W) : Prop where
  fits : s.logger.numCallbacks ≤ env.adcLogMaxCallbacks
  slots_lt : ∀ k ∈ s.slots, k < env.adcLogMaxCallbacks

theorem wellFormed_init (env : LogEnv C W) (world : W) : WellFormed env (initState world) :=
  ⟨Nat.zero_le _, fun _ hk => absurd hk List.not_mem_nil⟩

/-- A callback is added behind the others if there is room. -/
theorem addCallback_table (handler : Option (Handler C)) (userdata : Option C.Ptr) (level : Int)
    (s : LogState C W) :
    (adcLogAddCallback env handler userdata level s).2.logger.table =
      add env.adcLogMaxCallbacks s.logger.table ⟨handler, userdata, level⟩ := by
  simp only [adcLogAddCallback, add, length_table]
  split
  · rfl
  · simp only [Logger.table, List.range_succ, List.map_append, List.map_singleton, if_true]
    congr 1
    refine List.map_congr_left fun k hk => if_neg ?_
    exact Nat.ne_of_lt (List.mem_range.mp hk)

theorem addCallback_wellFormed {s : LogState C W} (h : WellFormed env s)
    (handler : Option (Handler C)) (userdata : Option C.Ptr) (level : Int) :
    WellFormed env (adcLogAddCallback env handler userdata level s).2 := by
  simp only [adcLogAddCallback]
  split
  · exact h
  · next hroom =>
      have hlt : s.logger.numCallbacks < env.adcLogMaxCallbacks := Nat.lt_of_not_le hroom
      exact ⟨hlt, List.forall_mem_append.mpr
        ⟨h.slots_lt, List.forall_mem_singleton.mpr hlt⟩⟩

/-- A full table stays as it is. -/
theorem addCallback_rejects {s : LogState C W}
    (h : s.logger.table.length = env.adcLogMaxCallbacks) (handler : Option (Handler C))
    (userdata : Option C.Ptr) (level : Int) :
    adcLogAddCallback env handler userdata level s = (-1, s) := by
  rw [length_table] at h
  exact if_pos (Nat.le_of_eq h.symm)

/-- A call adds its callback, if it has one. -/
theorem exec_table (call : ApiCall C) (s : LogState C W) :
    (call.exec env s).logger.table =
      call.callback.toList.foldl (add env.adcLogMaxCallbacks) s.logger.table := by
  cases call with
  | setLockHandler handler userdata | setLevel level => rfl
  | addCallback handler userdata level => exact addCallback_table _ _ _ _
  | addFp fp level => exact addCallback_table _ _ _ _

theorem exec_wellFormed {s : LogState C W} (h : WellFormed env s) (call : ApiCall C) :
    WellFormed env (call.exec env s) := by
  cases call with
  | setLockHandler handler userdata | setLevel level => exact ⟨h.fits, h.slots_lt⟩
  | addCallback handler userdata level => exact addCallback_wellFormed h _ _ _
  | addFp fp level => exact addCallback_wellFormed h _ _ _

theorem configure_wellFormed {s : LogState C W} (h : WellFormed env s)
    (calls : List (ApiCall C)) : WellFormed env (configure env calls s) := by
  induction calls generalizing s with
  | nil => exact h
  | cons call calls ih => exact ih (exec_wellFormed h call)

/-- The callbacks of a sequence of calls are added in order. -/
theorem configure_table (calls : List (ApiCall C)) (s : LogState C W) :
    (configure env calls s).logger.table =
      (calls.filterMap ApiCall.callback).foldl (add env.adcLogMaxCallbacks)
        s.logger.table := by
  induction calls generalizing s with
  | nil => rfl
  | cons call calls ih =>
      change (configure env calls (call.exec env s)).logger.table = _
      rw [ih, exec_table]
      cases hcall : call.callback with
      | none => rw [List.filterMap_cons_none hcall, Option.toList_none, List.foldl_nil]
      | some cb =>
          rw [List.filterMap_cons_some hcall, Option.toList_some, List.foldl_cons,
            List.foldl_cons, List.foldl_nil]

/-- Adding a callback leaves the world as it is, and does to the logger what it does
whatever the slots are; so does every call. -/
theorem addCallback_frame (handler : Option (Handler C)) (userdata : Option C.Ptr) (level : Int)
    (s : LogState C W) (slots : List Nat) :
    (adcLogAddCallback env handler userdata level s).2.world = s.world ∧
      (adcLogAddCallback env handler userdata level { s with slots := slots }).2.logger =
        (adcLogAddCallback env handler userdata level s).2.logger := by
  simp only [adcLogAddCallback]
  split
  · exact ⟨rfl, rfl⟩
  · exact ⟨rfl, rfl⟩

theorem exec_world (call : ApiCall C) (s : LogState C W) :
    (call.exec env s).world = s.world := by
  cases call with
  | setLockHandler handler userdata | setLevel level => rfl
  | addCallback handler userdata level => exact (addCallback_frame _ _ _ s []).1
  | addFp fp level => exact (addCallback_frame _ _ _ s []).1

theorem exec_logger (call : ApiCall C) (s : LogState C W) (slots : List Nat) :
    (call.exec env { s with slots := slots }).logger = (call.exec env s).logger := by
  cases call with
  | setLockHandler handler userdata | setLevel level => rfl
  | addCallback handler userdata level => exact (addCallback_frame _ _ _ s slots).2
  | addFp fp level => exact (addCallback_frame _ _ _ s slots).2

theorem configure_world (calls : List (ApiCall C)) (s : LogState C W) :
    (configure env calls s).world = s.world := by
  induction calls generalizing s with
  | nil => rfl
  | cons call calls ih => exact (ih (call.exec env s)).trans (exec_world call s)

theorem configure_logger (calls : List (ApiCall C)) (s : LogState C W) (slots : List Nat) :
    (configure env calls { s with slots := slots }).logger = (configure env calls s).logger := by
  induction calls generalizing s slots with
  | nil => rfl
  | cons call calls ih =>
      have hsame : call.exec env { s with slots := slots } =
          { call.exec env s with slots := (call.exec env { s with slots := slots }).slots } :=
        LogState.ext (exec_logger call s slots)
          ((exec_world call { s with slots := slots }).trans (exec_world call s).symm) rfl
      change (configure env calls (call.exec env { s with slots := slots })).logger = _
      rw [hsame]
      exact ih (call.exec env s) _

/-! ## The rounds of the loop -/

/-- The handler of an entry if it is due. -/
def AdcLogCallback.dueHandler (level : Int) (cb : AdcLogCallback C) : Option (Handler C) :=
  if level ≥ cb.level then cb.handler else none

/-- The entry that the loop is at. -/
def DispatchState.entry (s : DispatchState C W) : AdcLogCallback C :=
  s.state.logger.callbacks s.i

/-- The message as the handler of the entry gets it. -/
def DispatchState.handed (env : LogEnv C W) (args : C.Args) (s : DispatchState C W) :
    AdcLogMsg C :=
  vaStart args (initMsg env s.msg s.entry.userdata s.state.world)

/-- A round that reaches no due entry only moves on. -/
theorem dispatchBody_idle (env : LogEnv C W) {level : Int} (args : C.Args)
    {s : DispatchState C W} (h : s.entry.dueHandler level = none) :
    dispatchBody env level args s =
      some { s with i := s.i + 1, state := { s.state with slots := s.state.slots ++ [s.i] } } := by
  rw [AdcLogCallback.dueHandler, DispatchState.entry] at h
  rw [dispatchBody]
  split
  · next handler hhandler =>
      refine if_neg fun hlevel => ?_
      rw [if_pos hlevel, hhandler] at h
      cases h
  · rfl

/-- A round that reaches a due entry calls its handler. -/
theorem dispatchBody_due (env : LogEnv C W) {level : Int} (args : C.Args)
    {s : DispatchState C W} {handler : Handler C}
    (h : s.entry.dueHandler level = some handler) :
    dispatchBody env level args s =
      (handler.call env (s.handed env args) s.state.logger s.state.world).map fun effect =>
        { i := s.i + 1
          msg := vaEnd effect.msg
          state := configure env effect.calls
            { s.state with slots := s.state.slots ++ [s.i], world := effect.world }
          delivered := s.delivered ++ [⟨handler, s.handed env args⟩]
          requests := s.requests ++ effect.calls } := by
  rw [AdcLogCallback.dueHandler, DispatchState.entry] at h
  split at h
  · next hlevel =>
      simp only [dispatchBody, h, if_pos hlevel]
      rfl
  · cases h

/-- What a round does: it moves on, and calls the handler of its entry if that is due. -/
theorem dispatchBody_cases {level : Int} {args : C.Args} {s s' : DispatchState C W}
    (h : dispatchBody env level args s = some s') :
    (s.entry.dueHandler level = none ∧
      s' = { s with i := s.i + 1, state := { s.state with slots := s.state.slots ++ [s.i] } }) ∨
    ∃ handler effect, s.entry.dueHandler level = some handler ∧
      handler.call env (s.handed env args) s.state.logger s.state.world = some effect ∧
      s' =
        { i := s.i + 1
          msg := vaEnd effect.msg
          state := configure env effect.calls
            { s.state with slots := s.state.slots ++ [s.i], world := effect.world }
          delivered := s.delivered ++ [⟨handler, s.handed env args⟩]
          requests := s.requests ++ effect.calls } := by
  cases hdue : s.entry.dueHandler level with
  | none =>
      rw [dispatchBody_idle env args hdue] at h
      exact .inl ⟨rfl, (Option.some.inj h).symm⟩
  | some handler =>
      rw [dispatchBody_due env args hdue] at h
      obtain ⟨effect, heffect, rfl⟩ := Option.map_eq_some_iff.mp h
      exact .inr ⟨handler, effect, rfl, heffect, rfl⟩

/-- A slot of the table is read. -/
theorem touch_wellFormed {s : LogState C W} (h : WellFormed env s) {i : Nat}
    (hi : i < s.logger.numCallbacks) (world : W) :
    WellFormed env { s with world := world, slots := s.slots ++ [i] } :=
  ⟨h.fits, List.forall_mem_append.mpr
    ⟨h.slots_lt, List.forall_mem_singleton.mpr (Nat.lt_of_lt_of_le hi h.fits)⟩⟩

theorem dispatchBody_wellFormed {level : Int} {args : C.Args} {s s' : DispatchState C W}
    (hwf : WellFormed env s.state) (hcond : dispatchCond s = true)
    (h : dispatchBody env level args s = some s') : WellFormed env s'.state := by
  have hlt : s.i < s.state.logger.numCallbacks := of_decide_eq_true hcond
  obtain ⟨-, rfl⟩ | ⟨handler, effect, -, -, rfl⟩ := dispatchBody_cases h
  · exact touch_wellFormed hwf hlt s.state.world
  · exact configure_wellFormed (touch_wellFormed hwf hlt effect.world) _

/-- The handlers that a round calls add their callbacks to the table. -/
theorem dispatchBody_table {level : Int} {args : C.Args} {s s' : DispatchState C W}
    (h : dispatchBody env level args s = some s') :
    ∃ calls, s'.requests = s.requests ++ calls ∧
      s'.state.logger.table =
        (calls.filterMap ApiCall.callback).foldl (add env.adcLogMaxCallbacks)
          s.state.logger.table := by
  obtain ⟨-, rfl⟩ | ⟨handler, effect, -, -, rfl⟩ := dispatchBody_cases h
  · exact ⟨[], (List.append_nil _).symm, rfl⟩
  · exact ⟨effect.calls, rfl, configure_table _ _⟩

/-- The loop is a scan of the table of callbacks. -/
theorem dispatch_scan (env : LogEnv C W) (level : Int) (args : C.Args) :
    Scan dispatchCond (dispatchBody env level args) DispatchState.i
      fun s => s.state.logger.table := by
  refine ⟨fun s => ?_, fun s s' h => ?_, fun s s' h => ?_⟩
  · rw [dispatchCond, decide_eq_true_iff, length_table]
  · obtain ⟨-, rfl⟩ | ⟨handler, effect, -, -, rfl⟩ := dispatchBody_cases h
    · rfl
    · rfl
  · obtain ⟨calls, -, htable⟩ := dispatchBody_table h
    rw [htable]
    exact prefix_foldl_add _ _

/-! ## Deliveries -/

/-- The delivery to a callback that is due at a level. -/
def AdcLogCallback.due (level : Int) (cb : AdcLogCallback C) :
    List (Handler C × Option C.Ptr) :=
  ((cb.dueHandler level).map (·, cb.userdata)).toList

/-- The handlers that a loop has called, with the userdata they got. -/
def DispatchState.deliveries (s : DispatchState C W) : List (Handler C × Option C.Ptr) :=
  s.delivered.map fun c => (c.handler, c.msg.userdata)

theorem dispatchBody_deliveries {level : Int} {args : C.Args} {s s' : DispatchState C W}
    (h : dispatchBody env level args s = some s') :
    s'.deliveries = s.deliveries ++ s.entry.due level := by
  rw [AdcLogCallback.due]
  obtain ⟨hidle, rfl⟩ | ⟨handler, effect, hdue, -, rfl⟩ := dispatchBody_cases h
  · rw [hidle, Option.map_none, Option.toList_none, List.append_nil]
    rfl
  · rw [hdue, Option.map_some, Option.toList_some]
    exact List.map_append

/-- What the handlers of a dispatch find, with all that was called before. -/
@[ext]
structure Scene (C : ClientTypes) (W : Type) where
  msg : AdcLogMsg C
  logger : Logger C
  world : W
  requests : List (ApiCall C)

def DispatchState.scene (s : DispatchState C W) : Scene C W :=
  ⟨s.msg, s.state.logger, s.state.world, s.requests⟩

/-- A handler is called: it gets the message as it was left, with its own userdata and
fresh arguments, and leaves what it does. -/
def Delivers (env : LogEnv C W) (args : C.Args) (s : Scene C W) (c : HandlerCall C)
    (s' : Scene C W) : Prop :=
  c.msg = vaStart args (initMsg env s.msg c.msg.userdata s.world) ∧
    ∃ effect, c.handler.call env c.msg s.logger s.world = some effect ∧
      s' = ⟨vaEnd effect.msg, (configure env effect.calls ⟨s.logger, effect.world, []⟩).logger,
        effect.world, s.requests ++ effect.calls⟩

/-- A round delivers its entry, or nothing. -/
theorem dispatchBody_delivers {level : Int} {args : C.Args} {s s' : DispatchState C W}
    (h : dispatchBody env level args s = some s') :
    ∃ calls, s'.delivered = s.delivered ++ calls ∧
      Run (Delivers env args) s.scene calls s'.scene := by
  obtain ⟨-, rfl⟩ | ⟨handler, effect, -, hcall, rfl⟩ := dispatchBody_cases h
  · exact ⟨[], (List.append_nil _).symm, .nil _⟩
  · refine ⟨[⟨handler, s.handed env args⟩], rfl, .cons ⟨rfl, effect, hcall, ?_⟩ (.nil _)⟩
    exact Scene.ext rfl
      (configure_logger effect.calls ⟨s.state.logger, effect.world, []⟩ (s.state.slots ++ [s.i]))
      (configure_world effect.calls _) rfl

/-- What a log call does that finds the state `before`: no slot behind the table is read
or written, the table has the callbacks that the handlers registered behind the earlier
ones, as far as there is room, those of its callbacks that are due are called, and what the
message, the logger and the world are when the loop is through is what these calls left. -/
structure Dispatched (env : LogEnv C W) (level : Int) (file : Str) (line : Int) (fmt : Str)
    (args : C.Args) (before : LogState C W) (t : DispatchState C W) : Prop where
  slots_lt : ∀ k ∈ t.state.slots, k < env.adcLogMaxCallbacks
  table_eq : t.state.logger.table =
    (before.logger.table ++ t.requests.filterMap ApiCall.callback).take env.adcLogMaxCallbacks
  deliveries_eq : t.deliveries = t.state.logger.table.flatMap (AdcLogCallback.due level)
  delivers : ∃ start world,
    adcLogStart env level file line fmt args before = some start ∧
      Run (Delivers env args) start.scene t.delivered ⟨t.msg, t.state.logger, world, t.requests⟩ ∧
      t.state = callLockHandler env false { t.state with world := world }

/-- What the rounds of the loop keep. -/
structure Dispatching (env : LogEnv C W) (args : C.Args) (start s : DispatchState C W) : Prop where
  wellFormed : WellFormed env s.state
  table_eq : s.state.logger.table =
    (s.requests.filterMap ApiCall.callback).foldl (add env.adcLogMaxCallbacks)
      start.state.logger.table
  delivers : Run (Delivers env args) start.scene s.delivered s.scene

theorem Dispatching.round {level : Int} {args : C.Args} {start s s' : DispatchState C W}
    (hs : Dispatching env args start s) (hcond : dispatchCond s = true)
    (h : dispatchBody env level args s = some s') : Dispatching env args start s' := by
  obtain ⟨requests, hrequests, htable⟩ := dispatchBody_table h
  obtain ⟨calls, hdelivered, hrun⟩ := dispatchBody_delivers h
  refine ⟨dispatchBody_wellFormed hs.wellFormed hcond h, ?_, ?_⟩
  · rw [htable, hrequests, hs.table_eq, List.filterMap_append, List.foldl_append]
  · rw [hdelivered]
    exact run_append_iff.mpr ⟨_, hs.delivers, hrun⟩

/-! ## Log calls -/

theorem callLockHandler_logger (env : LogEnv C W) (lock : Bool) (s : LogState C W) :
    (callLockHandler env lock s).logger = s.logger ∧
      (callLockHandler env lock s).slots = s.slots := by
  rw [callLockHandler]
  split
  · exact ⟨rfl, rfl⟩
  · exact ⟨rfl, rfl⟩

theorem callLockHandler_wellFormed {s : LogState C W} (h : WellFormed env s) (lock : Bool) :
    WellFormed env (callLockHandler env lock s) := by
  obtain ⟨hlogger, hslots⟩ := callLockHandler_logger env lock s
  exact ⟨by rw [hlogger]; exact h.fits, by rw [hslots]; exact h.slots_lt⟩

/-- The message of a log call, as `stderr_callback` gets it. -/
def ownMessage (env : LogEnv C W) (level : Int) (file : Str) (line : Int) (fmt : Str)
    (args : C.Args) (s : LogState C W) : AdcLogMsg C :=
  vaStart args (initMsg env ⟨some fmt, some file, line, level, none, none, none⟩
    (some env.stderr) (callLockHandler env true s).world)

/-- The loop starts at the first entry, with the logger as it was found. -/
theorem adcLogStart_cases {level : Int} {file : Str} {line : Int} {fmt : Str} {args : C.Args}
    {s : LogState C W} {u : DispatchState C W}
    (h : adcLogStart env level file line fmt args s = some u) :
    u.i = 0 ∧ u.delivered = [] ∧ u.requests = [] ∧ u.state.logger = s.logger ∧
      u.state.slots = s.slots := by
  obtain ⟨hlogger, hslots⟩ := callLockHandler_logger env true s
  simp only [adcLogStart] at h
  split at h
  · obtain ⟨world, -, rfl⟩ := Option.map_eq_some_iff.mp h
    exact ⟨rfl, rfl, rfl, hlogger, hslots⟩
  · obtain rfl := Option.some.inj h
    exact ⟨rfl, rfl, rfl, hlogger, hslots⟩

theorem adcLogStart_wellFormed {level : Int} {file : Str} {line : Int} {fmt : Str}
    {args : C.Args} {s : LogState C W} (hwf : WellFormed env s) {u : DispatchState C W}
    (h : adcLogStart env level file line fmt args s = some u) : WellFormed env u.state := by
  obtain ⟨-, -, -, hlogger, hslots⟩ := adcLogStart_cases h
  exact ⟨by rw [hlogger]; exact hwf.fits, by rw [hslots]; exact hwf.slots_lt⟩

/-- A log call that returns has dispatched its message. -/
theorem adcLog_dispatched {level : Int} {file : Str} {line : Int} {fmt : Str} {args : C.Args}
    {s : LogState C W} (hwf : WellFormed env s) {t : DispatchState C W}
    (h : adcLog env level file line fmt args s = some t) :
    Dispatched env level file line fmt args s t := by
  obtain ⟨start, hstart, hloop⟩ := Option.bind_eq_some_iff.mp h
  obtain ⟨u, hu, rfl⟩ := Option.map_eq_some_iff.mp hloop
  obtain ⟨hrounds, hend⟩ := rounds_of_whileChecked hu
  obtain ⟨hindex, hdelivered, hrequests, hlogger, -⟩ := adcLogStart_cases hstart
  obtain ⟨hu, htable, hrun⟩ := hrounds.invariant (I := Dispatching env args start)
    (fun _ _ hs hcond hbody => hs.round hcond hbody)
    ⟨adcLogStart_wellFormed hwf hstart, by rw [hrequests]; rfl, by rw [hdelivered]; exact .nil _⟩
  obtain ⟨hunlocked, hunslots⟩ := callLockHandler_logger env false u.state
  refine ⟨?_, ?_, ?_, start, u.state.world, hstart, ?_, ?_⟩
  · rw [hunslots]
    exact hu.slots_lt
  · rw [hunlocked, htable, hlogger]
    exact foldl_add (by rw [length_table]; exact hwf.fits) _
  · have hstep (v : DispatchState C W) (cb : AdcLogCallback C) (v' : DispatchState C W)
        (hround : Handles (dispatchBody env level args) DispatchState.i
          (fun s => s.state.logger.table) v cb v') :
        v'.deliveries = v.deliveries ++ cb.due level := by
      obtain ⟨hcb, hbody⟩ := hround
      have hlt : v.i < v.state.logger.numCallbacks := by
        rw [← length_table]
        exact (List.getElem?_eq_some_iff.mp hcb).1
      rw [getElem?_table hlt] at hcb
      rw [dispatchBody_deliveries hbody, DispatchState.entry, Option.some.inj hcb]
    have hscan := (dispatch_scan env level args).run hrounds hend (by rw [hindex]; omega)
    have hnone : start.deliveries = [] := by rw [DispatchState.deliveries, hdelivered]; rfl
    have houtput := hscan.output DispatchState.deliveries hstep
    rw [hindex, List.drop_zero, hnone, List.nil_append] at houtput
    rw [hunlocked]
    exact houtput
  · rw [hunlocked]
    exact hrun
  · have hsame : { callLockHandler env false u.state with world := u.state.world } = u.state :=
      LogState.ext hunlocked rfl hunslots
    exact congrArg (callLockHandler env false) hsame.symm

/-! ## Reads -/

/-- The logger, with what is left by a read of something that is not there. -/
def LogEnv.leaving (env : LogEnv C W) (undefined : W → Option W) : LogEnv C W :=
  { env with undefined := undefined }

/-- A program does not come back from a read of something that is not there. -/
abbrev LogEnv.strict (env : LogEnv C W) : LogEnv C W := env.leaving fun _ => none

theorem WellFormed.leaving {s : LogState C W} (h : WellFormed env s)
    (undefined : W → Option W) : WellFormed (env.leaving undefined) s :=
  ⟨h.fits, h.slots_lt⟩

theorem write_strict_mono {ops : Option (List (StreamOp C))} {world world' : W}
    (h : env.strict.write ops world = some world') (undefined : W → Option W) :
    (env.leaving undefined).write ops world = some world' := by
  cases ops with
  | none => cases h
  | some ops => exact h

theorem write_strict_ne_none_iff (ops : Option (List (StreamOp C))) (world : W) :
    env.strict.write ops world ≠ none ↔ ops ≠ none := by
  cases ops with
  | none => exact iff_of_false (fun h => h rfl) fun h => h rfl
  | some ops => exact iff_of_true (Option.some_ne_none _) (Option.some_ne_none _)

theorem call_strict_mono {handler : Handler C} {msg : AdcLogMsg C} {logger : Logger C}
    {world : W} {effect : HandlerEffect C W}
    (h : handler.call env.strict msg logger world = some effect) (undefined : W → Option W) :
    handler.call (env.leaving undefined) msg logger world = some effect := by
  cases handler with
  | client client => exact h
  | file =>
      obtain ⟨world', hwrite, rfl⟩ := Option.map_eq_some_iff.mp h
      exact Option.map_eq_some_iff.mpr ⟨world', write_strict_mono hwrite undefined, rfl⟩

theorem dispatchBody_strict_mono {level : Int} {args : C.Args} {s s' : DispatchState C W}
    (h : dispatchBody env.strict level args s = some s') (undefined : W → Option W) :
    dispatchBody (env.leaving undefined) level args s = some s' := by
  obtain ⟨hidle, rfl⟩ | ⟨handler, effect, hdue, hcall, rfl⟩ := dispatchBody_cases h
  · exact dispatchBody_idle _ args hidle
  · rw [dispatchBody_due _ args hdue]
    exact Option.map_eq_some_iff.mpr ⟨effect, call_strict_mono hcall undefined, rfl⟩

/-- A log call that reads nothing that is not there returns the same whatever such a read
leaves. -/
theorem adcLog_strict_mono {level : Int} {file : Str} {line : Int} {fmt : Str} {args : C.Args}
    {s : LogState C W} {t : DispatchState C W}
    (h : adcLog env.strict level file line fmt args s = some t) (undefined : W → Option W) :
    adcLog (env.leaving undefined) level file line fmt args s = some t := by
  obtain ⟨start, hstart, hloop⟩ := Option.bind_eq_some_iff.mp h
  obtain ⟨u, hu, rfl⟩ := Option.map_eq_some_iff.mp hloop
  refine Option.bind_eq_some_iff.mpr ⟨start, ?_, Option.map_eq_some_iff.mpr ⟨u, ?_, rfl⟩⟩
  · simp only [adcLogStart] at hstart ⊢
    split at hstart
    · next hlevel =>
        obtain ⟨world, hwrite, rfl⟩ := Option.map_eq_some_iff.mp hstart
        exact (if_pos hlevel).trans
          (Option.map_eq_some_iff.mpr ⟨world, write_strict_mono hwrite undefined, rfl⟩)
    · next hlevel => exact (if_neg hlevel).trans hstart
  · exact whileChecked_mono (fun _ _ hbody => dispatchBody_strict_mono hbody undefined) hu

/-- What is due can be read: the message by `stderr_callback`, and before every round of
the loop whose entry is a due stream the message as the handlers before have left it. -/
structure StreamsReadable (env : LogEnv C W) (level : Int) (file : Str) (line : Int) (fmt : Str)
    (args : C.Args) (s : LogState C W) : Prop where
  own : level ≥ s.logger.level →
    (ownMessage env level file line fmt args s).Readable env.vfprintf
  streams : ∀ start, adcLogStart env.strict level file line fmt args s = some start →
    ∀ u, Rounds dispatchCond (dispatchBody env.strict level args) start u →
      dispatchCond u = true → u.entry.dueHandler level = some .file →
        (u.handed env args).Readable env.vfprintf

theorem adcLogStart_strict_iff {level : Int} {file : Str} {line : Int} {fmt : Str}
    {args : C.Args} {s : LogState C W} :
    adcLogStart env.strict level file line fmt args s ≠ none ↔
      (level ≥ s.logger.level →
        (ownMessage env level file line fmt args s).Readable env.vfprintf) := by
  rw [← (callLockHandler_logger env.strict true s).1]
  simp only [adcLogStart]
  split
  · next hlevel =>
      rw [ne_eq, Option.map_eq_none_iff, ← ne_eq, write_strict_ne_none_iff,
        stderrCallback_ne_none_iff]
      exact ⟨fun h _ => h, fun h => h hlevel⟩
  · next hlevel => exact iff_of_true (Option.some_ne_none _) fun h => absurd h hlevel

/-- A round fails where its entry is a due stream that cannot read the message. -/
theorem dispatchBody_strict_iff {level : Int} {args : C.Args} {u : DispatchState C W} :
    dispatchBody env.strict level args u ≠ none ↔
      (u.entry.dueHandler level = some .file → (u.handed env args).Readable env.vfprintf) := by
  cases hdue : u.entry.dueHandler level with
  | none =>
      rw [dispatchBody_idle _ args hdue]
      exact iff_of_true (Option.some_ne_none _) nofun
  | some handler =>
      rw [dispatchBody_due _ args hdue, ne_eq, Option.map_eq_none_iff]
      cases handler with
      | client client => exact iff_of_true (Option.some_ne_none _) nofun
      | file =>
          rw [Handler.call, Option.map_eq_none_iff, ← ne_eq, write_strict_ne_none_iff,
            fileCallback_ne_none_iff]
          exact ⟨fun h _ => h, fun h => h rfl⟩

/-- A log call returns if and only if all that is due can be read. -/
theorem adcLog_strict_iff {level : Int} {file : Str} {line : Int} {fmt : Str} {args : C.Args}
    {s : LogState C W} (hwf : WellFormed env s) :
    (∃ t, adcLog env.strict level file line fmt args s = some t) ↔
      StreamsReadable env level file line fmt args s := by
  constructor
  · rintro ⟨t, ht⟩
    obtain ⟨start, hstart, hloop⟩ := Option.bind_eq_some_iff.mp ht
    obtain ⟨u, hu, -⟩ := Option.map_eq_some_iff.mp hloop
    refine ⟨adcLogStart_strict_iff.mp (hstart ▸ Option.some_ne_none start), ?_⟩
    rintro start' hstart' v hrounds hcond
    obtain rfl := Option.some.inj (hstart.symm.trans hstart')
    obtain ⟨v', hv'⟩ := hrounds.exists_next hu hcond
    exact dispatchBody_strict_iff.mp (hv' ▸ Option.some_ne_none v')
  · rintro ⟨hown, hstreams⟩
    obtain ⟨start, hstart⟩ := Option.ne_none_iff_exists'.mp (adcLogStart_strict_iff.mpr hown)
    have hindex := (adcLogStart_cases hstart).1
    have hround (v : DispatchState C W)
        (hv : Rounds dispatchCond (dispatchBody env.strict level args) start v ∧
          WellFormed env.strict v.state) (hcond : dispatchCond v = true) :
        ∃ v', dispatchBody env.strict level args v = some v' ∧
          Rounds dispatchCond (dispatchBody env.strict level args) start v' ∧
            WellFormed env.strict v'.state := by
      obtain ⟨hrounds, hv⟩ := hv
      obtain ⟨v', hbody⟩ := Option.ne_none_iff_exists'.mp
        (dispatchBody_strict_iff.mpr (hstreams start hstart v hrounds hcond))
      exact ⟨v', hbody, hrounds.tail hcond hbody, dispatchBody_wellFormed hv hcond hbody⟩
    obtain ⟨u, hu, -⟩ := (dispatch_scan env.strict level args).ends hround
      (fun v hv => by rw [length_table]; exact hv.2.fits)
      ⟨.refl start, adcLogStart_wellFormed (hwf.leaving _) hstart⟩
    rw [hindex] at hu
    exact ⟨_, Option.bind_eq_some_iff.mpr
      ⟨start, hstart, Option.map_eq_some_iff.mpr ⟨u, hu, rfl⟩⟩⟩

/--
The callbacks that were registered are in the table as far as it has room, and a full
table rejects what is added to it.  A log call returns, whatever is left by a read of
something that is not there, and has then called each handler of the table that is due at
its level once, in the order of registration and with its own userdata, those registered by
the handlers on the way included, and touched no slot behind the table: this is so if and
only if all that is due can be read.
-/
theorem dispatch_exactly_once_iff (env : LogEnv C W) (config : List (ApiCall C)) (world : W)
    (level : AdcLogLevel) (file : Str) (line : Int) (fmt : Str) (args : C.Args) :
    (configure env config (initState world)).logger.table =
        (config.filterMap ApiCall.callback).take env.adcLogMaxCallbacks ∧
      ((∀ undefined, ∃ t,
          adcLog (env.leaving undefined) level.code file line fmt args
              (configure env config (initState world)) = some t ∧
            Dispatched (env.leaving undefined) level.code file line fmt args
              (configure env config (initState world)) t) ↔
        StreamsReadable env level.code file line fmt args
          (configure env config (initState world))) ∧
      ∀ s : LogState C W, s.logger.table.length = env.adcLogMaxCallbacks →
        (∀ handler userdata own, adcLogAddCallback env handler userdata own s = (-1, s)) ∧
          ∀ fp own, adcLogAddFp env fp own s = (-1, s) := by
  have hwf := configure_wellFormed (wellFormed_init env world) config
  refine ⟨?_, ?_, fun s hfull => ⟨addCallback_rejects hfull, fun fp own => ?_⟩⟩
  · rw [configure_table, foldl_add (by rw [length_table]; exact Nat.zero_le _)]
    rfl
  · rw [← adcLog_strict_iff hwf]
    constructor
    · intro h
      obtain ⟨t, ht, -⟩ := h fun _ => none
      exact ⟨t, ht⟩
    · rintro ⟨t, ht⟩ undefined
      have hreturns := adcLog_strict_mono ht undefined
      exact ⟨t, hreturns, adcLog_dispatched (hwf.leaving _) hreturns⟩
  · exact addCallback_rejects hfull _ fp own

/-- Client 1 writes to the message, raises the level and registers client 2, which leaves a
level that no table of levels has. -/
def testEnv : LogEnv ⟨Nat, Nat, Nat, Nat⟩ Nat where
  adcLogMaxCallbacks := 3
  stderr := 2
  localtime := fun world => some ⟨world, 30, 12, 1, 0, 124⟩
  vfprintf := fun fmt _ => some fmt
  stream := fun _ world => world + 1
  undefined := fun _ => none
  lockCall := fun _ _ _ world => world + 1
  call := fun client msg _ world =>
    if client = 1 then
      ⟨{ msg with level := 3, fmt := some "y".toList }, world + 1,
        [.setLevel 3, .addCallback (some (.client 2)) (some 7) 1]⟩
    else ⟨{ msg with level := 7 }, world + 1, []⟩

/-- Behind client 1 a stream gets the message that it left, and then the client that it
registered is called. -/
theorem dispatch_exactly_once_iff_served :
    ∃ t,
      adcLog testEnv 1 "a.c".toList 10 "x".toList 8
          (configure testEnv [.addCallback (some (.client 1)) (some 8) 1, .addFp (some 9) 1]
            (initState 0)) = some t ∧
        Dispatched testEnv 1 "a.c".toList 10 "x".toList 8
          (configure testEnv [.addCallback (some (.client 1)) (some 8) 1, .addFp (some 9) 1]
            (initState 0)) t ∧
        t.deliveries = [(.client 1, some 8), (.file, some 9), (.client 2, some 7)] ∧
        t.delivered.map (fun c => c.msg.level) = [1, 3, 3] := by
  have hreadable : StreamsReadable testEnv 1 "a.c".toList 10 "x".toList 8
      (configure testEnv [.addCallback (some (.client 1)) (some 8) 1, .addFp (some 9) 1]
        (initState 0)) := by
    refine ⟨fun _ => by decide, fun start hstart => ?_⟩
    obtain rfl := Option.some.inj hstart
    refine forall_rounds (fun _ hfile => by cases hfile) fun _ u hu => ?_
    obtain rfl := Option.some.inj hu
    refine forall_rounds (fun _ _ => by decide) fun _ u hu => ?_
    obtain rfl := Option.some.inj hu
    refine forall_rounds (fun _ hfile => by cases hfile) fun _ u hu => ?_
    obtain rfl := Option.some.inj hu
    exact forall_rounds (fun hcond => by cases hcond) fun hcond => by cases hcond
  obtain ⟨t, ht, hdispatched⟩ :=
    (dispatch_exactly_once_iff testEnv
      [.addCallback (some (.client 1)) (some 8) 1, .addFp (some 9) 1] 0 .info "a.c".toList 10
      "x".toList 8).2.1.mpr hreadable testEnv.undefined
  refine ⟨t, ht, hdispatched, ?_⟩
  obtain rfl := Option.some.inj ht
  exact ⟨rfl, rfl⟩

/-- A stream behind client 2 reads the table of levels past its end. -/
theorem dispatch_reads_past_levels :
    ¬ ∀ undefined, ∃ t,
      adcLog (testEnv.leaving undefined) 1 "a.c".toList 10 "x".toList 8
          (configure testEnv [.addCallback (some (.client 2)) none 0, .addFp (some 9) 0]
            (initState 0)) = some t ∧
        Dispatched (testEnv.leaving undefined) 1 "a.c".toList 10 "x".toList 8
          (configure testEnv [.addCallback (some (.client 2)) none 0, .addFp (some 9) 0]
            (initState 0)) t := by
  intro h
  obtain ⟨t, ht, -⟩ := h fun _ => none
  cases ht

end AdcLog
end AdcLibs
