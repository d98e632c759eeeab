import AdcLibs.Library.Runs
import AdcLibs.Log.Streams

/-!
# Traces of the logger

The logger as its user sees it is a lock handler, a level and a table.  A log call locks,
writes to `stderr`, serves the table entry by entry, those included that are registered
on the way, and unlocks; each callback reads the message as the one before has left it,
with its own userdata and fresh arguments.  Every run of the code is a run of this logger
with the same effects.
-/

namespace AdcLibs
namespace AdcLog

open Argp
open BoundedTable
open GrowingScan
open Loops
open Runs

variable {C : ClientTypes} {P : Platform C}

/-! ## The logger of the user -/

/-- What the user finds after a call. -/
def ApiCall.apply (P : Platform C) (v : LoggerView C) : ApiCall C → LoggerView C
  | .setLockHandler handler userdata => { v with lockHandler := handler, userdata := userdata }
  | .setLevel level => { v with level := level }
  | .addCallback handler userdata level =>
      { v with table := add P.adcLogMaxCallbacks v.table ⟨handler, userdata, level⟩ }
  | .addFp fp level =>
      { v with table := add P.adcLogMaxCallbacks v.table ⟨some .file, fp, level⟩ }

def LoggerView.applyAll (P : Platform C) (v : LoggerView C) (calls : List (ApiCall C)) :
    LoggerView C :=
  calls.foldl (fun v call => call.apply P v) v

/-- The message as a callback reads it: its time is read again only if a handler has
cleared it. -/
def AdcLogMsg.given (P : Platform C) (args : C.Args) (userdata : Option C.Ptr) (now : Nat)
    (m : AdcLogMsg C) : AdcLogMsg C :=
  { m with args := some args, time := m.time.or (P.localtime now), userdata := userdata }

/-- From an index on, the table is served with a message. -/
inductive Served (P : Platform C) (level : Int) (args : C.Args) :
    AdcLogMsg C → LoggerView C → LogWorld C → Nat → List (Effect C) → LoggerView C → Prop
  | done {m : AdcLogMsg C} {v : LoggerView C} {world : LogWorld C} {i : Nat} :
      v.table.length ≤ i → Served P level args m v world i [] v
  | pass {m : AdcLogMsg C} {v v' : LoggerView C} {world : LogWorld C} {i : Nat}
      {cb : AdcLogCallback C} {effects : List (Effect C)} :
      v.table[i]? = some cb → cb.dueHandler level = none →
      Served P level args m v world (i + 1) effects v' →
      Served P level args m v world i effects v'
  | call {m msg : AdcLogMsg C} {v v' : LoggerView C} {world : LogWorld C} {i : Nat}
      {cb : AdcLogCallback C} {handler : Handler C} {effects : List (Effect C)} :
      v.table[i]? = some cb → cb.dueHandler level = some handler →
      msg = m.given P args cb.userdata world.now →
      Served P level args (vaEnd (handler.leaves P msg v world))
        (v.applyAll P (handler.reaction P msg v world)) (world.emit P (handler.effects P msg))
        (i + 1) effects v' →
      Served P level args m v world i (handler.effects P msg ++ effects) v'

/-- The effects of `lock` and `unlock`. -/
def LoggerView.lockEffects (v : LoggerView C) (lock : Bool) : List (Effect C) :=
  match v.lockHandler with
  | some handler => [.lockCall handler lock v.userdata]
  | none => []

/-- What is written to `stderr`, and the message after it. -/
def LoggerView.own (P : Platform C) (v : LoggerView C) (level : Int) (args : C.Args)
    (m : AdcLogMsg C) (now : Nat) : List (Effect C) × AdcLogMsg C :=
  let msg := m.given P args (some P.stderr) now
  if level ≥ v.level then (streamEffects (stderrCallback P.vfprintf msg), vaEnd msg) else ([], m)

/-- A log call of the logger of the user. -/
def Logged (P : Platform C) (level : Int) (args : C.Args) (m : AdcLogMsg C) (v : LoggerView C)
    (world : LogWorld C) (effects : List (Effect C)) (v' : LoggerView C) : Prop :=
  ∃ served,
    let own := v.own P level args m (world.emit P (v.lockEffects true)).now
    Served P level args own.2 v (world.emit P (v.lockEffects true ++ own.1)) 0 served v' ∧
      effects = v.lockEffects true ++ own.1 ++ served ++ v'.lockEffects false

/-- A step of the logger of the user, with the world before and after it. -/
def LogStep (P : Platform C) (s : LoggerView C × LogWorld C) (x : LogAction C × List (Effect C))
    (s' : LoggerView C × LogWorld C) : Prop :=
  s'.2 = s.2.emit P x.2 ∧
    match x.1 with
    | .configure call => x.2 = [] ∧ s'.1 = call.apply P s.1
    | .log level file line fmt args =>
        Logged P level.code args ⟨some fmt, some file, line, level.code, none, none, none⟩ s.1 s.2
          x.2 s'.1

/-! ## Configuring -/

theorem exec_view (call : ApiCall C) (s : LogState C (LogWorld C)) :
    (call.exec (streamEnv P) s).logger.view = call.apply P s.logger.view := by
  have hadd (handler : Option (Handler C)) (userdata : Option C.Ptr) (level : Int) :
      (adcLogAddCallback (streamEnv P) handler userdata level s).2.logger.view =
        { s.logger.view with
          table := add P.adcLogMaxCallbacks s.logger.view.table ⟨handler, userdata, level⟩ } := by
    have hframe :
        (adcLogAddCallback (streamEnv P) handler userdata level s).2.logger.lockHandler =
            s.logger.lockHandler ∧
          (adcLogAddCallback (streamEnv P) handler userdata level s).2.logger.userdata =
            s.logger.userdata ∧
          (adcLogAddCallback (streamEnv P) handler userdata level s).2.logger.level =
            s.logger.level := by
      simp only [adcLogAddCallback]
      split
      · exact ⟨rfl, rfl, rfl⟩
      · exact ⟨rfl, rfl, rfl⟩
    obtain ⟨hlock, huserdata, hlevel⟩ := hframe
    exact LoggerView.ext hlock huserdata hlevel (addCallback_table _ _ _ _)
  cases call with
  | setLockHandler handler userdata | setLevel level => rfl
  | addCallback handler userdata level => exact hadd _ _ _
  | addFp fp level => exact hadd _ _ _

theorem configure_view (calls : List (ApiCall C)) (s : LogState C (LogWorld C)) :
    (configure (streamEnv P) calls s).logger.view = s.logger.view.applyAll P calls := by
  induction calls generalizing s with
  | nil => rfl
  | cons call calls ih =>
      have hrest := ih (call.exec (streamEnv P) s)
      rw [exec_view] at hrest
      exact hrest

/-! ## Serving the table -/

theorem vaStart_initMsg (args : C.Args) (m : AdcLogMsg C) (userdata : Option C.Ptr)
    (world : LogWorld C) :
    vaStart args (initMsg (streamEnv P) m userdata world) =
      m.given P args userdata world.now := by
  simp only [vaStart, initMsg, AdcLogMsg.given]
  cases m.time with
  | none => rfl
  | some time => rfl

/-- A round that reaches a due entry calls its handler, which comes back. -/
theorem dispatchBody_calls {level : Int} (args : C.Args) {u : DispatchState C (LogWorld C)}
    {handler : Handler C} (h : u.entry.dueHandler level = some handler)
    {msg : AdcLogMsg C} (hmsg : msg = u.msg.given P args u.entry.userdata u.state.world.now) :
    dispatchBody (streamEnv P) level args u =
      some
        { i := u.i + 1
          msg := vaEnd (handler.leaves P msg u.state.logger.view u.state.world)
          state := configure (streamEnv P)
            (handler.reaction P msg u.state.logger.view u.state.world)
            { u.state with
              slots := u.state.slots ++ [u.i]
              world := u.state.world.emit P (handler.effects P msg) }
          delivered := u.delivered ++ [⟨handler, msg⟩]
          requests :=
            u.requests ++ handler.reaction P msg u.state.logger.view u.state.world } := by
  rw [dispatchBody_due _ args h, DispatchState.handed, vaStart_initMsg, ← hmsg, call_streamEnv,
    Option.map_some]

theorem dispatchBody_ne_none (level : Int) (args : C.Args) (u : DispatchState C (LogWorld C)) :
    ∃ u', dispatchBody (streamEnv P) level args u = some u' := by
  cases hdue : u.entry.dueHandler level with
  | none => exact ⟨_, dispatchBody_idle _ args hdue⟩
  | some handler => exact ⟨_, dispatchBody_calls args hdue rfl⟩

/-- A loop that ends has served the table from its index on. -/
theorem served_of_rounds {level : Int} {args : C.Args} {u t : DispatchState C (LogWorld C)}
    (hrounds : Rounds dispatchCond (dispatchBody (streamEnv P) level args) u t)
    (hend : dispatchCond t = false) :
    ∃ effects, Served P level args u.msg u.state.logger.view u.state.world u.i effects
        t.state.logger.view ∧
      t.state.world = u.state.world.emit P effects := by
  induction hrounds with
  | refl u =>
      refine ⟨[], .done ?_, (emit_nil _).symm⟩
      rw [dispatchCond, decide_eq_false_iff_not] at hend
      exact (length_table _).trans_le (Nat.le_of_not_lt hend)
  | @next u u' t hcond hbody _ ih =>
      obtain ⟨effects, hserved, hworld⟩ := ih hend
      have hentry : u.state.logger.view.table[u.i]? = some u.entry :=
        getElem?_table (of_decide_eq_true hcond)
      cases hdue : u.entry.dueHandler level with
      | none =>
          rw [dispatchBody_idle _ args hdue] at hbody
          obtain rfl := Option.some.inj hbody
          exact ⟨effects, .pass hentry hdue hserved, hworld⟩
      | some handler =>
          rw [dispatchBody_calls args hdue rfl] at hbody
          obtain rfl := Option.some.inj hbody
          rw [configure_view, configure_world] at hserved
          rw [configure_world, emit_emit] at hworld
          exact ⟨_, .call hentry hdue rfl hserved, hworld⟩

/-- The loop ends and has served the table. -/
theorem loop_served (level : Int) (args : C.Args) {u : DispatchState C (LogWorld C)}
    (hindex : u.i = 0) (h : WellFormed (streamEnv P) u.state) :
    ∃ t served, whileChecked dispatchCond (dispatchBody (streamEnv P) level args)
        (P.adcLogMaxCallbacks + 1) u = some t ∧
      WellFormed (streamEnv P) t.state ∧
      Served P level args u.msg u.state.logger.view u.state.world 0 served
        t.state.logger.view ∧
      t.state.world = u.state.world.emit P served := by
  have hround (v : DispatchState C (LogWorld C)) (hv : WellFormed (streamEnv P) v.state)
      (hcond : dispatchCond v = true) :
      ∃ v', dispatchBody (streamEnv P) level args v = some v' ∧
        WellFormed (streamEnv P) v'.state := by
    obtain ⟨v', hbody⟩ := dispatchBody_ne_none (P := P) level args v
    exact ⟨v', hbody, dispatchBody_wellFormed hv hcond hbody⟩
  obtain ⟨t, ht, hwf⟩ := (dispatch_scan (streamEnv P) level args).ends hround
    (fun v hv => by rw [length_table]; exact hv.fits) h
  rw [hindex] at ht
  obtain ⟨hrounds, hend⟩ := rounds_of_whileChecked ht
  obtain ⟨served, hserved, hworld⟩ := served_of_rounds hrounds hend
  rw [hindex] at hserved
  exact ⟨t, served, ht, hwf, hserved, hworld⟩

/-! ## Log calls -/

theorem callLockHandler_effects (lock : Bool) (s : LogState C (LogWorld C)) :
    (callLockHandler (streamEnv P) lock s).world =
      s.world.emit P (s.logger.view.lockEffects lock) := by
  rw [callLockHandler, LoggerView.lockEffects, Logger.view]
  cases s.logger.lockHandler with
  | none => exact (emit_nil _).symm
  | some handler => rfl

/-- The loop starts when `stderr` is written to. -/
theorem adcLogStart_own (level : Int) (file : Str) (line : Int) (fmt : Str) (args : C.Args)
    (s : LogState C (LogWorld C)) {m : AdcLogMsg C}
    (hm : m = ⟨some fmt, some file, line, level, none, none, none⟩)
    {own : List (Effect C) × AdcLogMsg C}
    (hown : own = s.logger.view.own P level args m
      (s.world.emit P (s.logger.view.lockEffects true)).now) :
    adcLogStart (streamEnv P) level file line fmt args s =
      some ⟨0, own.2,
        ⟨s.logger, s.world.emit P (s.logger.view.lockEffects true ++ own.1), s.slots⟩,
        [], []⟩ := by
  obtain ⟨hlogger, hslots⟩ := callLockHandler_logger (streamEnv P) true s
  have hworld := callLockHandler_effects (P := P) true s
  have hlocked : callLockHandler (streamEnv P) true s =
      ⟨s.logger, s.world.emit P (s.logger.view.lockEffects true), s.slots⟩ :=
    LogState.ext hlogger hworld hslots
  simp only [adcLogStart, hlocked, vaStart_initMsg, ← hm]
  rw [hown, LoggerView.own]
  split
  · next hlevel =>
      have hdue : level ≥ s.logger.view.level := hlevel
      rw [if_pos hdue]
      have hwrite := write_streamEnv (P := P)
        (stderrCallback P.vfprintf (m.given P args (some P.stderr)
          (s.world.emit P (s.logger.view.lockEffects true)).now))
        (s.world.emit P (s.logger.view.lockEffects true))
      rw [emit_emit] at hwrite
      exact Option.map_eq_some_iff.mpr ⟨_, hwrite, rfl⟩
  · next hlevel =>
      have hidle : ¬ level ≥ s.logger.view.level := hlevel
      rw [if_neg hidle, List.append_nil]

/-- A log call returns and does what a log call of the user's logger does. -/
theorem adcLog_logged (level : Int) (file : Str) (line : Int) (fmt : Str) (args : C.Args)
    {s : LogState C (LogWorld C)} (h : WellFormed (streamEnv P) s) :
    ∃ t effects, adcLog (streamEnv P) level file line fmt args s = some t ∧
      WellFormed (streamEnv P) t.state ∧ t.state.world = s.world.emit P effects ∧
      Logged P level args ⟨some fmt, some file, line, level, none, none, none⟩ s.logger.view
        s.world effects t.state.logger.view := by
  have hstart := adcLogStart_own (P := P) level file line fmt args s rfl rfl
  obtain ⟨t, served, ht, hwf, hserved, hemit⟩ :=
    loop_served level args rfl (adcLogStart_wellFormed h hstart)
  have hunlocked := (callLockHandler_logger (streamEnv P) false t.state).1
  refine ⟨{ t with state := callLockHandler (streamEnv P) false t.state }, _,
    Option.bind_eq_some_iff.mpr ⟨_, hstart, Option.map_eq_some_iff.mpr ⟨t, ht, rfl⟩⟩,
    callLockHandler_wellFormed hwf false, ?_, served, ?_, rfl⟩
  · rw [callLockHandler_effects, hemit, emit_emit, emit_emit, hunlocked]
    simp only [List.append_assoc]
  · rw [hunlocked]
    exact hserved

/-! ## Runs -/

/-- Every action can be executed, and is a step of the user's logger. -/
theorem exec_logStep (action : LogAction C) {s : LogState C (LogWorld C)}
    (h : WellFormed (streamEnv P) s) :
    ∃ s' effects, action.exec P s = some s' ∧ WellFormed (streamEnv P) s' ∧
      LogStep P (s.logger.view, s.world) (action, effects) (s'.logger.view, s'.world) := by
  cases action with
  | configure call =>
      refine ⟨call.exec (streamEnv P) s, [], rfl, exec_wellFormed h call, ?_, rfl, exec_view call s⟩
      rw [exec_world, emit_nil]
  | log level file line fmt args =>
      obtain ⟨t, effects, ht, hwf, hworld, hlogged⟩ :=
        adcLog_logged level.code file line fmt args h
      refine ⟨t.state, effects, ?_, hwf, hworld, hlogged⟩
      rw [LogAction.exec, ht, Option.map_some]

theorem Served.unique {level : Int} {args : C.Args} {m : AdcLogMsg C} {v v₁ v₂ : LoggerView C}
    {world : LogWorld C} {i : Nat} {effects₁ effects₂ : List (Effect C)}
    (h₁ : Served P level args m v world i effects₁ v₁)
    (h₂ : Served P level args m v world i effects₂ v₂) : effects₁ = effects₂ ∧ v₁ = v₂ := by
  have hnever {v : LoggerView C} {i : Nat} {cb : AdcLogCallback C} {p : Prop}
      (hend : v.table.length ≤ i) (hcb : v.table[i]? = some cb) : p :=
    absurd hend (Nat.not_le_of_lt (List.getElem?_eq_some_iff.mp hcb).1)
  induction h₁ generalizing effects₂ v₂ with
  | done hend =>
      cases h₂ with
      | done => exact ⟨rfl, rfl⟩
      | pass hcb | call hcb => exact hnever hend hcb
  | pass hcb hidle _ ih =>
      cases h₂ with
      | done hend => exact hnever hend hcb
      | pass _ _ hrest => exact ih hrest
      | call hcb' hdue =>
          obtain rfl := Option.some.inj (hcb.symm.trans hcb')
          cases hidle.symm.trans hdue
  | call hcb hdue hmsg _ ih =>
      cases h₂ with
      | done hend => exact hnever hend hcb
      | pass hcb' hidle =>
          obtain rfl := Option.some.inj (hcb.symm.trans hcb')
          cases hidle.symm.trans hdue
      | call hcb' hdue' hmsg' hrest =>
          obtain rfl := Option.some.inj (hcb.symm.trans hcb')
          obtain rfl := Option.some.inj (hdue.symm.trans hdue')
          obtain rfl := hmsg.trans hmsg'.symm
          obtain ⟨rfl, rfl⟩ := ih hrest
          exact ⟨rfl, rfl⟩

theorem LogStep.unique {s s₁ s₂ : LoggerView C × LogWorld C} {action : LogAction C}
    {effects₁ effects₂ : List (Effect C)} (h₁ : LogStep P s (action, effects₁) s₁)
    (h₂ : LogStep P s (action, effects₂) s₂) : effects₁ = effects₂ ∧ s₁ = s₂ := by
  have hsame : effects₁ = effects₂ ∧ s₁.1 = s₂.1 := by
    cases action with
    | configure call => exact ⟨h₁.2.1.trans h₂.2.1.symm, h₁.2.2.trans h₂.2.2.symm⟩
    | log level file line fmt args =>
        obtain ⟨served₁, hserved₁, heffects₁⟩ := h₁.2
        obtain ⟨served₂, hserved₂, heffects₂⟩ := h₂.2
        obtain ⟨rfl, hview⟩ := hserved₁.unique hserved₂
        rw [← hview] at heffects₂
        exact ⟨heffects₁.trans heffects₂.symm, hview⟩
  obtain ⟨rfl, hview⟩ := hsame
  exact ⟨rfl, Prod.ext hview (h₁.1.trans h₂.1.symm)⟩

end AdcLog
end AdcLibs
