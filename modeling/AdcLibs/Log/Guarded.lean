import AdcLibs.Log.Trace

/-!
# Locking and reads of the logger

Over whole runs: what is written and called in a log call stands between a lock and an
unlock of one handler, unless a client's handler replaces it; and as long as the clients'
handlers leave format, file and level of the message as they are, the callbacks read
nothing that is not there, unless the stream `NULL` is due.
-/

namespace AdcLibs
namespace AdcLog

open Argp
open BoundedTable
open Runs

variable {C : ClientTypes} {P : Platform C}

/-! ## Locking -/

def ApiCall.setsLock : ApiCall C → Bool
  | .setLockHandler _ _ => true
  | _ => false

/-- A lock handler with its userdata. -/
abbrev LockConfig (C : ClientTypes) := Option C.LockHandler × Option C.Ptr

def LoggerView.lockConfig (v : LoggerView C) : LockConfig C := (v.lockHandler, v.userdata)

theorem apply_lockConfig {call : ApiCall C} (h : call.setsLock = false)
    (v : LoggerView C) : (call.apply P v).lockConfig = v.lockConfig := by
  cases call with
  | setLockHandler handler userdata => cases h
  | setLevel level | addCallback handler userdata level | addFp fp level => rfl

/-- No handler of a client replaces the lock handler. -/
def KeepsLock (P : Platform C) : Prop :=
  ∀ h m v world, ∀ call ∈ P.reaction h m v world, call.setsLock = false

theorem KeepsLock.handler (h : KeepsLock P) (msg : AdcLogMsg C) (v : LoggerView C)
    (world : LogWorld C) (handler : Handler C) :
    ∀ call ∈ handler.reaction P msg v world, call.setsLock = false := by
  cases handler with
  | file => exact fun _ hcall => absurd hcall List.not_mem_nil
  | client client => exact h client msg v world

/-- A platform on which client 1 clears the time and registers client 2, which registers
the stream `NULL`. -/
def testPlatform : Platform ⟨Nat, Nat, Nat, Nat⟩ where
  adcLogMaxCallbacks := 3
  stderr := 2
  localtime := fun now => some ⟨now, 30, 12, 1, 0, 124⟩
  vfprintf := fun fmt _ => some fmt
  later := fun _ now => now + 1
  leaves := fun _ m _ _ => { m with line := 0, time := none }
  reaction := fun h _ _ _ =>
    if h = 1 then [.addCallback (some (.client 2)) none 0] else [.addFp none 1]

theorem keepsLock_testPlatform : KeepsLock testPlatform := by
  intro h m v world call hcall
  simp only [testPlatform] at hcall
  split at hcall
  · rw [List.mem_singleton.mp hcall]
    rfl
  · rw [List.mem_singleton.mp hcall]
    rfl

theorem applyAll_keeps (calls : List (ApiCall C)) (v : LoggerView C) :
    v.table <+: (v.applyAll P calls).table := by
  induction calls generalizing v with
  | nil => exact List.prefix_rfl
  | cons call calls ih =>
      refine List.IsPrefix.trans ?_ (ih (call.apply P v))
      cases call with
      | setLockHandler handler userdata | setLevel level => exact List.prefix_rfl
      | addCallback handler userdata level | addFp fp level => exact prefix_add _

/-- The table is served to its end, and keeps its entries. -/
theorem Served.table_prefix {level : Int} {args : C.Args} {m : AdcLogMsg C}
    {v v' : LoggerView C} {world : LogWorld C} {i : Nat} {effects : List (Effect C)}
    (h : Served P level args m v world i effects v') : v.table <+: v'.table := by
  induction h with
  | done => exact List.prefix_rfl
  | pass _ _ _ ih => exact ih
  | call _ _ _ _ ih => exact (applyAll_keeps _ _).trans ih

/-- An entry stays where it is in a table that grows. -/
theorem drop_eq_cons {table table' : List (AdcLogCallback C)} (h : table <+: table') {i : Nat}
    {cb : AdcLogCallback C} (hcb : table[i]? = some cb) :
    table'.drop i = cb :: table'.drop (i + 1) := by
  obtain ⟨hlt, rfl⟩ := List.getElem?_eq_some_iff.mp hcb
  rw [List.drop_eq_getElem_cons (Nat.lt_of_lt_of_le hlt h.length_le), h.getElem hlt]

/-- The entry is a stream that is due and `NULL`. -/
def AdcLogCallback.NullDue (level : Int) (cb : AdcLogCallback C) : Prop :=
  cb.dueHandler level = some .file ∧ cb.userdata = none

/-- Format, file and level are those that the macro gave. -/
structure FromMacro (level : AdcLogLevel) (fmt : Str) (m : AdcLogMsg C) : Prop where
  fmt_eq : m.fmt = some fmt
  file_ne : m.file ≠ none
  level_eq : m.level = level.code

/-- The clients' handlers leave format, file and level as they are; they may write to the
line, the time and the userdata. -/
def LeavesMessage (P : Platform C) : Prop :=
  ∀ h m v world, (P.leaves h m v world).fmt = m.fmt ∧ (P.leaves h m v world).file = m.file ∧
    (P.leaves h m v world).level = m.level

/-- Formats fit their arguments. -/
def LogAction.Fits (P : Platform C) : LogAction C → Prop
  | .configure _ => True
  | .log _ _ _ fmt args => P.vfprintf fmt args ≠ none

section Reads

variable {level : AdcLogLevel} {fmt : Str} {args : C.Args}

theorem FromMacro.leaves (hleaves : LeavesMessage P) {m : AdcLogMsg C}
    (h : FromMacro level fmt m) (v : LoggerView C) (world : LogWorld C) (handler : Handler C) :
    FromMacro level fmt (vaEnd (handler.leaves P m v world)) := by
  cases handler with
  | file => exact ⟨h.fmt_eq, h.file_ne, h.level_eq⟩
  | client client =>
      obtain ⟨hfmt, hfile, hlevel⟩ := hleaves client m v world
      exact ⟨hfmt.trans h.fmt_eq, fun hnone => h.file_ne (hfile.symm.trans hnone),
        hlevel.trans h.level_eq⟩

theorem FromMacro.given {m : AdcLogMsg C} (h : FromMacro level fmt m) (userdata : Option C.Ptr)
    (now : Nat) : FromMacro level fmt (m.given P args userdata now) :=
  ⟨h.fmt_eq, h.file_ne, h.level_eq⟩

variable (htime : ∀ now, P.localtime now ≠ none) (hfits : P.vfprintf fmt args ≠ none)
include htime hfits

/-- The callbacks can read the message if there is a stream to write to. -/
theorem FromMacro.readable_iff {m : AdcLogMsg C} (h : FromMacro level fmt m)
    (userdata : Option C.Ptr) (now : Nat) :
    (m.given P args userdata now).Readable P.vfprintf ↔ userdata ≠ none := by
  refine ⟨fun hreadable => hreadable.stream, fun hstream => ⟨?_, hstream, ?_, h.file_ne, ?_⟩⟩
  · rw [AdcLogMsg.given, ne_eq, Option.or_eq_none_iff]
    exact fun hnone => htime now hnone.2
  · rw [AdcLogMsg.given, h.level_eq]
    exact code_inRange level
  · rw [AdcLogMsg.text, AdcLogMsg.given, h.fmt_eq]
    exact hfits

omit htime hfits in
theorem fault_mem_streamEffects (ops : Option (List (StreamOp C))) :
    .fault ∈ streamEffects ops ↔ ops = none := by
  cases ops with
  | none => simp [streamEffects]
  | some ops => simp [streamEffects]

theorem FromMacro.fault_iff {m : AdcLogMsg C} (h : FromMacro level fmt m)
    (userdata : Option C.Ptr) (now : Nat) (handler : Handler C) :
    .fault ∈ handler.effects P (m.given P args userdata now) ↔
      handler = .file ∧ userdata = none := by
  cases handler with
  | client client => simp [Handler.effects]
  | file =>
      rw [Handler.effects, fault_mem_streamEffects, ← not_iff_not, ← ne_eq,
        fileCallback_ne_none_iff, h.readable_iff htime hfits]
      simp

theorem Served.fault_iff (hleaves : LeavesMessage P) {m : AdcLogMsg C} {v v' : LoggerView C}
    {world : LogWorld C} {i : Nat} {effects : List (Effect C)}
    (h : Served P level.code args m v world i effects v') (hm : FromMacro level fmt m) :
    .fault ∈ effects ↔ ∃ cb ∈ v'.table.drop i, cb.NullDue level.code := by
  induction h with
  | done hend => simp [List.drop_eq_nil_of_le hend]
  | @pass m v v' world i cb effects hcb hidle hrest ih =>
      rw [ih hm, drop_eq_cons hrest.table_prefix hcb, List.exists_mem_cons_iff]
      refine (or_iff_right ?_).symm
      rintro ⟨hdue, -⟩
      cases hidle.symm.trans hdue
  | @call m msg v v' world i cb handler effects hcb hdue hmsg hrest ih =>
      have hprefix := (applyAll_keeps _ v).trans hrest.table_prefix
      subst hmsg
      rw [List.mem_append, hm.fault_iff htime hfits, ih ((hm.given _ _).leaves hleaves v world _),
        drop_eq_cons hprefix hcb, List.exists_mem_cons_iff, AdcLogCallback.NullDue, hdue,
        Option.some.injEq]

theorem Logged.fault_iff (hleaves : LeavesMessage P) {m : AdcLogMsg C}
    (hm : FromMacro level fmt m) {v v' : LoggerView C} {world : LogWorld C}
    {effects : List (Effect C)} (h : Logged P level.code args m v world effects v') :
    .fault ∈ effects ↔ ∃ cb ∈ v'.table, cb.NullDue level.code := by
  obtain ⟨served, hserved, rfl⟩ := h
  have hlock (w : LoggerView C) (lock : Bool) : .fault ∉ w.lockEffects lock := by
    rw [LoggerView.lockEffects]
    cases w.lockHandler with
    | none => exact List.not_mem_nil
    | some handler => simp
  have hown (now : Nat) : .fault ∉ (v.own P level.code args m now).1 ∧
      FromMacro level fmt (v.own P level.code args m now).2 := by
    rw [LoggerView.own]
    split
    · refine ⟨?_, ⟨hm.fmt_eq, hm.file_ne, hm.level_eq⟩⟩
      rw [fault_mem_streamEffects, ← ne_eq, stderrCallback_ne_none_iff,
        hm.readable_iff htime hfits]
      exact Option.some_ne_none _
    · exact ⟨List.not_mem_nil, hm⟩
  rw [← List.drop_zero (l := v'.table),
    ← hserved.fault_iff htime hfits hleaves (hown _).2]
  simp only [List.mem_append, hlock, (hown _).1, false_or, or_false]

end Reads

/-- A log call of a sequence of actions reaches a stream that is due and `NULL`. -/
def ReachesNull (P : Platform C) (actions : List (LogAction C)) (s : LogState C (LogWorld C)) :
    Prop :=
  ∃ before level file line fmt args s',
    before ++ [.log level file line fmt args] <+: actions ∧
      execActions P (before ++ [.log level file line fmt args]) s = some s' ∧
      ∃ cb ∈ s'.logger.table, cb.NullDue level.code

theorem reachesNull_cons {action : LogAction C} {actions : List (LogAction C)}
    {s s₁ : LogState C (LogWorld C)} (hexec : action.exec P s = some s₁) :
    ReachesNull P (action :: actions) s ↔
      (∃ level file line fmt args, action = .log level file line fmt args ∧
        ∃ cb ∈ s₁.logger.table, cb.NullDue level.code) ∨ ReachesNull P actions s₁ := by
  have hcons (rest : List (LogAction C)) :
      execActions P (action :: rest) s = execActions P rest s₁ := by
    rw [execActions, List.foldlM_cons, hexec]
    rfl
  constructor
  · rintro ⟨before, level, file, line, fmt, args, s', hcut, hrun, hnull⟩
    cases before with
    | nil =>
        rw [List.nil_append, List.cons_prefix_cons] at hcut
        obtain ⟨rfl, -⟩ := hcut
        rw [List.nil_append, hcons] at hrun
        obtain rfl := Option.some.inj hrun
        exact .inl ⟨level, file, line, fmt, args, rfl, hnull⟩
    | cons first before =>
        rw [List.cons_append, List.cons_prefix_cons] at hcut
        obtain ⟨rfl, hcut⟩ := hcut
        rw [List.cons_append, hcons] at hrun
        exact .inr ⟨before, level, file, line, fmt, args, s', hcut, hrun, hnull⟩
  · rintro (⟨level, file, line, fmt, args, rfl, hnull⟩ |
      ⟨before, level, file, line, fmt, args, s', hcut, hrun, hnull⟩)
    · exact ⟨[], level, file, line, fmt, args, s₁, List.prefix_append _ actions,
        hcons [], hnull⟩
    · exact ⟨action :: before, level, file, line, fmt, args, s',
        List.cons_prefix_cons.mpr ⟨rfl, hcut⟩, (hcons _).trans hrun, hnull⟩

theorem execActions_fault_iff (hleaves : LeavesMessage P)
    (htime : ∀ now, P.localtime now ≠ none) (actions : List (LogAction C))
    (hfits : ∀ action ∈ actions, action.Fits P) {s : LogState C (LogWorld C)}
    (h : WellFormed (streamEnv P) s) :
    ∃ s', execActions P actions s = some s' ∧
      (.fault ∈ s'.world.effects ↔ .fault ∈ s.world.effects ∨ ReachesNull P actions s) := by
  induction actions generalizing s with
  | nil =>
      refine ⟨s, rfl, (or_iff_left ?_).symm⟩
      rintro ⟨before, level, file, line, fmt, args, s', hcut, -⟩
      exact absurd (List.prefix_nil.mp hcut) (List.append_ne_nil_of_right_ne_nil _ (by simp))
  | cons action actions ih =>
      obtain ⟨hfit, hfits⟩ := List.forall_mem_cons.mp hfits
      obtain ⟨s₁, effects, hexec, hwf, hworld, hstep⟩ := exec_logStep action h
      obtain ⟨s', hrest, hiff⟩ := ih hfits hwf
      refine ⟨s', ?_, ?_⟩
      · rw [execActions, List.foldlM_cons, hexec]
        exact hrest
      simp only at hworld
      rw [hiff, reachesNull_cons hexec, hworld, LogWorld.emit, List.mem_append, or_assoc]
      refine or_congr_right (or_congr_left ?_)
      cases action with
      | configure call =>
          obtain rfl : effects = [] := hstep.1
          simp
      | log level file line fmt args =>
          rw [Logged.fault_iff htime hfit hleaves ⟨rfl, Option.some_ne_none _, rfl⟩ hstep]
          constructor
          · exact fun hnull => ⟨level, file, line, fmt, args, rfl, hnull⟩
          · rintro ⟨level, file, line, fmt, args, hsame, hnull⟩
            cases hsame
            exact hnull

/--
As long as `localtime` does not fail, the formats fit their arguments, and the clients'
handlers leave format, file and level of the message as they are and do not log themselves:
in a run of the log macros, the callbacks read something that is not there exactly when a
log call reaches a stream that is `NULL` and due at its level.
-/
theorem log_faults_iff (hleaves : LeavesMessage P) (htime : ∀ now, P.localtime now ≠ none)
    (actions : List (LogAction C)) (hfits : ∀ action ∈ actions, action.Fits P) (now : Nat) :
    ∃ s, execActions P actions (initState ⟨now, []⟩) = some s ∧
      (.fault ∈ s.world.effects ↔ ReachesNull P actions (initState ⟨now, []⟩)) := by
  obtain ⟨s, hexec, hiff⟩ := execActions_fault_iff hleaves htime actions hfits
    (wellFormed_init (streamEnv P) ⟨now, []⟩)
  exact ⟨s, hexec, hiff.trans (or_iff_right List.not_mem_nil)⟩

/-- Client 1 registers client 2, and that the stream `NULL`. -/
theorem log_faults_iff_null :
    ∃ s, execActions testPlatform
        [.configure (.addCallback (some (.client 1)) none 1),
          .log .info "a.c".toList 7 "x".toList 0] (initState ⟨0, []⟩) = some s ∧
      .fault ∈ s.world.effects := by
  obtain ⟨s, hexec, hiff⟩ := log_faults_iff (P := testPlatform)
    (fun _ _ _ _ => ⟨rfl, rfl, rfl⟩) (fun _ => Option.some_ne_none _)
    [.configure (.addCallback (some (.client 1)) none 1), .log .info "a.c".toList 7 "x".toList 0]
    (List.forall_mem_cons.mpr ⟨trivial, List.forall_mem_singleton.mpr (Option.some_ne_none _)⟩) 0
  refine ⟨s, hexec, hiff.mpr ⟨[.configure (.addCallback (some (.client 1)) none 1)], .info,
    "a.c".toList, 7, "x".toList, 0, _, List.prefix_rfl, rfl, ⟨some .file, none, 1⟩, ?_, rfl, rfl⟩⟩
  exact .tail _ (.tail _ (.head _))

end AdcLog
end AdcLibs
