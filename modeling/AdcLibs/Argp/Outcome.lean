import AdcLibs.Argp.Assertions
import AdcLibs.Library.Writes

/-!
# What a call of `adc_argp_parse` does

The groups of the arguments are handled from left to right up to the first help option,
which prints the help text and exits.  An unknown option, a missing or a rejected
argument adds an error; an accepted argument is written to the target of its option,
and so is a numeral that `parse_bool` rejects.  This describes every call, on every
parser and for all arguments, so that calls can be put together and taken apart.
-/

namespace AdcLibs
namespace Argp

open Grouping Writes

variable {B : Build} {opts : OptionTable}

/-! ## `print_help` -/

/-- The line of an option; only a flag and the help have no argument. -/
def helpLine (opt : AdcArgpOption) : Str :=
  let spellings := "--".toList ++ opt.name.getD [] ++ " (-".toList ++ opt.shortname.getD [] ++
    ")".toList
  if opt.valtype = .flag ∨ opt.valtype = .help then
    spellings ++ ": ".toList ++ opt.desc.getD [] ++ "\n".toList
  else
    spellings ++ " <".toList ++ argpTypeString opt.valtype ++ ">: ".toList ++
      opt.desc.getD [] ++ "\n".toList

/-- `print_help`: the text printed to `stdout`; `none` without a program name. -/
def printHelp (parser : AdcArgpParser B) : Option Str :=
  parser.progname.map fun progname =>
    progname ++ " usage:\n".toList ++ parser.opts.1.flatMap helpLine

/-! ## The groups handled one by one -/

variable (B) in
/-- What the value parser of a type writes to the target, if anything. -/
def argStored (type : AdcArgpType) (arg : Str) : Option (Value B) :=
  match argResult B type arg with
  | .ok v => some v
  | .error _ => if type = .bool then (argResult B .int arg).toOption else none

variable (B) in
/-- What a group writes. -/
def groupWrite (opts : OptionTable) : ItemGroup Str → Option (Loc × Value B)
  | .pair name arg =>
      (lookup opts name).bind fun i =>
        (argStored B (optAt opts i).valtype arg).map ((optAt opts i).val, ·)
  | g => groupStore B opts g

/-- The parser with the error of a group, if it has one. -/
def addGroupError (parser : AdcArgpParser B) (g : ItemGroup Str) : AdcArgpParser B :=
  match groupError B parser.opts g with
  | some err => addError parser err.type err.opt err.argv
  | none => parser

/-- The groups handled from left to right, up to the first help option. -/
def handleGroups : List (ItemGroup Str) → AdcArgpParser B → Store B → ParseOutcome B
  | [], parser, store => .returned parser.errorsLen parser store
  | g :: gs, parser, store =>
      if isHelp parser.opts g then .exited parser
      else
        handleGroups gs (addGroupError parser g)
          (writeAll (groupWrite B parser.opts g).toList store)

@[simp] theorem addGroupError_opts (parser : AdcArgpParser B) (g : ItemGroup Str) :
    (addGroupError parser g).opts = parser.opts := by
  rw [addGroupError]
  cases groupError B parser.opts g with
  | none => rfl
  | some err => exact addError_opts _ _ _ _

@[simp] theorem addError_progname (parser : AdcArgpParser B) (type : ErrorType)
    (opt : Option Nat) (arg : Str) :
    (addError parser type opt arg).progname = parser.progname := by
  rw [addError]
  split <;> rfl

@[simp] theorem addGroupError_progname (parser : AdcArgpParser B) (g : ItemGroup Str) :
    (addGroupError parser g).progname = parser.progname := by
  rw [addGroupError]
  cases groupError B parser.opts g with
  | none => rfl
  | some err => exact addError_progname _ _ _ _

theorem addGroupError_errors (parser : AdcArgpParser B) (g : ItemGroup Str) :
    (addGroupError parser g).errors.1 =
      (parser.errors.1 ++ (groupError B parser.opts g).toList).take B.adcArgpMaxErrors := by
  rw [addGroupError]
  cases groupError B parser.opts g with
  | none => exact take_errors parser
  | some err => exact addError_errors _ _ _ _

/-- A parser is its program name, its table and its errors. -/
theorem parser_ext {parser parser' : AdcArgpParser B}
    (hprogname : parser.progname = parser'.progname)
    (hopts : parser.opts = parser'.opts) (herrors : parser.errors.1 = parser'.errors.1) :
    parser = parser' := by
  obtain ⟨progname, opts, errors⟩ := parser
  obtain ⟨progname', opts', errors'⟩ := parser'
  obtain rfl : progname = progname' := hprogname
  obtain rfl : opts = opts' := hopts
  obtain rfl : errors = errors' := Subtype.ext herrors
  rfl

/-! ## A round of the loop -/

theorem set_eq_update (store : Store B) (loc : Loc) (v : Value B) :
    store.set loc v = Function.update store loc v := by
  funext l
  rw [Store.set, Function.update_apply]

theorem parseBody_progname (argv : List Str) (s : ParseState B) :
    (parseBody argv s).parser.progname = s.parser.progname := by
  obtain ⟨-, hbody⟩ | ⟨k, -, -, ⟨-, hbody⟩ | ⟨-, hbody⟩ | ⟨parse, -, hbody⟩⟩ :=
    parseBody_cases argv s
  · rw [hbody]
    exact addError_progname _ _ _ _
  · rw [hbody]
  · rw [hbody]
  · rw [hbody, parseArg]
    split
    · exact addError_progname _ _ _ _
    · simp only
      split
      · exact addError_progname _ _ _ _
      · rfl

/-- What a value parser leaves in the target. -/
theorem valueParser_stored {type : AdcArgpType} {parse : Value B → Str → Value B × ErrorType}
    (h : valueParser B type = some parse) (arg : Str) (out : Value B) :
    (parse out arg).1 = (argStored B type arg).getD out := by
  by_cases hbool : type = .bool
  · subst hbool
    obtain rfl := Option.some.inj h
    by_cases htrue : arg = "true".toList
    · subst htrue
      rfl
    · by_cases hfalse : arg = "false".toList
      · subst hfalse
        rfl
      · have hreject := parseBool_of_ne (B := B) htrue hfalse
        have hresult : argResult B .bool arg = .error .argInvalidBool := by
          simp [argResult, valueParser, hreject]
        rw [hreject, argStored, hresult]
        simp only [if_true]
        rcases transactional_parseInt (B := B) arg with
          ⟨v, (hv : ∀ out, parseInt out arg = (v, .none))⟩ |
            ⟨err, herr, (hkeep : ∀ out, parseInt out arg = (out, err))⟩
        · simp [argResult, valueParser, hv, Except.toOption]
        · simp [argResult, valueParser, hkeep, herr, Except.toOption]
  · rcases valueParser_transactional h hbool arg with
      ⟨v, (hv : ∀ out, parse out arg = (v, .none))⟩ |
        ⟨err, herr, (hkeep : ∀ out, parse out arg = (out, err))⟩
    · simp [argStored, argResult, h, hv]
    · simp [argStored, argResult, h, hkeep, herr, hbool]

/-- What a round writes, for the group it handles. -/
theorem parseBody_writes {argv : List Str} {s : ParseState B} {g : ItemGroup Str}
    {gs : List (ItemGroup Str)}
    (hgs : groups (takesValue B s.parser.opts) (argv.drop s.i) = g :: gs)
    (hstep : GroupStep s.parser.opts g s.store (parseBody argv s).store) :
    (parseBody argv s).store = writeAll (groupWrite B s.parser.opts g).toList s.store := by
  have hplain (hnone : ∀ loc, ¬ BoolNumeral B s.parser.opts g loc)
      (hwrite : groupWrite B s.parser.opts g = groupStore B s.parser.opts g) :
      (parseBody argv s).store = writeAll (groupWrite B s.parser.opts g).toList s.store := by
    funext loc
    rw [hstep loc (hnone loc), hwrite]
    cases groupStore B s.parser.opts g with
    | none => rfl
    | some lv => exact congrFun (set_eq_update _ _ _) loc
  cases g with
  | single name =>
      refine hplain (fun loc hnumeral => ?_) rfl
      obtain ⟨_, _, _, hpair, -⟩ := hnumeral
      exact absurd hpair (by simp)
  | cut name =>
      refine hplain (fun loc hnumeral => ?_) rfl
      obtain ⟨_, _, _, hpair, -⟩ := hnumeral
      exact absurd hpair (by simp)
  | pair name arg =>
      obtain ⟨htakes, rest, hrest⟩ := of_groups_eq_pair hgs
      have hname : argv[s.i]? = some name := by
        have hhead := congrArg (·[0]?) hrest
        simpa using hhead
      have harg : argv[s.i + 1]? = some arg := by
        have hsecond := congrArg (·[1]?) hrest
        simpa using hsecond
      have hnext : s.i + 1 < argv.length := (List.getElem?_eq_some_iff.mp harg).1
      rw [takesValue] at htakes
      cases hlookup : lookup s.parser.opts name with
      | none => exact absurd htakes (by simp [hlookup])
      | some k =>
          simp only [hlookup] at htakes
          obtain ⟨parse, hparse⟩ := Option.isSome_iff_exists.mp htakes
          have hbody : parseBody argv s = parseArg argv k parse s :=
            parseBody_arg (by rw [List.getD_eq_getElem?_getD, hname]; exact hlookup) hparse
          rw [hbody, parseArg, if_neg (Nat.not_le_of_lt hnext), groupWrite, hlookup,
            Option.bind_some]
          simp only [List.getD_eq_getElem?_getD, harg, Option.getD_some]
          rw [set_eq_update, valueParser_stored hparse, ← List.getD_eq_getElem?_getD, ← optAt]
          cases argStored B (optAt s.parser.opts k).valtype arg with
          | none => exact Function.update_eq_self _ _
          | some v => rfl

/-- A round of the loop handles the first group of the remaining arguments. -/
theorem parseBody_group (argv : List Str) {s : ParseState B} {g : ItemGroup Str}
    {gs : List (ItemGroup Str)} (hs : Running opts s)
    (hgs : groups (takesValue B opts) (argv.drop s.i) = g :: gs) (hhelp : isHelp opts g = false) :
    parseCond argv s = true ∧ Running opts (parseBody argv s) ∧
      groups (takesValue B opts) (argv.drop (parseBody argv s).i) = gs ∧
      (parseBody argv s).parser = addGroupError s.parser g ∧
      (parseBody argv s).store = writeAll (groupWrite B opts g).toList s.store := by
  obtain ⟨hcond, hrunning, hrest, hhandles⟩ := parseBody_handles argv hs hgs hhelp
  refine ⟨hcond, hrunning, hrest, ?_, ?_⟩
  · refine parser_ext ?_ ?_ ?_
    · rw [parseBody_progname, addGroupError_progname]
    · rw [hrunning.opts_eq, addGroupError_opts, hs.opts_eq]
    · rw [hhandles.errors, addGroupError_errors, hs.opts_eq]
  · obtain ⟨rfl, -⟩ := hs
    exact parseBody_writes hgs hhandles.store

/-- A round that meets a help option exits. -/
theorem parseBody_isHelp (argv : List Str) {s : ParseState B} {g : ItemGroup Str}
    {gs : List (ItemGroup Str)} (hs : Running opts s)
    (hgs : groups (takesValue B opts) (argv.drop s.i) = g :: gs) (hhelp : isHelp opts g = true) :
    parseCond argv s = true ∧ parseBody argv s = { s with exited := true } := by
  obtain ⟨rfl, hrunning⟩ := hs
  have hitems := flatMap_items_groups (takesValue B s.parser.opts) (argv.drop s.i)
  rw [hgs, List.flatMap_cons] at hitems
  have hname : argv[s.i]? = some (groupName g) := by
    have hhead := congrArg (·[0]?) hitems
    cases g <;> simpa [ItemGroup.items, groupName] using hhead.symm
  have hlt : s.i < argv.length := (List.getElem?_eq_some_iff.mp hname).1
  refine ⟨by simp [parseCond, hrunning, hlt], ?_⟩
  rw [isHelp] at hhelp
  cases hlookup : lookup s.parser.opts (groupName g) with
  | none => exact absurd hhelp (by simp [hlookup])
  | some k =>
      simp only [hlookup, beq_iff_eq] at hhelp
      refine parseBody_help (k := k) ?_ hhelp
      rw [List.getD_eq_getElem?_getD, hname]
      exact hlookup

/-! ## Calls -/

/-- How the loop ends from a state. -/
def ParseState.outcome (s : ParseState B) : ParseOutcome B :=
  if s.exited then .exited s.parser else .returned s.parser.errorsLen s.parser s.store

/-- The loop handles the groups that remain. -/
theorem whileFuel_handleGroups (argv : List Str) {s : ParseState B} {gs : List (ItemGroup Str)}
    (hs : Running opts s) (hgs : groups (takesValue B opts) (argv.drop s.i) = gs) {fuel : Nat}
    (hfuel : gs.length < fuel) :
    (Loops.whileFuel (parseCond argv) (parseBody argv) fuel s).map ParseState.outcome =
      some (handleGroups gs s.parser s.store) := by
  induction gs generalizing s fuel with
  | nil =>
      obtain ⟨fuel, rfl⟩ := Nat.exists_eq_add_of_lt hfuel
      have hnil := List.drop_eq_nil_iff.mp (groups_eq_nil.mp hgs)
      have hcond : parseCond argv s = false := by simp [parseCond, hnil]
      simp [Loops.whileFuel, hcond, handleGroups, ParseState.outcome, hs.running]
  | cons g gs ih =>
      rw [List.length_cons] at hfuel
      obtain ⟨fuel, rfl⟩ : ∃ n, fuel = n + 2 := ⟨fuel - 2, by omega⟩
      rw [handleGroups, hs.opts_eq, Loops.whileFuel]
      by_cases hhelp : isHelp opts g = true
      · obtain ⟨hcond, hbody⟩ := parseBody_isHelp argv hs hgs hhelp
        rw [if_pos hcond, if_pos hhelp, hbody, Loops.whileFuel, if_neg (by simp [parseCond])]
        rfl
      · obtain ⟨hcond, hnext, hrest, hparser, hstore⟩ :=
          parseBody_group argv hs hgs (Bool.eq_false_iff.mpr hhelp)
        rw [if_pos hcond, if_neg hhelp, ih hnext hrest (by omega), hparser, hstore]

theorem optsLen_eq_zero_iff (parser : AdcArgpParser B) :
    parser.optsLen = 0 ↔ parser.opts.1 = [] := by
  have hlt := parser.opts.2.2
  rw [AdcArgpParser.optsLen, ← List.length_eq_zero_iff]
  constructor
  · intro hzero
    have hmod := congrArg BitVec.toNat hzero
    rwa [BitVec.toNat_ofNat, Nat.mod_eq_of_lt hlt] at hmod
  · intro hzero
    rw [hzero]
    rfl

/-- The outcome of a call by the groups of its arguments. -/
def callOutcome (parser : AdcArgpParser B) (argv : List Str) (store : Store B) :
    ParseOutcome B :=
  if parser.opts.1 = [] then .returned 0 parser store
  else handleGroups (argGroups B parser.opts argv) (setProgname parser argv) store

/--
Every call ends, and does what its groups say: up to the first help option each of
them adds its error and writes its value, and the help option exits.
-/
theorem adcArgpParse_eq (parser : AdcArgpParser B) (argv : List Str) (store : Store B) :
    adcArgpParse parser argv store = some (callOutcome parser argv store) := by
  rw [adcArgpParse, callOutcome]
  by_cases hopts : parser.opts.1 = []
  · rw [if_pos hopts, if_pos ((optsLen_eq_zero_iff parser).mpr hopts)]
  · rw [if_neg hopts, if_neg fun hzero => hopts ((optsLen_eq_zero_iff parser).mp hzero)]
    have hlength := length_groups_le (takesValue B parser.opts) (argv.drop 1)
    rw [List.length_drop] at hlength
    have hfuel : (argGroups B parser.opts argv).length < argv.length + 1 := by
      rw [argGroups]
      omega
    have hstart : Running parser.opts ⟨1, setProgname parser argv, store, false⟩ :=
      ⟨setProgname_opts parser argv, rfl⟩
    exact whileFuel_handleGroups argv hstart rfl hfuel

/-! ## The help option -/

/-- Handling groups keeps the program name and the table. -/
theorem handleGroups_frame (gs : List (ItemGroup Str)) (parser : AdcArgpParser B)
    (store : Store B) :
    (handleGroups gs parser store).parser.progname = parser.progname ∧
      (handleGroups gs parser store).parser.opts = parser.opts := by
  induction gs generalizing parser store with
  | nil => exact ⟨rfl, rfl⟩
  | cons g gs ih =>
      rw [handleGroups]
      split
      · exact ⟨rfl, rfl⟩
      · obtain ⟨hprogname, hopts⟩ := ih (addGroupError parser g)
          (writeAll (groupWrite B parser.opts g).toList store)
        exact ⟨hprogname.trans (addGroupError_progname _ _), hopts.trans (addGroupError_opts _ _)⟩

theorem handleGroups_exits_iff (gs : List (ItemGroup Str)) (parser : AdcArgpParser B)
    (store : Store B) :
    (∃ parser', handleGroups gs parser store = .exited parser') ↔
      ∃ g ∈ gs, isHelp parser.opts g = true := by
  induction gs generalizing parser store with
  | nil => simp [handleGroups]
  | cons g gs ih =>
      simp only [handleGroups, List.mem_cons, exists_eq_or_imp]
      by_cases hhelp : isHelp parser.opts g = true
      · rw [if_pos hhelp]
        exact iff_of_true ⟨parser, rfl⟩ (.inl hhelp)
      · rw [if_neg hhelp, ih, addGroupError_opts]
        exact (or_iff_right hhelp).symm

/--
A call exits exactly when one of its groups is a help option of its table, and the help
text is then printed with the name of `argv[0]` and one line for each option.
-/
theorem adcArgpParse_exits_iff (parser : AdcArgpParser B) (argv : List Str) (store : Store B) :
    ((∃ parser', adcArgpParse parser argv store = some (.exited parser')) ↔
        ∃ g ∈ argGroups B parser.opts argv, isHelp parser.opts g = true) ∧
      ∀ parser', adcArgpParse parser argv store = some (.exited parser') →
        ∃ progname, argv[0]? = some progname ∧
          printHelp parser' =
            some (progname ++ " usage:\n".toList ++ parser.opts.1.flatMap helpLine) := by
  have hcall (parser' : AdcArgpParser B) :
      adcArgpParse parser argv store = some (.exited parser') ↔
        parser.opts.1 ≠ [] ∧ handleGroups (argGroups B parser.opts argv)
          (setProgname parser argv) store = .exited parser' := by
    rw [adcArgpParse_eq, callOutcome, Option.some_inj]
    by_cases hopts : parser.opts.1 = []
    · simp [hopts]
    · simp [hopts]
  have hiff := handleGroups_exits_iff (argGroups B parser.opts argv) (setProgname parser argv) store
  rw [setProgname_opts] at hiff
  -- only an option of the table can be the help
  have hnonempty (h : ∃ g ∈ argGroups B parser.opts argv, isHelp parser.opts g = true) :
      parser.opts.1 ≠ [] := by
    obtain ⟨g, -, hg⟩ := h
    rw [isHelp] at hg
    cases hlookup : lookup parser.opts (groupName g) with
    | none => exact absurd hg (by simp [hlookup])
    | some k => exact List.length_pos_iff.mp (Nat.zero_lt_of_lt (lookup_lt hlookup))
  simp only [hcall]
  refine ⟨⟨?_, fun h => ?_⟩, ?_⟩
  · rintro ⟨parser', -, hexit⟩
    exact hiff.mp ⟨parser', hexit⟩
  · obtain ⟨parser', hexit⟩ := hiff.mpr h
    exact ⟨parser', hnonempty h, hexit⟩
  · rintro parser' ⟨-, hexit⟩
    obtain ⟨hprogname, hopts⟩ := handleGroups_frame (argGroups B parser.opts argv)
      (setProgname parser argv) store
    rw [hexit] at hprogname hopts
    simp only [ParseOutcome.parser] at hprogname hopts
    obtain ⟨g, hg, -⟩ := hiff.mp ⟨parser', hexit⟩
    cases argv with
    | nil => exact absurd hg (by simp [argGroups, groups])
    | cons progname args =>
        refine ⟨progname, rfl, ?_⟩
        rw [printHelp, hprogname, hopts, setProgname_opts]
        rfl

/-! ## Calls that return -/

/-- Groups without a help option. -/
theorem handleGroups_returned {gs : List (ItemGroup Str)} {parser : AdcArgpParser B}
    (hhelp : ∀ g ∈ gs, isHelp parser.opts g = false) (store : Store B) :
    handleGroups gs parser store =
      .returned (gs.foldl addGroupError parser).errorsLen (gs.foldl addGroupError parser)
        (writeAll (gs.filterMap (groupWrite B parser.opts)) store) := by
  induction gs generalizing parser store with
  | nil => rfl
  | cons g gs ih =>
      obtain ⟨hg, hgs⟩ := List.forall_mem_cons.mp hhelp
      have hopts := addGroupError_opts parser g
      rw [handleGroups, if_neg (by rw [hg]; decide), ih (hopts ▸ hgs), hopts, List.foldl_cons]
      cases hwrite : groupWrite B parser.opts g with
      | none => rw [List.filterMap_cons_none hwrite, Option.toList_none, writeAll_nil]
      | some w => rw [List.filterMap_cons_some hwrite]; rfl

theorem foldl_addGroupError (gs : List (ItemGroup Str)) (parser : AdcArgpParser B) :
    (gs.foldl addGroupError parser).opts = parser.opts ∧
      (gs.foldl addGroupError parser).progname = parser.progname ∧
      (gs.foldl addGroupError parser).errors.1 =
        (parser.errors.1 ++ gs.filterMap (groupError B parser.opts)).take B.adcArgpMaxErrors := by
  induction gs generalizing parser with
  | nil =>
      refine ⟨rfl, rfl, ?_⟩
      rw [List.filterMap_nil, List.append_nil, List.take_of_length_le parser.errors.2]
      rfl
  | cons g gs ih =>
      obtain ⟨hopts, hprogname, herrors⟩ := ih (addGroupError parser g)
      rw [List.foldl_cons]
      refine ⟨hopts.trans (addGroupError_opts _ _),
        hprogname.trans (addGroupError_progname _ _), ?_⟩
      rw [herrors, addGroupError_errors, addGroupError_opts, BoundedTable.take_take_append,
        List.append_assoc]
      cases herror : groupError B parser.opts g with
      | none => rw [List.filterMap_cons_none herror, Option.toList_none, List.nil_append]
      | some err =>
          rw [List.filterMap_cons_some herror, Option.toList_some, List.singleton_append]

/--
After a call that returns, every location holds the last value that a group wrote to it,
or what it held before the call.
-/
theorem adcArgpParse_last_write {parser parser' : AdcArgpParser B} {argv : List Str}
    {store store' : Store B} {result : Nat} (hopts : parser.opts.1 ≠ [])
    (h : adcArgpParse parser argv store = some (.returned result parser' store')) (loc : Loc) :
    store' loc =
      ((writesTo loc ((argGroups B parser.opts argv).filterMap
        (groupWrite B parser.opts))).getLast?).getD (store loc) := by
  have hhelp : ∀ g ∈ argGroups B parser.opts argv,
      isHelp (setProgname parser argv).opts g = false := by
    intro g hg
    by_contra htrue
    rw [setProgname_opts, Bool.not_eq_false] at htrue
    have hexits := (handleGroups_exits_iff (argGroups B parser.opts argv)
      (setProgname parser argv) store).mpr ⟨g, hg, by rwa [setProgname_opts]⟩
    obtain ⟨parser', hexit⟩ := hexits
    rw [adcArgpParse_eq, callOutcome, if_neg hopts, hexit] at h
    exact absurd (Option.some.inj h) (by simp)
  rw [adcArgpParse_eq, callOutcome, if_neg hopts, handleGroups_returned hhelp,
    setProgname_opts] at h
  injection h with h
  injection h with _ _ hstore
  rw [← hstore, writeAll_apply]

/-- Of two scales the second one stays. -/
theorem adcArgpParse_last_write_test :
    ∃ result parser' store',
      adcArgpParse testParser
        ["prog".toList, "-s".toList, "1".toList, "--winscale".toList, "2".toList]
        (fun _ => .int 0) = some (.returned result parser' store') ∧ store' 3 = .uint 2 := by
  obtain ⟨parser', store', hparse⟩ : ∃ parser' store',
      adcArgpParse testParser
        ["prog".toList, "-s".toList, "1".toList, "--winscale".toList, "2".toList]
        (fun _ => .int 0) = some (.returned 0 parser' store') := ⟨_, _, rfl⟩
  have hopts : testParser.opts.1 ≠ [] := by decide
  exact ⟨0, parser', store', hparse, adcArgpParse_last_write hopts hparse 3⟩

/-! ## Arguments in two calls -/

/-- The call with the rest of the arguments, unless the program has exited. -/
def ParseOutcome.andThen (out : ParseOutcome B) (argv : List Str) : Option (ParseOutcome B) :=
  match out with
  | .returned _ parser store => adcArgpParse parser argv store
  | .exited parser => some (.exited parser)

theorem handleGroups_append (gs gs' : List (ItemGroup Str)) (parser : AdcArgpParser B)
    (store : Store B) :
    handleGroups (gs ++ gs') parser store =
      match handleGroups gs parser store with
      | .returned _ parser' store' => handleGroups gs' parser' store'
      | .exited parser' => .exited parser' := by
  induction gs generalizing parser store with
  | nil => rfl
  | cons g gs ih =>
      rw [List.cons_append, handleGroups, handleGroups]
      by_cases hhelp : isHelp parser.opts g = true
      · rw [if_pos hhelp, if_pos hhelp]
      · rw [if_neg hhelp, if_neg hhelp, ih]

theorem setProgname_of_eq {parser : AdcArgpParser B} {progname : Str}
    (h : parser.progname = some progname) (args : List Str) :
    setProgname parser (progname :: args) = parser := by
  refine parser_ext ?_ (setProgname_opts _ _) (by rw [setProgname_errors])
  exact h.symm

/--
Unless the first arguments end in an option that lacks its argument, a call with all
arguments does what a call with the first ones and then one with the others does: the
result, the errors, the store and an exit are the same.
-/
theorem adcArgpParse_append (parser : AdcArgpParser B) (progname : Str) (xs ys : List Str)
    (store : Store B)
    (hcut : ∀ name, .cut name ∉ argGroups B parser.opts (progname :: xs)) :
    adcArgpParse parser (progname :: (xs ++ ys)) store =
      (adcArgpParse parser (progname :: xs) store).bind fun out =>
        out.andThen (progname :: ys) := by
  rw [adcArgpParse_eq, adcArgpParse_eq, Option.bind_some, callOutcome, callOutcome]
  by_cases hopts : parser.opts.1 = []
  · rw [if_pos hopts, if_pos hopts, ParseOutcome.andThen, adcArgpParse_eq, callOutcome,
      if_pos hopts]
  · have hgroups : argGroups B parser.opts (progname :: (xs ++ ys)) =
        argGroups B parser.opts (progname :: xs) ++ argGroups B parser.opts (progname :: ys) :=
      groups_append ys hcut
    have hsame : setProgname parser (progname :: (xs ++ ys)) =
        setProgname parser (progname :: xs) := rfl
    rw [if_neg hopts, if_neg hopts, hgroups, hsame, handleGroups_append]
    cases hfirst : handleGroups (argGroups B parser.opts (progname :: xs))
        (setProgname parser (progname :: xs)) store with
    | exited parser' => rfl
    | returned result parser' store' =>
        obtain ⟨hprogname, hopts'⟩ := handleGroups_frame
          (argGroups B parser.opts (progname :: xs)) (setProgname parser (progname :: xs)) store
        rw [hfirst, setProgname_opts] at hopts'
        rw [hfirst] at hprogname
        simp only [ParseOutcome.parser] at hprogname hopts'
        rw [ParseOutcome.andThen, adcArgpParse_eq, callOutcome, if_neg (hopts' ▸ hopts), hopts',
          setProgname_of_eq hprogname]

theorem adcArgpParse_append_test :
    adcArgpParse testParser ["prog".toList, "-f".toList, "-x".toList] (fun _ => .int 0) =
      (adcArgpParse testParser ["prog".toList, "-f".toList] (fun _ => .int 0)).bind fun out =>
        out.andThen ["prog".toList, "-x".toList] := by
  refine adcArgpParse_append testParser "prog".toList ["-f".toList] ["-x".toList] _ ?_
  intro name hname
  have hgroups : argGroups plainBuild testParser.opts ["prog".toList, "-f".toList] =
      [.single "-f".toList] := by decide
  rw [hgroups] at hname
  exact absurd (List.mem_singleton.mp hname) (by simp)

end Argp
end AdcLibs
