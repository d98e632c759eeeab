import AdcLibs.Library.BoundedTable
import AdcLibs.Argp.ValueParsers

/-!
# A call of `adc_argp_parse`

Each round of the loop handles one group, so that a call handles all of them from
left to right.
-/

namespace AdcLibs
namespace Argp

open BoundedTable
open Grouping

variable {B : Build} {opts : OptionTable}

/-! ## The body of the loop -/

/-- `add_error` keeps the first errors. -/
theorem addError_errors (parser : AdcArgpParser B) (type : ErrorType) (opt : Option Nat)
    (arg : Str) :
    (addError parser type opt arg).errors.1 =
      (parser.errors.1 ++ [(⟨type, opt, arg⟩ : ArgpError)]).take B.adcArgpMaxErrors := by
  rw [← add_eq_take parser.errors.2, add, addError]
  split
  · next hfull => exact (if_pos hfull).symm
  · next hroom => exact (if_neg hroom).symm

@[simp] theorem addError_opts (parser : AdcArgpParser B) (type : ErrorType)
    (opt : Option Nat) (arg : Str) : (addError parser type opt arg).opts = parser.opts := by
  rw [addError]
  split <;> rfl

theorem findOpt_of_lookup {arg : Str} {k : Nat} (h : lookup opts arg = some k) :
    findOpt arg opts.1 (BitVec.ofNat 32 opts.1.length).toInt = k := by
  simp only [lookup] at h
  split at h
  · exact absurd h (by simp)
  · have hk := Option.some.inj h
    omega

theorem findOpt_of_lookup_none {arg : Str} (h : lookup opts arg = none) :
    findOpt arg opts.1 (BitVec.ofNat 32 opts.1.length).toInt < 0 := by
  simp only [lookup] at h
  split at h
  · assumption
  · exact absurd h (by simp)

theorem parseBody_unknown {argv : List Str} {s : ParseState B}
    (h : lookup s.parser.opts (argv.getD s.i []) = none) :
    parseBody argv s =
      { s with
        i := s.i + 1
        parser := addError s.parser .optUnknown none (argv.getD s.i []) } := by
  have hneg := findOpt_of_lookup_none h
  rw [parseBody, AdcArgpParser.optsLen, if_pos hneg]

theorem parseBody_flag {argv : List Str} {s : ParseState B} {k : Nat}
    (h : lookup s.parser.opts (argv.getD s.i []) = some k)
    (htype : (optAt s.parser.opts k).valtype = .flag) :
    parseBody argv s =
      { s with
        i := s.i + 1
        store := s.store.set (optAt s.parser.opts k).val (.int 1) } := by
  have hfind := findOpt_of_lookup h
  rw [optAt] at htype ⊢
  simp only [parseBody, AdcArgpParser.optsLen, hfind, Int.toNat_natCast, htype]
  exact if_neg (by omega)

theorem parseBody_arg {argv : List Str} {s : ParseState B} {k : Nat}
    {parse : Value B → Str → Value B × ErrorType}
    (h : lookup s.parser.opts (argv.getD s.i []) = some k)
    (hparse : valueParser B (optAt s.parser.opts k).valtype = some parse) :
    parseBody argv s = parseArg argv k parse s := by
  have hfind := findOpt_of_lookup h
  have hnot : ¬ ((k : Int) < 0) := by omega
  rw [optAt] at hparse
  simp only [parseBody, AdcArgpParser.optsLen, hfind, Int.toNat_natCast, if_neg hnot]
  cases htype : (s.parser.opts.1.getD k default).valtype <;>
    simp_all [valueParser]

theorem parseBody_help {argv : List Str} {s : ParseState B} {k : Nat}
    (h : lookup s.parser.opts (argv.getD s.i []) = some k)
    (htype : (optAt s.parser.opts k).valtype = .help) :
    parseBody argv s = { s with exited := true } := by
  have hfind := findOpt_of_lookup h
  rw [optAt] at htype
  simp only [parseBody, AdcArgpParser.optsLen, hfind, Int.toNat_natCast, htype]
  exact if_neg (by omega)

/-- All that a round can do. -/
theorem parseBody_cases (argv : List Str) (s : ParseState B) :
    lookup s.parser.opts (argv.getD s.i []) = none ∧
        parseBody argv s =
          { s with
            i := s.i + 1
            parser := addError s.parser .optUnknown none (argv.getD s.i []) } ∨
      ∃ k, lookup s.parser.opts (argv.getD s.i []) = some k ∧ k < s.parser.opts.1.length ∧
        ((optAt s.parser.opts k).valtype = .help ∧ parseBody argv s = { s with exited := true } ∨
          (optAt s.parser.opts k).valtype = .flag ∧
            parseBody argv s =
              { s with
                i := s.i + 1
                store := s.store.set (optAt s.parser.opts k).val (.int 1) } ∨
          ∃ parse, valueParser B (optAt s.parser.opts k).valtype = some parse ∧
            parseBody argv s = parseArg argv k parse s) := by
  cases hlookup : lookup s.parser.opts (argv.getD s.i []) with
  | none => exact .inl ⟨rfl, parseBody_unknown hlookup⟩
  | some k =>
      have hk := lookup_lt hlookup
      refine .inr ⟨k, rfl, hk, ?_⟩
      by_cases hhelp : (optAt s.parser.opts k).valtype = .help
      · exact .inl ⟨hhelp, parseBody_help hlookup hhelp⟩
      · by_cases hflag : (optAt s.parser.opts k).valtype = .flag
        · exact .inr (.inl ⟨hflag, parseBody_flag hlookup hflag⟩)
        · obtain ⟨parse, hparse⟩ :=
            Option.isSome_iff_exists.mp ((valueParser_isSome (B := B) hk).mpr ⟨hhelp, hflag⟩)
          exact .inr (.inr ⟨parse, hparse, parseBody_arg hlookup hparse⟩)

/-- What a round of the loop does, for the group it handles. -/
structure Handles (opts : OptionTable) (g : ItemGroup Str) (s t : ParseState B) : Prop where
  errors : t.parser.errors.1 =
    (s.parser.errors.1 ++ (groupError B opts g).toList).take B.adcArgpMaxErrors
  store : GroupStep opts g s.store t.store

/-- The loop is running over the table `opts`. -/
structure Running (opts : OptionTable) (s : ParseState B) : Prop where
  opts_eq : s.parser.opts = opts
  running : s.exited = false

/-- The errors of a parser after a group without an error. -/
theorem take_errors (parser : AdcArgpParser B) :
    parser.errors.1 = (parser.errors.1 ++ (none : Option ArgpError).toList).take
      B.adcArgpMaxErrors := by
  rw [Option.toList_none, List.append_nil, List.take_of_length_le parser.errors.2]

section Body

variable {argv : List Str} {s : ParseState B} {name : Str}

theorem handles_unknown (hname : argv.getD s.i [] = name)
    (hlookup : lookup s.parser.opts name = none) :
    Handles s.parser.opts (.single name) s (parseBody argv s) := by
  rw [parseBody_unknown (hname ▸ hlookup), hname]
  refine ⟨?_, fun loc _ => ?_⟩
  · simp only [groupError, hlookup, if_true, Option.toList_some]
    exact addError_errors _ _ _ _
  · simp only [groupStore, hlookup, Option.bind_none, applyStore]

theorem handles_flag {k : Nat} (hname : argv.getD s.i [] = name)
    (hlookup : lookup s.parser.opts name = some k)
    (htype : (optAt s.parser.opts k).valtype = .flag) :
    Handles s.parser.opts (.single name) s (parseBody argv s) := by
  rw [parseBody_flag (hname ▸ hlookup) htype]
  refine ⟨?_, fun loc _ => ?_⟩
  · rw [groupError, hlookup, if_neg (Option.some_ne_none k)]
    exact take_errors s.parser
  · simp only [groupStore, hlookup, Option.bind_some, htype, if_true, applyStore]

theorem handles_cut {k : Nat} {parse : Value B → Str → Value B × ErrorType}
    (hname : argv.getD s.i [] = name) (hlast : argv.length ≤ s.i + 1)
    (hlookup : lookup s.parser.opts name = some k)
    (hparse : valueParser B (optAt s.parser.opts k).valtype = some parse) :
    Handles s.parser.opts (.cut name) s (parseBody argv s) := by
  rw [parseBody_arg (hname ▸ hlookup) hparse, parseArg]
  simp only [ge_iff_le, if_pos hlast, Nat.add_sub_cancel, hname]
  refine ⟨?_, fun loc _ => rfl⟩
  simp only [groupError, hlookup, Option.toList_some]
  exact addError_errors _ _ _ _

theorem handles_pair {k : Nat} {arg : Str} {parse : Value B → Str → Value B × ErrorType}
    (hname : argv.getD s.i [] = name) (hnext : s.i + 1 < argv.length)
    (harg : argv.getD (s.i + 1) [] = arg) (hlookup : lookup s.parser.opts name = some k)
    (hparse : valueParser B (optAt s.parser.opts k).valtype = some parse) :
    Handles s.parser.opts (.pair name arg) s (parseBody argv s) := by
  rw [parseBody_arg (hname ▸ hlookup) hparse, parseArg]
  simp only [ge_iff_le, if_neg (Nat.not_le.mpr hnext), harg]
  rw [← optAt]
  rcases valueParser_spec hparse arg (s.store (optAt s.parser.opts k).val) with
    ⟨v, hresult, hv⟩ | ⟨err, hresult, hne, herr, hkeep⟩
  · rw [hv]
    refine ⟨?_, fun loc _ => ?_⟩
    · simp only [groupError, hlookup, Option.bind_some, hresult]
      exact take_errors s.parser
    · simp only [groupStore, hlookup, Option.bind_some, hresult, applyStore]
  · refine ⟨?_, fun loc hloc => ?_⟩
    · simp only [groupError, hlookup, Option.bind_some, hresult, herr, if_pos hne,
        Option.toList_some]
      exact addError_errors _ _ _ _
    · simp only [groupStore, hlookup, Option.bind_some, hresult, applyStore, Store.set]
      split
      · next heq =>
          rcases hkeep with hkeep | ⟨htype, hint⟩
          · rw [hkeep, heq]
          · refine absurd ⟨name, arg, k, rfl, hlookup, htype, heq.symm, ⟨err, ?_⟩, hint⟩ hloc
            rw [← htype]
            exact hresult
      · rfl

theorem parseArg_next (argv : List Str) (k : Nat) (parse : Value B → Str → Value B × ErrorType)
    (s : ParseState B) :
    (parseArg argv k parse s).i = s.i + 2 ∧
      (parseArg argv k parse s).parser.opts = s.parser.opts ∧
      (parseArg argv k parse s).exited = s.exited := by
  rw [parseArg]
  split
  · exact ⟨rfl, addError_opts _ _ _ _, rfl⟩
  · refine ⟨rfl, ?_, rfl⟩
    simp only
    split
    · exact addError_opts _ _ _ _
    · rfl

theorem parseBody_opts (argv : List Str) (s : ParseState B) :
    (parseBody argv s).parser.opts = s.parser.opts := by
  obtain ⟨-, hbody⟩ | ⟨k, -, -, ⟨-, hbody⟩ | ⟨-, hbody⟩ | ⟨parse, -, hbody⟩⟩ :=
    parseBody_cases argv s
  · rw [hbody]
    exact addError_opts _ _ _ _
  · rw [hbody]
  · rw [hbody]
  · rw [hbody]
    exact (parseArg_next argv k parse s).2.1

end Body

/-! ## Rounds and runs -/

/-- A round of the loop handles the first group of the remaining arguments. -/
theorem parseBody_handles (argv : List Str) {s : ParseState B} {g : ItemGroup Str}
    {gs : List (ItemGroup Str)} (hs : Running opts s)
    (hgs : groups (takesValue B opts) (argv.drop s.i) = g :: gs) (hhelp : isHelp opts g = false) :
    parseCond argv s = true ∧ Running opts (parseBody argv s) ∧
      groups (takesValue B opts) (argv.drop (parseBody argv s).i) = gs ∧
      Handles opts g s (parseBody argv s) := by
  obtain ⟨rfl, hrunning⟩ := hs
  have hlt : s.i < argv.length := by
    by_contra hge
    rw [List.drop_of_length_le (by omega)] at hgs
    exact absurd hgs (by simp [groups])
  have hcond : parseCond argv s = true := by
    simp [parseCond, hrunning, hlt]
  obtain ⟨name, hname⟩ : ∃ name, argv.getD s.i [] = name := ⟨_, rfl⟩
  have hdrop : argv.drop s.i = name :: argv.drop (s.i + 1) := by
    rw [← hname, List.getD_eq_getElem _ _ hlt]
    exact List.drop_eq_getElem_cons hlt
  rw [hdrop] at hgs
  refine ⟨hcond, ?_⟩
  cases hlookup : lookup s.parser.opts name with
  | none =>
      rw [groups_single _ (by simp [takesValue, hlookup])] at hgs
      obtain ⟨rfl, htail⟩ := List.cons_eq_cons.mp hgs
      refine ⟨?_, ?_, handles_unknown hname hlookup⟩
      · rw [parseBody_unknown (hname ▸ hlookup)]
        exact ⟨addError_opts _ _ _ _, hrunning⟩
      · rw [parseBody_unknown (hname ▸ hlookup)]
        exact htail
  | some k =>
      have hvalue := valueParser_isSome (B := B) (lookup_lt hlookup)
      cases hparse : valueParser B (optAt s.parser.opts k).valtype with
      | none =>
          rw [hparse] at hvalue
          rw [groups_single _ (by simp [takesValue, hlookup, hparse])] at hgs
          obtain ⟨rfl, htail⟩ := List.cons_eq_cons.mp hgs
          have hflag : (optAt s.parser.opts k).valtype = .flag := by
            by_contra hne
            refine Bool.false_ne_true (hvalue.mpr ⟨fun htype => ?_, hne⟩)
            simp [isHelp, groupName, hlookup, htype] at hhelp
          refine ⟨?_, ?_, handles_flag hname hlookup hflag⟩
          · rw [parseBody_flag (hname ▸ hlookup) hflag]
            exact ⟨rfl, hrunning⟩
          · rw [parseBody_flag (hname ▸ hlookup) hflag]
            exact htail
      | some parse =>
          have htakes : takesValue B s.parser.opts name = true := by
            simp [takesValue, hlookup, hparse]
          have hnext := parseArg_next argv k parse s
          rw [← parseBody_arg (hname ▸ hlookup) hparse] at hnext
          obtain ⟨hi, hopts, hexited⟩ := hnext
          refine ⟨⟨hopts, hexited.trans hrunning⟩, ?_⟩
          rw [hi]
          by_cases hlast : argv.length ≤ s.i + 1
          · rw [List.drop_of_length_le hlast, groups_cut htakes] at hgs
            obtain ⟨rfl, rfl⟩ := List.cons_eq_cons.mp hgs
            refine ⟨?_, handles_cut hname hlast hlookup hparse⟩
            rw [List.drop_of_length_le (by omega)]
            rfl
          · rw [Nat.not_le] at hlast
            rw [List.drop_eq_getElem_cons hlast, groups_pair _ _ htakes] at hgs
            obtain ⟨rfl, htail⟩ := List.cons_eq_cons.mp hgs
            exact ⟨htail, handles_pair hname hlast (List.getD_eq_getElem _ _ hlast) hlookup hparse⟩

/-- The errors of a run are the first errors of its groups, in order. -/
theorem run_errors {gs : List (ItemGroup Str)} {s t : ParseState B}
    (h : Run (Handles opts) gs s t) :
    t.parser.errors.1 = (s.parser.errors.1 ++ gs.filterMap (groupError B opts)).take
      B.adcArgpMaxErrors := by
  induction h with
  | nil s => rw [List.filterMap_nil, List.append_nil, List.take_of_length_le s.parser.errors.2]
  | @cons g gs s t u hg _ ih =>
      rw [ih, hg.errors, take_take_append, List.append_assoc]
      cases hg : groupError B opts g with
      | none => rw [List.filterMap_cons_none hg, Option.toList_none, List.nil_append]
      | some err => rw [List.filterMap_cons_some hg, Option.toList_some, List.singleton_append]

/-- What a run does to the store. -/
theorem run_store {gs : List (ItemGroup Str)} {s t : ParseState B}
    (h : Run (Handles opts) gs s t) : Run (GroupStep opts) gs s.store t.store :=
  h.map ParseState.store fun _ _ _ hg => hg.store

/-! ## Targets -/

/-- No two options that have a target share it. -/
def DistinctTargets (opts : OptionTable) : Prop :=
  ∀ i < opts.1.length, ∀ k < opts.1.length,
    (optAt opts i).valtype ≠ .help → (optAt opts k).valtype ≠ .help →
      (optAt opts i).val = (optAt opts k).val → i = k

/-- A group stores to the target of the option that it names, if at all. -/
theorem groupStep_of_ne {g : ItemGroup Str} {store store' : Store B} {loc : Loc}
    (h : GroupStep opts g store store')
    (hloc : ∀ i, lookup opts (groupName g) = some i → (optAt opts i).valtype ≠ .help →
      (optAt opts i).val ≠ loc) : store' loc = store loc := by
  have hnumeral : ¬ BoolNumeral B opts g loc := by
    rintro ⟨name, arg, i, rfl, hlookup, htype, hval, -⟩
    exact hloc i hlookup (by rw [htype]; decide) hval
  rw [h loc hnumeral]
  cases hstore : groupStore B opts g with
  | none => rfl
  | some lv =>
      obtain ⟨l, v⟩ := lv
      rw [applyStore, Store.set, if_neg]
      rintro rfl
      obtain ⟨i, hi, hhelp, hval⟩ := groupStore_target hstore
      exact hloc i hi hhelp hval

/-- The target of an option that no group names keeps its contents. -/
theorem run_keeps (hdistinct : DistinctTargets opts) {gs : List (ItemGroup Str)}
    {store store' : Store B} (h : Run (GroupStep opts) gs store store') {k : Nat}
    (hk : k < opts.1.length) (htype : (optAt opts k).valtype ≠ .help)
    (hnamed : ∀ g ∈ gs, lookup opts (groupName g) ≠ some k) :
    store' (optAt opts k).val = store (optAt opts k).val := by
  refine h.invariant (P := fun g => lookup opts (groupName g) ≠ some k)
    (I := fun st => st (optAt opts k).val = store (optAt opts k).val) ?_ hnamed rfl
  intro g s t hg hstep hs
  rw [← hs]
  refine groupStep_of_ne hstep fun i hi hihelp => ?_
  exact fun hval => hg (hdistinct i (lookup_lt hi) k hk hihelp htype hval ▸ hi)

/-! ## Calls -/

/-- A call on a table that is not empty handles the groups of its arguments. -/
theorem adcArgpParse_run {parser : AdcArgpParser B} (hopts : parser.opts.1 ≠ [])
    (argv : List Str) (store : Store B)
    (hhelp : ∀ g ∈ argGroups B parser.opts argv, isHelp parser.opts g = false) :
    ∃ s t : ParseState B, s.parser.errors = parser.errors ∧ s.store = store ∧
      t.parser.opts = parser.opts ∧
      Run (Handles parser.opts) (argGroups B parser.opts argv) s t ∧
      adcArgpParse parser argv store = some (.returned t.parser.errorsLen t.parser t.store) := by
  have hlen : parser.optsLen ≠ 0 := by
    have hpos := List.length_pos_iff.mpr hopts
    have hlt := parser.opts.2.2
    rw [AdcArgpParser.optsLen]
    intro hzero
    have hmod := congrArg BitVec.toNat hzero
    rw [BitVec.toNat_ofNat, Nat.mod_eq_of_lt hlt] at hmod
    exact absurd hmod (Nat.ne_of_gt hpos)
  have hfuel : (argGroups B parser.opts argv).length < argv.length + 1 := by
    have hle := length_groups_le (takesValue B parser.opts) (argv.drop 1)
    rw [List.length_drop] at hle
    rw [argGroups]
    omega
  have hdone (s : ParseState B) (_ : Running parser.opts s) (hnil : argv.drop s.i = []) :
      parseCond argv s = false := by
    rw [List.drop_eq_nil_iff] at hnil
    simp [parseCond, hnil]
  have hstart : Running parser.opts ⟨1, setProgname parser argv, store, false⟩ :=
    ⟨setProgname_opts parser argv, rfl⟩
  obtain ⟨t, ht, hrunning, hrun⟩ := whileFuel_groups (P := fun g => isHelp parser.opts g = false)
    (fun s : ParseState B => argv.drop s.i) hdone
    (fun s g gs hs hgs hg => parseBody_handles argv hs hgs hg) hstart rfl hhelp hfuel
  refine ⟨_, t, setProgname_errors parser argv, rfl, hrunning.opts_eq, hrun, ?_⟩
  rw [adcArgpParse, if_neg hlen, ht, Option.map_some, if_neg (by rw [hrunning.running]; decide)]

theorem adcArgpNewParser_fresh {opts : List AdcArgpOption} {hlen : opts.length < 2 ^ 32}
    {parser : AdcArgpParser B} (h : adcArgpNewParser B opts hlen = some parser) :
    parser.opts.1 = opts ∧ parser.errors.1 = [] := by
  rw [adcArgpNewParser] at h
  split at h
  · obtain rfl := Option.some.inj h
    exact ⟨rfl, rfl⟩
  · exact absurd h (by simp)

/-- Parsing with a new parser whose table is not empty, where no help option is reached:
the groups are the arguments, each group records its error or stores to its target, and
the first errors are kept.  With an empty table nothing is done. -/
theorem adcArgpParse_folds_groups {opts : List AdcArgpOption} {hlen : opts.length < 2 ^ 32}
    {parser : AdcArgpParser B} (hnew : adcArgpNewParser B opts hlen = some parser)
    (hdistinct : DistinctTargets parser.opts) (argv : List Str) (store : Store B)
    (hhelp : ∀ g ∈ argGroups B parser.opts argv, isHelp parser.opts g = false) :
    (opts = [] → adcArgpParse parser argv store = some (.returned 0 parser store)) ∧
      (opts ≠ [] → ∃ parser' store',
        adcArgpParse parser argv store =
          some (.returned
            (min B.adcArgpMaxErrors
              ((argGroups B parser.opts argv).filterMap (groupError B parser.opts)).length)
            parser' store') ∧
        (argGroups B parser.opts argv).flatMap ItemGroup.items = argv.drop 1 ∧
        parser'.errors.1 =
          ((argGroups B parser.opts argv).filterMap (groupError B parser.opts)).take
            B.adcArgpMaxErrors ∧
        Run (GroupStep parser.opts) (argGroups B parser.opts argv) store store' ∧
        ∀ k < opts.length, (optAt parser.opts k).valtype ≠ .help →
          (∀ g ∈ argGroups B parser.opts argv, lookup parser.opts (groupName g) ≠ some k) →
            store' (optAt parser.opts k).val = store (optAt parser.opts k).val) := by
  obtain ⟨hopts, herrors⟩ := adcArgpNewParser_fresh hnew
  constructor
  · rintro rfl
    have hzero : parser.optsLen = 0 := by
      rw [AdcArgpParser.optsLen, hopts]
      rfl
    rw [adcArgpParse, if_pos hzero]
  · intro hne
    obtain ⟨s, t, hs, rfl, -, hrun, hparse⟩ :=
      adcArgpParse_run (hopts ▸ hne) argv store hhelp
    have hkept := run_errors hrun
    rw [hs, herrors, List.nil_append] at hkept
    refine ⟨t.parser, t.store, ?_, flatMap_items_groups _ _, hkept, run_store hrun, ?_⟩
    · rw [hparse, AdcArgpParser.errorsLen, hkept, List.length_take]
    · intro k hk htype hnamed
      exact run_keeps hdistinct (run_store hrun) (hopts ▸ hk) htype hnamed

/-- A build in which no string is a floating-point number. -/
def plainBuild : Build where
  Float := Unit
  Double := Unit
  strtof := fun s => ((), s, false)
  strtod := fun s => ((), s, false)
  ofDouble := id
  toDouble := id
  feq := fun _ _ => true
  fle := fun _ _ => true
  fneg := id
  hugeValf := ()
  fltMin := ()
  deq := fun _ _ => true
  dle := fun _ _ => true
  dneg := id
  hugeVal := ()
  dblMin := ()
  adcArgpMaxErrors := 32

/-- The options of `argp_test.c`. -/
def testOptions : List AdcArgpOption :=
  [adcArgpHelp,
    ⟨some "fullscreen".toList, some "f".toList, .flag, 1,
      some "Enable fullscreen mode".toList⟩,
    ⟨some "configdir".toList, some "d".toList, .string, 2,
      some "Set the config directory".toList⟩,
    ⟨some "winscale".toList, some "s".toList, .uint, 3,
      some "Set the window scale factor".toList⟩]

def testParser : AdcArgpParser plainBuild :=
  ⟨none, ⟨testOptions, by decide, by decide⟩, ⟨[], Nat.zero_le _⟩⟩

/-- `-d --fullscreen abc -s` sets the directory to `--fullscreen`; `abc` is unknown and
the scale has no value. -/
theorem adcArgpParse_folds_groups_test :
    ∃ parser' store',
      adcArgpParse testParser
        ["prog".toList, "-d".toList, "--fullscreen".toList, "abc".toList, "-s".toList]
        (fun _ => .int 0) = some (.returned 2 parser' store') ∧
      parser'.errors.1 =
        [⟨.optUnknown, none, "abc".toList⟩, ⟨.argMissing, some 3, "-s".toList⟩] := by
  have hnew : adcArgpNewParser plainBuild testOptions (by decide) = some testParser := rfl
  obtain ⟨parser', store', hparse, -, herrors, -⟩ :=
    (adcArgpParse_folds_groups hnew (by unfold DistinctTargets; decide)
      ["prog".toList, "-d".toList, "--fullscreen".toList, "abc".toList, "-s".toList]
      (fun _ => .int 0) (by decide)).2 (by decide)
  exact ⟨parser', store', hparse, herrors⟩

/-- With an empty table an unknown option is not reported. -/
theorem adcArgpParse_ignores_unknown :
    ¬ ∀ (opts : List AdcArgpOption) (hlen : opts.length < 2 ^ 32)
      (parser : AdcArgpParser plainBuild),
      adcArgpNewParser plainBuild opts hlen = some parser → DistinctTargets parser.opts →
      ∀ (argv : List Str) (store : Store plainBuild),
        (∀ g ∈ argGroups plainBuild parser.opts argv, isHelp parser.opts g = false) →
        ∃ parser' store',
          adcArgpParse parser argv store =
            some (.returned
              (min plainBuild.adcArgpMaxErrors
                ((argGroups plainBuild parser.opts argv).filterMap
                  (groupError plainBuild parser.opts)).length)
              parser' store') := by
  intro h
  obtain ⟨parser', store', hparse⟩ := h [] (by decide)
    ⟨none, ⟨[], by decide, by decide⟩, ⟨[], Nat.zero_le _⟩⟩ rfl
    (by unfold DistinctTargets; decide) ["prog".toList, "--x".toList] (fun _ => .int 0)
    (by decide)
  have hcount : (0 : Nat) = 1 := by
    injection hparse with hparse
    injection hparse
  exact absurd hcount (by decide)

end Argp
end AdcLibs
