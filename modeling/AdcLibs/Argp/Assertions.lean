import AdcLibs.Argp.Calls

/-!
# Assertions

`adc_argp_parse` and `adc_argp_print_errors` with pointers that can be `NULL`: a read of
the arguments finds `NULL` where an entry is `NULL` or behind the last one, an error
keeps the pointers it is given, and an assertion or an access that `NULL` does not
survive fails the whole call.  Where no entry of the arguments is `NULL` nothing fails,
and the calls are those of the plain model.
-/

namespace AdcLibs
namespace Argp

open Loops

variable {B : Build}

/-! ## Pointers -/

/-- `error`; `none` is `NULL`. -/
structure CheckedError where
  type : ErrorType
  opt : Option Nat
  argv : Option Str

/-- `adc_argp_parser`; `errors` are the first `errors_len` entries. -/
structure CheckedParser (B : Build) where
  progname : Option Str
  opts : OptionTable
  errors : List CheckedError

/-- The entry with a pointer for its argument. -/
def ArgpError.toChecked (err : ArgpError) : CheckedError := ⟨err.type, err.opt, some err.argv⟩

def AdcArgpParser.toChecked (parser : AdcArgpParser B) : CheckedParser B :=
  ⟨parser.progname, parser.opts, parser.errors.1.map ArgpError.toChecked⟩

/-- `adc_argp_new_parser`, where `malloc` succeeds; `none` is a failed assertion. -/
def checkedNewParser (B : Build) (opts : List AdcArgpOption) (hlen : opts.length < 2 ^ 32) :
    Option (CheckedParser B) :=
  (adcArgpNewParser B opts hlen).map AdcArgpParser.toChecked

/-- `argv[i]`; `argv[argc]` is `NULL`. -/
def argAt (argv : List (Option Str)) (i : Nat) : Option Str := argv[i]?.join

/-- `add_error` -/
def checkedAddError (parser : CheckedParser B) (type : ErrorType) (opt : Option Nat)
    (argv : Option Str) : CheckedParser B :=
  if parser.errors.length ≥ B.adcArgpMaxErrors then parser
  else { parser with errors := parser.errors ++ [⟨type, opt, argv⟩] }

/-! ## Parsing -/

/-- The state of the loop. -/
structure CheckedState (B : Build) where
  i : Nat
  parser : CheckedParser B
  store : Store B
  exited : Bool

/-- A case with `ARGV_NEXT` and a value parser, which asserts its argument.  Here a string
option asserts its argument too, where the source would store `NULL`. -/
def checkedArg (argv : List (Option Str)) (optIndex : Nat)
    (parse : Value B → Str → Value B × ErrorType) (s : CheckedState B) :
    Option (CheckedState B) :=
  let opt := s.parser.opts.1.getD optIndex default
  let i := s.i + 1
  if i ≥ argv.length then
    some
      { s with
        i := i + 1
        parser :=
          checkedAddError s.parser .argMissing (some optIndex) (argAt argv (i - 1)) }
  else
    (argAt argv i).map fun arg =>
      let (val, err) := parse (s.store opt.val) arg
      { s with
        i := i + 1
        store := s.store.set opt.val val
        parser :=
          if err ≠ .none then checkedAddError s.parser err (some optIndex) (argAt argv i)
          else s.parser }

/-- The body of the loop; `find_opt` asserts its argument. -/
def checkedBody (argv : List (Option Str)) (s : CheckedState B) : Option (CheckedState B) :=
  (argAt argv s.i).bind fun arg =>
    let optIndex :=
      findOpt arg s.parser.opts.1 (BitVec.ofNat 32 s.parser.opts.1.length).toInt
    if optIndex < 0 then
      some
        { s with
          i := s.i + 1
          parser := checkedAddError s.parser .optUnknown none (argAt argv s.i) }
    else
      let opt := s.parser.opts.1.getD optIndex.toNat default
      match opt.valtype with
      | .help => some { s with exited := true }
      | .flag => some { s with i := s.i + 1, store := s.store.set opt.val (.int 1) }
      | .bool => checkedArg argv optIndex.toNat parseBool s
      | .string => checkedArg argv optIndex.toNat parseString s
      | .int => checkedArg argv optIndex.toNat parseInt s
      | .uint => checkedArg argv optIndex.toNat parseUint s
      | .float => checkedArg argv optIndex.toNat parseFloat s
      | .double => checkedArg argv optIndex.toNat parseDouble s
      | .max => some { s with i := s.i + 1 }

def checkedCond (argv : List (Option Str)) (s : CheckedState B) : Bool :=
  !s.exited && s.i < argv.length

/-- The parser with the program name of `argv[0]`, if it is not `NULL`. -/
def checkedSetProgname (parser : CheckedParser B) (argv : List (Option Str)) :
    CheckedParser B :=
  match argAt argv 0 with
  | some arg => { parser with progname := some arg }
  | none => parser

/-- `adc_argp_parse` with `argc = argv.length`; the parser that the call leaves, and whether
it exits after the help text. -/
def checkedParse (parser : CheckedParser B) (argv : List (Option Str)) (store : Store B) :
    Option (CheckedParser B × Bool) :=
  if BitVec.ofNat 32 parser.opts.1.length = 0 then some (parser, false)
  else
    (whileChecked (checkedCond argv) (checkedBody argv) (argv.length + 1)
      ⟨1, checkedSetProgname parser argv, store, false⟩).map fun s => (s.parser, s.exited)

/-- The arguments of a call, and what the targets of the options hold before it. -/
structure CheckedCall (B : Build) where
  argv : List (Option Str)
  store : Store B

/-- The parser after a sequence of calls, the last of which may exit. -/
def checkedCalls : CheckedParser B → List (CheckedCall B) → Option (CheckedParser B)
  | parser, [] => some parser
  | parser, call :: calls =>
      (checkedParse parser call.argv call.store).bind fun r =>
        if r.2 then some r.1 else checkedCalls r.1 calls

/-! ## Printing -/

/-- `err->opt->name` -/
def errorOptName (opts : OptionTable) (opt : Option Nat) : Option Str :=
  (opt.bind fun k => opts.1[k]?).bind AdcArgpOption.name

/-- The assertions on an entry of the table, and the name of its option where it is printed. -/
def CheckedError.asserted (opts : OptionTable) (err : CheckedError) : Bool :=
  match err.type with
  | .optUnknown => err.argv.isSome
  | .argMissing => (errorOptName opts err.opt).isSome
  | .argInvalid | .argInvalidBool | .argNegativeUint | .argOutOfRange | .argUnderflow =>
      (errorOptName opts err.opt).isSome && err.argv.isSome
  | .none => true

/-- What is printed for an entry of the table. -/
def checkedErrorText (opts : OptionTable) (err : CheckedError) : Option Str :=
  if err.asserted opts then errorText opts ⟨err.type, err.opt, err.argv.getD []⟩ else none

/-- `adc_argp_print_errors`: the text printed to the stream. -/
def checkedPrintErrors (parser : CheckedParser B) : Option Str :=
  (parser.errors.mapM (checkedErrorText parser.opts)).map fun lines =>
    "adc_argp_parse errors:\n".toList ++ lines.flatten

/-! ## Arguments without `NULL` -/

def ParseState.toChecked (s : ParseState B) : CheckedState B :=
  ⟨s.i, s.parser.toChecked, s.store, s.exited⟩

@[simp] theorem AdcArgpParser.toChecked_opts (parser : AdcArgpParser B) :
    parser.toChecked.opts = parser.opts := rfl

@[simp] theorem ParseState.toChecked_i (s : ParseState B) : s.toChecked.i = s.i := rfl

@[simp] theorem ParseState.toChecked_parser (s : ParseState B) :
    s.toChecked.parser = s.parser.toChecked := rfl

@[simp] theorem ParseState.toChecked_store (s : ParseState B) :
    s.toChecked.store = s.store := rfl

theorem argAt_map_some (argv : List Str) (i : Nat) : argAt (argv.map some) i = argv[i]? := by
  rw [argAt, List.getElem?_map]
  cases argv[i]? <;> rfl

theorem argAt_of_lt {argv : List Str} {i : Nat} (h : i < argv.length) :
    argAt (argv.map some) i = some (argv.getD i []) := by
  rw [argAt_map_some, List.getD_eq_getElem _ _ h, List.getElem?_eq_getElem h]

theorem checkedAddError_eq (parser : AdcArgpParser B) (type : ErrorType) (opt : Option Nat)
    (arg : Str) :
    checkedAddError parser.toChecked type opt (some arg) =
      (addError parser type opt arg).toChecked := by
  have hlength : parser.toChecked.errors.length = parser.errorsLen := List.length_map _
  rw [checkedAddError, addError, hlength]
  split
  · rfl
  · simp only [AdcArgpParser.toChecked, List.map_append]
    rfl

theorem checkedArg_eq {argv : List Str} {s : ParseState B} (k : Nat)
    (parse : Value B → Str → Value B × ErrorType) (h : s.i < argv.length) :
    checkedArg (argv.map some) k parse s.toChecked = some (parseArg argv k parse s).toChecked := by
  rw [checkedArg, parseArg]
  simp only [ParseState.toChecked_i, ParseState.toChecked_parser, ParseState.toChecked_store,
    AdcArgpParser.toChecked_opts, List.length_map, Nat.add_sub_cancel]
  split
  · rw [argAt_of_lt h, checkedAddError_eq]
    rfl
  · next hlast =>
      rw [argAt_of_lt (Nat.lt_of_not_le hlast), Option.map_some]
      simp only [checkedAddError_eq, ← apply_ite AdcArgpParser.toChecked]
      rfl

/-- A round at an entry that is there. -/
theorem checkedBody_eq {argv : List Str} {s : ParseState B} (h : s.i < argv.length) :
    checkedBody (argv.map some) s.toChecked = some (parseBody argv s).toChecked := by
  rw [checkedBody, parseBody, AdcArgpParser.optsLen]
  simp only [ParseState.toChecked_i, ParseState.toChecked_parser, ParseState.toChecked_store,
    AdcArgpParser.toChecked_opts, argAt_of_lt h, Option.bind_some, checkedAddError_eq]
  by_cases hneg : findOpt (argv.getD s.i []) s.parser.opts.1
      (BitVec.ofNat 32 s.parser.opts.1.length).toInt < 0
  · rw [if_pos hneg, if_pos hneg]
    rfl
  · rw [if_neg hneg, if_neg hneg]
    generalize s.parser.opts.1.getD _ default = opt
    cases opt.valtype with
    | help | flag | max => rfl
    | bool | string | int | uint | float | double => exact checkedArg_eq _ _ h

theorem checkedSetProgname_eq (parser : AdcArgpParser B) (argv : List Str) :
    checkedSetProgname parser.toChecked (argv.map some) = (setProgname parser argv).toChecked := by
  rw [checkedSetProgname, argAt_map_some, setProgname]
  cases argv[0]? with
  | none => rfl
  | some arg => rfl

theorem parseCond_lt {argv : List Str} {s : ParseState B} (h : parseCond argv s = true) :
    s.exited = false ∧ s.i < argv.length := by
  rw [parseCond, Bool.and_eq_true, decide_eq_true_iff] at h
  exact ⟨Bool.not_eq_true' _ ▸ h.1, h.2⟩

theorem checkedLoop_eq (argv : List Str) (fuel : Nat) (s : ParseState B) :
    whileChecked (checkedCond (argv.map some)) (checkedBody (argv.map some)) fuel s.toChecked =
      (whileFuel (parseCond argv) (parseBody argv) fuel s).map ParseState.toChecked := by
  refine whileChecked_eq ParseState.toChecked ?_ ?_ fuel s
  · intro s
    rw [checkedCond, List.length_map]
    rfl
  · intro s hcond
    exact checkedBody_eq (parseCond_lt hcond).2

/-- The parser that a call leaves. -/
def ParseOutcome.parser : ParseOutcome B → AdcArgpParser B
  | .returned _ parser _ => parser
  | .exited parser => parser

def ParseOutcome.isExit : ParseOutcome B → Bool
  | .returned .. => false
  | .exited _ => true

/-- Without `NULL` the assertions hold and the call is the plain one. -/
theorem checkedParse_eq (parser : AdcArgpParser B) (argv : List Str) (store : Store B) :
    checkedParse parser.toChecked (argv.map some) store =
      (adcArgpParse parser argv store).map fun o => (o.parser.toChecked, o.isExit) := by
  rw [checkedParse, adcArgpParse, AdcArgpParser.toChecked_opts, AdcArgpParser.optsLen]
  split
  · rfl
  · have hloop := checkedLoop_eq argv (argv.length + 1)
      ⟨1, setProgname parser argv, store, false⟩
    rw [ParseState.toChecked] at hloop
    rw [checkedSetProgname_eq, List.length_map, hloop, Option.map_map, Option.map_map]
    congr 1
    funext s
    rw [Function.comp_apply, Function.comp_apply]
    cases hexited : s.exited with
    | false => simp [ParseState.toChecked, hexited, ParseOutcome.parser, ParseOutcome.isExit]
    | true => simp [ParseState.toChecked, hexited, ParseOutcome.parser, ParseOutcome.isExit]

/-! ## The errors -/

/-- What `adc_argp_print_errors` relies on, for an entry of the table. -/
structure WellFormedError (opts : OptionTable) (err : ArgpError) : Prop where
  type_ne : err.type ≠ .none
  opt_lt : err.type ≠ .optUnknown → ∃ k, err.opt = some k ∧ k < opts.1.length

/-- The entries of a parser are well formed. -/
def WellFormedErrors (parser : AdcArgpParser B) : Prop :=
  ∀ err ∈ parser.errors.1, WellFormedError parser.opts err

theorem addError_wellFormed {parser : AdcArgpParser B} {type : ErrorType} {opt : Option Nat}
    {arg : Str} (h : WellFormedErrors parser) (htype : type ≠ .none)
    (hopt : type ≠ .optUnknown → ∃ k, opt = some k ∧ k < parser.opts.1.length) :
    WellFormedErrors (addError parser type opt arg) := by
  intro err herr
  rw [addError_opts]
  rw [addError_errors] at herr
  rcases List.mem_append.mp (List.mem_of_mem_take herr) with hold | hlast
  · exact h err hold
  · rw [List.mem_singleton.mp hlast]
    exact ⟨htype, hopt⟩

theorem parseArg_wellFormed {argv : List Str} {s : ParseState B} {k : Nat}
    {parse : Value B → Str → Value B × ErrorType} (h : WellFormedErrors s.parser)
    (hk : k < s.parser.opts.1.length) : WellFormedErrors (parseArg argv k parse s).parser := by
  rw [parseArg]
  split
  · exact addError_wellFormed h (by decide) fun _ => ⟨k, rfl, hk⟩
  · simp only
    split
    · next hne => exact addError_wellFormed h hne fun _ => ⟨k, rfl, hk⟩
    · exact h

theorem setProgname_wellFormed {parser : AdcArgpParser B} (argv : List Str)
    (h : WellFormedErrors parser) : WellFormedErrors (setProgname parser argv) := by
  rw [WellFormedErrors, setProgname_errors, setProgname_opts]
  exact h

/-- A round keeps the errors well formed. -/
theorem parseBody_wellFormed (argv : List Str) {s : ParseState B} (h : WellFormedErrors s.parser) :
    WellFormedErrors (parseBody argv s).parser := by
  obtain ⟨-, hbody⟩ | ⟨k, -, hk, ⟨-, hbody⟩ | ⟨-, hbody⟩ | ⟨parse, -, hbody⟩⟩ :=
    parseBody_cases argv s
  · rw [hbody]
    exact addError_wellFormed h (by decide) fun hne => absurd rfl hne
  · rw [hbody]
    exact h
  · rw [hbody]
    exact h
  · rw [hbody]
    exact parseArg_wellFormed h hk

/-- The rounds that are left, at most. -/
def roundsLeft (argv : List Str) (s : ParseState B) : Nat :=
  if s.exited then 0 else argv.length - s.i

theorem roundsLeft_of_running {argv : List Str} {s : ParseState B} (h : s.exited = false) :
    roundsLeft argv s = argv.length - s.i := by
  rw [roundsLeft, h]
  rfl

theorem parseBody_roundsLeft {argv : List Str} {s : ParseState B} (h : parseCond argv s = true) :
    roundsLeft argv (parseBody argv s) < roundsLeft argv s := by
  obtain ⟨hexited, hlt⟩ := parseCond_lt h
  -- a round exits, or moves to a later argument
  have hnext (s' : ParseState B) (hs : s'.exited = false) (hi : s.i < s'.i) :
      roundsLeft argv s' < roundsLeft argv s := by
    rw [roundsLeft_of_running hs, roundsLeft_of_running hexited]
    omega
  obtain ⟨-, hbody⟩ | ⟨k, -, -, ⟨-, hbody⟩ | ⟨-, hbody⟩ | ⟨parse, -, hbody⟩⟩ :=
    parseBody_cases argv s
  · rw [hbody]
    exact hnext _ hexited (Nat.lt_succ_self _)
  · rw [hbody, roundsLeft_of_running hexited, roundsLeft, if_pos rfl]
    exact Nat.sub_pos_of_lt hlt
  · rw [hbody]
    exact hnext _ hexited (Nat.lt_succ_self _)
  · obtain ⟨hi, -, hsame⟩ := parseArg_next argv k parse s
    rw [hbody]
    exact hnext _ (hsame.trans hexited) (by omega)

/-- A call ends, over the same table, and keeps the errors well formed. -/
theorem adcArgpParse_wellFormed {parser : AdcArgpParser B} (h : WellFormedErrors parser)
    (argv : List Str) (store : Store B) :
    ∃ o, adcArgpParse parser argv store = some o ∧ o.parser.opts = parser.opts ∧
      WellFormedErrors o.parser := by
  rw [adcArgpParse]
  split
  · exact ⟨_, rfl, rfl, h⟩
  · have hstart : roundsLeft argv (⟨1, setProgname parser argv, store, false⟩ : ParseState B) <
        argv.length + 1 := by
      rw [roundsLeft_of_running rfl]
      exact Nat.lt_succ_of_le (Nat.sub_le _ _)
    obtain ⟨t, hloop, hopts, hwell⟩ := whileFuel_of_measure (roundsLeft argv)
      (fun s (hs : s.parser.opts = parser.opts ∧ WellFormedErrors s.parser) hcond =>
        ⟨⟨(parseBody_opts argv s).trans hs.1, parseBody_wellFormed argv hs.2⟩,
          parseBody_roundsLeft hcond⟩)
      ⟨setProgname_opts parser argv, setProgname_wellFormed argv h⟩ hstart
    rw [hloop, Option.map_some]
    split
    · exact ⟨_, rfl, hopts, hwell⟩
    · exact ⟨_, rfl, hopts, hwell⟩

theorem exists_args {argv : List (Option Str)} (h : none ∉ argv) :
    ∃ args : List Str, args.map some = argv := by
  induction argv with
  | nil => exact ⟨[], rfl⟩
  | cons arg argv ih =>
      rw [List.mem_cons, not_or] at h
      obtain ⟨harg, hargv⟩ := h
      obtain ⟨a, rfl⟩ := Option.ne_none_iff_exists'.mp (Ne.symm harg)
      obtain ⟨args, rfl⟩ := ih hargv
      exact ⟨a :: args, rfl⟩

/-- The calls end, over the same table, and keep the errors well formed. -/
theorem checkedCalls_wellFormed {parser : AdcArgpParser B} (h : WellFormedErrors parser)
    (calls : List (CheckedCall B)) (hargs : ∀ call ∈ calls, none ∉ call.argv) :
    ∃ parser' : AdcArgpParser B, checkedCalls parser.toChecked calls = some parser'.toChecked ∧
      parser'.opts = parser.opts ∧ WellFormedErrors parser' := by
  induction calls generalizing parser with
  | nil => exact ⟨parser, rfl, rfl, h⟩
  | cons call calls ih =>
      obtain ⟨hcall, hcalls⟩ := List.forall_mem_cons.mp hargs
      obtain ⟨argv, hargv⟩ := exists_args hcall
      obtain ⟨o, hparse, hopts, hwell⟩ := adcArgpParse_wellFormed h argv call.store
      rw [checkedCalls, ← hargv, checkedParse_eq, hparse, Option.map_some, Option.bind_some]
      split
      · exact ⟨o.parser, rfl, hopts, hwell⟩
      · obtain ⟨parser', hrun, hopts', hwell'⟩ := ih hwell hcalls
        exact ⟨parser', hrun, hopts'.trans hopts, hwell'⟩

/-! ## Printing well-formed errors -/

/-- The option of a well-formed error has a name, which the parser asserted. -/
theorem errorOptName_isSome {opts : OptionTable} {k : Nat} (h : k < opts.1.length) :
    (errorOptName opts (some k)).isSome = true := by
  have hname := (opts.2.1 _ (List.getElem_mem h)).1
  rw [errorOptName, Option.bind_some, List.getElem?_eq_getElem h, Option.bind_some]
  exact Option.isSome_iff_ne_none.mpr hname

theorem WellFormedError.asserted {opts : OptionTable} {err : ArgpError}
    (h : WellFormedError opts err) : err.toChecked.asserted opts = true := by
  obtain ⟨type, opt, arg⟩ := err
  by_cases hunknown : type = .optUnknown
  · rw [hunknown]
    rfl
  · obtain ⟨k, rfl, hk⟩ := h.opt_lt hunknown
    have hname := errorOptName_isSome hk
    cases type with
    | none => exact absurd rfl h.type_ne
    | optUnknown => exact absurd rfl hunknown
    | argMissing => exact hname
    | argInvalid | argInvalidBool | argNegativeUint | argOutOfRange | argUnderflow =>
        exact Bool.and_eq_true_iff.mpr ⟨hname, rfl⟩

/-- The text of a well-formed error is printed. -/
theorem WellFormedError.text {opts : OptionTable} {err : ArgpError}
    (h : WellFormedError opts err) :
    checkedErrorText opts err.toChecked = errorText opts err ∧
      ∃ text, errorText opts err = some text := by
  refine ⟨if_pos h.asserted, ?_⟩
  obtain ⟨type, opt, arg⟩ := err
  by_cases hunknown : type = .optUnknown
  · rw [hunknown]
    exact ⟨_, rfl⟩
  · obtain ⟨k, rfl, -⟩ := h.opt_lt hunknown
    cases type <;> exact ⟨_, rfl⟩

theorem mapM_of_forall {α β : Type} {f : α → Option β} {g : α → β} {l : List α}
    (h : ∀ x ∈ l, f x = some (g x)) : l.mapM f = some (l.map g) := by
  induction l with
  | nil => rfl
  | cons x l ih =>
      obtain ⟨hx, hl⟩ := List.forall_mem_cons.mp h
      rw [List.mapM_cons, hx, ih hl]
      rfl

/-- Well-formed errors are printed, and as by the plain function. -/
theorem checkedPrintErrors_eq {parser : AdcArgpParser B} (h : WellFormedErrors parser) :
    checkedPrintErrors parser.toChecked = adcArgpPrintErrors parser ∧
      ∃ text, adcArgpPrintErrors parser = some text := by
  have hline (err : ArgpError) (herr : err ∈ parser.errors.1) :
      errorText parser.opts err = some ((errorText parser.opts err).getD []) := by
    obtain ⟨text, htext⟩ := (h err herr).text.2
    rw [htext]
    rfl
  have hplain := mapM_of_forall hline
  have hchecked : parser.toChecked.errors.mapM (checkedErrorText parser.opts) =
      some (parser.errors.1.map fun err => (errorText parser.opts err).getD []) := by
    rw [AdcArgpParser.toChecked, List.mapM_map]
    exact mapM_of_forall fun err herr => (h err herr).text.1.trans (hline err herr)
  rw [checkedPrintErrors, adcArgpPrintErrors, errorsText, hplain, AdcArgpParser.toChecked_opts,
    hchecked]
  exact ⟨rfl, _, rfl⟩

/-- The table of errors fits, and `adc_argp_print_errors` can rely on its entries. -/
structure Reportable (parser : CheckedParser B) : Prop where
  length_le : parser.errors.length ≤ B.adcArgpMaxErrors
  type_ne : ∀ err ∈ parser.errors, err.type ≠ .none
  argv_ne : ∀ err ∈ parser.errors, err.argv ≠ none
  opt_lt : ∀ err ∈ parser.errors, err.type ≠ .optUnknown →
    ∃ k, err.opt = some k ∧ k < parser.opts.1.length
  asserted : ∀ err ∈ parser.errors, err.asserted parser.opts = true
  printed : ∃ text, checkedPrintErrors parser = some text

theorem reportable_of_wellFormed {parser : AdcArgpParser B} (h : WellFormedErrors parser) :
    Reportable parser.toChecked := by
  have hmem (P : CheckedError → Prop) (hP : ∀ err ∈ parser.errors.1, P err.toChecked) :
      ∀ err ∈ parser.toChecked.errors, P err := by
    intro checked hchecked
    obtain ⟨err, herr, rfl⟩ := List.mem_map.mp hchecked
    exact hP err herr
  obtain ⟨hprint, text, htext⟩ := checkedPrintErrors_eq h
  exact
    { length_le := by
        rw [AdcArgpParser.toChecked, List.length_map]
        exact parser.errors.2
      type_ne := hmem _ fun err herr => (h err herr).type_ne
      argv_ne := hmem _ fun err _ => Option.some_ne_none err.argv
      opt_lt := hmem _ fun err herr => (h err herr).opt_lt
      asserted := hmem _ fun err herr => (h err herr).asserted
      printed := ⟨text, hprint.trans htext⟩ }

/--
Over every accepted table of options, any sequence of calls with arguments that are not
`NULL` fails no assertion, and leaves a table of errors that fits and that
`adc_argp_print_errors` prints.
-/
theorem errors_reportable (B : Build) {opts : List AdcArgpOption} {hlen : opts.length < 2 ^ 32}
    {parser : CheckedParser B} (hnew : checkedNewParser B opts hlen = some parser)
    (calls : List (CheckedCall B)) (hargs : ∀ call ∈ calls, none ∉ call.argv) :
    ∃ parser', checkedCalls parser calls = some parser' ∧ parser'.opts.1 = opts ∧
      Reportable parser' := by
  obtain ⟨parser, hplain, rfl⟩ := Option.map_eq_some_iff.mp hnew
  obtain ⟨hopts, hempty⟩ := adcArgpNewParser_fresh hplain
  have hwell : WellFormedErrors parser := by
    intro err herr
    rw [hempty] at herr
    exact absurd herr List.not_mem_nil
  obtain ⟨parser', hrun, hsame, hwell'⟩ := checkedCalls_wellFormed hwell calls hargs
  refine ⟨parser'.toChecked, hrun, ?_, reportable_of_wellFormed hwell'⟩
  rw [AdcArgpParser.toChecked_opts, hsame, hopts]

/-- A scale that is negative, then an unknown option and a directory without a value. -/
theorem errors_reportable_test :
    ∃ parser', checkedCalls testParser.toChecked
        [⟨[some "prog".toList, some "-s".toList, some "-1".toList], fun _ => .int 0⟩,
          ⟨[some "prog".toList, some "-x".toList, some "-d".toList], fun _ => .int 0⟩] =
        some parser' ∧ Reportable parser' := by
  have hnew : checkedNewParser plainBuild testOptions (by decide) = some testParser.toChecked := rfl
  obtain ⟨parser', hrun, -, hreport⟩ := errors_reportable plainBuild hnew
    [⟨[some "prog".toList, some "-s".toList, some "-1".toList], fun _ => .int 0⟩,
      ⟨[some "prog".toList, some "-x".toList, some "-d".toList], fun _ => .int 0⟩]
    (by decide)
  exact ⟨parser', hrun, hreport⟩

end Argp
end AdcLibs
