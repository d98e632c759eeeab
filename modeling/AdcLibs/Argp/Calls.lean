import AdcLibs.Argp.ParseRuns
import Mathlib.Data.List.Basic

/-!
# Sequences of calls of `adc_argp_parse`

The table of errors stays in the parser from one call to the next: a call adds
the errors of its own arguments behind those of the earlier calls, as long as
there is room.  What a call returns, and what `adc_argp_print_errors` lists
after it, are therefore its own errors only if the table was empty before, or
if the call's own errors repeat what fills the table.
-/

namespace AdcLibs
namespace Argp

variable {B : Build}

/-! ## `adc_argp_print_errors` -/

/-- `argp_type_string` -/
def argpTypeString : AdcArgpType → Str
  | .flag => "flag".toList
  | .bool => "bool".toList
  | .string => "string".toList
  | .int => "int".toList
  | .uint => "uint".toList
  | .float => "float".toList
  | .double => "double".toList
  | .help | .max => []

/-- What is printed for an entry of the table; `none` is a failed assertion. -/
def errorText (opts : OptionTable) (err : ArgpError) : Option Str :=
  let value := " with value '".toList ++ err.argv ++ "' for the --".toList
  let withOpt (text : AdcArgpOption → Str → Str) : Option Str :=
    err.opt.map fun i => text (optAt opts i) ((optAt opts i).name.getD [])
  match err.type with
  | .optUnknown => some ("Unknown option: '".toList ++ err.argv ++ "'\n".toList)
  | .argMissing => withOpt fun _ name =>
      "Argument expected for the --".toList ++ name ++ " option\n".toList
  | .argInvalid => withOpt fun opt name =>
      "Invalid ".toList ++ argpTypeString opt.valtype ++ value ++ name ++ " option\n".toList
  | .argInvalidBool => withOpt fun _ name =>
      "Invalid bool".toList ++ value ++ name ++
        " option, expected 'true', 'false', '1' or '0'\n".toList
  | .argNegativeUint => withOpt fun _ name =>
      "Negative uint".toList ++ value ++ name ++ " option\n".toList
  | .argOutOfRange => withOpt fun opt name =>
      "Out of range ".toList ++ argpTypeString opt.valtype ++ value ++ name ++
        " option\n".toList
  | .argUnderflow => withOpt fun opt name =>
      "Underflow has occurred in ".toList ++ argpTypeString opt.valtype ++ value ++ name ++
        " option\n".toList
  | .none => some []

/-- The loop over the entries of a table, behind the first line. -/
def errorsText (opts : OptionTable) (errors : List ArgpError) : Option Str :=
  (errors.mapM (errorText opts)).map fun lines =>
    "adc_argp_parse errors:\n".toList ++ lines.flatten

/-- `adc_argp_print_errors`: the text printed to the stream. -/
def adcArgpPrintErrors (parser : AdcArgpParser B) : Option Str :=
  errorsText parser.opts parser.errors.1

/-! ## The errors of a call -/

/-- The errors met in a call; a parser without options does not look at the arguments. -/
def callErrors (B : Build) (opts : OptionTable) (argv : List Str) : List ArgpError :=
  if opts.1 = [] then []
  else (argGroups B opts argv).filterMap (groupError B opts)

/-- No help option is reached in the arguments. -/
def NoHelp (B : Build) (opts : OptionTable) (argv : List Str) : Prop :=
  ∀ g ∈ argGroups B opts argv, isHelp opts g = false

/-- A call adds its errors to the table and returns the length of the table. -/
theorem adcArgpParse_adds (parser : AdcArgpParser B) (argv : List Str) (store : Store B)
    (hhelp : NoHelp B parser.opts argv) :
    ∃ result parser' store',
      adcArgpParse parser argv store = some (.returned result parser' store') ∧
      parser'.opts = parser.opts ∧
      parser'.errors.1 =
        (parser.errors.1 ++ callErrors B parser.opts argv).take B.adcArgpMaxErrors ∧
      (parser.opts.1 = [] ∧ result = 0 ∨ result = parser'.errorsLen) := by
  by_cases hopts : parser.opts.1 = []
  · have hzero : parser.optsLen = 0 := by
      rw [AdcArgpParser.optsLen, hopts]
      rfl
    refine ⟨0, parser, store, by rw [adcArgpParse, if_pos hzero], rfl, ?_, Or.inl ⟨hopts, rfl⟩⟩
    rw [callErrors, if_pos hopts, List.append_nil, List.take_of_length_le parser.errors.2]
  · obtain ⟨s, t, hs, -, hsame, hrun, hparse⟩ := adcArgpParse_run hopts argv store hhelp
    refine ⟨_, t.parser, t.store, hparse, hsame, ?_, Or.inr rfl⟩
    rw [callErrors, if_neg hopts, ← hs]
    exact run_errors hrun

/-! ## Sequences of calls -/

/-- The arguments of a call, and what the targets of the options hold before it. -/
structure ParseCall (B : Build) where
  argv : List Str
  store : Store B

/-- The result of a call with the parser it leaves, for each call of a sequence on one
parser; `none` if a call exits. -/
def parseCalls : AdcArgpParser B → List (ParseCall B) → Option (List (Nat × AdcArgpParser B))
  | _, [] => some []
  | parser, call :: calls =>
      match adcArgpParse parser call.argv call.store with
      | some (.returned result parser' _) =>
          (parseCalls parser' calls).map ((result, parser') :: ·)
      | _ => none

/-- A call that met the errors `own` returns their number and leaves them, as far as the
table goes, to `adc_argp_print_errors`. -/
structure Reports (own : List ArgpError) (result : Nat) (parser' : AdcArgpParser B) : Prop where
  result_eq : result = min B.adcArgpMaxErrors own.length
  zero_iff : 0 < B.adcArgpMaxErrors → (result = 0 ↔ own = [])
  listed : parser'.errors.1 = own.take B.adcArgpMaxErrors
  printed : adcArgpPrintErrors parser' =
    errorsText parser'.opts (own.take B.adcArgpMaxErrors)

/-- The table before a call: the first errors of the calls before it. -/
def tableBefore (parser : AdcArgpParser B) (earlier : List (ParseCall B)) : List ArgpError :=
  (parser.errors.1 ++
    earlier.flatMap fun call => callErrors B parser.opts call.argv).take B.adcArgpMaxErrors

/-- The table is empty, or the errors of the call fill a table, begin with the entries of
this one and go on with their own beginning. -/
def Unaffected (B : Build) (table own : List ArgpError) : Prop :=
  table = [] ∨ (B.adcArgpMaxErrors ≤ own.length ∧
    (∀ k < table.length, own[k]? = table[k]?) ∧
    ∀ k < B.adcArgpMaxErrors - table.length, own[k + table.length]? = own[k]?)

/-- Only what is listed decides whether a call reports its own errors. -/
theorem reports_iff {opts : OptionTable} {argv : List Str} {result : Nat}
    {parser' : AdcArgpParser B}
    (hresult : opts.1 = [] ∧ result = 0 ∨ result = parser'.errorsLen) :
    Reports (callErrors B opts argv) result parser' ↔
      parser'.errors.1 = (callErrors B opts argv).take B.adcArgpMaxErrors := by
  constructor
  · intro h
    exact h.listed
  · intro hlisted
    have hmin : result = min B.adcArgpMaxErrors (callErrors B opts argv).length := by
      rcases hresult with ⟨hopts, rfl⟩ | rfl
      · rw [callErrors, if_pos hopts, List.length_nil, Nat.min_zero]
      · rw [AdcArgpParser.errorsLen, hlisted, List.length_take]
    refine ⟨hmin, fun hmax => ?_, hlisted, by rw [adcArgpPrintErrors, hlisted]⟩
    rw [hmin, ← List.length_eq_zero_iff]
    omega

theorem unaffected_iff {table own : List ArgpError} (htable : table.length ≤ B.adcArgpMaxErrors) :
    (table ++ own).take B.adcArgpMaxErrors = own.take B.adcArgpMaxErrors ↔
      Unaffected B table own := by
  constructor
  · intro h
    by_cases hnil : table = []
    · exact Or.inl hnil
    · have hpos := List.length_pos_iff.mpr hnil
      have hlength := congrArg List.length h
      rw [List.length_take, List.length_take, List.length_append] at hlength
      exact Or.inr ⟨by omega, (BoundedTable.take_append_eq_take_iff htable own).mp h⟩
  · intro h
    rcases h with rfl | ⟨-, h⟩
    · rfl
    · exact (BoundedTable.take_append_eq_take_iff htable own).mpr h

/-- The table before the calls behind the first one. -/
theorem tableBefore_cons {parser parser' : AdcArgpParser B} (call : ParseCall B)
    (calls : List (ParseCall B)) (hopts : parser'.opts = parser.opts)
    (herrors : parser'.errors.1 =
      (parser.errors.1 ++ callErrors B parser.opts call.argv).take B.adcArgpMaxErrors) :
    tableBefore parser (call :: calls) = tableBefore parser' calls := by
  rw [tableBefore, tableBefore, herrors, hopts, BoundedTable.take_take_append, List.flatMap_cons,
    List.append_assoc]

/--
In every sequence of calls on one parser in which no help option is reached, a
call reports its own errors exactly when the errors of the calls before it
leave its own table unaffected.
-/
theorem parseCalls_report_iff (parser : AdcArgpParser B) (calls : List (ParseCall B))
    (hhelp : ∀ call ∈ calls, NoHelp B parser.opts call.argv) :
    ∃ outs, parseCalls parser calls = some outs ∧ outs.length = calls.length ∧
      ∀ k call out, calls[k]? = some call → outs[k]? = some out →
        (Reports (callErrors B parser.opts call.argv) out.1 out.2 ↔
          Unaffected B (tableBefore parser (calls.take k))
            (callErrors B parser.opts call.argv)) := by
  induction calls generalizing parser with
  | nil => exact ⟨[], rfl, rfl, fun k call out hk => absurd hk (by simp)⟩
  | cons call calls ih =>
      obtain ⟨result, parser', store', hparse, hopts, herrors, hresult⟩ :=
        adcArgpParse_adds parser call.argv call.store (hhelp call List.mem_cons_self)
      obtain ⟨outs, houts, hlength, hrest⟩ := ih parser' fun c hc =>
        hopts ▸ hhelp c (List.mem_cons_of_mem _ hc)
      refine ⟨(result, parser') :: outs, ?_, by rw [List.length_cons, hlength,
        List.length_cons], ?_⟩
      · rw [parseCalls, hparse]
        simp only [houts, Option.map_some]
      · intro k c out hc hout
        cases k with
        | zero =>
            obtain rfl := Option.some.inj hc
            obtain rfl := Option.some.inj hout
            have hbefore : tableBefore parser [] = parser.errors.1 := by
              rw [tableBefore, List.flatMap_nil, List.append_nil,
                List.take_of_length_le parser.errors.2]
            rw [List.take_zero, hbefore, reports_iff hresult, herrors]
            exact unaffected_iff parser.errors.2
        | succ k =>
            rw [List.take_succ_cons, tableBefore_cons call _ hopts herrors, ← hopts]
            exact hrest k c out hc hout

/-- Calls without errors, with one, without errors again, and with as many as the table
takes. -/
def fourCalls : List (ParseCall plainBuild) :=
  [⟨["prog".toList, "-f".toList], fun _ => .int 0⟩,
    ⟨["prog".toList, "-x".toList], fun _ => .int 0⟩,
    ⟨["prog".toList, "-f".toList], fun _ => .int 0⟩,
    ⟨"prog".toList :: List.replicate 32 "-x".toList, fun _ => .int 0⟩]

/-- The third call reports the error of the second one, and the fourth one again its own. -/
theorem parseCalls_report_iff_test :
    ∃ out₀ out₁ out₂ out₃,
      parseCalls testParser fourCalls = some [out₀, out₁, out₂, out₃] ∧
      Reports [] out₀.1 out₀.2 ∧
      Reports [⟨.optUnknown, none, "-x".toList⟩] out₁.1 out₁.2 ∧
      ¬ Reports [] out₂.1 out₂.2 ∧
      Reports (List.replicate 32 ⟨.optUnknown, none, "-x".toList⟩) out₃.1 out₃.2 := by
  obtain ⟨outs, houts, hlength, hreports⟩ := parseCalls_report_iff testParser fourCalls
    (by unfold NoHelp; decide)
  obtain ⟨out₀, out₁, out₂, out₃, rfl⟩ := List.length_eq_four.mp hlength
  have hmany : callErrors plainBuild testParser.opts
      ("prog".toList :: List.replicate 32 "-x".toList) =
        List.replicate 32 ⟨.optUnknown, none, "-x".toList⟩ := rfl
  have htable : tableBefore testParser (fourCalls.take 3) =
      [⟨.optUnknown, none, "-x".toList⟩] := rfl
  refine ⟨out₀, out₁, out₂, out₃, houts, ?_, ?_, ?_, ?_⟩
  · exact (hreports 0 _ _ rfl rfl).mpr (.inl rfl)
  · exact (hreports 1 _ _ rfl rfl).mpr (.inl rfl)
  · intro h
    rcases (hreports 2 _ _ rfl rfl).mp h with hnil | ⟨hfull, -⟩
    · exact absurd hnil (by decide)
    · exact absurd hfull (by decide)
  · rw [← hmany]
    refine (hreports 3 _ _ rfl rfl).mpr (.inr ?_)
    rw [htable, hmany]
    decide

/-- After a call with an unknown option, a call without errors returns 1. -/
theorem parseCalls_keeps_error :
    ∃ outs out, parseCalls testParser
        [⟨["prog".toList, "-x".toList], fun _ => .int 0⟩,
          ⟨["prog".toList, "-f".toList], fun _ => .int 0⟩] = some outs ∧
      outs[1]? = some out ∧
      callErrors plainBuild testParser.opts ["prog".toList, "-f".toList] = [] ∧
      out.1 = 1 ∧
      ¬ Reports (callErrors plainBuild testParser.opts ["prog".toList, "-f".toList])
        out.1 out.2 := by
  refine ⟨_, _, rfl, rfl, by decide, by decide, fun h => ?_⟩
  exact absurd h.result_eq (by decide)

end Argp
end AdcLibs
