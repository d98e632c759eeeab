import AdcLibs.Argp.Doubles
import AdcLibs.Argp.FindOpt
import AdcLibs.Argp.Outcome

/-!
# Settings

Values of options written as arguments and parsed again.  An option is reached by its
spellings when no other option of the table shares one of them; every list of settings
that fit the types of their options is then parsed without an error, and each target
holds the last value that was set.  Integers fit below the ends of their range, which the
parser rejects, and doubles fit that a `float` can hold, which is what the parser keeps
them in.
-/

namespace AdcLibs
namespace Argp

open FirstMatch Grouping Writes

variable {B : Build} {opts : OptionTable}

/-! ## Spellings -/

/-- The long or the short spelling of an option. -/
def AdcArgpOption.spelling (opt : AdcArgpOption) (long : Bool) : Str :=
  if long then "--".toList ++ opt.name.getD [] else "-".toList ++ opt.shortname.getD []

def SpelledAs (s : Str) (opt : AdcArgpOption) : Prop := ∃ long, opt.spelling long = s

/-- No two options of the table share a spelling. -/
def Unambiguous (opts : OptionTable) : Prop :=
  ∀ i < opts.1.length, ∀ k < opts.1.length, ∀ long long' : Bool,
    (optAt opts i).spelling long = (optAt opts k).spelling long' → i = k

instance (opts : OptionTable) : Decidable (Unambiguous opts) :=
  inferInstanceAs (Decidable (∀ i < opts.1.length, ∀ k < opts.1.length, ∀ long long' : Bool,
    (optAt opts i).spelling long = (optAt opts k).spelling long' → i = k))

/-- What the scan of `find_opt` accepts of an option with both names. -/
theorem spelledAs_iff {s : Str} {opt : AdcArgpOption} {name shortname : Str}
    (hname : opt.name = some name) (hshort : opt.shortname = some shortname) :
    SpelledAs s opt ↔ s = "--".toList ++ name ∨ s = "-".toList ++ shortname := by
  constructor
  · rintro ⟨long, rfl⟩
    cases long with
    | true => exact .inl (by simp [AdcArgpOption.spelling, hname])
    | false => exact .inr (by simp [AdcArgpOption.spelling, hshort])
  · rintro (rfl | rfl)
    · exact ⟨true, by simp [AdcArgpOption.spelling, hname]⟩
    · exact ⟨false, by simp [AdcArgpOption.spelling, hshort]⟩

/-- `find_opt` returns the first option that is spelled like the argument. -/
theorem findOpt_isFirst_spelled {opts : List AdcArgpOption} (hopts : ∀ opt ∈ opts, opt.Accepted)
    (s : Str) : IsFirst (SpelledAs s) opts (findOpt s opts opts.length) := by
  have hnames (opt : AdcArgpOption) (h : opt ∈ opts) : ∃ name shortname,
      opt.name = some name ∧ opt.shortname = some shortname := by
    obtain ⟨hname, hshort, -⟩ := hopts opt h
    obtain ⟨name, hname⟩ := Option.ne_none_iff_exists'.mp hname
    obtain ⟨shortname, hshort⟩ := Option.ne_none_iff_exists'.mp hshort
    exact ⟨name, shortname, hname, hshort⟩
  rcases findOpt_cases s opts with ⟨t, rfl, hfirst⟩ | ⟨hlong, t, rfl, hfirst⟩ | ⟨-, hdash, hnone⟩
  · refine hfirst.congr fun opt h => ?_
    obtain ⟨name, shortname, hname, hshort⟩ := hnames opt h
    rw [spelledAs_iff hname hshort, ScanAccepts, hname, hshort]
    simp [eq_comm]
  · refine hfirst.congr fun opt h => ?_
    obtain ⟨name, shortname, hname, hshort⟩ := hnames opt h
    have hnot : '-' :: t ≠ "--".toList ++ name := fun h => hlong ⟨name, h.symm⟩
    rw [spelledAs_iff hname hshort, ScanAccepts, hshort, or_iff_right hnot]
    simp [eq_comm]
  · refine .inr ⟨hnone, fun j opt hj hspelled => ?_⟩
    obtain ⟨name, shortname, hname, hshort⟩ := hnames opt (List.mem_of_getElem? hj)
    rcases (spelledAs_iff hname hshort).mp hspelled with rfl | rfl
    · exact hdash ⟨'-' :: name, rfl⟩
    · exact hdash ⟨shortname, rfl⟩

theorem lookup_eq_some_iff (hlen : opts.1.length < 2 ^ 31) {s : Str} {k : Nat} :
    lookup opts s = some k ↔ findOpt s opts.1 opts.1.length = k := by
  have hint : (BitVec.ofNat 32 opts.1.length).toInt = opts.1.length := by
    rw [BitVec.toInt_ofNat', Int.bmod_def]
    omega
  rw [lookup, hint]
  split
  · next hneg =>
      refine iff_of_false (by simp) ?_
      omega
  · rw [Option.some_inj]
    omega

/-- A table of `INT_MAX` and more options: the length is taken for a negative number. -/
theorem lookup_of_length_ge (hlen : 2 ^ 31 ≤ opts.1.length) (s : Str) : lookup opts s = none := by
  have hlt := opts.2.2
  have hneg : (BitVec.ofNat 32 opts.1.length).toInt.toNat = 0 := by
    rw [BitVec.toInt_ofNat', Int.bmod_def]
    omega
  have hfind : findOpt s opts.1 (BitVec.ofNat 32 opts.1.length).toInt = -1 := by
    rw [findOpt, hneg]
    simp only [List.take_zero, findOptFrom]
    split
    · rfl
    · split <;> rfl
  rw [lookup, hfind]
  rfl

/-- Without ambiguous spellings an option is reached by both of its own. -/
theorem lookup_spelling (hlen : opts.1.length < 2 ^ 31) (hdistinct : Unambiguous opts) {k : Nat}
    (hk : k < opts.1.length) (long : Bool) :
    lookup opts ((optAt opts k).spelling long) = some k := by
  have hself : opts.1[k]? = some (optAt opts k) := by
    rw [optAt, List.getD_eq_getElem _ _ hk, List.getElem?_eq_getElem hk]
  rw [lookup_eq_some_iff hlen]
  rcases findOpt_isFirst_spelled opts.2.1 ((optAt opts k).spelling long) with
    ⟨i, opt, hfind, hi, ⟨long', hlong'⟩, -⟩ | ⟨-, hnone⟩
  · have hopt : optAt opts i = opt := by
      rw [optAt, List.getD_eq_getElem?_getD, hi, Option.getD_some]
    rw [hfind, hdistinct i (List.getElem?_eq_some_iff.mp hi).1 k hk long' long (hopt ▸ hlong')]
  · exact absurd ⟨long, rfl⟩ (hnone k _ hself)

/--
Both spellings of every option of a table reach it exactly when no two options share a
spelling and the table has less than 2^31 options.
-/
theorem lookup_spelling_iff (opts : OptionTable) :
    (∀ k < opts.1.length, ∀ long, lookup opts ((optAt opts k).spelling long) = some k) ↔
      opts.1.length < 2 ^ 31 ∧ Unambiguous opts := by
  constructor
  · intro hall
    refine ⟨?_, fun i hi k hk long long' hsame => ?_⟩
    · by_contra hlen
      have hzero := hall 0 (by omega) true
      rw [lookup_of_length_ge (Nat.le_of_not_lt hlen)] at hzero
      exact absurd hzero (by simp)
    · have hi' := hall i hi long
      rw [hsame, hall k hk long'] at hi'
      exact (Option.some.inj hi').symm
  · rintro ⟨hlen, hdistinct⟩ k hk long
    exact lookup_spelling hlen hdistinct hk long

/-! ## Settings -/

variable (B) in
/-- A value for an option; a floating-point value comes with the text that it is written
as. -/
inductive Setting
  | flag
  | bool (b : Bool)
  | string (s : Str)
  | int (n : Int)
  | uint (n : Nat)
  | float (x : B.Float) (s : Str)
  | double (x : B.Double) (s : Str)

/-- The argument behind the spelling of the option; a flag has none. -/
def Setting.text : Setting B → Option Str
  | .flag => none
  | .bool b => some (if b then "true".toList else "false".toList)
  | .string s => some s
  | .int n => some (intText n)
  | .uint n => some (decimalText n)
  | .float _ s => some s
  | .double _ s => some s

/-- What the target holds after the setting. -/
def Setting.value : Setting B → Value B
  | .flag => .int 1
  | .bool b => .int (if b then 1 else 0)
  | .string s => .string s
  | .int n => .int (BitVec.ofInt 32 n)
  | .uint n => .uint (BitVec.ofNat 32 n)
  | .float x _ => .float x
  | .double x _ => .double x

/-- The setting is one for an option of the type; the text of a floating-point value is
one that the C library reads as that value, to its end and without a range error. -/
def Setting.Fits (type : AdcArgpType) : Setting B → Prop
  | .flag => type = .flag
  | .bool _ => type = .bool
  | .string _ => type = .string
  | .int n => type = .int ∧ -intMax < n ∧ n < intMax
  | .uint n => type = .uint ∧ n < uintMax
  | .float x s => type = .float ∧ s ≠ [] ∧ B.strtof s = (x, [], false)
  | .double x s => type = .double ∧ s ≠ [] ∧ B.strtod s = (x, [], false) ∧
      B.toDouble (B.ofDouble x) = x

theorem parseFloat_of_read {s : Str} {x : B.Float} (hs : s ≠ [])
    (hread : B.strtof s = (x, [], false)) (out : Value B) :
    parseFloat out s = (.float x, .none) := by
  simp only [parseFloat, hread, if_neg hs.symm, Bool.and_false, Bool.false_eq_true, if_false]

/-- Of a double the parser stores what a `float` holds of it. -/
theorem parseDouble_of_read {s : Str} {x : B.Double} (hs : s ≠ [])
    (hread : B.strtod s = (x, [], false)) (out : Value B) :
    parseDouble out s = (.double (B.toDouble (B.ofDouble x)), .none) := by
  simp only [parseDouble, hread, if_neg hs.symm, Bool.and_false, Bool.false_eq_true, if_false]

theorem argResult_of_eq {type : AdcArgpType} {parse : Value B → Str → Value B × ErrorType}
    (hparse : valueParser B type = some parse) {arg : Str} (h : (parse (.int 0) arg).2 = .none) :
    argResult B type arg = .ok (parse (.int 0) arg).1 := by
  simp only [argResult, hparse]
  exact if_pos h

/-- The text of a setting is accepted and stands for the value. -/
theorem Setting.Fits.argResult {type : AdcArgpType} {setting : Setting B} {text : Str}
    (h : setting.Fits type) (htext : setting.text = some text) :
    Argp.argResult B type text = .ok setting.value := by
  cases setting with
  | flag => exact absurd htext (by simp [Setting.text])
  | bool b =>
      obtain rfl := Option.some.inj htext
      obtain rfl := h
      cases b with
      | true => exact argResult_of_eq (show valueParser B .bool = some parseBool from rfl) rfl
      | false => exact argResult_of_eq (show valueParser B .bool = some parseBool from rfl) rfl
  | string s =>
      obtain rfl := Option.some.inj htext
      obtain rfl := h
      exact argResult_of_eq (show valueParser B .string = some parseString from rfl) rfl
  | int n =>
      obtain rfl := Option.some.inj htext
      obtain ⟨rfl, hrange⟩ := h
      have hparse := (decimalNumeral_intText n).parseInt (Value.int 0 : Value B)
      rw [if_pos hrange] at hparse
      have hresult := argResult_of_eq (show valueParser B .int = some parseInt from rfl)
        (congrArg Prod.snd hparse)
      rwa [hparse] at hresult
  | uint n =>
      obtain rfl := Option.some.inj htext
      obtain ⟨rfl, hrange⟩ := h
      rcases (DecimalNumeral.unsigned n).parseUint (Value.int 0 : Value B) with
        ⟨hminus, -⟩ | ⟨m, hm, hparse⟩
      · exact absurd hminus (minus_not_mem_decimalText n)
      · obtain rfl : n = m := Int.ofNat.inj hm
        rw [if_pos hrange] at hparse
        have hresult := argResult_of_eq (show valueParser B .uint = some parseUint from rfl)
          (congrArg Prod.snd hparse)
        rwa [hparse] at hresult
  | float x s =>
      obtain rfl := Option.some.inj htext
      obtain ⟨rfl, hs, hread⟩ := h
      have hparse := parseFloat_of_read hs hread (Value.int 0 : Value B)
      have hresult := argResult_of_eq (show valueParser B .float = some parseFloat from rfl)
        (congrArg Prod.snd hparse)
      rwa [hparse] at hresult
  | double x s =>
      obtain rfl := Option.some.inj htext
      obtain ⟨rfl, hs, hread, hfloat⟩ := h
      have hparse := parseDouble_of_read hs hread (Value.int 0 : Value B)
      rw [hfloat] at hparse
      have hresult := argResult_of_eq (show valueParser B .double = some parseDouble from rfl)
        (congrArg Prod.snd hparse)
      rwa [hparse] at hresult

/-- The settings without a text are those of flags. -/
theorem Setting.Fits.valueParser {type : AdcArgpType} {setting : Setting B}
    (h : setting.Fits type) :
    (Argp.valueParser B type).isSome = setting.text.isSome ∧ type ≠ .help ∧
      (setting.text = none → type = .flag ∧ setting.value = .int 1) := by
  cases setting with
  | flag | bool b | string s =>
      obtain rfl := h
      simp [Argp.valueParser, Setting.text, Setting.value]
  | int n | uint n | float x s | double x s =>
      obtain ⟨rfl, -⟩ := h
      simp [Argp.valueParser, Setting.text]

variable (B) in
/-- A setting of an option of the table, with the spelling that is used. -/
structure Assignment where
  opt : Nat
  long : Bool
  setting : Setting B

section Assignments

variable (opts)

def Assignment.name (a : Assignment B) : Str := (optAt opts a.opt).spelling a.long

/-- The arguments of an assignment. -/
def Assignment.argv (a : Assignment B) : List Str := a.name opts :: a.setting.text.toList

def Assignment.target (a : Assignment B) : Loc := (optAt opts a.opt).val

structure Assignment.Valid (a : Assignment B) : Prop where
  lt : a.opt < opts.1.length
  fits : a.setting.Fits (optAt opts a.opt).valtype

/-- The group that the arguments of an assignment are. -/
def Assignment.group (a : Assignment B) : ItemGroup Str :=
  match a.setting.text with
  | none => .single (a.name opts)
  | some text => .pair (a.name opts) text

end Assignments

/-- An assignment is one group, which stores its value without an error. -/
theorem Assignment.Valid.group {a : Assignment B} (h : a.Valid opts)
    (hname : lookup opts (a.name opts) = some a.opt) (rest : List Str) :
    groups (takesValue B opts) (a.argv opts ++ rest) =
        a.group opts :: groups (takesValue B opts) rest ∧
      isHelp opts (a.group opts) = false ∧ groupError B opts (a.group opts) = none ∧
      groupWrite B opts (a.group opts) = some (a.target opts, a.setting.value) := by
  obtain ⟨hparser, hhelp, hflag⟩ := h.fits.valueParser
  have htakes : takesValue B opts (a.name opts) = a.setting.text.isSome := by
    simp only [takesValue, hname, hparser]
  rw [Assignment.argv, Assignment.group]
  cases htext : a.setting.text with
  | none =>
      obtain ⟨htype, hvalue⟩ := hflag htext
      rw [htext] at htakes
      refine ⟨groups_single _ htakes, ?_, ?_, ?_⟩
      · simp [isHelp, groupName, hname, htype]
      · simp [groupError, hname]
      · simp [groupWrite, groupStore, hname, htype, hvalue, Assignment.target]
  | some text =>
      have hresult := h.fits.argResult htext
      rw [htext] at htakes
      refine ⟨groups_pair _ _ htakes, ?_, ?_, ?_⟩
      · simp [isHelp, groupName, hname, hhelp]
      · simp [groupError, hname, hresult]
      · simp [groupWrite, argStored, hname, hresult, Assignment.target]

/-- The arguments of assignments are their groups. -/
theorem groups_assignments {as : List (Assignment B)} (hvalid : ∀ a ∈ as, a.Valid opts)
    (hname : ∀ a ∈ as, lookup opts (a.name opts) = some a.opt) :
    groups (takesValue B opts) (as.flatMap (Assignment.argv opts)) =
        as.map (Assignment.group opts) ∧
      (∀ g ∈ as.map (Assignment.group opts), isHelp opts g = false) ∧
      (as.map (Assignment.group opts)).filterMap (groupError B opts) = [] ∧
      (as.map (Assignment.group opts)).filterMap (groupWrite B opts) =
        as.map fun a => (a.target opts, a.setting.value) := by
  induction as with
  | nil => exact ⟨rfl, fun g hg => absurd hg List.not_mem_nil, rfl, rfl⟩
  | cons a as ih =>
      obtain ⟨ha, has⟩ := List.forall_mem_cons.mp hvalid
      obtain ⟨hna, hnas⟩ := List.forall_mem_cons.mp hname
      obtain ⟨hgroups, hhelp, herror, hwrite⟩ := ih has hnas
      obtain ⟨hcons, hahelp, haerror, hawrite⟩ :=
        ha.group hna (as.flatMap (Assignment.argv opts))
      refine ⟨?_, List.forall_mem_cons.mpr ⟨hahelp, hhelp⟩, ?_, ?_⟩
      · rw [List.flatMap_cons, hcons, hgroups, List.map_cons]
      · rw [List.map_cons, List.filterMap_cons_none haerror, herror]
      · rw [List.map_cons, List.filterMap_cons_some hawrite, hwrite, List.map_cons]

/--
On a table without ambiguous spellings, every list of valid assignments is parsed back
from its arguments: no error is added, and each location holds the value of the last
assignment to it, or what it held before.
-/
theorem settings_round_trip {parser : AdcArgpParser B} (hopts : parser.opts.1 ≠ [])
    (hlen : parser.opts.1.length < 2 ^ 31) (hdistinct : Unambiguous parser.opts)
    {as : List (Assignment B)} (hvalid : ∀ a ∈ as, a.Valid parser.opts) (progname : Str)
    (store : Store B) :
    ∃ store',
      adcArgpParse parser (progname :: as.flatMap (Assignment.argv parser.opts)) store =
        some (.returned parser.errorsLen { parser with progname := some progname } store') ∧
      ∀ loc, store' loc =
        (((as.filter fun a => a.target parser.opts = loc).getLast?).map
          fun a => a.setting.value).getD (store loc) := by
  have hreach (a : Assignment B) (ha : a ∈ as) :
      lookup parser.opts (a.name parser.opts) = some a.opt :=
    lookup_spelling hlen hdistinct (hvalid a ha).lt a.long
  obtain ⟨hgroups, hhelp, herror, hwrite⟩ := groups_assignments hvalid hreach
  have hargs : argGroups B parser.opts
      (progname :: as.flatMap (Assignment.argv parser.opts)) =
        as.map (Assignment.group parser.opts) := hgroups
  obtain ⟨hopts', hprogname, herrors⟩ := foldl_addGroupError
    (as.map (Assignment.group parser.opts))
    (setProgname parser (progname :: as.flatMap (Assignment.argv parser.opts)))
  rw [setProgname_opts] at hopts'
  rw [setProgname_opts, herror, List.append_nil, setProgname_errors,
    List.take_of_length_le parser.errors.2] at herrors
  have hparser : (as.map (Assignment.group parser.opts)).foldl addGroupError
      (setProgname parser (progname :: as.flatMap (Assignment.argv parser.opts))) =
        { parser with progname := some progname } := parser_ext hprogname hopts' herrors
  refine ⟨writeAll (as.map fun a => (a.target parser.opts, a.setting.value)) store, ?_, ?_⟩
  · rw [adcArgpParse_eq, callOutcome, if_neg hopts, hargs,
      handleGroups_returned (by rwa [setProgname_opts]), hparser, setProgname_opts, hwrite]
    rfl
  · intro loc
    rw [writeAll_apply, writesTo_map, List.getLast?_map]

/-- A parser with a double and an integer. -/
def scaleParser : AdcArgpParser integerBuild :=
  ⟨none,
    ⟨[adcArgpHelp,
        ⟨some "scale".toList, some "s".toList, .double, 1, some "Set the scale".toList⟩,
        ⟨some "count".toList, some "n".toList, .int, 2, some "Set the count".toList⟩],
      by decide, by decide⟩,
    ⟨[], Nat.zero_le _⟩⟩

/-- `-s 2 --count -7 --scale 5` -/
theorem settings_round_trip_test :
    ∃ store',
      adcArgpParse scaleParser
        ["prog".toList, "-s".toList, "2".toList, "--count".toList, "-7".toList,
          "--scale".toList, "5".toList] (fun _ => .int 0) =
        some (.returned 0 { scaleParser with progname := some "prog".toList } store') ∧
      store' 1 = .double (5 : Int) ∧ store' 2 = .int (-7) := by
  have hvalid : ∀ a ∈ [(⟨1, false, .double (2 : Int) "2".toList⟩ : Assignment integerBuild),
      ⟨2, true, .int (-7)⟩, ⟨1, true, .double (5 : Int) "5".toList⟩],
      a.Valid scaleParser.opts := by
    intro a ha
    simp only [List.mem_cons, List.not_mem_nil, or_false] at ha
    rcases ha with rfl | rfl | rfl
    · exact ⟨by decide, rfl, by decide, rfl, rfl⟩
    · exact ⟨by decide, rfl, by decide, by decide⟩
    · exact ⟨by decide, rfl, by decide, rfl, rfl⟩
  have hopts : scaleParser.opts.1 ≠ [] := by decide
  obtain ⟨store', hparse, hstore⟩ := settings_round_trip hopts (by decide) (by decide) hvalid
    "prog".toList (fun _ => .int 0)
  exact ⟨store', hparse, hstore 1, hstore 2⟩

end Argp
end AdcLibs
