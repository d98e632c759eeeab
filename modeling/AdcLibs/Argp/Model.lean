import AdcLibs.Argp.Libc
import AdcLibs.Library.Loops

/-!
# `adc_argp.c`

The option table, the parser with its table of errors, the value parsers and
`adc_argp_parse`.

* The targets of the options are locations of a store of typed values.  A value
  parser is given the contents of its target and returns the new contents.
* A pointer to an option is its index in the table; a pointer to an argument is the
  argument.
* `int` counters are natural numbers; `argc` is at most `INT_MAX`.
-/

namespace AdcLibs
namespace Argp

/-- `adc_argp_type` -/
inductive AdcArgpType
  | help
  | flag
  | bool
  | string
  | int
  | uint
  | float
  | double
  | max
deriving DecidableEq, Repr, Inhabited

/-- The location of a target; 0 is `NULL`. -/
abbrev Loc := Nat

/-- `adc_argp_option`; `none` is a `NULL` string. -/
structure AdcArgpOption where
  name : Option Str
  shortname : Option Str
  valtype : AdcArgpType
  val : Loc
  desc : Option Str
deriving DecidableEq, Inhabited

/-- `ADC_ARGP_HELP` -/
def adcArgpHelp : AdcArgpOption :=
  ⟨some "help".toList, some "h".toList, .help, 0, some "Print usage information".toList⟩

/-- `error_type` -/
inductive ErrorType
  | none
  | optUnknown
  | argMissing
  | argInvalid
  | argInvalidBool
  | argNegativeUint
  | argOutOfRange
  | argUnderflow
deriving DecidableEq, Repr

/-- The enumeration constant. -/
def ErrorType.code : ErrorType → Int
  | .none => -1
  | .optUnknown => 0
  | .argMissing => 1
  | .argInvalid => 2
  | .argInvalidBool => 3
  | .argNegativeUint => 4
  | .argOutOfRange => 5
  | .argUnderflow => 6

/-- `error` -/
structure ArgpError where
  type : ErrorType
  opt : Option Nat
  argv : Str
deriving DecidableEq

/-- What `adc_argp_new_parser` asserts of an option. -/
def AdcArgpOption.Accepted (opt : AdcArgpOption) : Prop :=
  opt.name ≠ none ∧ opt.shortname ≠ none ∧ opt.valtype ≠ .max ∧ opt.desc ≠ none

instance (opt : AdcArgpOption) : Decidable opt.Accepted :=
  inferInstanceAs (Decidable (_ ∧ _ ∧ _ ∧ _))

/-- A table of options that the parser accepts; its length is an `unsigned int`. -/
abbrev OptionTable :=
  {opts : List AdcArgpOption // (∀ opt ∈ opts, opt.Accepted) ∧ opts.length < 2 ^ 32}

/-- The build: `ADC_ARGP_MAX_ERRORS` and the floating-point functions. -/
structure Build extends FloatEnv where
  adcArgpMaxErrors : Nat

variable (B : Build)

/-- The first `errors_len` entries of the array of errors. -/
abbrev ErrorTable := {errors : List ArgpError // errors.length ≤ B.adcArgpMaxErrors}

/-- `adc_argp_parser` -/
structure AdcArgpParser where
  progname : Option Str
  opts : OptionTable
  errors : ErrorTable B

/-- `opts_len` -/
def AdcArgpParser.optsLen {B : Build} (parser : AdcArgpParser B) : BitVec 32 :=
  BitVec.ofNat 32 parser.opts.1.length

/-- `errors_len` -/
def AdcArgpParser.errorsLen {B : Build} (parser : AdcArgpParser B) : Nat :=
  parser.errors.1.length

/-- `adc_argp_new_parser`, where `malloc` succeeds; `none` is a failed assertion. -/
def adcArgpNewParser (opts : List AdcArgpOption) (hlen : opts.length < 2 ^ 32) :
    Option (AdcArgpParser B) :=
  if h : ∀ opt ∈ opts, opt.Accepted then
    some ⟨none, ⟨opts, h, hlen⟩, ⟨[], Nat.zero_le _⟩⟩
  else none

variable {B}

/-- `add_error` -/
def addError (parser : AdcArgpParser B) (type : ErrorType) (opt : Option Nat) (argv : Str) :
    AdcArgpParser B :=
  if h : parser.errorsLen ≥ B.adcArgpMaxErrors then parser
  else
    { parser with
      errors := ⟨parser.errors.1 ++ [⟨type, opt, argv⟩], by
        rw [List.length_append, List.length_singleton]
        exact Nat.lt_of_not_le h⟩ }

/-! ## Looking up an option -/

/-- `string_has_prefix` -/
def stringHasPrefix : Str → Str → Bool
  | _, [] => true
  | [], _ :: _ => false
  | s :: str, p :: pre => if p != s then false else stringHasPrefix str pre

/-- The loop of `find_opt` from index `i` on. -/
def findOptFrom (longname : Bool) (argv : Str) : List AdcArgpOption → Nat → Int
  | [], _ => -1
  | opt :: opts, i =>
      if longname && some (argv.drop 2) == opt.name then i
      else if some (argv.drop 1) == opt.shortname then i
      else findOptFrom longname argv opts (i + 1)

/-- `find_opt` -/
def findOpt (argv : Str) (opts : List AdcArgpOption) (optsLen : Int) : Int :=
  let opts := opts.take optsLen.toNat
  if stringHasPrefix argv "--".toList then findOptFrom true argv opts 0
  else if stringHasPrefix argv "-".toList then findOptFrom false argv opts 0
  else -1

/-! ## The value parsers -/

variable (B)

/-- The contents of a target. -/
inductive Value
  | int (n : BitVec 32)
  | uint (n : BitVec 32)
  | string (s : Str)
  | float (x : B.Float)
  | double (x : B.Double)

abbrev Store := Loc → Value B

variable {B}

def Store.set (store : Store B) (loc : Loc) (v : Value B) : Store B := fun l =>
  if l = loc then v else store l

def intMax : Int := 2 ^ 31 - 1

def uintMax : Nat := 2 ^ 32 - 1

/-- `parse_int` -/
def parseInt (out : Value B) (argv : Str) : Value B × ErrorType :=
  let (result, endptr) := strtol argv
  if endptr = argv then (out, .argInvalid)
  else if result ≥ intMax ∨ result ≤ -intMax then (out, .argOutOfRange)
  else (.int (BitVec.ofInt 32 result), .none)

/-- `parse_bool` -/
def parseBool (out : Value B) (argv : Str) : Value B × ErrorType :=
  if argv = "true".toList then (.int 1, .none)
  else if argv = "false".toList then (.int 0, .none)
  else
    let (out, err) := parseInt out argv
    let val := err.code
    if ¬ (val = 1 ∨ val = 0) then (out, .argInvalidBool)
    else (.int (BitVec.ofInt 32 val), .none)

/-- `parse_uint` -/
def parseUint (out : Value B) (argv : Str) : Value B × ErrorType :=
  if '-' ∈ argv then (out, .argNegativeUint)
  else
    let (result, endptr) := strtoul argv
    if endptr = argv then (out, .argInvalid)
    else if result ≥ uintMax then (out, .argOutOfRange)
    else (.uint (BitVec.ofNat 32 result), .none)

/-- `parse_float` -/
def parseFloat (out : Value B) (argv : Str) : Value B × ErrorType :=
  let (result, endptr, erange) := B.strtof argv
  if endptr = argv then (out, .argInvalid)
  else if (B.feq result B.hugeValf || B.feq result (B.fneg B.hugeValf)) && erange then
    (out, .argOutOfRange)
  else if B.fle result B.fltMin && erange then (out, .argUnderflow)
  else (.float result, .none)

/-- `parse_double`; its `result` is a `float`. -/
def parseDouble (out : Value B) (argv : Str) : Value B × ErrorType :=
  let (value, endptr, erange) := B.strtod argv
  let result := B.toDouble (B.ofDouble value)
  if endptr = argv then (out, .argInvalid)
  else if (B.deq result B.hugeVal || B.deq result (B.dneg B.hugeVal)) && erange then
    (out, .argOutOfRange)
  else if B.dle result B.dblMin && erange then (out, .argUnderflow)
  else (.double result, .none)

/-- The assignment of a string argument. -/
def parseString (_out : Value B) (argv : Str) : Value B × ErrorType :=
  (.string argv, .none)

/-! ## `adc_argp_parse` -/

/-- The state of the loop; `exited` after the help text. -/
structure ParseState (B : Build) where
  i : Nat
  parser : AdcArgpParser B
  store : Store B
  exited : Bool

/-- A case with `ARGV_NEXT` and a value parser, with the error check behind the switch
and the increment of the loop. -/
def parseArg (argv : List Str) (optIndex : Nat)
    (parse : Value B → Str → Value B × ErrorType) (s : ParseState B) : ParseState B :=
  let opt := s.parser.opts.1.getD optIndex default
  let i := s.i + 1
  if i ≥ argv.length then
    { s with
      i := i + 1
      parser := addError s.parser .argMissing (some optIndex) (argv.getD (i - 1) []) }
  else
    let (val, err) := parse (s.store opt.val) (argv.getD i [])
    { s with
      i := i + 1
      store := s.store.set opt.val val
      parser :=
        if err ≠ .none then addError s.parser err (some optIndex) (argv.getD i [])
        else s.parser }

/-- The body of the loop over the arguments. -/
def parseBody (argv : List Str) (s : ParseState B) : ParseState B :=
  let arg := argv.getD s.i []
  let optIndex := findOpt arg s.parser.opts.1 s.parser.optsLen.toInt
  if optIndex < 0 then
    { s with i := s.i + 1, parser := addError s.parser .optUnknown none arg }
  else
    let opt := s.parser.opts.1.getD optIndex.toNat default
    match opt.valtype with
    | .help => { s with exited := true }
    | .flag => { s with i := s.i + 1, store := s.store.set opt.val (.int 1) }
    | .bool => parseArg argv optIndex.toNat parseBool s
    | .string => parseArg argv optIndex.toNat parseString s
    | .int => parseArg argv optIndex.toNat parseInt s
    | .uint => parseArg argv optIndex.toNat parseUint s
    | .float => parseArg argv optIndex.toNat parseFloat s
    | .double => parseArg argv optIndex.toNat parseDouble s
    | .max => { s with i := s.i + 1 }

def parseCond (argv : List Str) (s : ParseState B) : Bool :=
  !s.exited && s.i < argv.length

/-- How a call ends: it returns, or the program exits after the help text. -/
inductive ParseOutcome (B : Build)
  | returned (result : Nat) (parser : AdcArgpParser B) (store : Store B)
  | exited (parser : AdcArgpParser B)

/-- The parser with the program name of `argv[0]`, if there is one. -/
def setProgname (parser : AdcArgpParser B) (argv : List Str) : AdcArgpParser B :=
  match argv[0]? with
  | some arg => { parser with progname := some arg }
  | none => parser

@[simp] theorem setProgname_opts (parser : AdcArgpParser B) (argv : List Str) :
    (setProgname parser argv).opts = parser.opts := by
  rw [setProgname]
  split <;> rfl

@[simp] theorem setProgname_errors (parser : AdcArgpParser B) (argv : List Str) :
    (setProgname parser argv).errors = parser.errors := by
  rw [setProgname]
  split <;> rfl

/-- `adc_argp_parse` with `argc = argv.length`; every round of the loop advances `i` or
exits, so that `argc + 1` tests of its condition are enough. -/
def adcArgpParse (parser : AdcArgpParser B) (argv : List Str) (store : Store B) :
    Option (ParseOutcome B) :=
  if parser.optsLen = 0 then some (.returned 0 parser store)
  else
    (Loops.whileFuel (parseCond argv) (parseBody argv) (argv.length + 1)
      ⟨1, setProgname parser argv, store, false⟩).map fun s =>
        if s.exited then .exited s.parser
        else .returned s.parser.errorsLen s.parser s.store

end Argp
end AdcLibs
