import AdcLibs.Argp.Bools

/-!
# Rejected arguments

What the round of the loop that meets an error for an option does to the store:
nothing, unless the option is a `bool` option and its argument is a numeral, which
`parse_bool` stores before it rejects it.  Without such numerals an option that is
rejected whenever it is named keeps its target through the whole call.
-/

namespace AdcLibs
namespace Argp

open Loops

variable {B : Build}

/-- `adc_argp_parse` tests its loop in the state `s`, and goes on. -/
def CallVisits (parser : AdcArgpParser B) (argv : List Str) (store : Store B)
    (s : ParseState B) : Prop :=
  parser.optsLen ≠ 0 ∧
    Visits (parseCond argv) (parseBody argv) ⟨1, setProgname parser argv, store, false⟩ s

/-- The error that the round from `s` meets for an option. -/
def occurrenceError (argv : List Str) (s : ParseState B) : Option ErrorType :=
  (lookup s.parser.opts (argv.getD s.i [])).bind fun k =>
    (valueParser B (optAt s.parser.opts k).valtype).bind fun parse =>
      if s.i + 1 ≥ argv.length then some .argMissing
      else
        let err := (parse (s.store (optAt s.parser.opts k).val) (argv.getD (s.i + 1) [])).2
        if err = .none then none else some err

/-- The round gives the error that it meets to `add_error`. -/
theorem occurrenceError_added {argv : List Str} {s : ParseState B} {err : ErrorType}
    (h : occurrenceError argv s = some err) :
    ∃ k arg, lookup s.parser.opts (argv.getD s.i []) = some k ∧
      (parseBody argv s).parser = addError s.parser err (some k) arg := by
  obtain ⟨k, hlookup, h⟩ := Option.bind_eq_some_iff.mp h
  obtain ⟨parse, hparse, h⟩ := Option.bind_eq_some_iff.mp h
  rw [parseBody_arg hlookup hparse, parseArg]
  by_cases hlast : s.i + 1 ≥ argv.length
  · rw [if_pos hlast] at h ⊢
    obtain rfl := Option.some.inj h
    exact ⟨k, _, hlookup, rfl⟩
  · rw [if_neg hlast] at h ⊢
    simp only at h
    split at h
    · exact absurd h (by simp)
    · next hne =>
        obtain rfl := Option.some.inj h
        exact ⟨k, _, hlookup, if_pos hne⟩

theorem store_set_self (store : Store B) (loc : Loc) : store.set loc (store loc) = store := by
  funext l
  rw [Store.set]
  split
  · next heq => rw [heq]
  · rfl

theorem store_set_eq_self_iff {store : Store B} {loc : Loc} {v : Value B} :
    store.set loc v = store ↔ store loc = v := by
  constructor
  · intro h
    have hat : store.set loc v loc = store loc := congrFun h loc
    rw [Store.set, if_pos rfl] at hat
    exact hat.symm
  · rintro rfl
    exact store_set_self store loc

/-- A numeral that the round gives to a `bool` option is what its target holds. -/
def KeepsBool (argv : List Str) (s : ParseState B) : Prop :=
  ∀ k, lookup s.parser.opts (argv.getD s.i []) = some k →
    (optAt s.parser.opts k).valtype = .bool → s.i + 1 < argv.length →
    ∀ arg, argv.getD (s.i + 1) [] = arg →
      (strtol arg).2 ≠ arg → -intMax < (strtol arg).1 → (strtol arg).1 < intMax →
      s.store (optAt s.parser.opts k).val = .int (BitVec.ofInt 32 (strtol arg).1)

/-- What `parse_int` leaves in the target. -/
theorem parseInt_target (out : Value B) (arg : Str) :
    (parseInt out arg).1 =
      if (strtol arg).2 ≠ arg ∧ -intMax < (strtol arg).1 ∧ (strtol arg).1 < intMax then
        .int (BitVec.ofInt 32 (strtol arg).1)
      else out := by
  simp only [parseInt]
  by_cases hend : (strtol arg).2 = arg
  · rw [if_pos hend, if_neg fun h => h.1 hend]
  · rw [if_neg hend]
    by_cases hrange : (strtol arg).1 ≥ intMax ∨ (strtol arg).1 ≤ -intMax
    · rw [if_pos hrange, if_neg]
      omega
    · rw [if_neg hrange, if_pos ⟨hend, by omega, by omega⟩]

/-- A value parser that reports an error leaves the target, but for a numeral that
`parse_bool` rejects. -/
theorem valueParser_keeps_iff {type : AdcArgpType} {parse : Value B → Str → Value B × ErrorType}
    (h : valueParser B type = some parse) (arg : Str) (out : Value B) :
    ((parse out arg).2 ≠ .none → (parse out arg).1 = out) ↔
      (type = .bool → (strtol arg).2 ≠ arg → -intMax < (strtol arg).1 →
        (strtol arg).1 < intMax → out = .int (BitVec.ofInt 32 (strtol arg).1)) := by
  by_cases hbool : type = .bool
  · subst hbool
    obtain rfl := Option.some.inj h
    by_cases htrue : arg = "true".toList
    · subst htrue
      exact iff_of_true (fun hne => absurd rfl hne) fun _ hend => absurd (by decide) hend
    by_cases hfalse : arg = "false".toList
    · subst hfalse
      exact iff_of_true (fun hne => absurd rfl hne) fun _ hend => absurd (by decide) hend
    rw [parseBool_of_ne htrue hfalse, parseInt_target]
    split
    · next hread =>
        constructor
        · exact fun hkeeps _ _ _ _ => (hkeeps fun hnone => nomatch hnone).symm
        · exact fun hholds _ => (hholds rfl hread.1 hread.2.1 hread.2.2).symm
    · next hread =>
        exact iff_of_true (fun _ => rfl) fun _ hend hmin hmax => absurd ⟨hend, hmin, hmax⟩ hread
  · refine iff_of_true ?_ fun htype => absurd htype hbool
    rcases valueParser_transactional h hbool arg with
      ⟨v, (hv : ∀ out, parse out arg = (v, .none))⟩ |
        ⟨err, -, (herr : ∀ out, parse out arg = (out, err))⟩
    · exact fun hne => absurd (by rw [hv]) hne
    · exact fun _ => by rw [herr]

/-- The round from `s` leaves the store when it meets an error for an option. -/
def RejectionKeeps (argv : List Str) (s : ParseState B) : Prop :=
  ∀ err, occurrenceError argv s = some err → (parseBody argv s).store = s.store

/-- A round that gives an argument to the value parser of an option. -/
theorem rejectionKeeps_of_arg {argv : List Str} {s : ParseState B} {k : Nat}
    {parse : Value B → Str → Value B × ErrorType}
    (hlookup : lookup s.parser.opts (argv.getD s.i []) = some k)
    (hparse : valueParser B (optAt s.parser.opts k).valtype = some parse)
    (hlt : s.i + 1 < argv.length) :
    RejectionKeeps argv s ↔
      ((parse (s.store (optAt s.parser.opts k).val) (argv.getD (s.i + 1) [])).2 ≠ .none →
        (parse (s.store (optAt s.parser.opts k).val) (argv.getD (s.i + 1) [])).1 =
          s.store (optAt s.parser.opts k).val) := by
  have herror : occurrenceError argv s =
      if (parse (s.store (optAt s.parser.opts k).val) (argv.getD (s.i + 1) [])).2 = .none then none
      else some (parse (s.store (optAt s.parser.opts k).val) (argv.getD (s.i + 1) [])).2 := by
    rw [occurrenceError, hlookup, Option.bind_some, hparse, Option.bind_some,
      if_neg (Nat.not_le_of_lt hlt)]
  have hstore : (parseBody argv s).store = s.store.set (optAt s.parser.opts k).val
      (parse (s.store (optAt s.parser.opts k).val) (argv.getD (s.i + 1) [])).1 := by
    rw [parseBody_arg hlookup hparse, parseArg, if_neg (Nat.not_le_of_lt hlt)]
    rfl
  rw [RejectionKeeps, herror, hstore, store_set_eq_self_iff]
  constructor
  · intro hkeeps hne
    exact (hkeeps _ (if_neg hne)).symm
  · intro hkeeps err herr
    refine (hkeeps fun hnone => ?_).symm
    rw [if_pos hnone] at herr
    exact absurd herr (by simp)

/-- One round. -/
theorem rejectionKeeps_iff (argv : List Str) (s : ParseState B) :
    RejectionKeeps argv s ↔ KeepsBool argv s := by
  cases hlookup : lookup s.parser.opts (argv.getD s.i []) with
  | none =>
      refine iff_of_true (fun err herr => ?_) fun k hk => absurd (hlookup.symm.trans hk) (by simp)
      rw [occurrenceError, hlookup] at herr
      exact absurd herr (by simp)
  | some k =>
      have hkeeps : KeepsBool argv s ↔ ((optAt s.parser.opts k).valtype = .bool →
          s.i + 1 < argv.length → ∀ arg, argv.getD (s.i + 1) [] = arg →
          (strtol arg).2 ≠ arg → -intMax < (strtol arg).1 → (strtol arg).1 < intMax →
          s.store (optAt s.parser.opts k).val = .int (BitVec.ofInt 32 (strtol arg).1)) := by
        constructor
        · exact fun h => h k hlookup
        · intro h k' hk'
          obtain rfl := Option.some.inj (hlookup.symm.trans hk')
          exact h
      cases hparse : valueParser B (optAt s.parser.opts k).valtype with
      | none =>
          rw [hkeeps]
          refine iff_of_true (fun err herr => ?_) fun htype => ?_
          · rw [occurrenceError, hlookup, Option.bind_some, hparse] at herr
            exact absurd herr (by simp)
          · rw [htype] at hparse
            exact absurd hparse (by simp [valueParser])
      | some parse =>
          by_cases hlt : s.i + 1 < argv.length
          · rw [rejectionKeeps_of_arg hlookup hparse hlt, valueParser_keeps_iff hparse, hkeeps]
            constructor
            · rintro h htype _ arg rfl
              exact h htype
            · exact fun h htype => h htype hlt _ rfl
          · rw [hkeeps]
            refine iff_of_true (fun err _ => ?_) fun _ hlast => absurd hlast hlt
            rw [parseBody_arg hlookup hparse, parseArg, if_pos (Nat.le_of_not_lt hlt)]

/--
In a call every rejected argument leaves all targets exactly when at every round
that gives a numeral to a `bool` option the target holds this number already.
-/
theorem rejections_keep_iff (parser : AdcArgpParser B) (argv : List Str) (store : Store B) :
    (∀ s, CallVisits parser argv store s → RejectionKeeps argv s) ↔
      ∀ s, CallVisits parser argv store s → KeepsBool argv s := by
  simp only [rejectionKeeps_iff]

/-- The option `-b` of type `bool`. -/
def boolOptions : List AdcArgpOption :=
  [⟨some ['b'], some ['b'], .bool, 1, some []⟩]

def boolParser : AdcArgpParser plainBuild :=
  { testParser with opts := ⟨boolOptions, by decide, by decide⟩ }

/-- The rejected `-b 5` leaves 5 where 1 was. -/
theorem rejected_numeral_is_stored :
    ¬ ∀ (B : Build) (parser : AdcArgpParser B), DistinctTargets parser.opts →
      ∀ (argv : List Str) (store : Store B) (s : ParseState B),
        CallVisits parser argv store s → RejectionKeeps argv s := by
  intro hall
  have hvisits : CallVisits boolParser [[], ['-', 'b'], ['5']] (fun _ => .int 1)
      ⟨1, setProgname boolParser [[], ['-', 'b'], ['5']], fun _ => .int 1, false⟩ :=
    ⟨by decide, .refl _, rfl⟩
  have hkeeps := hall plainBuild boolParser (by unfold DistinctTargets; decide) _ _ _ hvisits
    .argInvalidBool (by decide)
  have hstored := congrFun hkeeps 1
  cases hstored

/-! ## Whole calls -/

/-- A round changes at most the target of the option that it names. -/
theorem parseBody_store_frame {argv : List Str} {s : ParseState B} {loc : Loc}
    (hloc : ∀ k, lookup s.parser.opts (argv.getD s.i []) = some k →
      (optAt s.parser.opts k).valtype ≠ .help → (optAt s.parser.opts k).val ≠ loc) :
    (parseBody argv s).store loc = s.store loc := by
  have hset (k : Nat) (v : Value B) (hk : (optAt s.parser.opts k).val ≠ loc) :
      s.store.set (optAt s.parser.opts k).val v loc = s.store loc := if_neg hk.symm
  obtain ⟨-, hbody⟩ | ⟨k, hlookup, -, ⟨-, hbody⟩ | ⟨htype, hbody⟩ | ⟨parse, hparse, hbody⟩⟩ :=
    parseBody_cases argv s
  · rw [hbody]
  · rw [hbody]
  · rw [hbody]
    exact hset k _ (hloc k hlookup (by rw [htype]; decide))
  · have hhelp : (optAt s.parser.opts k).valtype ≠ .help := by
      intro htype
      rw [htype] at hparse
      exact absurd hparse (by simp [valueParser])
    rw [hbody, parseArg]
    split
    · rfl
    · exact hset k _ (hloc k hlookup hhelp)

/-- Every time the call names the option `k`, it meets an error. -/
def AlwaysRejected (parser : AdcArgpParser B) (argv : List Str) (store : Store B) (k : Nat) :
    Prop :=
  ∀ s, CallVisits parser argv store s →
    lookup s.parser.opts (argv.getD s.i []) = some k → ∃ err, occurrenceError argv s = some err

/-- An option that is always rejected keeps its target through the whole call, if rejected
arguments leave the store. -/
theorem rejected_option_keeps {parser parser' : AdcArgpParser B}
    (hdistinct : DistinctTargets parser.opts) {argv : List Str} {store store' : Store B}
    {n : Nat} (hreturn : adcArgpParse parser argv store = some (.returned n parser' store'))
    (hkeeps : ∀ s, CallVisits parser argv store s → KeepsBool argv s) {k : Nat}
    (hk : k < parser.opts.1.length) (htype : (optAt parser.opts k).valtype ≠ .help)
    (hrejected : AlwaysRejected parser argv store k) :
    store' (optAt parser.opts k).val = store (optAt parser.opts k).val := by
  rw [adcArgpParse] at hreturn
  split at hreturn
  · obtain ⟨⟩ := Option.some.inj hreturn
    rfl
  · next hlen =>
      obtain ⟨t, hloop, houtcome⟩ := Option.map_eq_some_iff.mp hreturn
      have hstore : t.store = store' := by
        split at houtcome
        · exact absurd houtcome (by simp)
        · injection houtcome
      rw [← hstore]
      have hiterates := (exits_of_whileFuel hloop).iterates
      -- the rounds so far, the table, and the target
      refine (hiterates.invariant (I := fun s =>
        Iterates (parseCond argv) (parseBody argv) ⟨1, setProgname parser argv, store, false⟩ s ∧
          s.parser.opts = parser.opts ∧
          s.store (optAt parser.opts k).val = store (optAt parser.opts k).val) ?_
        ⟨.refl _, setProgname_opts parser argv, rfl⟩).2.2
      rintro s ⟨hreach, hopts, hsame⟩ hcond
      have hvisits : CallVisits parser argv store s := ⟨hlen, hreach, hcond⟩
      refine ⟨hreach.tail hcond, (parseBody_opts argv s).trans hopts, ?_⟩
      rw [← hsame]
      by_cases hnames : lookup s.parser.opts (argv.getD s.i []) = some k
      · obtain ⟨err, herr⟩ := hrejected s hvisits hnames
        rw [(rejectionKeeps_iff argv s).mpr (hkeeps s hvisits) err herr]
      · refine parseBody_store_frame ?_
        intro i hi hihelp hval
        rw [hopts] at hi hihelp hval
        have hlt := lookup_lt hi
        refine hnames ?_
        rw [hopts, hi, hdistinct i hlt k hk hihelp htype hval]

end Argp
end AdcLibs
