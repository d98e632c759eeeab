import AdcLibs.Argp.Model
import AdcLibs.Library.FirstMatch

/-!
# `find_opt`

An argument names an option by `--` and its name, or by `-` and its short name.
With `--` the scan also compares the rest behind the first dash with the short
names, so that a short name that starts with a dash is taken for a long one.
-/

namespace AdcLibs
namespace Argp

open FirstMatch

theorem stringHasPrefix_iff (str pre : Str) : stringHasPrefix str pre = true ↔ pre <+: str := by
  induction pre generalizing str with
  | nil => simp [stringHasPrefix]
  | cons p pre ih =>
      cases str with
      | nil => simp [stringHasPrefix]
      | cons s str =>
          rw [stringHasPrefix, List.cons_prefix_cons]
          by_cases hp : p = s
          · simp [hp, ih]
          · simp [hp]

/-- The argument names the option. -/
def NamesOption (s : Str) (opt : AdcArgpOption) : Prop :=
  (∃ name, opt.name = some name ∧ s = "--".toList ++ name) ∨
  (¬ "--".toList <+: s ∧ ∃ shortname, opt.shortname = some shortname ∧ s = "-".toList ++ shortname)

/-- What the scan compares. -/
def ScanAccepts (longname : Bool) (s : Str) (opt : AdcArgpOption) : Prop :=
  (longname = true ∧ opt.name = some (s.drop 2)) ∨ opt.shortname = some (s.drop 1)

theorem beq_name_iff {name : Option Str} {t : Str} : (some t == name) = true ↔ name = some t := by
  rw [beq_iff_eq]
  exact eq_comm

/-- The scan stops at the first option that it accepts. -/
theorem findOptFrom_isFirst (longname : Bool) (s : Str) (opts : List AdcArgpOption) (i : Nat) :
    ∃ r, IsFirst (ScanAccepts longname s) opts r ∧
      findOptFrom longname s opts i = if r = -1 then -1 else i + r := by
  induction opts generalizing i with
  | nil => exact ⟨-1, .nil, rfl⟩
  | cons opt opts ih =>
      simp only [findOptFrom, Bool.and_eq_true, beq_name_iff]
      by_cases hlong : longname = true ∧ opt.name = some (s.drop 2)
      · rw [if_pos hlong]
        exact ⟨0, .head (.inl hlong), (Int.add_zero _).symm⟩
      · rw [if_neg hlong]
        by_cases hshort : opt.shortname = some (s.drop 1)
        · rw [if_pos hshort]
          exact ⟨0, .head (.inr hshort), (Int.add_zero _).symm⟩
        · rw [if_neg hshort]
          obtain ⟨r, hr, hfind⟩ := ih (i + 1)
          have hnot : ¬ ScanAccepts longname s opt := by
            rintro (h | h)
            · exact hlong h
            · exact hshort h
          refine ⟨_, hr.tail hnot, ?_⟩
          rw [hfind]
          rcases hr with ⟨k, x, rfl, -⟩ | ⟨rfl, -⟩
          · rw [if_neg (by omega), if_neg (by omega), if_neg (by omega)]
            push_cast
            omega
          · rfl

theorem findOptFrom_zero_isFirst (longname : Bool) (s : Str) (opts : List AdcArgpOption) :
    IsFirst (ScanAccepts longname s) opts (findOptFrom longname s opts 0) := by
  obtain ⟨r, hr, hfind⟩ := findOptFrom_isFirst longname s opts 0
  rw [hfind]
  rcases hr with ⟨k, x, rfl, hk⟩ | ⟨rfl, hnone⟩
  · rw [if_neg (by omega)]
    exact .inl ⟨k, x, by push_cast; omega, hk⟩
  · exact .inr ⟨rfl, hnone⟩

/-- With two dashes the scan accepts what the name names, and more. -/
theorem namesOption_long {t : Str} {opt : AdcArgpOption} :
    NamesOption ('-' :: '-' :: t) opt ↔ opt.name = some t := by
  constructor
  · rintro (⟨name, hname, hs⟩ | ⟨hnot, -⟩)
    · have ht : t = name := (List.cons.inj (List.cons.inj hs).2).2
      rw [hname, ht]
    · exact absurd ⟨t, rfl⟩ hnot
  · exact fun hname => .inl ⟨t, hname, rfl⟩

theorem namesOption_short {s t : Str} {opt : AdcArgpOption} (hs : s = '-' :: t)
    (hnot : ¬ "--".toList <+: s) : NamesOption s opt ↔ opt.shortname = some t := by
  subst hs
  constructor
  · rintro (⟨name, -, hs⟩ | ⟨-, shortname, hshort, hs⟩)
    · exact absurd ⟨name, hs.symm⟩ hnot
    · have ht : t = shortname := (List.cons.inj hs).2
      rw [hshort, ht]
  · exact fun hshort => .inr ⟨hnot, t, hshort, rfl⟩

/-- What `find_opt` returns in each of the three cases. -/
theorem findOpt_cases (s : Str) (opts : List AdcArgpOption) :
    (∃ t, s = '-' :: '-' :: t ∧
        IsFirst (ScanAccepts true s) opts (findOpt s opts opts.length)) ∨
      (¬ "--".toList <+: s ∧ ∃ t, s = '-' :: t ∧
        IsFirst (ScanAccepts false s) opts (findOpt s opts opts.length)) ∨
      (¬ "--".toList <+: s ∧ ¬ "-".toList <+: s ∧ findOpt s opts opts.length = -1) := by
  simp only [findOpt, Int.toNat_natCast, List.take_length]
  by_cases hlong : "--".toList <+: s
  · rw [if_pos ((stringHasPrefix_iff _ _).mpr hlong)]
    obtain ⟨t, rfl⟩ := hlong
    exact .inl ⟨t, rfl, findOptFrom_zero_isFirst _ _ _⟩
  · rw [if_neg (fun h => hlong ((stringHasPrefix_iff _ _).mp h))]
    by_cases hshort : "-".toList <+: s
    · rw [if_pos ((stringHasPrefix_iff _ _).mpr hshort)]
      obtain ⟨t, rfl⟩ := hshort
      exact .inr (.inl ⟨hlong, t, rfl, findOptFrom_zero_isFirst _ _ _⟩)
    · rw [if_neg (fun h => hshort ((stringHasPrefix_iff _ _).mp h))]
      exact .inr (.inr ⟨hlong, hshort, rfl⟩)

/--
`find_opt` returns the first option that the argument names, or -1, exactly when
the argument does not start with `--`, or each option whose short name is the
rest behind the first dash has an option with the long name at or before it.
-/
theorem findOpt_first_iff (s : Str) (opts : List AdcArgpOption) :
    IsFirst (NamesOption s) opts (findOpt s opts opts.length) ↔
      ("--".toList <+: s → ∀ (j : Nat) (opt : AdcArgpOption), opts[j]? = some opt →
        opt.shortname = some (s.drop 1) →
          ∃ (i : Nat) (opt' : AdcArgpOption), i ≤ j ∧ opts[i]? = some opt' ∧
            opt'.name = some (s.drop 2)) := by
  rcases findOpt_cases s opts with ⟨t, rfl, hfirst⟩ | ⟨hnot, t, hs, hfirst⟩ | ⟨hlong, hshort, hnone⟩
  · have hname (opt : AdcArgpOption) (h : NamesOption ('-' :: '-' :: t) opt) :
        ScanAccepts true ('-' :: '-' :: t) opt := .inl ⟨rfl, namesOption_long.mp h⟩
    rw [hfirst.stronger_iff fun opt _ => hname opt]
    simp only [namesOption_long]
    constructor
    · intro hall _ j opt hopt hshort
      exact hall j opt hopt (.inr hshort)
    · intro hall j opt hopt haccepts
      rcases haccepts with ⟨-, hlong⟩ | hshort
      · exact ⟨j, opt, Nat.le_refl j, hopt, hlong⟩
      · exact hall ⟨t, rfl⟩ j opt hopt hshort
  · refine iff_of_true (hfirst.congr fun opt _ => ?_) fun hlong => absurd hlong hnot
    rw [namesOption_short hs hnot, hs]
    exact ⟨.inr, fun h => h.elim (fun hlong => absurd hlong.1 Bool.false_ne_true) id⟩
  · refine iff_of_true (.inr ⟨hnone, ?_⟩) fun h => absurd h hlong
    rintro j opt - (⟨name, -, rfl⟩ | ⟨-, shortname, -, rfl⟩)
    · exact hlong ⟨name, rfl⟩
    · exact hshort ⟨shortname, rfl⟩

/-- `--x` is taken for the option with the short name `-x`. -/
theorem findOpt_takes_short :
    ¬ ∀ (s : Str) (opts : List AdcArgpOption),
      (∀ opt ∈ opts, opt.name ≠ none ∧ opt.shortname ≠ none) →
        IsFirst (NamesOption s) opts (findOpt s opts opts.length) := by
  intro hall
  have hfirst := hall "--x".toList
    [⟨some "long".toList, some "-x".toList, .flag, 1, some []⟩] (by decide)
  have hfind : findOpt "--x".toList
      [⟨some "long".toList, some "-x".toList, .flag, 1, some []⟩] 1 = 0 := by decide
  rcases hfirst with ⟨i, opt, hi, hopt, hnames, -⟩ | ⟨hnone, -⟩
  · obtain rfl : i = 0 := by
      have hzero : (0 : Int) = i := hfind.symm.trans hi
      omega
    obtain rfl := Option.some.inj hopt
    have hname := namesOption_long.mp hnames
    exact absurd hname (by decide)
  · exact absurd (hfind.symm.trans hnone) (by decide)

end Argp
end AdcLibs
