import AdcLibs.Argp.Integers

/-!
# `parse_bool`

The messages promise `true`, `false`, `1` and `0`.  `parse_bool` takes the error code
of `parse_int` for the value, and no error code is 0 or 1 there, so that every numeral
is rejected.
-/

namespace AdcLibs
namespace Argp

variable {B : Build}

/-- `parse_int` stores `n` exactly when `strtol` reads `n`. -/
theorem parseInt_stores_iff {s : Str} {n : Int} (hmin : -intMax < n) (hmax : n < intMax)
    (out : Value B) :
    parseInt out s = (.int (BitVec.ofInt 32 n), .none) ↔ (strtol s).2 ≠ s ∧ (strtol s).1 = n := by
  cases h : strtoNumber s with
  | none =>
      refine iff_of_false ?_ fun hread => hread.1 (by simp only [strtol, h])
      rw [parseInt_of_none h]
      exact fun heq => ErrorType.noConfusion (congrArg Prod.snd heq)
  | some r =>
      obtain ⟨negative, m, rest⟩ := r
      have hend : (strtol s).2 ≠ s := by
        rw [strtol_of_some h]
        exact endptr_ne h
      rw [parseInt_of_some h, and_iff_right hend]
      by_cases hlt : (m : Int) < intMax
      · rw [if_pos hlt, strtol_eq_of_lt h hlt]
        constructor
        · intro heq
          have hword : BitVec.ofInt 32 (signedValue negative m) = BitVec.ofInt 32 n := by
            injection heq with hval
            injection hval
          have hvalue := congrArg BitVec.toInt hword
          rw [toInt_signedValue hlt] at hvalue
          rw [hvalue]
          rw [intMax] at hmin hmax
          exact BitVec.toInt_ofInt_eq_self (by decide) (by omega) (by omega)
        · rintro rfl
          rfl
      · rw [if_neg hlt]
        refine iff_of_false (fun heq => ErrorType.noConfusion (congrArg Prod.snd heq)) ?_
        rintro rfl
        exact hlt ((strtol_in_range_iff h).mp ⟨hmin, hmax⟩)

variable (B)

/-- `parse_bool` accepts `s`, and what it stores, as the messages document it. -/
structure BoolAsDocumented (s : Str) : Prop where
  accepts : ∀ out : Value B, (∃ v, parseBool out s = (v, .none)) ↔
    s = "true".toList ∨ s = "false".toList ∨ parseInt out s = (.int 1, .none) ∨
      parseInt out s = (.int 0, .none)
  storesOne : ∀ out v : Value B, parseBool out s = (v, .none) →
    s = "true".toList ∨ parseInt out s = (.int 1, .none) → v = .int 1
  storesZero : ∀ out v : Value B, parseBool out s = (v, .none) →
    s = "false".toList ∨ parseInt out s = (.int 0, .none) → v = .int 0

variable {B}

theorem parseInt_one_iff {s : Str} (out : Value B) :
    parseInt out s = (.int 1, .none) ↔ (strtol s).2 ≠ s ∧ (strtol s).1 = 1 :=
  parseInt_stores_iff (n := 1) (by decide) (by decide) out

theorem parseInt_zero_iff {s : Str} (out : Value B) :
    parseInt out s = (.int 0, .none) ↔ (strtol s).2 ≠ s ∧ (strtol s).1 = 0 :=
  parseInt_stores_iff (n := 0) (by decide) (by decide) out

theorem parseBool_true (out : Value B) : parseBool out "true".toList = (.int 1, .none) := rfl

theorem parseBool_false (out : Value B) : parseBool out "false".toList = (.int 0, .none) := rfl

/-- `parse_bool` is as documented exactly when `strtol` does not read 0 or 1. -/
theorem bool_as_documented_iff (s : Str) :
    BoolAsDocumented B s ↔ ¬ ((strtol s).2 ≠ s ∧ ((strtol s).1 = 0 ∨ (strtol s).1 = 1)) := by
  have hnumber : ((strtol s).2 ≠ s ∧ ((strtol s).1 = 0 ∨ (strtol s).1 = 1)) ↔
      ∀ out : Value B, parseInt out s = (.int 1, .none) ∨ parseInt out s = (.int 0, .none) := by
    simp only [parseInt_one_iff, parseInt_zero_iff]
    constructor
    · rintro ⟨hend, hzero | hone⟩ _
      · exact .inr ⟨hend, hzero⟩
      · exact .inl ⟨hend, hone⟩
    · intro hall
      rcases hall (.int 0) with ⟨hend, hone⟩ | ⟨hend, hzero⟩
      · exact ⟨hend, .inr hone⟩
      · exact ⟨hend, .inl hzero⟩
  constructor
  · rintro hdoc ⟨hend, hvalue⟩
    have htrue : s ≠ "true".toList := by
      rintro rfl
      exact hend (by decide)
    have hfalse : s ≠ "false".toList := by
      rintro rfl
      exact hend (by decide)
    have hint := hnumber.mp ⟨hend, hvalue⟩ (.int 0)
    obtain ⟨v, hv⟩ := (hdoc.accepts (.int 0)).mpr (.inr (.inr hint))
    rw [parseBool_of_ne htrue hfalse] at hv
    exact nomatch congrArg Prod.snd hv
  · intro hnot
    have hone (out : Value B) : parseInt out s ≠ (.int 1, .none) := by
      rw [ne_eq, parseInt_one_iff]
      exact fun ⟨hend, hval⟩ => hnot ⟨hend, .inr hval⟩
    have hzero (out : Value B) : parseInt out s ≠ (.int 0, .none) := by
      rw [ne_eq, parseInt_zero_iff]
      exact fun ⟨hend, hval⟩ => hnot ⟨hend, .inl hval⟩
    refine ⟨?_, ?_, ?_⟩
    · intro out
      constructor
      · rintro ⟨v, hv⟩
        by_contra hother
        rw [not_or, not_or] at hother
        rw [parseBool_of_ne hother.1 hother.2.1] at hv
        exact nomatch congrArg Prod.snd hv
      · rintro (rfl | rfl | h | h)
        · exact ⟨_, parseBool_true out⟩
        · exact ⟨_, parseBool_false out⟩
        · exact absurd h (hone out)
        · exact absurd h (hzero out)
    · rintro out v hv (rfl | h)
      · exact (congrArg Prod.fst hv).symm
      · exact absurd h (hone out)
    · rintro out v hv (rfl | h)
      · exact (congrArg Prod.fst hv).symm
      · exact absurd h (hzero out)

/-- The documented argument `1` is rejected. -/
theorem parseBool_rejects_one : ¬ ∀ (B : Build) (s : Str), BoolAsDocumented B s := by
  intro hall
  obtain ⟨v, hv⟩ := ((hall plainBuild ['1']).accepts (.int 0)).mpr
    (.inr (.inr (.inl ((parseInt_one_iff _).mpr (by decide)))))
  rw [parseBool_of_ne (by decide) (by decide)] at hv
  exact nomatch congrArg Prod.snd hv

end Argp
end AdcLibs
