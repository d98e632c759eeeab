import AdcLibs.Argp.Integers
import AdcLibs.Library.Significand

/-!
# `parse_double`

The result of `strtod` is kept in a `float` before it is stored, so that an integer
is stored exactly when it has a significand of 24 bits.
-/

namespace AdcLibs
namespace Argp

open Significand

/-- The integers that every `double` conversion keeps: `2 ^ 53` at most. -/
def DoubleInteger (n : Int) : Prop := n.natAbs ≤ 2 ^ 53

/-- `ofInt n` is the `double` with the value `n`: `strtod` gives it exactly, without an
error, and the conversion to `float` rounds to 24 bits, ties to even. -/
structure ExactIntegers (B : Build) (ofInt : Int → B.Double) : Prop where
  injective : ∀ n k, DoubleInteger n → DoubleInteger k → ofInt n = ofInt k → n = k
  strtod : ∀ n, DoubleInteger n → B.strtod (intText n) = (ofInt n, [], false)
  toFloat : ∀ n, DoubleInteger n →
    ∃ r, NearestEven 24 n r ∧ B.toDouble (B.ofDouble (ofInt n)) = ofInt r

variable {B : Build} {ofInt : Int → B.Double}

theorem intText_ne_nil (n : Int) : intText n ≠ [] := by
  rw [intText]
  split
  · exact List.cons_ne_nil _ _
  · exact Nat.toDigits_ne_nil

theorem double_injective {x y : B.Double} (h : (Value.double x : Value B) = .double y) : x = y := by
  injection h

/-- Of an integer the rounded value is stored. -/
theorem ExactIntegers.stores (h : ExactIntegers B ofInt) {n : Int} (hn : DoubleInteger n) :
    ∃ r, NearestEven 24 n r ∧
      ∀ out : Value B, parseDouble out (intText n) = (.double (ofInt r), .none) := by
  obtain ⟨r, hr, hfloat⟩ := h.toFloat n hn
  refine ⟨r, hr, fun out => ?_⟩
  simp only [parseDouble, h.strtod n hn, hfloat, if_neg (intText_ne_nil n).symm, Bool.and_false,
    Bool.false_eq_true, if_false]

/-- `parse_double` stores an integer exactly when it has a significand of 24 bits. -/
theorem parseDouble_exact_iff (h : ExactIntegers B ofInt) {n : Int} (hn : DoubleInteger n) :
    (∀ out : Value B, parseDouble out (intText n) = (.double (ofInt n), .none)) ↔
      Fits 24 n := by
  obtain ⟨r, hr, hparse⟩ := h.stores hn
  have hrange : DoubleInteger r := hr.natAbs_le (fits_pow (by decide) 53) hn
  rw [← hr.eq_iff]
  constructor
  · intro hexact
    have hvalue : ofInt r = ofInt n :=
      double_injective (congrArg Prod.fst ((hparse (.int 0)).symm.trans (hexact (.int 0))))
    exact h.injective r n hrange hn hvalue
  · rintro rfl
    exact hparse

/-- A build whose `double` values are integers, with `float` values rounded to 24 bits. -/
def integerBuild : Build where
  Float := Int
  Double := Int
  strtof := fun s => (Significand.round 24 (strtol s).1, (strtol s).2, false)
  strtod := fun s => ((strtol s).1, (strtol s).2, false)
  ofDouble := Significand.round 24
  toDouble := id
  feq := fun x y => x == y
  fle := fun x y => x ≤ y
  fneg := fun x => -x
  hugeValf := 2 ^ 128
  fltMin := 0
  deq := fun x y => x == y
  dle := fun x y => x ≤ y
  dneg := fun x => -x
  hugeVal := 2 ^ 1024
  dblMin := 0
  adcArgpMaxErrors := 32

theorem exactIntegers_integerBuild : ExactIntegers integerBuild id where
  injective := fun _ _ _ _ heq => heq
  strtod := by
    intro n hn
    obtain ⟨negative, m, hread, rfl⟩ := (decimalNumeral_intText n).read
    have hvalue := signedValue_cases negative m
    rw [DoubleInteger] at hn
    have hclamp : max longMin (min (signedValue negative m) longMax) = signedValue negative m := by
      simp only [longMin, longMax]
      omega
    change ((strtol _).1, (strtol _).2, false) = _
    rw [strtol_of_some hread, hclamp]
    rfl
  toFloat := fun n _ => ⟨_, nearestEven_round (by decide) n, rfl⟩

/-- The integer 10 is stored. -/
theorem parseDouble_exact_iff_ten :
    ExactIntegers integerBuild id ∧ ∀ out : Value integerBuild,
      parseDouble out (intText 10) = (.double (10 : Int), .none) :=
  ⟨exactIntegers_integerBuild,
    (parseDouble_exact_iff exactIntegers_integerBuild (by unfold DoubleInteger; decide)).mpr
      ⟨10, 0, by decide, rfl⟩⟩

/-- An odd number of 25 bits has no significand of 24 bits. -/
theorem not_fits_16777217 : ¬ Fits 24 16777217 := by
  rintro ⟨m, e, hm, hval⟩
  cases e with
  | zero => omega
  | succ e =>
      rw [Nat.pow_succ, ← Nat.mul_assoc] at hval
      omega

/-- `16777217` is not stored exactly. -/
theorem parseDouble_loses_bits :
    ¬ ∀ (B : Build) (ofInt : Int → B.Double), ExactIntegers B ofInt →
      ∀ n, DoubleInteger n → ∀ out : Value B,
        parseDouble out (intText n) = (.double (ofInt n), .none) := by
  intro hall
  have hn : DoubleInteger 16777217 := by
    unfold DoubleInteger
    decide
  obtain ⟨r, hr, hparse⟩ := exactIntegers_integerBuild.stores hn
  have hexact := hall integerBuild id exactIntegers_integerBuild 16777217 hn (.int 0)
  have hvalue : r = 16777217 :=
    double_injective (congrArg Prod.fst ((hparse (.int 0)).symm.trans hexact))
  exact not_fits_16777217 (hr.eq_iff.mp hvalue)

end Argp
end AdcLibs
