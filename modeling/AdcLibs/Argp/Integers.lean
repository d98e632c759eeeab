import AdcLibs.Argp.Numerals
import AdcLibs.Argp.ParseRuns

/-!
# `parse_int` and `parse_uint`

Both parsers read the integer at the start of the argument and look at nothing
behind it.  Their range checks reject the ends of the ranges: `INT_MAX`, its
negation and `INT_MIN`, and `UINT_MAX`.
-/

namespace AdcLibs
namespace Argp

variable {B : Build}

/-! ## What the parsers do -/

theorem strtol_of_some {s rest : Str} {negative : Bool} {m : Nat}
    (h : strtoNumber s = some (negative, m, rest)) :
    strtol s = (max longMin (min (signedValue negative m) longMax), rest) := by
  simp only [strtol, h, signedValue]

/-- A number is at least one character long. -/
theorem endptr_ne {s rest : Str} {negative : Bool} {m : Nat}
    (h : strtoNumber s = some (negative, m, rest)) : rest ≠ s := by
  obtain ⟨t, ht, hs, -⟩ := isInteger_of_strtoNumber h
  intro heq
  have hlen := congrArg List.length hs
  rw [heq, List.length_append] at hlen
  have hpos := List.length_pos_iff.mpr ht
  omega

theorem parseInt_of_none {s : Str} (h : strtoNumber s = none) (out : Value B) :
    parseInt out s = (out, .argInvalid) := by
  simp only [parseInt, strtol, h, if_true]

theorem signedValue_cases (negative : Bool) (m : Nat) :
    signedValue negative m = m ∨ signedValue negative m = -m := by
  cases negative
  · exact .inl rfl
  · exact .inr rfl

/-- The saturation of `strtol` does not change the comparisons with the limits of `int`. -/
theorem strtol_in_range_iff {s rest : Str} {negative : Bool} {m : Nat}
    (h : strtoNumber s = some (negative, m, rest)) :
    (-intMax < (strtol s).1 ∧ (strtol s).1 < intMax) ↔ (m : Int) < intMax := by
  have hvalue := signedValue_cases negative m
  rw [strtol_of_some h]
  simp only [intMax, longMax, longMin]
  omega

theorem strtol_eq_of_lt {s rest : Str} {negative : Bool} {m : Nat}
    (h : strtoNumber s = some (negative, m, rest)) (hlt : (m : Int) < intMax) :
    (strtol s).1 = signedValue negative m := by
  have hvalue := signedValue_cases negative m
  rw [strtol_of_some h]
  simp only [intMax, longMax, longMin] at hlt ⊢
  omega

theorem parseInt_of_some {s rest : Str} {negative : Bool} {m : Nat}
    (h : strtoNumber s = some (negative, m, rest)) (out : Value B) :
    parseInt out s =
      if (m : Int) < intMax then (.int (BitVec.ofInt 32 (signedValue negative m)), .none)
      else (out, .argOutOfRange) := by
  have hend : (strtol s).2 ≠ s := by
    rw [strtol_of_some h]
    exact endptr_ne h
  have hrange := strtol_in_range_iff h
  simp only [parseInt, if_neg hend]
  by_cases hlt : (m : Int) < intMax
  · have hin := hrange.mpr hlt
    rw [if_pos hlt, if_neg (by omega), strtol_eq_of_lt h hlt]
  · rw [if_neg hlt, if_pos]
    by_contra hnot
    exact hlt (hrange.mp (by omega))

theorem parseUint_of_minus {s : Str} (h : '-' ∈ s) (out : Value B) :
    parseUint out s = (out, .argNegativeUint) :=
  if_pos h

/-- Without a minus nothing negative is read. -/
theorem negative_eq_false {s rest : Str} {negative : Bool} {m : Nat} (hminus : '-' ∉ s)
    (h : strtoNumber s = some (negative, m, rest)) : negative = false := by
  rw [strtoNumber_eq, Option.map_eq_some_iff] at h
  obtain ⟨r, -, hr⟩ := h
  have hsign : (scanSign (s.dropWhile isspace)).1 = negative := congrArg Prod.fst hr
  rcases scanSign_cases (s.dropWhile isspace) with ⟨t, ht, -⟩ | ⟨t, -, hscan⟩ | ⟨-, hscan⟩
  · refine absurd ?_ hminus
    exact (List.dropWhile_sublist isspace).mem (ht ▸ List.mem_cons_self ..)
  · rw [← hsign, hscan]
  · rw [← hsign, hscan]

theorem parseUint_of_none {s : Str} (hminus : '-' ∉ s) (h : strtoNumber s = none)
    (out : Value B) : parseUint out s = (out, .argInvalid) := by
  simp only [parseUint, if_neg hminus, strtoul, h, if_true]

/-- The saturation of `strtoul` does not change the comparison with `UINT_MAX`. -/
theorem strtoul_of_some {s rest : Str} {negative : Bool} {m : Nat} (hminus : '-' ∉ s)
    (h : strtoNumber s = some (negative, m, rest)) :
    ((strtoul s).1 < uintMax ↔ m < uintMax) ∧ (strtoul s).2 = rest ∧
      (m < uintMax → (strtoul s).1 = m) := by
  obtain rfl := negative_eq_false hminus h
  have hread : strtoul s = (min m ulongMax, rest) := by
    simp only [strtoul, h, Bool.false_eq_true, if_false]
    split
    · rw [Nat.min_eq_right (by omega)]
    · rw [Nat.min_eq_left (by omega)]
  rw [hread]
  refine ⟨?_, rfl, ?_⟩
  · simp only [uintMax, ulongMax]
    omega
  · simp only [uintMax, ulongMax]
    omega

theorem parseUint_of_some {s rest : Str} {negative : Bool} {m : Nat} (hminus : '-' ∉ s)
    (h : strtoNumber s = some (negative, m, rest)) (out : Value B) :
    parseUint out s =
      if m < uintMax then (.uint (BitVec.ofNat 32 m), .none) else (out, .argOutOfRange) := by
  obtain ⟨hrange, hrest, hvalue⟩ := strtoul_of_some hminus h
  have hend : (strtoul s).2 ≠ s := by
    rw [hrest]
    exact endptr_ne h
  simp only [parseUint, if_neg hminus, if_neg hend]
  by_cases hlt : m < uintMax
  · rw [if_pos hlt, if_neg (Nat.not_le_of_lt (hrange.mpr hlt)), hvalue hlt]
  · rw [if_neg hlt, if_pos (Nat.le_of_not_lt fun h => hlt (hrange.mp h))]

/-! ## Whole integers -/

variable (B)

/-- What `parse_int` accepts is an integer to its end, and its value is stored. -/
def IntWhole (s : Str) : Prop :=
  ∀ out v : Value B, parseInt out s = (v, .none) → ∃ b, v = .int b ∧ IsInteger s b.toInt

/-- What `parse_uint` accepts is an integer to its end, and its value is stored. -/
def UintWhole (s : Str) : Prop :=
  ∀ out v : Value B, parseUint out s = (v, .none) → ∃ b, v = .uint b ∧ IsInteger s b.toNat

variable {B}

theorem toInt_signedValue {negative : Bool} {m : Nat} (h : (m : Int) < intMax) :
    (BitVec.ofInt 32 (signedValue negative m)).toInt = signedValue negative m := by
  have hvalue := signedValue_cases negative m
  rw [intMax] at h
  exact BitVec.toInt_ofInt_eq_self (by decide) (by omega) (by omega)

theorem intWhole_of_rejected {s : Str} {err : ErrorType} (hne : err ≠ .none)
    (h : ∀ out : Value B, parseInt out s = (out, err)) : IntWhole B s := fun out _ hv =>
  absurd (congrArg Prod.snd ((h out).symm.trans hv)) hne

theorem uintWhole_of_rejected {s : Str} {err : ErrorType} (hne : err ≠ .none)
    (h : ∀ out : Value B, parseUint out s = (out, err)) : UintWhole B s := fun out _ hv =>
  absurd (congrArg Prod.snd ((h out).symm.trans hv)) hne

/-- A number in range is stored, and the string is an integer if the number is all of it. -/
theorem intWhole_of_some {s rest : Str} {negative : Bool} {m : Nat}
    (h : strtoNumber s = some (negative, m, rest)) (hlt : (m : Int) < intMax) :
    IntWhole B s ↔ rest = [] := by
  have hparse (out : Value B) :
      parseInt out s = (.int (BitVec.ofInt 32 (signedValue negative m)), .none) := by
    rw [parseInt_of_some h, if_pos hlt]
  constructor
  · intro hwhole
    obtain ⟨b, -, hinteger⟩ := hwhole (.int 0) _ (hparse _)
    by_contra hrest
    exact not_isInteger_of_rest h hrest hinteger
  · rintro rfl out v hv
    refine ⟨_, (congrArg Prod.fst ((hparse out).symm.trans hv)).symm, ?_⟩
    rw [toInt_signedValue hlt]
    exact isInteger_iff.mpr ⟨negative, m, h, rfl⟩

theorem uintWhole_of_some {s rest : Str} {negative : Bool} {m : Nat} (hminus : '-' ∉ s)
    (h : strtoNumber s = some (negative, m, rest)) (hlt : m < uintMax) :
    UintWhole B s ↔ rest = [] := by
  have hparse (out : Value B) : parseUint out s = (.uint (BitVec.ofNat 32 m), .none) := by
    rw [parseUint_of_some hminus h, if_pos hlt]
  obtain rfl := negative_eq_false hminus h
  constructor
  · intro hwhole
    obtain ⟨b, -, hinteger⟩ := hwhole (.int 0) _ (hparse _)
    by_contra hrest
    exact not_isInteger_of_rest h hrest hinteger
  · rintro rfl out v hv
    refine ⟨_, (congrArg Prod.fst ((hparse out).symm.trans hv)).symm, ?_⟩
    rw [uintMax] at hlt
    rw [BitVec.toNat_ofNat, Nat.mod_eq_of_lt (by omega)]
    exact isInteger_iff.mpr ⟨false, m, h, rfl⟩

theorem intWhole_iff (s : Str) :
    IntWhole B s ↔ (-intMax < (strtol s).1 → (strtol s).1 < intMax →
      (strtol s).2 = s ∨ (strtol s).2 = []) := by
  cases h : strtoNumber s with
  | none =>
      refine iff_of_true (intWhole_of_rejected (by decide) (parseInt_of_none h)) fun _ _ => .inl ?_
      simp only [strtol, h]
  | some r =>
      obtain ⟨negative, m, rest⟩ := r
      have hrange := strtol_in_range_iff h
      have hrest : (strtol s).2 = rest := by rw [strtol_of_some h]
      by_cases hlt : (m : Int) < intMax
      · rw [intWhole_of_some h hlt, hrest]
        have hin := hrange.mpr hlt
        constructor
        · exact fun hnil _ _ => .inr hnil
        · exact fun hall => (hall hin.1 hin.2).resolve_left (endptr_ne h)
      · have hparse (out : Value B) : parseInt out s = (out, .argOutOfRange) := by
          rw [parseInt_of_some h, if_neg hlt]
        exact iff_of_true (intWhole_of_rejected (by decide) hparse) fun hmin hmax =>
          absurd (hrange.mp ⟨hmin, hmax⟩) hlt

theorem uintWhole_iff (s : Str) :
    UintWhole B s ↔ ('-' ∉ s → (strtoul s).1 < uintMax →
      (strtoul s).2 = s ∨ (strtoul s).2 = []) := by
  by_cases hminus : '-' ∈ s
  · exact iff_of_true (uintWhole_of_rejected (by decide) (parseUint_of_minus hminus))
      fun hnot => absurd hminus hnot
  cases h : strtoNumber s with
  | none =>
      refine iff_of_true (uintWhole_of_rejected (by decide) (parseUint_of_none hminus h))
        fun _ _ => .inl ?_
      simp only [strtoul, h]
  | some r =>
      obtain ⟨negative, m, rest⟩ := r
      obtain ⟨hrange, hrest, -⟩ := strtoul_of_some hminus h
      by_cases hlt : m < uintMax
      · rw [uintWhole_of_some hminus h hlt, hrest]
        constructor
        · exact fun hnil _ _ => .inr hnil
        · exact fun hall => (hall hminus (hrange.mpr hlt)).resolve_left (endptr_ne h)
      · have hparse (out : Value B) : parseUint out s = (out, .argOutOfRange) := by
          rw [parseUint_of_some hminus h, if_neg hlt]
        exact iff_of_true (uintWhole_of_rejected (by decide) hparse) fun _ hmax =>
          absurd (hrange.mp hmax) hlt

/--
What the parsers accept is an integer to its end exactly when nothing follows the
number that `strtol` or `strtoul` reads, unless there is none or it is rejected.
-/
theorem accepted_whole_iff (s : Str) :
    (IntWhole B s ↔ (-intMax < (strtol s).1 → (strtol s).1 < intMax →
        (strtol s).2 = s ∨ (strtol s).2 = [])) ∧
      (UintWhole B s ↔ ('-' ∉ s → (strtoul s).1 < uintMax →
        (strtoul s).2 = s ∨ (strtoul s).2 = [])) :=
  ⟨intWhole_iff s, uintWhole_iff s⟩

/-- `12abc` is accepted as the integer 12. -/
theorem accepts_trailing_text :
    ¬ ∀ (B : Build) (s : Str), IntWhole B s ∧ UintWhole B s := by
  intro hall
  have hread : strtoNumber "12abc".toList = some (false, 12, "abc".toList) := by decide
  have hwhole := (intWhole_of_some hread (by decide)).mp (hall plainBuild "12abc".toList).1
  exact absurd hwhole (by decide)

/-! ## Round trips -/

/-- The decimal numerals are read to their end. -/
theorem DecimalNumeral.read {s : Str} {n : Int} (h : DecimalNumeral s n) :
    ∃ negative m, strtoNumber s = some (negative, m, []) ∧ signedValue negative m = n :=
  strtoNumber_of_isInteger h.isInteger

/-- What `parse_int` makes of a decimal numeral. -/
theorem DecimalNumeral.parseInt {s : Str} {n : Int} (h : DecimalNumeral s n) (out : Value B) :
    parseInt out s =
      if -intMax < n ∧ n < intMax then (.int (BitVec.ofInt 32 n), .none)
      else (out, .argOutOfRange) := by
  obtain ⟨negative, m, hread, rfl⟩ := h.read
  have hvalue := signedValue_cases negative m
  rw [parseInt_of_some hread]
  by_cases hlt : (m : Int) < intMax
  · rw [if_pos hlt, if_pos]
    omega
  · rw [if_neg hlt, if_neg]
    omega

theorem minus_not_mem_decimalText (n : Nat) : '-' ∉ decimalText n := by
  intro hmem
  have hdigit := Nat.isDigit_of_mem_toDigits (by decide) (by decide) hmem
  exact absurd hdigit (by decide)

/-- What `parse_uint` makes of a decimal numeral. -/
theorem DecimalNumeral.parseUint {s : Str} {n : Int} (h : DecimalNumeral s n) (out : Value B) :
    ('-' ∈ s ∧ n ≤ 0 ∧ parseUint out s = (out, .argNegativeUint)) ∨
      ∃ m : Nat, n = m ∧ parseUint out s =
        if m < uintMax then (.uint (BitVec.ofNat 32 m), .none) else (out, .argOutOfRange) := by
  obtain ⟨negative, k, hread, hvalue⟩ := h.read
  cases h with
  | unsigned m =>
      have hminus := minus_not_mem_decimalText m
      obtain rfl := negative_eq_false hminus hread
      obtain rfl : k = m := Int.ofNat.inj hvalue
      exact .inr ⟨k, rfl, parseUint_of_some hminus hread out⟩
  | plus m =>
      have hminus : '-' ∉ '+' :: decimalText m := by
        rw [List.mem_cons, not_or]
        exact ⟨by decide, minus_not_mem_decimalText m⟩
      obtain rfl := negative_eq_false hminus hread
      obtain rfl : k = m := Int.ofNat.inj hvalue
      exact .inr ⟨k, rfl, parseUint_of_some hminus hread out⟩
  | minus m =>
      have hminus : '-' ∈ '-' :: decimalText m := List.mem_cons_self ..
      exact .inl ⟨hminus, by omega, parseUint_of_minus hminus out⟩

/-- `parse_int` stores `n` when it is given the rendering of `n`. -/
def IntRoundTrips (B : Build) (n : Int) : Prop :=
  ∀ out : Value B, ∃ b, parseInt out (intText n) = (.int b, .none) ∧ b.toInt = n

/-- `parse_uint` stores `u` when it is given the rendering of `u`. -/
def UintRoundTrips (B : Build) (u : Nat) : Prop :=
  ∀ out : Value B, ∃ b, parseUint out (decimalText u) = (.uint b, .none) ∧ b.toNat = u

theorem intRoundTrips_iff (n : Int) : IntRoundTrips B n ↔ -intMax < n ∧ n < intMax := by
  have hparse (out : Value B) := (decimalNumeral_intText n).parseInt out
  constructor
  · intro h
    obtain ⟨b, hb, -⟩ := h (.int 0)
    by_contra hout
    rw [hparse, if_neg hout] at hb
    cases hb
  · intro hin out
    refine ⟨BitVec.ofInt 32 n, (hparse out).trans (if_pos hin), ?_⟩
    rw [intMax] at hin
    exact BitVec.toInt_ofInt_eq_self (by decide) (by omega) (by omega)

theorem uintRoundTrips_iff (u : Nat) : UintRoundTrips B u ↔ u < uintMax := by
  have hparse (out : Value B) : parseUint out (decimalText u) =
      if u < uintMax then (.uint (BitVec.ofNat 32 u), .none) else (out, .argOutOfRange) := by
    rcases (DecimalNumeral.unsigned u).parseUint out with ⟨hminus, -⟩ | ⟨m, hm, hparse⟩
    · exact absurd hminus (minus_not_mem_decimalText u)
    · obtain rfl : u = m := Int.ofNat.inj hm
      exact hparse
  constructor
  · intro h
    obtain ⟨b, hb, -⟩ := h (.int 0)
    by_contra hout
    rw [hparse, if_neg hout] at hb
    cases hb
  · intro hin out
    refine ⟨BitVec.ofNat 32 u, (hparse out).trans (if_pos hin), ?_⟩
    rw [uintMax] at hin
    rw [BitVec.toNat_ofNat, Nat.mod_eq_of_lt (by omega)]

/--
Every `int` round-trips but the two ends of the range and the negation of `INT_MAX`,
every `unsigned int` but `UINT_MAX`, and the decimal numerals outside the ranges are
rejected as such.
-/
theorem round_trips_iff :
    (∀ n : Int, -2 ^ 31 ≤ n → n < 2 ^ 31 →
      (IntRoundTrips B n ↔ n ≠ 2 ^ 31 - 1 ∧ n ≠ -(2 ^ 31 - 1) ∧ n ≠ -2 ^ 31)) ∧
    (∀ u : Nat, u < 2 ^ 32 → (UintRoundTrips B u ↔ u ≠ 2 ^ 32 - 1)) ∧
    (∀ (s : Str) (n : Int), DecimalNumeral s n → n < -2 ^ 31 ∨ 2 ^ 31 ≤ n →
      ∀ out : Value B, parseInt out s = (out, .argOutOfRange)) ∧
    ∀ (s : Str) (n : Int), DecimalNumeral s n →
      (n < 0 → ∀ out : Value B, parseUint out s = (out, .argNegativeUint)) ∧
      (2 ^ 32 ≤ n → ∀ out : Value B, parseUint out s = (out, .argOutOfRange)) := by
  refine ⟨?_, ?_, ?_, ?_⟩
  · intro n hmin hmax
    rw [intRoundTrips_iff, intMax]
    omega
  · intro u hmax
    rw [uintRoundTrips_iff, uintMax]
    omega
  · intro s n hs hout out
    rw [hs.parseInt, if_neg]
    rw [intMax]
    omega
  · intro s n hs
    constructor
    · intro hneg out
      rcases hs.parseUint out with ⟨-, -, hparse⟩ | ⟨m, hm, -⟩
      · exact hparse
      · omega
    · intro hbig out
      rcases hs.parseUint out with ⟨-, hle, -⟩ | ⟨m, hm, hparse⟩
      · omega
      · rw [hparse, if_neg]
        rw [uintMax]
        omega

/-- The integer 42, and a numeral that is too long. -/
theorem round_trips_iff_42 :
    IntRoundTrips plainBuild 42 ∧ UintRoundTrips plainBuild 42 ∧
      ∀ out : Value plainBuild, parseInt out (decimalText (2 ^ 64)) = (out, .argOutOfRange) :=
  ⟨(round_trips_iff.1 42 (by decide) (by decide)).mpr (by decide),
    (round_trips_iff.2.1 42 (by decide)).mpr (by decide),
    round_trips_iff.2.2.1 _ (2 ^ 64) (.unsigned (2 ^ 64)) (by decide)⟩

/-- `INT_MAX` is rejected. -/
theorem rejects_intMax :
    ¬ ∀ B : Build, (∀ n : Int, -2 ^ 31 ≤ n → n < 2 ^ 31 → IntRoundTrips B n) ∧
      ∀ u : Nat, u < 2 ^ 32 → UintRoundTrips B u := by
  intro hall
  have hin := (intRoundTrips_iff _).mp ((hall plainBuild).1 (2 ^ 31 - 1) (by decide) (by decide))
  exact absurd hin.2 (by decide)

end Argp
end AdcLibs
