import AdcLibs.Argp.Libc
import Mathlib.Data.List.Basic
import Mathlib.Data.List.TakeWhile

/-!
# Integers in base 0

What the subject of `strtol` and `strtoul` is: blanks, a sign and a numeral, where
the prefix of the numeral tells its base.  The scanner reads every such text to its
end, and what it reads of any other text is one.
-/

namespace AdcLibs
namespace Argp

/-- A numeral with its value: hexadecimal behind `0x`, octal behind `0`, else decimal. -/
inductive IsNumeral : Str → Nat → Prop
  | hexadecimal {x d : Char} {ds : Str} : x = 'x' ∨ x = 'X' →
      (∀ c ∈ d :: ds, isDigitOf 16 c = true) →
      IsNumeral ('0' :: x :: d :: ds) (digitsValue 16 (d :: ds))
  | octal {ds : Str} : (∀ c ∈ ds, isDigitOf 8 c = true) →
      IsNumeral ('0' :: ds) (digitsValue 8 ds)
  | decimal {d : Char} {ds : Str} : d ≠ '0' → (∀ c ∈ d :: ds, isDigitOf 10 c = true) →
      IsNumeral (d :: ds) (digitsValue 10 (d :: ds))

/-- A numeral behind blanks and an optional sign. -/
inductive IsInteger : Str → Int → Prop
  | unsigned {blanks body : Str} {m : Nat} : (∀ c ∈ blanks, isspace c = true) →
      IsNumeral body m → IsInteger (blanks ++ body) m
  | plus {blanks body : Str} {m : Nat} : (∀ c ∈ blanks, isspace c = true) →
      IsNumeral body m → IsInteger (blanks ++ '+' :: body) m
  | minus {blanks body : Str} {m : Nat} : (∀ c ∈ blanks, isspace c = true) →
      IsNumeral body m → IsInteger (blanks ++ '-' :: body) (-m)

/-! ## The numeral -/

/-- The numeral at the start of a string and what follows it. -/
def scanNumeral (s : Str) : Option (Nat × Str) :=
  let digits := (subjectBase s).2.takeWhile (isDigitOf (subjectBase s).1)
  if digits = [] then none
  else some (digitsValue (subjectBase s).1 digits,
    (subjectBase s).2.dropWhile (isDigitOf (subjectBase s).1))

/-- The three bases. -/
theorem subjectBase_cases (s : Str) :
    (∃ x d t, s = '0' :: x :: d :: t ∧ (x = 'x' ∨ x = 'X') ∧ isDigitOf 16 d = true ∧
        subjectBase s = (16, d :: t)) ∨
      (∃ t, s = '0' :: t ∧ subjectBase s = (8, s)) ∨
      ((∀ t, s ≠ '0' :: t) ∧ subjectBase s = (10, s)) := by
  by_cases hzero : ∃ t, s = '0' :: t
  · obtain ⟨t, rfl⟩ := hzero
    rcases t with _ | ⟨x, _ | ⟨d, t⟩⟩
    · exact .inr (.inl ⟨[], rfl, rfl⟩)
    · exact .inr (.inl ⟨[x], rfl, rfl⟩)
    · by_cases hhex : ((x == 'x' || x == 'X') && isDigitOf 16 d) = true
      · have hbase : subjectBase ('0' :: x :: d :: t) = (16, d :: t) := if_pos hhex
        rw [Bool.and_eq_true, Bool.or_eq_true, beq_iff_eq, beq_iff_eq] at hhex
        exact .inl ⟨x, d, t, rfl, hhex.1, hhex.2, hbase⟩
      · exact .inr (.inl ⟨x :: d :: t, rfl, if_neg hhex⟩)
  · have hne : ∀ t, s ≠ '0' :: t := fun t ht => hzero ⟨t, ht⟩
    refine .inr (.inr ⟨hne, ?_⟩)
    rw [subjectBase]
    · exact fun x d t h => hne _ h
    · exact hne

theorem subjectBase_octal {ds : Str} (h : ∀ c ∈ ds, isDigitOf 8 c = true) :
    subjectBase ('0' :: ds) = (8, '0' :: ds) := by
  rcases subjectBase_cases ('0' :: ds) with ⟨x, d, t, hs, hx, -, -⟩ | ⟨t, -, hbase⟩ | ⟨hne, -⟩
  · obtain rfl : ds = x :: d :: t := (List.cons.inj hs).2
    have hoctal := h x (List.mem_cons_self ..)
    rcases hx with rfl | rfl
    · exact absurd hoctal (by decide)
    · exact absurd hoctal (by decide)
  · exact hbase
  · exact absurd rfl (hne ds)

theorem digitsValue_zero_cons (base : Nat) (ds : Str) :
    digitsValue base ('0' :: ds) = digitsValue base ds := by
  rw [digitsValue, List.foldl_cons, Nat.mul_zero]
  rfl

/-- Digits of a base are scanned to their end. -/
theorem scanNumeral_of_base {s t : Str} {base : Nat} (hbase : subjectBase s = (base, t))
    (hne : t ≠ []) (hdigits : ∀ c ∈ t, isDigitOf base c = true) :
    scanNumeral s = some (digitsValue base t, []) := by
  have htake : t.takeWhile (isDigitOf base) = t := List.takeWhile_eq_self_iff.mpr hdigits
  have hdrop : t.dropWhile (isDigitOf base) = [] := List.dropWhile_eq_nil_iff.mpr hdigits
  simp only [scanNumeral, hbase, htake, hdrop, if_neg hne]

/-- A numeral is scanned to its end. -/
theorem scanNumeral_of_isNumeral {body : Str} {m : Nat} (h : IsNumeral body m) :
    scanNumeral body = some (m, []) := by
  cases h with
  | @hexadecimal x d ds hx hdigits =>
      have hhex : ((x == 'x' || x == 'X') && isDigitOf 16 d) = true := by
        rw [Bool.and_eq_true, Bool.or_eq_true, beq_iff_eq, beq_iff_eq]
        exact ⟨hx, hdigits d (List.mem_cons_self ..)⟩
      exact scanNumeral_of_base (if_pos hhex) (List.cons_ne_nil _ _) hdigits
  | @octal ds hdigits =>
      have hall : ∀ c ∈ '0' :: ds, isDigitOf 8 c = true :=
        List.forall_mem_cons.mpr ⟨by decide, hdigits⟩
      rw [scanNumeral_of_base (subjectBase_octal hdigits) (List.cons_ne_nil _ _) hall,
        digitsValue_zero_cons]
  | @decimal d ds hne hdigits =>
      have hbase : subjectBase (d :: ds) = (10, d :: ds) := by
        rcases subjectBase_cases (d :: ds) with ⟨x, y, t, hs, -⟩ | ⟨t, hs, -⟩ | ⟨-, hbase⟩
        · exact absurd (List.cons.inj hs).1 hne
        · exact absurd (List.cons.inj hs).1 hne
        · exact hbase
      exact scanNumeral_of_base hbase (List.cons_ne_nil _ _) hdigits

/-- What is scanned is a numeral. -/
theorem isNumeral_of_scanNumeral {s rest : Str} {m : Nat} (h : scanNumeral s = some (m, rest)) :
    ∃ body, s = body ++ rest ∧ IsNumeral body m := by
  have hsplit (base : Nat) (t : Str) :
      t = t.takeWhile (isDigitOf base) ++ t.dropWhile (isDigitOf base) :=
    List.takeWhile_append_dropWhile.symm
  have hdigits (base : Nat) (t : Str) : ∀ c ∈ t.takeWhile (isDigitOf base),
      isDigitOf base c = true := fun c hc => List.mem_takeWhile_imp hc
  rcases subjectBase_cases s with ⟨x, d, t, rfl, hx, hd, hbase⟩ | ⟨t, rfl, hbase⟩ | ⟨hne, hbase⟩
  · rw [scanNumeral, hbase] at h
    simp only [List.takeWhile_cons_of_pos hd, List.dropWhile_cons_of_pos hd,
      if_neg (List.cons_ne_nil _ _), Option.some.injEq, Prod.mk.injEq] at h
    obtain ⟨rfl, rfl⟩ := h
    refine ⟨'0' :: x :: d :: t.takeWhile (isDigitOf 16), ?_, .hexadecimal hx ?_⟩
    · simp only [List.cons_append, ← hsplit]
    · exact List.forall_mem_cons.mpr ⟨hd, hdigits 16 t⟩
  · have hzero : isDigitOf 8 '0' = true := by decide
    rw [scanNumeral, hbase] at h
    simp only [List.takeWhile_cons_of_pos hzero, List.dropWhile_cons_of_pos hzero,
      if_neg (List.cons_ne_nil _ _), Option.some.injEq, Prod.mk.injEq] at h
    obtain ⟨rfl, rfl⟩ := h
    refine ⟨'0' :: t.takeWhile (isDigitOf 8), ?_, ?_⟩
    · simp only [List.cons_append, ← hsplit]
    · rw [digitsValue_zero_cons]
      exact .octal (hdigits 8 t)
  · rw [scanNumeral, hbase] at h
    simp only at h
    split at h
    · exact absurd h (by simp)
    · next hnil =>
        obtain ⟨rfl, rfl⟩ := Prod.mk.inj (Option.some.inj h)
        refine ⟨s.takeWhile (isDigitOf 10), hsplit 10 s, ?_⟩
        obtain ⟨d, ds, hds⟩ := List.exists_cons_of_ne_nil hnil
        have hall := hdigits 10 s
        rw [hds] at hall ⊢
        refine .decimal ?_ hall
        rintro rfl
        obtain ⟨t, ht⟩ : ∃ t, s = '0' :: t :=
          ⟨ds ++ s.dropWhile (isDigitOf 10), (hsplit 10 s).trans (by rw [hds]; rfl)⟩
        exact hne t ht

/-! ## The sign and the blanks -/

/-- The number with a sign and a magnitude. -/
def signedValue (negative : Bool) (magnitude : Nat) : Int :=
  if negative then -magnitude else magnitude

/-- The sign at the start of a string and what follows it. -/
def scanSign : Str → Bool × Str
  | '-' :: s => (true, s)
  | '+' :: s => (false, s)
  | s => (false, s)

theorem strtoNumber_eq (nptr : Str) :
    strtoNumber nptr = (scanNumeral (scanSign (nptr.dropWhile isspace)).2).map fun r =>
      ((scanSign (nptr.dropWhile isspace)).1, r.1, r.2) := by
  change (let s := (scanSign (nptr.dropWhile isspace)).2
    let digits := (subjectBase s).2.takeWhile (isDigitOf (subjectBase s).1)
    if digits = [] then none
    else some ((scanSign (nptr.dropWhile isspace)).1, digitsValue (subjectBase s).1 digits,
      (subjectBase s).2.dropWhile (isDigitOf (subjectBase s).1))) = _
  simp only [scanNumeral]
  split <;> rfl

theorem scanSign_cases (s : Str) :
    (∃ t, s = '-' :: t ∧ scanSign s = (true, t)) ∨ (∃ t, s = '+' :: t ∧ scanSign s = (false, t)) ∨
      ((∀ t, s ≠ '-' :: t) ∧ scanSign s = (false, s)) := by
  rw [scanSign.eq_def]
  split
  · exact .inl ⟨_, rfl, rfl⟩
  · exact .inr (.inl ⟨_, rfl, rfl⟩)
  · next hminus _ => exact .inr (.inr ⟨hminus, rfl⟩)

/-- What stands in front of the numeral is part of an integer. -/
theorem scanSign_split (s : Str) :
    ∃ sign, s = sign ++ (scanSign s).2 ∧
      ∀ {blanks body : Str} {m : Nat}, (∀ c ∈ blanks, isspace c = true) → IsNumeral body m →
        IsInteger (blanks ++ (sign ++ body)) (signedValue (scanSign s).1 m) := by
  rcases scanSign_cases s with ⟨t, rfl, hsign⟩ | ⟨t, rfl, hsign⟩ | ⟨-, hsign⟩
  · exact ⟨['-'], rfl, fun hblanks hnumeral => .minus hblanks hnumeral⟩
  · exact ⟨['+'], rfl, fun hblanks hnumeral => .plus hblanks hnumeral⟩
  · rw [hsign]
    exact ⟨[], rfl, fun hblanks hnumeral => .unsigned hblanks hnumeral⟩

/-- What is read at the start of a string is an integer. -/
theorem isInteger_of_strtoNumber {s rest : Str} {negative : Bool} {m : Nat}
    (h : strtoNumber s = some (negative, m, rest)) :
    ∃ t, t ≠ [] ∧ s = t ++ rest ∧ IsInteger t (signedValue negative m) := by
  rw [strtoNumber_eq, Option.map_eq_some_iff] at h
  obtain ⟨⟨m', rest'⟩, hscan, hr⟩ := h
  obtain ⟨rfl, rfl, rfl⟩ : (scanSign (s.dropWhile isspace)).1 = negative ∧ m' = m ∧ rest' = rest :=
    by simpa using hr
  obtain ⟨body, hbody, hnumeral⟩ := isNumeral_of_scanNumeral hscan
  obtain ⟨sign, hsign, hinteger⟩ := scanSign_split (s.dropWhile isspace)
  refine ⟨s.takeWhile isspace ++ (sign ++ body), ?_, ?_,
    hinteger (fun c hc => List.mem_takeWhile_imp hc) hnumeral⟩
  · have hne : body ≠ [] := by
      cases hnumeral <;> exact List.cons_ne_nil _ _
    simp [hne]
  · calc
      s = s.takeWhile isspace ++ s.dropWhile isspace := List.takeWhile_append_dropWhile.symm
      _ = s.takeWhile isspace ++ (sign ++ (body ++ rest')) := by rw [hsign, ← hbody]
      _ = s.takeWhile isspace ++ (sign ++ body) ++ rest' := by simp only [List.append_assoc]

/-- The first character of a numeral is a digit. -/
theorem IsNumeral.head {body : Str} {m : Nat} (h : IsNumeral body m) :
    ∃ d ds, body = d :: ds ∧ isDigitOf 10 d = true := by
  cases h with
  | hexadecimal _ _ => exact ⟨'0', _, rfl, by decide⟩
  | octal _ => exact ⟨'0', _, rfl, by decide⟩
  | decimal _ hdigits => exact ⟨_, _, rfl, hdigits _ (List.mem_cons_self ..)⟩

/-- A digit is neither a blank nor a sign. -/
theorem not_isspace_of_isDigitOf {d : Char} (h : isDigitOf 10 d = true) :
    isspace d = false ∧ d ≠ '-' ∧ d ≠ '+' := by
  refine ⟨?_, ?_, ?_⟩
  · by_contra hspace
    rw [Bool.not_eq_false, isspace] at hspace
    simp only [Bool.or_eq_true, beq_iff_eq] at hspace
    rcases hspace with ((((rfl | rfl) | rfl) | rfl) | rfl) | rfl <;> exact absurd h (by decide)
  · rintro rfl
    exact absurd h (by decide)
  · rintro rfl
    exact absurd h (by decide)

/-- A string that is an integer is read to its end. -/
theorem strtoNumber_of_isInteger {s : Str} {n : Int} (h : IsInteger s n) :
    ∃ negative m, strtoNumber s = some (negative, m, []) ∧ signedValue negative m = n := by
  have hread {blanks t body : Str} {negative : Bool} {m : Nat}
      (hblanks : ∀ c ∈ blanks, isspace c = true) (hdrop : t.dropWhile isspace = t)
      (hsign : scanSign t = (negative, body)) (hnumeral : IsNumeral body m) :
      strtoNumber (blanks ++ t) = some (negative, m, []) := by
    rw [strtoNumber_eq, List.dropWhile_append_of_pos hblanks, hdrop, hsign,
      scanNumeral_of_isNumeral hnumeral]
    rfl
  cases h with
  | @unsigned blanks body m hblanks hnumeral =>
      obtain ⟨d, ds, rfl, hd⟩ := hnumeral.head
      obtain ⟨hspace, hminus, hplus⟩ := not_isspace_of_isDigitOf hd
      refine ⟨false, m, hread hblanks (List.dropWhile_cons_of_neg (by simp [hspace])) ?_ hnumeral,
        rfl⟩
      rw [scanSign]
      · rintro t ⟨⟩
        exact hminus rfl
      · rintro t ⟨⟩
        exact hplus rfl
  | @plus blanks body m hblanks hnumeral =>
      exact ⟨false, m, hread hblanks (List.dropWhile_cons_of_neg (by decide)) rfl hnumeral, rfl⟩
  | @minus blanks body m hblanks hnumeral =>
      exact ⟨true, m, hread hblanks (List.dropWhile_cons_of_neg (by decide)) rfl hnumeral, rfl⟩

/-- The integers are the strings that are read to their end. -/
theorem isInteger_iff {s : Str} {n : Int} :
    IsInteger s n ↔ ∃ negative m, strtoNumber s = some (negative, m, []) ∧
      signedValue negative m = n := by
  constructor
  · exact strtoNumber_of_isInteger
  · rintro ⟨negative, m, hread, rfl⟩
    obtain ⟨t, -, hs, ht⟩ := isInteger_of_strtoNumber hread
    rw [List.append_nil] at hs
    exact hs ▸ ht

/-- A string with something behind its number is no integer. -/
theorem not_isInteger_of_rest {s rest : Str} {negative : Bool} {m : Nat} {n : Int}
    (hread : strtoNumber s = some (negative, m, rest)) (hrest : rest ≠ []) : ¬ IsInteger s n := by
  intro h
  obtain ⟨negative', m', hread', -⟩ := strtoNumber_of_isInteger h
  have heq := Option.some.inj (hread.symm.trans hread')
  exact hrest (congrArg (fun r => r.2.2) heq)

/-! ## Decimal numerals -/

/-- The decimal digits of a number, without leading zeros. -/
def decimalText (n : Nat) : Str := Nat.toDigits 10 n

/-- The decimal rendering of an integer. -/
def intText (n : Int) : Str :=
  if n < 0 then '-' :: decimalText n.natAbs else decimalText n.natAbs

/-- Decimal digits with an optional sign. -/
inductive DecimalNumeral : Str → Int → Prop
  | unsigned (m : Nat) : DecimalNumeral (decimalText m) m
  | plus (m : Nat) : DecimalNumeral ('+' :: decimalText m) m
  | minus (m : Nat) : DecimalNumeral ('-' :: decimalText m) (-m)

theorem digitValue_of_isDigit {c : Char} (h : c.isDigit = true) :
    digitValue c = some (c.toNat - '0'.toNat) ∧ c.toNat - '0'.toNat < 10 := by
  rw [Char.isDigit, Bool.and_eq_true, decide_eq_true_eq, decide_eq_true_eq] at h
  have hle : c.toNat ≤ 57 := h.2
  refine ⟨if_pos h, ?_⟩
  change c.toNat - 48 < 10
  omega

theorem digitsValue_eq_ofDigitChars {ds : Str} (h : ∀ c ∈ ds, c.isDigit = true) :
    digitsValue 10 ds = Nat.ofDigitChars 10 ds 0 := by
  rw [digitsValue, Nat.ofDigitChars_eq_foldl]
  refine List.foldl_ext _ _ _ ?_
  intro n c hc
  rw [(digitValue_of_isDigit (h c hc)).1]
  rfl

theorem digitChar_ne_zero {d : Nat} (hpos : 0 < d) (hlt : d < 10) : Nat.digitChar d ≠ '0' := by
  have hall : ∀ d : Fin 10, 0 < d.1 → Nat.digitChar d.1 ≠ '0' := by decide
  exact hall ⟨d, hlt⟩ hpos

/-- A positive number has no leading zero. -/
theorem decimalText_head {n : Nat} (h : 0 < n) : ∃ d ds, decimalText n = d :: ds ∧ d ≠ '0' := by
  induction n using Nat.strongRecOn with
  | ind n ih =>
      by_cases hlt : n < 10
      · exact ⟨_, [], Nat.toDigits_of_lt_base hlt, digitChar_ne_zero h hlt⟩
      · obtain ⟨d, ds, hds, hne⟩ := ih (n / 10) (by omega) (by omega)
        refine ⟨d, ds ++ [Nat.digitChar (n % 10)], ?_, hne⟩
        rw [decimalText, Nat.toDigits_of_base_le (by decide) (Nat.le_of_not_lt hlt),
          ← decimalText, hds]
        rfl

theorem isNumeral_decimalText (n : Nat) : IsNumeral (decimalText n) n := by
  rcases Nat.eq_zero_or_pos n with rfl | hpos
  · exact @IsNumeral.octal [] (by simp)
  · have hdigit : ∀ c ∈ decimalText n, c.isDigit = true := fun c hc =>
      Nat.isDigit_of_mem_toDigits (by decide) (by decide) hc
    have hvalue : digitsValue 10 (decimalText n) = n :=
      (digitsValue_eq_ofDigitChars hdigit).trans Nat.ofDigitChars_ten_toDigits
    obtain ⟨d, ds, hds, hne⟩ := decimalText_head hpos
    have hall : ∀ c ∈ d :: ds, isDigitOf 10 c = true := by
      intro c hc
      obtain ⟨hval, hlt⟩ := digitValue_of_isDigit (hdigit c (hds ▸ hc))
      simp only [isDigitOf, hval, decide_eq_true hlt]
    have hnumeral := IsNumeral.decimal hne hall
    rw [← hds, hvalue] at hnumeral
    exact hnumeral

theorem DecimalNumeral.isInteger {s : Str} {n : Int} (h : DecimalNumeral s n) : IsInteger s n := by
  have hnil : ∀ c ∈ ([] : Str), isspace c = true := fun c hc => absurd hc List.not_mem_nil
  cases h with
  | unsigned m => exact .unsigned hnil (isNumeral_decimalText m)
  | plus m => exact .plus hnil (isNumeral_decimalText m)
  | minus m => exact .minus hnil (isNumeral_decimalText m)

theorem decimalNumeral_intText (n : Int) : DecimalNumeral (intText n) n := by
  rw [intText]
  split
  · have hnumeral := DecimalNumeral.minus n.natAbs
    rw [show -(n.natAbs : Int) = n by omega] at hnumeral
    exact hnumeral
  · have hnumeral := DecimalNumeral.unsigned n.natAbs
    rw [show (n.natAbs : Int) = n by omega] at hnumeral
    exact hnumeral

end Argp
end AdcLibs
