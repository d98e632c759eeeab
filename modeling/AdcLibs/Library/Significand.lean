import Mathlib.Algebra.Ring.Int.Defs
import Mathlib.Algebra.Ring.Nat
import Mathlib.Tactic.Common

/-!
# Rounding to a significand

The integers with a significand of `p` bits are the multiples of a power of two by
a number below `2 ^ p`.  An integer is rounded to the nearest of them, and half-way
between two of them to the one whose significand is even.
-/

namespace Significand

/-- The integer has a significand of `p` bits. -/
def Fits (p : Nat) (n : Int) : Prop :=
  ∃ m e : Nat, m < 2 ^ p ∧ n.natAbs = m * 2 ^ e

/-- The significand of `p` bits, with its highest bit set, is even. -/
def IsEven (p : Nat) (n : Int) : Prop :=
  ∃ m e : Nat, 2 ^ (p - 1) ≤ m ∧ m < 2 ^ p ∧ m % 2 = 0 ∧ n.natAbs = m * 2 ^ e

/-- `n` is rounded to `r`. -/
structure NearestEven (p : Nat) (n r : Int) : Prop where
  fits : Fits p r
  nearest : ∀ k, Fits p k → (r - n).natAbs ≤ (k - n).natAbs
  even : ∀ k, Fits p k → k ≠ r → (k - n).natAbs = (r - n).natAbs → IsEven p r

variable {p : Nat} {n r : Int}

/-- A number that fits is rounded to itself. -/
theorem NearestEven.eq_of_fits (h : NearestEven p n r) (hn : Fits p n) : r = n := by
  have hle := h.nearest n hn
  omega

theorem NearestEven.eq_iff (h : NearestEven p n r) : r = n ↔ Fits p n := by
  constructor
  · rintro rfl
    exact h.fits
  · exact h.eq_of_fits

theorem fits_neg {k : Int} : Fits p (-k) ↔ Fits p k := by
  rw [Fits, Fits, Int.natAbs_neg]

/-- Rounding does not pass a number that fits. -/
theorem NearestEven.natAbs_le (h : NearestEven p n r) {k : Nat} (hk : Fits p k)
    (hn : n.natAbs ≤ k) : r.natAbs ≤ k := by
  have hpos := h.nearest k hk
  have hneg := h.nearest (-k) (fits_neg.mpr hk)
  omega

theorem fits_pow (hp : 0 < p) (e : Nat) : Fits p (2 ^ e : Nat) := by
  refine ⟨1, e, ?_, ?_⟩
  · exact Nat.one_lt_two_pow (Nat.pos_iff_ne_zero.mp hp)
  · rw [Int.natAbs_natCast, Nat.one_mul]

/-! ## The rounding function -/

/-- A magnitude, rounded: `q` is its significand cut to `p` bits, in units of `2 ^ e`. -/
def roundNat (p a : Nat) : Nat :=
  if a < 2 ^ p then a
  else
    let e := Nat.log2 a + 1 - p
    let q := a / 2 ^ e
    if 2 * (a % 2 ^ e) < 2 ^ e ∨ (2 * (a % 2 ^ e) = 2 ^ e ∧ q % 2 = 0) then q * 2 ^ e
    else (q + 1) * 2 ^ e

/-- An integer, rounded. -/
def round (p : Nat) (n : Int) : Int :=
  if n < 0 then -(roundNat p n.natAbs : Int) else roundNat p n.natAbs

/-- No number that fits lies between two neighbours. -/
theorem Fits.not_between {q e c : Nat} (hp : 0 < p) (hq : 2 ^ (p - 1) ≤ q) (hc : Fits p c) :
    c ≤ q * 2 ^ e ∨ (q + 1) * 2 ^ e ≤ c := by
  by_contra hbetween
  rw [not_or, Nat.not_le, Nat.not_le] at hbetween
  obtain ⟨hlow, hhigh⟩ := hbetween
  obtain ⟨m, f, hm, hval⟩ := hc
  rw [Int.natAbs_natCast] at hval
  rcases Nat.le_total e f with hle | hle
  · -- `c` is a multiple of the unit
    obtain ⟨g, rfl⟩ := Nat.exists_eq_add_of_le hle
    have hmul : c = m * 2 ^ g * 2 ^ e := by
      rw [hval, Nat.pow_add, Nat.mul_assoc, Nat.mul_comm (2 ^ e)]
    rw [hmul] at hlow hhigh
    have hgt := Nat.lt_of_mul_lt_mul_right hlow
    have hlt := Nat.lt_of_mul_lt_mul_right hhigh
    omega
  · rcases Nat.eq_or_lt_of_le hle with rfl | hlt
    · rw [hval] at hlow hhigh
      have hgt := Nat.lt_of_mul_lt_mul_right hlow
      have hlt := Nat.lt_of_mul_lt_mul_right hhigh
      omega
    · -- the significand of `c` has more than `p` bits
      obtain ⟨g, rfl⟩ := Nat.exists_eq_add_of_lt hlt
      have hunit : 2 ^ (f + g + 1) = 2 * 2 ^ g * 2 ^ f := by
        rw [Nat.pow_succ, Nat.pow_add, Nat.mul_comm, Nat.mul_comm (2 ^ f), ← Nat.mul_assoc]
      rw [hval, hunit, ← Nat.mul_assoc] at hlow
      have hgt := Nat.lt_of_mul_lt_mul_right hlow
      have hone : 1 ≤ 2 ^ g := Nat.one_le_two_pow
      have hmul : q * 2 ≤ q * (2 * 2 ^ g) := Nat.mul_le_mul_left q (by omega)
      have hpow : 2 ^ p = 2 ^ (p - 1) * 2 := by
        rw [← Nat.pow_succ, Nat.succ_eq_add_one, Nat.sub_add_cancel hp]
      omega

/-- The magnitude `a` lies between the neighbours `low` and `low + unit` and is rounded to
the nearer one, half-way between them to an even one. -/
structure Between (p a low unit r : Nat) : Prop where
  unit_pos : 0 < unit
  unit_le : unit ≤ low
  low_le : low ≤ a
  lt_high : a < low + unit
  gap : ∀ c : Nat, Fits p c → c ≤ low ∨ low + unit ≤ c
  fits_low : Fits p low
  fits_high : Fits p (low + unit : Nat)
  nearer : (r = low ∧ 2 * (a - low) ≤ unit) ∨ (r = low + unit ∧ unit ≤ 2 * (a - low))
  tie : 2 * (a - low) = unit → IsEven p r

/-- The unit of a magnitude that does not fit by its size. -/
theorem unit_bounds {a : Nat} (hp : 0 < p) (h : 2 ^ p ≤ a) :
    2 ^ (p - 1) ≤ a / 2 ^ (Nat.log2 a + 1 - p) ∧ a / 2 ^ (Nat.log2 a + 1 - p) < 2 ^ p := by
  have hpos : a ≠ 0 := Nat.pos_iff_ne_zero.mp (Nat.lt_of_lt_of_le (Nat.two_pow_pos p) h)
  have hlog : p ≤ Nat.log2 a := (Nat.le_log2 hpos).mpr h
  constructor
  · rw [Nat.le_div_iff_mul_le (Nat.two_pow_pos _), ← Nat.pow_add,
      show p - 1 + (Nat.log2 a + 1 - p) = Nat.log2 a by omega]
    exact Nat.log2_self_le hpos
  · rw [Nat.div_lt_iff_lt_mul (Nat.two_pow_pos _), ← Nat.pow_add,
      show p + (Nat.log2 a + 1 - p) = Nat.log2 a + 1 by omega]
    exact Nat.lt_log2_self

theorem isEven_succ {q e : Nat} (hp : 2 ≤ p) (hlow : 2 ^ (p - 1) ≤ q) (hhigh : q < 2 ^ p)
    (hodd : q % 2 = 1) : IsEven p ((q + 1) * 2 ^ e : Nat) := by
  rcases Nat.lt_or_eq_of_le (Nat.succ_le_of_lt hhigh) with hlt | heq
  · exact ⟨q + 1, e, by omega, hlt, by omega, Int.natAbs_natCast _⟩
  · -- the carry leaves the highest bit alone
    obtain ⟨k, rfl⟩ := Nat.exists_eq_add_of_le' hp
    refine ⟨2 ^ (k + 2 - 1), e + 1, Nat.le_refl _, ?_, ?_, ?_⟩
    · exact Nat.pow_lt_pow_right (by decide) (by omega)
    · rw [show k + 2 - 1 = k + 1 by omega, Nat.pow_succ, Nat.mul_mod_left]
    · rw [Int.natAbs_natCast, show q + 1 = 2 ^ (k + 2) from heq,
        show k + 2 - 1 = k + 1 by omega, Nat.pow_succ, Nat.pow_succ 2 e, Nat.mul_assoc,
        Nat.mul_comm 2]

theorem fits_succ {q e : Nat} (hp : 0 < p) (h : q < 2 ^ p) :
    Fits p ((q + 1) * 2 ^ e : Nat) := by
  rcases Nat.lt_or_eq_of_le (Nat.succ_le_of_lt h) with hlt | heq
  · exact ⟨q + 1, e, hlt, Int.natAbs_natCast _⟩
  · refine ⟨1, p + e, Nat.one_lt_two_pow (Nat.pos_iff_ne_zero.mp hp), ?_⟩
    rw [Int.natAbs_natCast, show q + 1 = 2 ^ p from heq, Nat.one_mul, Nat.pow_add]

/-- A large magnitude in units: its significand, what is cut off, and the choice. -/
theorem roundNat_of_le {a : Nat} (hp : 0 < p) (h : 2 ^ p ≤ a) :
    ∃ e q rest, 2 ^ (p - 1) ≤ q ∧ q < 2 ^ p ∧ a = q * 2 ^ e + rest ∧ rest < 2 ^ e ∧
      roundNat p a =
        if 2 * rest < 2 ^ e ∨ (2 * rest = 2 ^ e ∧ q % 2 = 0) then q * 2 ^ e
        else (q + 1) * 2 ^ e := by
  obtain ⟨hlow, hhigh⟩ := unit_bounds hp h
  refine ⟨_, _, a % 2 ^ (Nat.log2 a + 1 - p), hlow, hhigh, ?_, ?_,
    if_neg (Nat.not_lt_of_le h)⟩
  · rw [Nat.mul_comm]
    exact (Nat.div_add_mod _ _).symm
  · exact Nat.mod_lt _ (Nat.two_pow_pos _)

/-- A large magnitude is rounded to one of its neighbours. -/
theorem roundNat_between {a : Nat} (hp : 2 ≤ p) (h : 2 ^ p ≤ a) :
    ∃ low unit, Between p a low unit (roundNat p a) := by
  have hp' : 0 < p := Nat.lt_of_lt_of_le (by decide) hp
  obtain ⟨e, q, rest, hlow, hhigh, ha, hrest, hround⟩ := roundNat_of_le hp' h
  have hsucc : (q + 1) * 2 ^ e = q * 2 ^ e + 2 ^ e := Nat.succ_mul q (2 ^ e)
  have hq : 1 ≤ q := Nat.le_trans Nat.one_le_two_pow hlow
  have hunit : 1 * 2 ^ e ≤ q * 2 ^ e := Nat.mul_le_mul_right _ hq
  refine ⟨q * 2 ^ e, 2 ^ e, Nat.two_pow_pos e, by omega, by omega, by omega, ?_,
    ⟨q, e, hhigh, Int.natAbs_natCast _⟩, hsucc ▸ fits_succ hp' hhigh, ?_, ?_⟩
  · intro c hc
    rw [← hsucc]
    exact hc.not_between hp' hlow
  · rw [hround]
    split
    · exact .inl ⟨rfl, by omega⟩
    · exact .inr ⟨hsucc, by omega⟩
  · intro htie
    rw [hround]
    split
    · next hdown =>
        exact ⟨q, e, hlow, hhigh, by omega, Int.natAbs_natCast _⟩
    · next hup =>
        exact isEven_succ hp hlow hhigh (by omega)

theorem fits_natAbs {n : Int} : Fits p (n.natAbs : Nat) ↔ Fits p n := by
  rw [Fits, Fits, Int.natAbs_natCast]

theorem isEven_natAbs {n : Int} : IsEven p (n.natAbs : Nat) ↔ IsEven p n := by
  rw [IsEven, IsEven, Int.natAbs_natCast]

/-- The nearer neighbour of the magnitude, with the sign of the number. -/
theorem Between.nearestEven {n k : Int} {low unit : Nat}
    (h : Between p n.natAbs low unit k.natAbs) (hsign : 0 ≤ n ∧ 0 ≤ k ∨ n ≤ 0 ∧ k ≤ 0) :
    NearestEven p n k := by
  have hpos := h.unit_pos
  have hunit := h.unit_le
  have hle := h.low_le
  have hhigh := h.lt_high
  have hnearer := h.nearer
  have hgap {k : Int} (hk : Fits p k) := h.gap k.natAbs (fits_natAbs.mpr hk)
  refine ⟨?_, ?_, ?_⟩
  · rw [← fits_natAbs]
    rcases hnearer with ⟨hlow, -⟩ | ⟨hhigh, -⟩
    · rw [hlow]
      exact h.fits_low
    · rw [hhigh]
      exact h.fits_high
  · intro k' hk'
    have := hgap hk'
    omega
  · intro k' hk' hne hdist
    -- another number is as near only from the other side
    have := hgap hk'
    exact isEven_natAbs.mp (h.tie (by omega))

theorem round_sign (p : Nat) (n : Int) :
    (round p n).natAbs = roundNat p n.natAbs ∧
      (0 ≤ n ∧ 0 ≤ round p n ∨ n ≤ 0 ∧ round p n ≤ 0) := by
  rw [round]
  split <;> omega

/-- The function rounds to the nearest number that fits, ties to even. -/
theorem nearestEven_round (hp : 2 ≤ p) (n : Int) : NearestEven p n (round p n) := by
  obtain ⟨habs, hsign⟩ := round_sign p n
  by_cases hlt : n.natAbs < 2 ^ p
  · -- what fits by its size stays
    rw [roundNat, if_pos hlt] at habs
    have heq : round p n = n := by omega
    have hn : Fits p n := ⟨n.natAbs, 0, hlt, (Nat.mul_one _).symm⟩
    rw [heq]
    exact ⟨hn, fun k _ => by omega, fun k _ hne hdist => by omega⟩
  · obtain ⟨low, unit, hbetween⟩ := roundNat_between hp (Nat.le_of_not_lt hlt)
    rw [← habs] at hbetween
    exact hbetween.nearestEven hsign

end Significand
