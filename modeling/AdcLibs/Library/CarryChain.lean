import AdcLibs.Library.Runs
import Mathlib.Data.Nat.Digits.Defs

/-!
# Carry chains

Numbers in base `b` are added digit by digit: every column of a list has two
upper digits and a lower one, and what a column does not hold is carried into
the next one.  Columns go from the least significant one on.  A difference is
the same chain, read from the lower digits.  A run whose every step fills one
column, and keeps the carry in its state, is a chain.
-/

namespace CarryChain

open Runs

universe u v

/-- A carry that is given by a comparison, as a number. -/
theorem toNat_decide (p : Prop) [Decidable p] : (decide p).toNat = if p then 1 else 0 :=
  Bool.cond_decide p 1 0

variable {α : Type u}

/-- The number with the digits `x a`, least significant first. -/
def numeral (b : Nat) (x : α → Nat) (as : List α) : Nat :=
  Nat.ofDigits b (as.map x)

@[simp] theorem numeral_nil (b : Nat) (x : α → Nat) : numeral b x [] = 0 := rfl

@[simp] theorem numeral_cons (b : Nat) (x : α → Nat) (a : α) (as : List α) :
    numeral b x (a :: as) = x a + b * numeral b x as :=
  Nat.ofDigits_cons

theorem numeral_lt {b : Nat} {x : α → Nat} {as : List α} (hb : 1 < b)
    (hx : ∀ a ∈ as, x a < b) : numeral b x as < b ^ as.length := by
  have hlt : Nat.ofDigits b (as.map x) < b ^ (as.map x).length := by
    apply Nat.ofDigits_lt_base_pow_length hb
    intro d hd
    rcases List.mem_map.mp hd with ⟨a, ha, rfl⟩
    exact hx a ha
  rwa [List.length_map] at hlt

/-- The chain over columns `a` with upper digits `x a` and `y a` and lower digit `z a`, from
the carry into the first column to the carry out of the last one. -/
inductive Chain (b : Nat) (x y z : α → Nat) : List α → Bool → Bool → Prop
  | nil (c : Bool) : Chain b x y z [] c c
  | cons {a : α} {as : List α} {c c' d : Bool} :
      x a + y a + c.toNat = z a + b * c'.toNat → Chain b x y z as c' d →
        Chain b x y z (a :: as) c d

variable {b : Nat} {x y z : α → Nat} {as as' : List α} {c c' d : Bool}

theorem Chain.append (h : Chain b x y z as c c') (h' : Chain b x y z as' c' d) :
    Chain b x y z (as ++ as') c d := by
  induction h with
  | nil c => exact h'
  | cons hcol _ ih => exact .cons hcol (ih h')

theorem Chain.singleton {a : α} (h : x a + y a + c.toNat = z a + b * d.toNat) :
    Chain b x y z [a] c d :=
  .cons h (.nil d)

section OfRun

variable {σ : Type v} {step : σ → α → σ → Prop} (carry : σ → Bool) {P : α → Prop} {s t : σ}

/-- Steps that fill columns from the least significant one on. -/
theorem Chain.of_run (hrun : Run step s as t) (has : ∀ a ∈ as, P a)
    (hstep : ∀ s a s', P a → step s a s' →
      x a + y a + (carry s).toNat = z a + b * (carry s').toNat) :
    Chain b x y z as (carry s) (carry t) := by
  induction hrun with
  | nil s => exact .nil _
  | cons h _ ih =>
      rcases List.forall_mem_cons.mp has with ⟨ha, has⟩
      exact .cons (hstep _ _ _ ha h) (ih has)

/-- Steps that fill columns from the most significant one on. -/
theorem Chain.of_run_reverse (hrun : Run step s as t) (has : ∀ a ∈ as, P a)
    (hstep : ∀ s a s', P a → step s a s' →
      x a + y a + (carry s').toNat = z a + b * (carry s).toNat) :
    Chain b x y z as.reverse (carry t) (carry s) := by
  induction hrun with
  | nil s => exact .nil _
  | cons h _ ih =>
      rcases List.forall_mem_cons.mp has with ⟨ha, has⟩
      rw [List.reverse_cons]
      exact (ih has).append (.singleton (hstep _ _ _ ha h))

end OfRun

/-- Nothing is lost between the columns: what the lower digits do not hold is carried out. -/
theorem Chain.sum (h : Chain b x y z as c d) :
    numeral b x as + numeral b y as + c.toNat =
      numeral b z as + b ^ as.length * d.toNat := by
  induction h with
  | nil c => simp
  | @cons a as c c' d hcol _ ih =>
      simp only [numeral_cons, List.length_cons]
      calc x a + b * numeral b x as + (y a + b * numeral b y as) + c.toNat
          = (x a + y a + c.toNat) + b * (numeral b x as + numeral b y as) := by ring
        _ = z a + b * (numeral b x as + numeral b y as + c'.toNat) := by rw [hcol]; ring
        _ = z a + b * numeral b z as + b ^ (as.length + 1) * d.toNat := by rw [ih]; ring

/-- The lower digits are the sum of the upper ones modulo a power of the base, and the carry
out says whether the sum exceeds it. -/
theorem Chain.sum_mod (h : Chain b x y z as c d) (hb : 1 < b) (hz : ∀ a ∈ as, z a < b) :
    numeral b z as = (numeral b x as + numeral b y as + c.toNat) % b ^ as.length ∧
      (d = true ↔ b ^ as.length ≤ numeral b x as + numeral b y as + c.toNat) := by
  have hlt : numeral b z as < b ^ as.length := numeral_lt hb hz
  rw [h.sum]
  constructor
  · rw [Nat.add_mul_mod_self_left, Nat.mod_eq_of_lt hlt]
  · cases d with
    | false => simpa using hlt
    | true => simp

/-- Read from the lower digits the chain is a difference, and the carry out is a borrow. -/
theorem Chain.difference_mod (h : Chain b x y z as false d) (hb : 1 < b)
    (hx : ∀ a ∈ as, x a < b) (hz : ∀ a ∈ as, z a < b) :
    (numeral b x as : Int) =
        ((numeral b z as : Int) - numeral b y as) % (b : Int) ^ as.length ∧
      (d = true ↔ numeral b z as < numeral b y as) := by
  have hltx : numeral b x as < b ^ as.length := numeral_lt hb hx
  have hltz : numeral b z as < b ^ as.length := numeral_lt hb hz
  have hsum := h.sum
  rw [Bool.toNat_false, Nat.add_zero] at hsum
  constructor
  · have hdiff : (numeral b z as : Int) - numeral b y as =
        numeral b x as - (b : Int) ^ as.length * d.toNat := by
      have hcast : (numeral b x as : Int) + numeral b y as =
          numeral b z as + (b : Int) ^ as.length * d.toNat := by exact_mod_cast hsum
      omega
    rw [hdiff, Int.sub_mul_emod_self_left, Int.emod_eq_of_lt (Int.natCast_nonneg _)]
    exact_mod_cast hltx
  · cases d with
    | false =>
        rw [Bool.toNat_false, Nat.mul_zero, Nat.add_zero] at hsum
        simp only [Bool.false_eq_true, false_iff, Nat.not_lt]
        omega
    | true =>
        rw [Bool.toNat_true, Nat.mul_one] at hsum
        simp only [true_iff]
        omega

end CarryChain
