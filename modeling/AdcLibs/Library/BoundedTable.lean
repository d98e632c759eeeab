import Mathlib.Tactic.Common

/-!
# Tables with a bound

A table takes an entry behind the others as long as there is room, and drops it
otherwise: it holds the first entries of all that were added.
-/

namespace BoundedTable

universe u

variable {α : Type u} {bound : Nat} {table : List α}

/-- Add an entry if there is room. -/
def add (bound : Nat) (table : List α) (x : α) : List α :=
  if table.length ≥ bound then table else table ++ [x]

theorem add_eq_take (h : table.length ≤ bound) (x : α) :
    add bound table x = (table ++ [x]).take bound := by
  rw [add]
  split
  · next hfull => rw [List.take_append_of_le_length hfull, List.take_of_length_le h]
  · next hroom =>
      rw [List.take_of_length_le]
      rw [List.length_append, List.length_singleton]
      omega

theorem prefix_add (x : α) : table <+: add bound table x := by
  rw [add]
  split
  · exact List.prefix_rfl
  · exact List.prefix_append table [x]

/-- Cutting before more is added changes nothing of the first entries. -/
theorem take_take_append (n : Nat) (l m : List α) :
    (l.take n ++ m).take n = (l ++ m).take n := by
  have hlen : n - min n l.length = n - l.length := by omega
  rw [List.take_append, List.take_append, List.take_take, Nat.min_self, List.length_take, hlen]

/-- Entries behind a table leave its first ones as they are alone when they begin with the
table and go on with their own beginning. -/
theorem take_append_eq_take_iff (h : table.length ≤ bound) (xs : List α) :
    (table ++ xs).take bound = xs.take bound ↔
      (∀ k < table.length, xs[k]? = table[k]?) ∧
        ∀ k < bound - table.length, xs[k + table.length]? = xs[k]? := by
  have hentries : (table ++ xs).take bound = xs.take bound ↔
      ∀ k < bound, (table ++ xs)[k]? = xs[k]? := by
    constructor
    · intro heq k hk
      rw [← List.getElem?_take_of_lt hk, heq, List.getElem?_take_of_lt hk]
    · intro heq
      apply List.ext_getElem?
      intro k
      by_cases hk : k < bound
      · rw [List.getElem?_take_of_lt hk, List.getElem?_take_of_lt hk, heq k hk]
      · rw [List.getElem?_take, List.getElem?_take, if_neg hk, if_neg hk]
  rw [hentries]
  constructor
  · refine fun heq => ⟨fun k hk => ?_, fun k hk => ?_⟩
    · rw [← heq k (Nat.lt_of_lt_of_le hk h), List.getElem?_append_left hk]
    · rw [← heq _ (Nat.add_lt_of_lt_sub hk), List.getElem?_append_right (Nat.le_add_left _ k),
        Nat.add_sub_cancel]
  · rintro ⟨hhead, htail⟩ k hk
    by_cases hlt : k < table.length
    · rw [List.getElem?_append_left hlt, hhead k hlt]
    · obtain ⟨j, rfl⟩ := Nat.exists_eq_add_of_le' (Nat.le_of_not_lt hlt)
      rw [List.getElem?_append_right (Nat.le_add_left _ j), Nat.add_sub_cancel,
        htail j (Nat.lt_sub_of_add_lt hk)]

/-- The table has the first of all entries that were added. -/
theorem foldl_add (h : table.length ≤ bound) (xs : List α) :
    xs.foldl (add bound) table = (table ++ xs).take bound := by
  induction xs generalizing table with
  | nil => rw [List.foldl_nil, List.append_nil, List.take_of_length_le h]
  | cons x xs ih =>
      have hnext : (add bound table x).length ≤ bound := by
        rw [add_eq_take h]
        exact List.length_take_le _ _
      rw [List.foldl_cons, ih hnext, add_eq_take h, take_take_append, List.append_assoc,
        List.singleton_append]

/-- Entries are not removed. -/
theorem prefix_foldl_add (xs : List α) (table : List α) :
    table <+: xs.foldl (add bound) table := by
  induction xs generalizing table with
  | nil => exact List.prefix_rfl
  | cons x xs ih => exact (prefix_add x).trans (ih _)

end BoundedTable
