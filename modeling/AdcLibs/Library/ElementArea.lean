import Mathlib.Tactic.Common

/-!
# Arrays of elements in a byte area

An unbounded area of bytes holds elements of `e` bytes one after the other.
Elements are read and written at an index, byte ranges are moved, and the
contents of the area are the list of its first elements.  A move may cover more
bytes than the elements it is meant for.
-/

namespace ElementArea

universe u

variable {β : Type u} {e : Nat}

/-- The element at index `k`. -/
def readElem (data : Nat → β) (k : Nat) : Vector β e :=
  Vector.ofFn fun j => data (e * k + j)

/-- Store an element at index `k`. -/
def writeElem (data : Nat → β) (k : Nat) (x : Vector β e) : Nat → β := fun a =>
  if h : e * k ≤ a ∧ a - e * k < e then x[a - e * k] else data a

/-- Move `num` bytes from `src` to `dst`; the ranges may overlap. -/
def move (dst src num : Nat) (data : Nat → β) : Nat → β := fun a =>
  if dst ≤ a ∧ a < dst + num then data (src + (a - dst)) else data a

/-- The first `n` elements. -/
def contents (data : Nat → β) (n : Nat) : List (Vector β e) :=
  (List.range n).map (readElem data)

@[simp] theorem length_contents (data : Nat → β) (n : Nat) :
    (contents data n : List (Vector β e)).length = n := by
  simp [contents]

theorem getElem?_contents (data : Nat → β) (n k : Nat) :
    (contents data n : List (Vector β e))[k]? =
      if k < n then some (readElem data k) else none := by
  rw [contents, List.getElem?_map]
  split
  · next h => rw [List.getElem?_range h, Option.map_some]
  · next h => rw [List.getElem?_eq_none (by simpa using h), Option.map_none]

/-- An element is determined by its own bytes. -/
theorem readElem_congr {data data' : Nat → β} {k k' : Nat}
    (h : ∀ j, j < e → data' (e * k' + j) = data (e * k + j)) :
    (readElem data' k' : Vector β e) = readElem data k := by
  apply Vector.ext
  intro j hj
  simp only [readElem, Vector.getElem_ofFn]
  exact h j hj

theorem readElem_writeElem_self (data : Nat → β) (k : Nat) (x : Vector β e) :
    readElem (writeElem data k x) k = x := by
  apply Vector.ext
  intro j hj
  simp [readElem, writeElem]

theorem readElem_writeElem_of_ne (data : Nat → β) {k k' : Nat} (x : Vector β e)
    (h : k' ≠ k) : (readElem (writeElem data k x) k' : Vector β e) = readElem data k' := by
  refine readElem_congr fun j hj => ?_
  rw [writeElem, dif_neg]
  rintro ⟨hle, hlt⟩
  rcases Nat.lt_or_gt_of_ne h with hk | hk
  · have := Nat.mul_le_mul_left e hk
    rw [Nat.mul_succ] at this
    omega
  · have := Nat.mul_le_mul_left e hk
    rw [Nat.mul_succ] at this
    omega

/-- Elements before the destination stay. -/
theorem readElem_move_of_lt (data : Nat → β) {d k : Nat} (src num : Nat) (h : k < d) :
    (readElem (move (e * d) src num data) k : Vector β e) = readElem data k := by
  refine readElem_congr fun j hj => ?_
  rw [move, if_neg]
  have := Nat.mul_le_mul_left e h
  rw [Nat.mul_succ] at this
  omega

/-- Elements in the destination range come from the source range. -/
theorem readElem_move (data : Nat → β) {d s k num : Nat} (hd : d ≤ k)
    (hnum : e * (k + 1) ≤ e * d + num) :
    (readElem (move (e * d) (e * s) num data) k : Vector β e) =
      readElem data (s + (k - d)) := by
  obtain ⟨t, rfl⟩ := Nat.exists_eq_add_of_le hd
  refine readElem_congr fun j hj => ?_
  rw [Nat.mul_add, Nat.mul_add] at hnum
  rw [Nat.add_sub_cancel_left, Nat.mul_add, Nat.mul_add, move, if_pos (by omega)]
  congr 1
  omega

/-- Bytes that are moved to where they are stay. -/
theorem move_self (data : Nat → β) (d num : Nat) : move d d num data = data := by
  funext a
  rw [move]
  split
  · next h => rw [Nat.add_sub_cancel' h.1]
  · rfl

/-! ## Contents -/

theorem contents_congr {data data' : Nat → β} {n : Nat}
    (h : ∀ a, a < e * n → data' a = data a) :
    (contents data' n : List (Vector β e)) = contents data n := by
  refine List.map_congr_left fun k hk => readElem_congr fun j hj => h _ ?_
  have := Nat.mul_le_mul_left e (List.mem_range.mp hk)
  rw [Nat.mul_succ] at this
  omega

/-- Storing behind the last element appends. -/
theorem contents_append (data : Nat → β) (n : Nat) (x : Vector β e) :
    contents (writeElem data n x) (n + 1) = contents data n ++ [x] := by
  apply List.ext_getElem?
  intro k
  rw [getElem?_contents, List.getElem?_append, getElem?_contents, length_contents]
  rcases Nat.lt_trichotomy k n with hk | rfl | hk
  · rw [if_pos (by omega), if_pos hk, if_pos hk, readElem_writeElem_of_ne _ _ (by omega)]
  · simp [readElem_writeElem_self]
  · rw [if_neg (by omega), if_neg (by omega), List.getElem?_eq_none (by simp; omega)]

/-- Forgetting the last element. -/
theorem contents_dropLast (data : Nat → β) (n : Nat) :
    (contents data (n + 1) : List (Vector β e)) = contents data n ++ [readElem data n] := by
  simp [contents, List.range_succ]

/-- Moving the elements from `i` on one place up and storing at `i` inserts. -/
theorem contents_insert (data : Nat → β) {n i num : Nat} (x : Vector β e) (hi : i < n)
    (hnum : e * (n - i) ≤ num) :
    contents (writeElem (move (e * (i + 1)) (e * i) num data) i x) (n + 1) =
      (contents data n).insertIdx i x := by
  apply List.ext_getElem?
  intro k
  rw [getElem?_contents, List.getElem?_insertIdx, getElem?_contents, getElem?_contents,
    length_contents]
  rcases Nat.lt_trichotomy k i with hk | rfl | hk
  · rw [if_pos (by omega), if_pos hk, if_pos (by omega),
      readElem_writeElem_of_ne _ _ (by omega), readElem_move_of_lt _ _ _ (by omega)]
  · simp [readElem_writeElem_self, Nat.lt_succ_of_lt hi, Nat.le_of_lt hi]
  · have hlt : ¬ k < i := by omega
    have hne : k ≠ i := by omega
    rw [if_neg hlt, if_neg hne]
    by_cases hkn : k < n + 1
    · have hmul : e * (k + 1) ≤ e * (i + 1) + num := by
        have hle : k + 1 ≤ (i + 1) + (n - i) := by omega
        have := Nat.mul_le_mul_left e hle
        rw [Nat.mul_add e (i + 1)] at this
        omega
      rw [if_pos hkn, if_pos (by omega), readElem_writeElem_of_ne _ _ (by omega),
        readElem_move _ (by omega) hmul]
      congr 2
      omega
    · rw [if_neg hkn, if_neg (by omega)]

/-- Moving the elements from `i + m` on `m` places down removes `m` elements. -/
theorem contents_erase (data : Nat → β) {n i m num : Nat} (hm : i + m ≤ n)
    (hnum : e * (n - (i + m)) ≤ num) :
    (contents (move (e * i) (e * (i + m)) num data) (n - m) : List (Vector β e)) =
      (contents data n).take i ++ (contents data n).drop (i + m) := by
  apply List.ext_getElem?
  intro k
  rw [getElem?_contents, List.getElem?_append, List.getElem?_take, List.getElem?_drop,
    getElem?_contents, getElem?_contents, List.length_take, length_contents,
    Nat.min_eq_left (by omega)]
  by_cases hk : k < i
  · rw [if_pos (by omega), if_pos hk, if_pos hk, if_pos (by omega),
      readElem_move_of_lt _ _ _ hk]
  · rw [if_neg hk]
    by_cases hkn : k < n - m
    · have hmul : e * (k + 1) ≤ e * i + num := by
        have hle : k + 1 ≤ i + (n - (i + m)) := by omega
        have := Nat.mul_le_mul_left e hle
        rw [Nat.mul_add e i] at this
        omega
      rw [if_pos hkn, if_pos (by omega), readElem_move _ (by omega) hmul]
    · rw [if_neg hkn, if_neg (by omega)]

end ElementArea
