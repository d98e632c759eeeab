import AdcLibs.Vector.Refine

/-!
# Storing an element of the vector itself

The item of a push or an insert is an expression that the macro evaluates where it
stores it: after the growth, and in an insert after the move that opens the gap.
With the item `vec[j]` a push stores the old element `j`; an insert at `i` finds the old
element `j - 1` at `j` when `j` is behind `i`.
-/

namespace AdcLibs
namespace AdcVector

open ElementArea

variable {e : Nat}

/-- The macro argument `vec[j]`. -/
def ownItem (e j : Nat) : Block → Elem e := fun b => readElem b.data j

/-- `adc_vector_push(vec, vec[j])` appends the element `j`. -/
def PushStoresOwn (fresh : Nat → Byte) (e : Nat) (b : Block) (j : Nat) : Prop :=
  ∃ r, adcVectorPush fresh (ownItem e j) (some b) = some r ∧
    elems r.1 = elems (some b) ++ [ownItem e j b]

/-- `adc_vector_insert(vec, i, vec[j])` inserts the element `j` at `i`. -/
def InsertStoresOwn (fresh : Nat → Byte) (e : Nat) (b : Block) (i : Int) (j : Nat) : Prop :=
  ∃ r, adcVectorInsert fresh i (ownItem e j) (some b) = some r ∧
    elems r.1 = (elems (some b)).insertIdx i.toNat (ownItem e j b)

/-! ## What the item expression reads -/

/-- Growth keeps the elements. -/
theorem Grown.ownItem_eq {b b' : Block} {need j : Nat} (h : Grown e (some b) need (some b'))
    (hj : j < b.size) : ownItem e j b' = ownItem e j b := by
  have hsize : b'.size = b.size := h.size_eq
  have hat : (contents b'.data b'.size : List (Elem e))[j]? = (contents b.data b.size)[j]? :=
    congrArg (·[j]?) h.elems_eq
  rw [getElem?_contents, getElem?_contents, hsize, if_pos hj, if_pos hj] at hat
  exact Option.some.inj hat

/-- In the block with the gap the elements up to `i` are where they were, and those
behind it one place further. -/
theorem ownItem_openGap {b : Block} {i j : Nat} (he : 1 ≤ e) (hj : j < b.size) :
    ownItem e j (openGap e i b) = ownItem e (if j ≤ i then j else j - 1) b := by
  rw [openGap]
  by_cases hle : j ≤ i
  · rw [if_pos hle]
    exact readElem_move_of_lt _ _ _ (Nat.lt_succ_of_le hle)
  · rw [if_neg hle]
    have hmul : e * (j + 1) ≤ e * (i + 1) + (e * (b.size + 1) - 1 - i) := by
      have hnext := le_bytes he (i + 1)
      have hend : e * (j + 1) ≤ e * (b.size + 1) := Nat.mul_le_mul_left e (by omega)
      omega
    refine (readElem_move b.data (by omega) hmul).trans ?_
    rw [ownItem]
    congr 1
    omega

/-! ## The macros -/

theorem push_stores_own (fresh : Nat → Byte) {b : Block} {j : Nat} (h : SizeInv (some b))
    (hsize : b.size + 1 < 2 ^ 64) (hj : j < b.size) : PushStoresOwn fresh e b j := by
  have hlength : (elems (some b) : List (Elem e)).length = b.size := length_elems _
  obtain ⟨b', r, hgrown, hr, href⟩ := push_refines fresh ⟨h, rfl⟩ (ownItem e j)
    (by rw [hlength]; exact hsize)
  refine ⟨r, hr, ?_⟩
  rw [href.elems_eq, hgrown.ownItem_eq hj]

/-- An insert inserts what the expression reads in the block with the gap. -/
theorem insert_own (fresh : Nat → Byte) {b : Block} {i : Int} {j : Nat} (he : 1 ≤ e)
    (h : SizeInv (some b)) (hbytes : e * (b.size + 1) < 2 ^ 64) (hi : 0 ≤ i)
    (hlt : i < b.size) (hj : j < b.size) :
    ∃ r, adcVectorInsert fresh i (ownItem e j) (some b) = some r ∧
      elems r.1 = (elems (some b)).insertIdx i.toNat
        (ownItem e (if j ≤ i.toNat then j else j - 1) b) := by
  have hlength : (elems (some b) : List (Elem e)).length = b.size := length_elems _
  obtain ⟨b', r, hgrown, hr, href⟩ := insert_refines fresh ⟨h, rfl⟩ (ownItem e j) he
    (by rw [hlength]; exact hbytes) (by rw [hlength]; exact ⟨hi, hlt⟩)
  have hsize : b'.size = b.size := hgrown.size_eq
  refine ⟨r, hr, ?_⟩
  rw [href.elems_eq, ownItem_openGap he (by omega), hgrown.ownItem_eq]
  split <;> omega

theorem insertIdx_inj {α : Type} {l : List α} {i : Nat} {x y : α} (hi : i ≤ l.length) :
    l.insertIdx i x = l.insertIdx i y ↔ x = y := by
  constructor
  · intro h
    have hat := congrArg (·[i]?) h
    simpa [List.getElem?_insertIdx_self, hi] using hat
  · rintro rfl
    rfl

/--
A push of the vector's own element `j` stores its old value, with and without a
reallocation; an insert at `i` does so exactly when `j` is not behind `i`, or when the
element before it is the same.
-/
theorem own_item_iff (fresh : Nat → Byte) {b : Block} {i : Int} {j : Nat} (he : 1 ≤ e)
    (h : SizeInv (some b)) (hbytes : e * (b.size + 1) < 2 ^ 64) (hi : 0 ≤ i)
    (hlt : i < b.size) (hj : j < b.size) :
    PushStoresOwn fresh e b j ∧
      (InsertStoresOwn fresh e b i j ↔ j ≤ i ∨ ownItem e (j - 1) b = ownItem e j b) := by
  have hlen := le_bytes he (b.size + 1)
  have hlength : (elems (some b) : List (Elem e)).length = b.size := length_elems _
  refine ⟨push_stores_own fresh h (by omega) hj, ?_⟩
  obtain ⟨r, hr, helems⟩ := insert_own fresh he h hbytes hi hlt hj
  have hstores : InsertStoresOwn fresh e b i j ↔
      ownItem e (if j ≤ i.toNat then j else j - 1) b = ownItem e j b := by
    rw [← insertIdx_inj (l := elems (some b)) (i := i.toNat) (by omega), ← helems]
    constructor
    · rintro ⟨r', hr', helems'⟩
      obtain rfl := Option.some.inj (hr.symm.trans hr')
      exact helems'
    · exact fun helems' => ⟨r, hr, helems'⟩
  rw [hstores]
  by_cases hle : j ≤ i.toNat
  · rw [if_pos hle]
    exact iff_of_true rfl (.inl (by omega))
  · rw [if_neg hle]
    constructor
    · exact .inr
    · intro hcond
      rcases hcond with hle' | hsame
      · omega
      · exact hsame

/-- Two elements of one byte, in a block for four. -/
def twoElements : Block := ⟨2, 4, fun a => BitVec.ofNat 8 (10 * (a + 1))⟩

theorem own_item_iff_two :
    PushStoresOwn (fun _ => 0) 1 twoElements 0 ∧
      (InsertStoresOwn (fun _ => 0) 1 twoElements 1 0 ↔
        ((0 : Nat) : Int) ≤ 1 ∨ ownItem 1 (0 - 1) twoElements = ownItem 1 0 twoElements) :=
  own_item_iff (e := 1) (b := twoElements) (i := 1) (j := 0) (fun _ => 0) (by decide)
    (show 2 ≤ 4 by decide) (by decide) (by decide) (by decide) (by decide)

/-- The vector 10, 20: an insert of its second element at the front inserts 10. -/
theorem insert_own_stores_other :
    ¬ ∀ (fresh : Nat → Byte) (e : Nat) (b : Block) (i : Int) (j : Nat), 1 ≤ e →
      SizeInv (some b) → e * (b.size + 1) < 2 ^ 64 → 0 ≤ i → i < b.size → j < b.size →
      InsertStoresOwn fresh e b i j := by
  intro hall
  obtain ⟨r, hr, helems⟩ := hall (fun _ => 0) 1 twoElements 0 1 (by decide)
    (show 2 ≤ 4 by decide) (by decide) (by decide) (by decide) (by decide)
  have hinserted : (elems r.1 : List (Elem 1)) = [#v[10], #v[10], #v[20]] := by
    obtain rfl := Option.some.inj hr
    decide
  rw [hinserted] at helems
  exact absurd helems (by decide)

end AdcVector
end AdcLibs
