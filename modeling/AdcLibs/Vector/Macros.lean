import AdcLibs.Library.Runs
import AdcLibs.Vector.Model

/-!
# What the macros compute

`adc__vector_grow` makes the room it is asked for and keeps the elements, and an
insert or erase whose guard holds is one move of bytes.  The counts of the moves
are the ones the macros compute, not the bytes of the elements to move.
-/

namespace AdcLibs
namespace AdcVector

open ElementArea
open Runs

variable {e : Nat}

/-- The contents of a vector. -/
def elems : Vec → List (Elem e)
  | none => []
  | some b => contents b.data b.size

@[simp] theorem length_elems (vec : Vec) :
    (elems vec : List (Elem e)).length = adcVectorSize vec := by
  cases vec with
  | none => rfl
  | some b => exact length_contents b.data b.size

/-- The size never exceeds the capacity. -/
def SizeInv (vec : Vec) : Prop := adcVectorSize vec ≤ adcVectorCapacity vec

/-! ## Growth -/

/-- `vec'` is `vec` with room for `need` elements. -/
structure Grown (e : Nat) (vec : Vec) (need : Nat) (vec' : Vec) : Prop where
  size_eq : adcVectorSize vec' = adcVectorSize vec
  room : need ≤ adcVectorCapacity vec'
  elems_eq : (elems vec' : List (Elem e)) = elems vec

/-- The capacity that `adc__vector_grow` chooses is at least what is needed. -/
theorem le_chosen (need double : Nat) :
    need ≤ if need < double then double else if need < 4 then 4 else need := by
  split
  · omega
  · split <;> omega

/-- The capacity that `adc__vector_grow` chooses when `capacity` is less than `need`. -/
def chosenCapacity (need capacity : Nat) : Nat :=
  if need < sizeT (2 * capacity) then sizeT (2 * capacity) else if need < 4 then 4 else need

/-- `adc__vector_grow` keeps the vector, or it reallocates. -/
theorem grow_cases (fresh : Nat → Byte) (vec : Vec) (addsize minCap : Nat) {need : Nat}
    (hneed : need = max (sizeT (adcVectorSize vec + addsize)) minCap) :
    (need ≤ adcVectorCapacity vec ∧ adcVectorGrow fresh vec e addsize minCap = (vec, [])) ∨
      (adcVectorCapacity vec < need ∧
        adcVectorGrow fresh vec e addsize minCap =
          (some ⟨adcVectorSize vec, chosenCapacity need (adcVectorCapacity vec),
              reallocData fresh e vec⟩,
            [.realloc
              (sizeT (e * chosenCapacity need (adcVectorCapacity vec) + sizeofHeader))])) := by
  have hmax : (if sizeT (adcVectorSize vec + addsize) > minCap then
      sizeT (adcVectorSize vec + addsize) else minCap) = need := by
    split <;> omega
  rcases Nat.lt_or_ge (adcVectorCapacity vec) need with hlt | hle
  · refine .inr ⟨hlt, ?_⟩
    simp only [adcVectorGrow, hmax, if_neg (Nat.not_le_of_lt hlt)]
    rfl
  · refine .inl ⟨hle, ?_⟩
    simp only [adcVectorGrow, hmax, if_pos hle]

/-- `adc__vector_grow` makes the room it is asked for. -/
theorem grow_grown (fresh : Nat → Byte) {vec : Vec} (addsize minCap : Nat)
    (hinv : SizeInv vec) (hsize : adcVectorSize vec + addsize < 2 ^ 64) :
    Grown e vec (adcVectorSize vec + addsize)
      (adcVectorGrow fresh vec e addsize minCap).1 := by
  have hmin : sizeT (adcVectorSize vec + addsize) = adcVectorSize vec + addsize := by
    exact_mod_cast sizeT_natCast hsize
  simp only [adcVectorGrow, hmin]
  generalize hneed : (if adcVectorSize vec + addsize > minCap then adcVectorSize vec + addsize
    else minCap) = need
  have hle : adcVectorSize vec + addsize ≤ need := by
    split at hneed <;> omega
  by_cases hcap : need ≤ adcVectorCapacity vec
  · rw [if_pos hcap]
    exact ⟨rfl, Nat.le_trans hle hcap, rfl⟩
  · rw [if_neg hcap]
    refine ⟨rfl, Nat.le_trans hle (le_chosen need _), ?_⟩
    · cases vec with
      | none => rfl
      | some b =>
          refine contents_congr fun a ha => ?_
          have hold : e * b.size ≤ e * b.capacity := Nat.mul_le_mul_left e hinv
          change a < e * b.size at ha
          change (if a < e * b.capacity then b.data a else fresh a) = b.data a
          rw [if_pos (by omega)]

/-- `adc__vector_addgrow` makes room for one more element. -/
theorem addgrow_grown (fresh : Nat → Byte) {vec : Vec} (hinv : SizeInv vec)
    (hsize : adcVectorSize vec + 1 < 2 ^ 64) :
    ∃ b, (adcVectorAddgrow fresh e vec 1).1 = some b ∧
      Grown e vec (adcVectorSize vec + 1) (some b) := by
  have hgrown : Grown e vec (adcVectorSize vec + 1) (adcVectorAddgrow fresh e vec 1).1 := by
    cases vec with
    | none => exact grow_grown fresh 1 0 hinv hsize
    | some b =>
        have hmin : sizeT (b.size + 1) = b.size + 1 := by
          exact_mod_cast sizeT_natCast hsize
        simp only [adcVectorAddgrow]
        split
        · exact grow_grown fresh 1 0 hinv hsize
        · next hle =>
            refine ⟨rfl, ?_, rfl⟩
            change ¬ sizeT (b.size + 1) > b.capacity at hle
            simp only [adcVectorSize, adcVectorCapacity]
            omega
  cases hvec : (adcVectorAddgrow fresh e vec 1).1 with
  | some b => exact ⟨b, rfl, hvec ▸ hgrown⟩
  | none =>
      have hroom := hgrown.room
      rw [hvec] at hroom
      simp only [adcVectorCapacity] at hroom
      omega

/-! ## The guarded macros -/

/-- The bounds check on an index that is an `int`. -/
theorem guard_iff {i : Int} {size : Nat} (hi : i < 2 ^ 31) :
    (0 ≤ i ∧ sizeT i < size) ↔ (0 ≤ i ∧ i < size) := by
  refine and_congr_right fun h => ?_
  rw [sizeT_of_nonneg h (by omega)]
  omega

/-- The elements fit where their bytes do. -/
theorem le_bytes (he : 1 ≤ e) (n : Nat) : n ≤ e * n := Nat.le_mul_of_pos_left n he

/-- The block in which an insert at `i` has moved the elements from `i` on. -/
def openGap (e i : Nat) (b : Block) : Block :=
  ⟨b.size + 1, b.capacity, move (e * (i + 1)) (e * i) (e * (b.size + 1) - 1 - i) b.data⟩

/-- An insert at an index in bounds, with the bytes of the contents counted by a
`size_t`: `b` is the block after growth. -/
theorem insert_eq (fresh : Nat → Byte) {b₀ b : Block} {i : Int} (item : Block → Elem e)
    (he : 1 ≤ e) (hguard : 0 ≤ i ∧ i < b₀.size)
    (hb : (adcVectorAddgrow fresh e (some b₀) 1).1 = some b) (hsize : b.size = b₀.size)
    (hbytes : e * (b.size + 1) < 2 ^ 64) :
    adcVectorInsert fresh i item (some b₀) =
      some (some ⟨b.size + 1, b.capacity,
          writeElem (openGap e i.toNat b).data i.toNat (item (openGap e i.toNat b))⟩,
        (adcVectorAddgrow fresh e (some b₀) 1).2 ++
          [.memmove (e * (i.toNat + 1)) (e * i.toNat) (e * (b.size + 1) - 1 - i.toNat)]) := by
  have hle := le_bytes he (b.size + 1)
  have hin : 0 ≤ i ∧ sizeT i < b₀.size := by
    rw [sizeT_of_nonneg hguard.1 (by omega)]
    omega
  have hnext : sizeT (b.size + 1) = b.size + 1 := by
    exact_mod_cast sizeT_natCast (by omega : b.size + 1 < 2 ^ 64)
  have hcount : sizeT (e * (b.size + 1 : Nat)) = e * (b.size + 1) := by
    exact_mod_cast sizeT_natCast hbytes
  have hnum : sizeT ((e * (b.size + 1) : Nat) - 1 - i) = e * (b.size + 1) - 1 - i.toNat := by
    rw [sizeT_of_nonneg (by omega) (by omega)]
    omega
  have hdst : (i + 1).toNat = i.toNat + 1 := by omega
  simp only [adcVectorInsert, if_pos hin, hb, Option.map_some, hnext, hcount, hnum, hdst,
    openGap]

/-- An erase at an index in bounds and of a count that is not negative. -/
theorem erasen_eq {b : Block} {i n : Int} (he : 1 ≤ e) (hi : i < 2 ^ 31) (hn : n < 2 ^ 31)
    (hguard : 0 ≤ i ∧ i < b.size ∧ 0 ≤ n) {m : Nat}
    (hm : m = min n.toNat (b.size - i.toNat)) (hbytes : e * b.size < 2 ^ 64) :
    adcVectorErasen e i n (some b) =
      (some ⟨b.size - m, b.capacity,
          move (e * i.toNat) (e * (i.toNat + m)) (e * b.size - m - i.toNat) b.data⟩,
        [.memmove (e * i.toNat) (e * (i.toNat + m)) (e * b.size - m - i.toNat)]) := by
  have hle := le_bytes he b.size
  have hguard' : 0 ≤ i ∧ sizeT i < b.size ∧ 0 ≤ n :=
    have h := (guard_iff hi).mpr ⟨hguard.1, hguard.2.1⟩
    ⟨h.1, h.2, hguard.2.2⟩
  have hmax : (if sizeT (i + n) ≥ b.size then intOfSize (sizeT (b.size - i)) else n) = m := by
    rw [sizeT_of_nonneg (x := i + n) (by omega) (by omega),
      sizeT_of_nonneg (x := b.size - i) (by omega) (by omega)]
    split
    · rw [intOfSize_of_lt (by omega)]
      omega
    · omega
  have hcount : sizeT (e * b.size) = e * b.size := by
    exact_mod_cast sizeT_natCast hbytes
  have hnum : sizeT ((e * b.size : Nat) - m - i) = e * b.size - m - i.toNat := by
    rw [sizeT_of_nonneg (by omega) (by omega)]
    omega
  have hsrc : (i + m).toNat = i.toNat + m := by omega
  have hleft : sizeT (b.size - m) = b.size - m := by
    rw [sizeT_of_nonneg (by omega) (by omega)]
    omega
  simp only [adcVectorErasen, if_pos hguard', hmax, hcount, hnum, hsrc, hleft]

/-- Out of bounds, nothing is inserted. -/
theorem insert_eq_self (fresh : Nat → Byte) {vec : Vec} {i : Int} (item : Elem e)
    (hi : i < 2 ^ 31) (hguard : ¬ (0 ≤ i ∧ i < adcVectorSize vec)) :
    adcVectorInsert fresh i (fun _ => item) vec = some (vec, []) := by
  cases vec with
  | none => rfl
  | some b => exact if_neg (mt (guard_iff hi).mp hguard)

/-- Out of bounds or with a negative count, nothing is erased. -/
theorem erasen_eq_self {vec : Vec} {i n : Int} (hi : i < 2 ^ 31)
    (hguard : ¬ (0 ≤ i ∧ i < adcVectorSize vec ∧ 0 ≤ n)) :
    adcVectorErasen e i n vec = (vec, []) := by
  cases vec with
  | none => rfl
  | some b =>
      refine if_neg fun h => hguard ?_
      have h' := (guard_iff hi).mp ⟨h.1, h.2.1⟩
      exact ⟨h'.1, h'.2, h.2.2⟩

/-! ## Runs -/

/-- An event records the operation and the vector it is executed on. -/
theorem exec_records {fresh : Nat → Byte} {vec : Vec} {op : VecOp e} {ev : VecEvent e}
    (hev : op.exec fresh vec = some ev) : ev.op = op ∧ ev.before = vec := by
  cases op with
  | push item =>
      obtain ⟨r, -, rfl⟩ := Option.map_eq_some_iff.mp hev
      exact ⟨rfl, rfl⟩
  | pop =>
      obtain ⟨b, rfl, hpop⟩ := Option.bind_eq_some_iff.mp hev
      split at hpop
      · exact absurd hpop (by simp)
      · rw [Option.some_inj] at hpop
        subst hpop
        exact ⟨rfl, rfl⟩
  | insert i item =>
      obtain ⟨r, -, rfl⟩ := Option.map_eq_some_iff.mp hev
      exact ⟨rfl, rfl⟩
  | reserve n | erasen i n | free =>
      rw [VecOp.exec, Option.some_inj] at hev
      subst hev
      exact ⟨rfl, rfl⟩

/-- A step of a run: the operation of the event is executed. -/
def Executes (vec : Vec) (ev : VecEvent e) (vec' : Vec) : Prop :=
  ev.before = vec ∧ ev.after = vec' ∧ ∃ fresh, ev.op.exec fresh vec = some ev

theorem trace_run (ops : List (VecOp e × (Nat → Byte))) {vec vec' : Vec}
    {evs : List (VecEvent e)} (hrun : trace ops vec = some (evs, vec')) :
    Run Executes vec evs vec' := by
  induction ops generalizing vec evs with
  | nil =>
      obtain ⟨rfl, rfl⟩ : [] = evs ∧ vec = vec' := by simpa [trace] using hrun
      exact .nil vec
  | cons op ops ih =>
      obtain ⟨op, fresh⟩ := op
      obtain ⟨ev, hev, hrest⟩ := Option.bind_eq_some_iff.mp hrun
      obtain ⟨⟨evs₁, vec₁⟩, htail, heq⟩ := Option.map_eq_some_iff.mp hrest
      obtain ⟨rfl, rfl⟩ : ev :: evs₁ = evs ∧ vec₁ = vec' := by simpa using heq
      obtain ⟨rfl, rfl⟩ := exec_records hev
      exact .cons ⟨rfl, rfl, fresh, hev⟩ (ih htail)

end AdcVector
end AdcLibs
