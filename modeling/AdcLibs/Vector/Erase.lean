import AdcLibs.Vector.Macros

/-!
# Erasing one element

`adc_vector_erase(vec, i)` is `adc_vector_erasen(vec, i, 0)`: no element is within its
count, so that the bytes from element `i` on are moved to where they are and the size
stays.  It is documented to delete the element.
-/

namespace AdcLibs
namespace AdcVector

open ElementArea

variable {e : Nat}

/-- `vec'` is `vec` without its element `i`. -/
structure Erased (e : Nat) (vec : Vec) (i : Nat) (vec' : Vec) : Prop where
  elems_eq : (elems vec' : List (Elem e)) = (elems vec).eraseIdx i
  size_eq : adcVectorSize vec' = adcVectorSize vec - 1
  capacity_eq : adcVectorCapacity vec' = adcVectorCapacity vec

/-- An insert at `i` and then an erase at `i` give the contents back. -/
def UndoesInsert (fresh : Nat → Byte) (i : Int) (item : Block → Elem e) (vec : Vec) : Prop :=
  ∃ r, adcVectorInsert fresh i item vec = some r ∧
    (elems (adcVectorErase e i r.1).1 : List (Elem e)) = elems vec ∧
    adcVectorSize (adcVectorErase e i r.1).1 = adcVectorSize vec

/-- An erase leaves the header and the bytes of every block, at every index. -/
theorem erase_block (b : Block) (i : Int) :
    (adcVectorErase e i (some b)).1 = some b ∨
      (adcVectorErase e i (some b)).1 = some { b with size := sizeT b.size } := by
  rw [adcVectorErase, adcVectorErasen]
  split
  · next hguard =>
      have hmax : ¬ sizeT i ≥ b.size := Nat.not_le_of_lt hguard.2.1
      right
      simp only [Int.add_zero, Int.sub_zero, if_neg hmax, move_self]
  · exact .inl rfl

/-- A vector whose size is a `size_t` stays. -/
theorem erase_eq_self {vec : Vec} (hsize : adcVectorSize vec < 2 ^ 64) (i : Int) :
    (adcVectorErase e i vec).1 = vec := by
  cases vec with
  | none => rfl
  | some b =>
      rcases erase_block (e := e) b i with hb | hb
      · exact hb
      · have hword : sizeT b.size = b.size := sizeT_natCast hsize
        rw [hb, hword]

/-- Growth keeps a block and its size. -/
theorem addgrow_some (fresh : Nat → Byte) (b : Block) :
    ∃ b', (adcVectorAddgrow fresh e (some b) 1).1 = some b' ∧ b'.size = b.size := by
  rw [adcVectorAddgrow]
  split
  · rcases grow_cases (e := e) fresh (some b) 1 0 rfl with ⟨-, hgrow⟩ | ⟨-, hgrow⟩
    · exact ⟨b, congrArg Prod.fst hgrow, rfl⟩
    · exact ⟨_, congrArg Prod.fst hgrow, rfl⟩
  · exact ⟨b, rfl, rfl⟩

theorem sizeT_add_one_ne (n : Nat) : sizeT (n + 1) ≠ n := by
  rw [sizeT]
  omega

/-- The size after an insert at an index in bounds. -/
theorem insert_size (fresh : Nat → Byte) {b : Block} {i : Int} (item : Block → Elem e)
    (hi : 0 ≤ i) (hlt : i < b.size) :
    ∃ r, adcVectorInsert fresh i item (some b) = some r ∧
      adcVectorSize r.1 = sizeT (b.size + 1) := by
  obtain ⟨b', hb', hsize⟩ := addgrow_some (e := e) fresh b
  have hguard : 0 ≤ i ∧ sizeT i < b.size := by
    rw [sizeT]
    omega
  simp only [adcVectorInsert, if_pos hguard, hb', Option.map_some]
  refine ⟨_, rfl, ?_⟩
  change sizeT (b'.size + 1) = sizeT (b.size + 1)
  rw [hsize]

/--
At no index in bounds does an erase delete the element, and after no insert does it
give the contents back.
-/
theorem erase_never_erases (b : Block) (i : Int) (hi : 0 ≤ i) (hlt : i < b.size) :
    ¬ Erased e (some b) i.toNat (adcVectorErase e i (some b)).1 ∧
      ∀ fresh (item : Block → Elem e), ¬ UndoesInsert fresh i item (some b) := by
  constructor
  · intro herased
    have hsize : adcVectorSize (adcVectorErase e i (some b)).1 = b.size - 1 := herased.size_eq
    rcases erase_block (e := e) b i with hb | hb
    · rw [hb] at hsize
      change b.size = b.size - 1 at hsize
      omega
    · rw [hb] at hsize
      change sizeT b.size = b.size - 1 at hsize
      rw [sizeT] at hsize
      omega
  · rintro fresh item ⟨r, hr, -, hsize⟩
    obtain ⟨r', hr', hsize'⟩ := insert_size fresh item hi hlt
    obtain rfl := Option.some.inj (hr.symm.trans hr')
    rw [erase_eq_self (by rw [hsize']; exact sizeT_lt _), hsize'] at hsize
    exact sizeT_add_one_ne b.size hsize

/-- Three elements of two bytes, 0x0100, 0x0302 and 0x0504. -/
def threeElements : Block := ⟨3, 4, fun a => BitVec.ofNat 8 a⟩

/-- The middle one is not erased, and the size after an insert before it stays 4. -/
theorem erase_never_erases_middle :
    ¬ Erased 2 (some threeElements) 1 (adcVectorErase 2 1 (some threeElements)).1 ∧
      ¬ UndoesInsert (fun _ => 0) 1 (fun _ => #v[7, 8]) (some threeElements) ∧
      (adcVectorInsert (fun _ => 0) 1 (fun _ => (#v[7, 8] : Elem 2)) (some threeElements)).map
        (fun r => adcVectorSize (adcVectorErase 2 1 r.1).1) = some 4 := by
  obtain ⟨herase, hinsert⟩ :=
    erase_never_erases (e := 2) threeElements 1 (by decide) (by decide)
  exact ⟨herase, hinsert _ _, rfl⟩

/-- One element of four bytes. -/
def oneElement : Block := ⟨1, 4, fun _ => 7⟩

/-- The only element of a vector is erased and still there. -/
theorem erase_keeps_element :
    ¬ ∀ (e : Nat) (b : Block) (i : Int), b.size ≤ b.capacity → 0 ≤ i → i < b.size →
      Erased e (some b) i.toNat (adcVectorErase e i (some b)).1 := by
  intro hall
  have hsize := (hall 4 oneElement 0 (by decide) (by decide) (by decide)).size_eq
  have hkept : adcVectorSize (adcVectorErase 4 0 (some oneElement)).1 = 1 := by decide
  rw [hkept] at hsize
  exact absurd hsize (by decide)

end AdcVector
end AdcLibs
