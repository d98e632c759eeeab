import AdcLibs.Vector.Macros

/-!
# The moves and the block

The data area of a block has `e * capacity` bytes.  The counts of the moves in an
insert and in an erase are computed without the parentheses of the number of
elements, so that for `e > 1` they exceed the elements to move; a move stays inside
the block exactly when there is enough spare capacity behind the elements.
-/

namespace AdcLibs
namespace AdcVector

open ElementArea

variable {e : Nat}

/-- The capacity of a block of capacity `cap` that is asked for `need` elements. -/
def grownCapacity (need cap : Nat) : Nat :=
  if need ≤ cap then cap
  else if need < 2 * cap then 2 * cap
  else if need < 4 then 4
  else need

theorem le_grownCapacity (need cap : Nat) : need ≤ grownCapacity need cap := by
  rw [grownCapacity]
  split
  · assumption
  · exact le_chosen need (2 * cap)

/-- The block of `capacity` elements is counted by a `size_t`. -/
def Allocatable (e capacity : Nat) : Prop := e * capacity + sizeofHeader < 2 ^ 64

theorem Allocatable.capacity_lt {capacity : Nat} (h : Allocatable e capacity) (he : 1 ≤ e) :
    capacity < 2 ^ 64 := by
  have hle := le_bytes he capacity
  rw [Allocatable, sizeofHeader] at h
  omega

theorem Allocatable.mono {c c' : Nat} (h : Allocatable e c') (hle : c ≤ c') :
    Allocatable e c := by
  have hmul := Nat.mul_le_mul_left e hle
  rw [Allocatable] at h ⊢
  omega

/-! ## The ranges of the moves -/

/-- The byte ranges of a call lie in a data area of `area` bytes. -/
def LibCall.Within (area : Nat) : LibCall → Prop
  | .memmove dst src num => dst + num ≤ area ∧ src + num ≤ area
  | _ => True

/-- The moves of an event lie in the data area of its block. -/
def VecEvent.Within (ev : VecEvent e) : Prop :=
  ∀ c ∈ ev.calls, c.Within (e * adcVectorCapacity ev.after)

/-- Sizes are small enough for the operation: no `size_t` arithmetic wraps, and the
index and the count are of type `int`. -/
def VecOp.Fits : VecOp e → Vec → Prop
  | .push _, vec =>
      Allocatable e (grownCapacity (adcVectorSize vec + 1) (adcVectorCapacity vec))
  | .reserve n, vec =>
      Allocatable e (grownCapacity (max (adcVectorSize vec) n) (adcVectorCapacity vec))
  | .insert i _, vec =>
      i < 2 ^ 31 ∧ (0 ≤ i ∧ i < adcVectorSize vec →
        Allocatable e (grownCapacity (adcVectorSize vec + 1) (adcVectorCapacity vec)))
  | .erasen i n, _ => i < 2 ^ 31 ∧ n < 2 ^ 31
  | _, _ => True

/-- The capacity behind the elements takes the bytes that are moved in excess:
`e - 1` for each element up to the end of the gap. -/
def VecOp.Spare : VecOp e → Vec → Prop
  | .insert i _, vec =>
      let size := adcVectorSize vec
      0 ≤ i ∧ i < size →
        (e - 1) * (i.toNat + 1) ≤
          e * (grownCapacity (size + 1) (adcVectorCapacity vec) - (size + 1))
  | .erasen i n, vec =>
      let size := adcVectorSize vec
      0 ≤ i ∧ i < size ∧ 0 ≤ n →
        (e - 1) * (i.toNat + min n.toNat (size - i.toNat)) ≤
          e * (adcVectorCapacity vec - size)
  | _, _ => True

/-- A move of `total - k` bytes to or from element `k` ends inside the area exactly
when `e - 1` bytes for each of the `k` elements are spare. -/
theorem end_le_iff {k size cap : Nat} (he : 1 ≤ e) (hk : k ≤ size) (hcap : size ≤ cap) :
    e * k + (e * size - k) ≤ e * cap ↔ (e - 1) * k ≤ e * (cap - size) := by
  obtain ⟨d, rfl⟩ := Nat.exists_eq_add_of_le he
  obtain ⟨t, rfl⟩ := Nat.exists_eq_add_of_le hcap
  have hle := le_bytes he size
  rw [Nat.add_sub_cancel_left, Nat.add_sub_cancel_left, Nat.mul_add _ size t,
    Nat.add_mul 1 d k, Nat.one_mul]
  omega

/-! ## Growth -/

/-- No call of a growth is a move. -/
theorem within_realloc {calls : List LibCall}
    (h : calls = [] ∨ ∃ newsize, calls = [.realloc newsize]) (area : Nat) :
    ∀ c ∈ calls, c.Within area := by
  rcases h with rfl | ⟨newsize, rfl⟩
  · exact fun c hc => absurd hc (List.not_mem_nil)
  · intro c hc
    rw [List.mem_singleton.mp hc]
    exact True.intro

/-- After a growth, the calls lie in the area when the move does. -/
theorem within_move_iff {calls : List LibCall}
    (h : calls = [] ∨ ∃ newsize, calls = [.realloc newsize]) {area dst src num : Nat} :
    (∀ c ∈ calls ++ [.memmove dst src num], c.Within area) ↔
      dst + num ≤ area ∧ src + num ≤ area := by
  rw [List.forall_mem_append, List.forall_mem_singleton]
  exact and_iff_right (within_realloc h area)

/-- `r` is `vec` with the capacity grown for `need` elements, by a reallocation if the
capacity was less. -/
structure GrowsTo (vec : Vec) (need : Nat) (r : Vec × List LibCall) : Prop where
  capacity_eq : adcVectorCapacity r.1 = grownCapacity need (adcVectorCapacity vec)
  calls : need ≤ adcVectorCapacity vec ∧ r.2 = [] ∨
    adcVectorCapacity vec < need ∧ ∃ newsize, r.2 = [.realloc newsize]

theorem GrowsTo.calls_cases {vec : Vec} {need : Nat} {r : Vec × List LibCall}
    (h : GrowsTo vec need r) : r.2 = [] ∨ ∃ newsize, r.2 = [.realloc newsize] :=
  h.calls.imp And.right And.right

theorem grownCapacity_of_le {need capacity : Nat} (h : need ≤ capacity) :
    grownCapacity need capacity = capacity := if_pos h

/-- `adc__vector_grow` reaches the capacity `grownCapacity`. -/
theorem grow_capacity (fresh : Nat → Byte) {vec : Vec} (addsize minCap : Nat) {need : Nat}
    (he : 1 ≤ e) (hneed : need = max (adcVectorSize vec + addsize) minCap)
    (hfit : Allocatable e (grownCapacity need (adcVectorCapacity vec))) :
    GrowsTo vec need (adcVectorGrow fresh vec e addsize minCap) := by
  have hlt := hfit.capacity_lt he
  have hle := le_grownCapacity need (adcVectorCapacity vec)
  have hmin : sizeT (adcVectorSize vec + addsize) = adcVectorSize vec + addsize := by
    exact_mod_cast sizeT_natCast (by omega : adcVectorSize vec + addsize < 2 ^ 64)
  rw [← hmin] at hneed
  rcases grow_cases (e := e) fresh vec addsize minCap hneed with ⟨hcap, hgrow⟩ | ⟨hcap, hgrow⟩
  · rw [hgrow]
    exact ⟨(grownCapacity_of_le hcap).symm, .inl ⟨hcap, rfl⟩⟩
  · have hdouble : sizeT (2 * adcVectorCapacity vec) = 2 * adcVectorCapacity vec := by
      have hlt2 : 2 * adcVectorCapacity vec < 2 ^ 64 := by
        rw [grownCapacity, if_neg (Nat.not_le_of_lt hcap)] at hlt
        by_cases hneed2 : need < 2 * adcVectorCapacity vec
        · rwa [if_pos hneed2] at hlt
        · rw [grownCapacity, if_neg (Nat.not_le_of_lt hcap), if_neg hneed2] at hle
          split at hlt <;> omega
      exact_mod_cast sizeT_natCast hlt2
    rw [hgrow]
    refine ⟨?_, .inr ⟨hcap, _, rfl⟩⟩
    change chosenCapacity need (adcVectorCapacity vec) = _
    rw [chosenCapacity, hdouble, grownCapacity, if_neg (Nat.not_le_of_lt hcap)]

theorem addgrow_capacity (fresh : Nat → Byte) {vec : Vec} (he : 1 ≤ e)
    (hfit : Allocatable e (grownCapacity (adcVectorSize vec + 1) (adcVectorCapacity vec))) :
    GrowsTo vec (adcVectorSize vec + 1) (adcVectorAddgrow fresh e vec 1) := by
  have hgrow := grow_capacity fresh 1 0 he (Nat.max_zero _).symm hfit
  cases vec with
  | none => exact hgrow
  | some b =>
      simp only [adcVectorAddgrow]
      split
      · exact hgrow
      · next hle =>
          have hlt := hfit.capacity_lt he
          have hroom := le_grownCapacity (b.size + 1) b.capacity
          have hnext : sizeT (b.size + 1) = b.size + 1 := by
            exact_mod_cast sizeT_natCast (Nat.lt_of_le_of_lt hroom hlt)
          have hcap : b.size + 1 ≤ b.capacity := by
            change ¬ sizeT (b.size + 1) > b.capacity at hle
            omega
          exact ⟨(grownCapacity_of_le hcap).symm, .inl ⟨hcap, rfl⟩⟩

/-! ## Runs -/

/-- The state of a vector whose sizes do not wrap. -/
structure Bounded (e : Nat) (vec : Vec) : Prop where
  inv : SizeInv vec
  allocatable : Allocatable e (adcVectorCapacity vec)

theorem bounded_null : Bounded e none :=
  ⟨Nat.le_refl 0, show 16 < 2 ^ 64 by decide⟩

/-- What an event preserves, and when its moves stay in the block. -/
structure EventSpec (ev : VecEvent e) : Prop where
  bounded : Bounded e ev.after
  within_iff : ev.Within ↔ ev.op.Spare ev.before

section Ops

variable (fresh : Nat → Byte) {vec : Vec} {ev : VecEvent e}

theorem push_spec (item : Elem e) (he : 1 ≤ e) (h : Bounded e vec)
    (hfit : (VecOp.push item).Fits vec) (hev : (VecOp.push item).exec fresh vec = some ev) :
    EventSpec ev := by
  have hgrows := addgrow_capacity fresh he hfit
  have hcap := hgrows.capacity_eq
  have hcalls := hgrows.calls_cases
  have hlt := Allocatable.capacity_lt hfit he
  have hroom := le_grownCapacity (adcVectorSize vec + 1) (adcVectorCapacity vec)
  obtain ⟨b, hb, hgrown⟩ := addgrow_grown (e := e) fresh h.inv (by omega)
  have hbsize : b.size = adcVectorSize vec := hgrown.size_eq
  have hnext : sizeT (b.size + 1) = b.size + 1 := by
    exact_mod_cast sizeT_natCast (by omega : b.size + 1 < 2 ^ 64)
  rw [hb] at hcap
  change b.capacity = _ at hcap
  rw [VecOp.exec, adcVectorPush, hb, Option.map_some, Option.map_some, Option.some_inj] at hev
  subst hev
  refine ⟨⟨?_, ?_⟩, iff_of_true (within_realloc hcalls _) True.intro⟩
  · change sizeT (b.size + 1) ≤ b.capacity
    omega
  · change Allocatable e b.capacity
    rw [hcap]
    exact hfit

theorem reserve_spec (n : Nat) (he : 1 ≤ e) (h : Bounded e vec)
    (hfit : (VecOp.reserve n : VecOp e).Fits vec)
    (hev : (VecOp.reserve n).exec fresh vec = some ev) : EventSpec ev := by
  have hgrows := grow_capacity fresh 0 n he rfl hfit
  have hcap := hgrows.capacity_eq
  have hcalls := hgrows.calls_cases
  have hlt := Allocatable.capacity_lt hfit he
  have hroom := le_grownCapacity (max (adcVectorSize vec) n) (adcVectorCapacity vec)
  have hgrown := grow_grown (e := e) fresh 0 n h.inv (by omega)
  rw [VecOp.exec, Option.some_inj] at hev
  subst hev
  refine ⟨⟨?_, ?_⟩, iff_of_true (within_realloc hcalls _) True.intro⟩
  · have hroom := hgrown.room
    rw [Nat.add_zero, ← hgrown.size_eq] at hroom
    exact hroom
  · rw [adcVectorReserve, hcap]
    exact hfit

theorem insert_spec (i : Int) (item : Elem e) (he : 1 ≤ e) (h : Bounded e vec)
    (hfit : (VecOp.insert i item).Fits vec)
    (hev : (VecOp.insert i item).exec fresh vec = some ev) : EventSpec ev := by
  obtain ⟨hi, hfit⟩ := hfit
  by_cases hguard : 0 ≤ i ∧ i < adcVectorSize vec
  · replace hfit := hfit hguard
    cases vec with
    | none => exact absurd hguard.2 (by simp only [adcVectorSize]; omega)
    | some b₀ =>
        have hgrows := addgrow_capacity fresh he hfit
        have hcap := hgrows.capacity_eq
        have hcalls := hgrows.calls_cases
        have hlt := Allocatable.capacity_lt hfit he
        have hroom := le_grownCapacity (b₀.size + 1) b₀.capacity
        obtain ⟨b, hb, hgrown⟩ := addgrow_grown (e := e) fresh h.inv
          (Nat.lt_of_le_of_lt hroom hlt)
        have hbsize : b.size = b₀.size := hgrown.size_eq
        rw [hb] at hcap
        change b.capacity = grownCapacity (b₀.size + 1) b₀.capacity at hcap
        change 0 ≤ i ∧ i < b₀.size at hguard
        have hbytes : e * (b.size + 1) < 2 ^ 64 := by
          have hmono := Allocatable.mono hfit hroom
          rw [Allocatable, sizeofHeader, ← hbsize] at hmono
          omega
        rw [VecOp.exec, insert_eq fresh _ he hguard hb hbsize hbytes, Option.map_some,
          Option.some_inj] at hev
        subst hev
        refine ⟨⟨?_, ?_⟩, ?_⟩
        · change b.size + 1 ≤ b.capacity
          omega
        · change Allocatable e b.capacity
          rw [hcap]
          exact hfit
        · have hend := end_le_iff (e := e) he (by omega : i.toNat + 1 ≤ b.size + 1)
            (by omega : b.size + 1 ≤ b.capacity)
          have hmul := Nat.mul_le_mul_left e (Nat.le_add_right i.toNat 1)
          have hnum : e * (b.size + 1) - 1 - i.toNat = e * (b.size + 1) - (i.toNat + 1) := by
            omega
          refine (within_move_iff hcalls).trans ?_
          change _ ↔ (0 ≤ i ∧ i < b₀.size → (e - 1) * (i.toNat + 1) ≤
            e * (grownCapacity (b₀.size + 1) b₀.capacity - (b₀.size + 1)))
          rw [← hcap, ← hbsize, hnum]
          rw [← hbsize] at hguard
          refine ⟨fun hin _ => hend.mp hin.1, fun hin => ?_⟩
          have hdst := hend.mpr (hin hguard)
          change _ ≤ e * b.capacity ∧ _ ≤ e * b.capacity
          omega
  · rw [VecOp.exec, insert_eq_self fresh item hi hguard, Option.map_some,
      Option.some_inj] at hev
    subst hev
    exact ⟨h, iff_of_true (within_realloc (.inl rfl) _) fun hg => absurd hg hguard⟩

theorem erasen_spec (i n : Int) (he : 1 ≤ e) (h : Bounded e vec)
    (hfit : (VecOp.erasen i n : VecOp e).Fits vec)
    (hev : (VecOp.erasen i n).exec fresh vec = some ev) : EventSpec ev := by
  obtain ⟨hi, hn⟩ := hfit
  rw [VecOp.exec, Option.some_inj] at hev
  subst hev
  by_cases hguard : 0 ≤ i ∧ i < adcVectorSize vec ∧ 0 ≤ n
  · cases vec with
    | none => exact absurd hguard.2.1 (by simp only [adcVectorSize]; omega)
    | some b =>
        change 0 ≤ i ∧ i < b.size ∧ 0 ≤ n at hguard
        have hinv : b.size ≤ b.capacity := h.inv
        have hbytes : e * b.size < 2 ^ 64 := by
          have hmono := h.allocatable.mono hinv
          rw [Allocatable] at hmono
          omega
        obtain ⟨m, hm⟩ : ∃ m, m = min n.toNat (b.size - i.toNat) := ⟨_, rfl⟩
        have hcall := erasen_eq he hi hn hguard hm hbytes
        refine ⟨⟨?_, ?_⟩, ?_⟩
        · rw [hcall]
          change b.size - m ≤ b.capacity
          omega
        · rw [hcall]
          exact h.allocatable
        · have hend := end_le_iff (e := e) he (by omega : i.toNat + m ≤ b.size) hinv
          have hmul := Nat.mul_le_mul_left e (Nat.le_add_right i.toNat m)
          have hnum : e * b.size - m - i.toNat = e * b.size - (i.toNat + m) := by omega
          rw [hnum] at hcall
          rw [VecEvent.Within, hcall]
          refine (within_move_iff (.inl (rfl : ([] : List LibCall) = []))).trans ?_
          change _ ↔ (0 ≤ i ∧ i < b.size ∧ 0 ≤ n →
            (e - 1) * (i.toNat + min n.toNat (b.size - i.toNat)) ≤ e * (b.capacity - b.size))
          rw [← hm]
          refine ⟨fun hin _ => hend.mp hin.2, fun hin => ?_⟩
          have hsrc := hend.mpr (hin hguard)
          change _ ≤ e * b.capacity ∧ _ ≤ e * b.capacity
          omega
  · have hcall := erasen_eq_self (e := e) hi hguard
    refine ⟨?_, iff_of_true ?_ fun hg => absurd hg hguard⟩
    · rw [hcall]
      exact h
    · rw [VecEvent.Within, hcall]
      exact within_realloc (.inl rfl) _

theorem pop_spec (h : Bounded e vec) (hev : (VecOp.pop : VecOp e).exec fresh vec = some ev) :
    EventSpec ev := by
  obtain ⟨b, rfl, hpop⟩ := Option.bind_eq_some_iff.mp hev
  split at hpop
  · exact absurd hpop (by simp)
  · next hne =>
      rw [Option.some_inj] at hpop
      subst hpop
      have hinv : b.size ≤ b.capacity := h.inv
      refine ⟨⟨?_, h.allocatable⟩, iff_of_true (within_realloc (.inl rfl) _) True.intro⟩
      change sizeT (b.size - 1) ≤ b.capacity
      rw [sizeT]
      omega

theorem free_spec (hev : (VecOp.free : VecOp e).exec fresh vec = some ev) :
    EventSpec ev := by
  rw [VecOp.exec, Option.some_inj] at hev
  subst hev
  cases vec with
  | none =>
      exact ⟨bounded_null, iff_of_true (within_realloc (.inl rfl) _) True.intro⟩
  | some b =>
      refine ⟨bounded_null, iff_of_true ?_ True.intro⟩
      intro c hc
      rw [List.mem_singleton.mp hc]
      exact True.intro

end Ops

theorem exec_spec (fresh : Nat → Byte) {vec : Vec} {op : VecOp e} {ev : VecEvent e}
    (he : 1 ≤ e) (h : Bounded e vec) (hfit : op.Fits vec)
    (hev : op.exec fresh vec = some ev) : EventSpec ev := by
  cases op with
  | push item => exact push_spec fresh item he h hfit hev
  | pop => exact pop_spec fresh h hev
  | reserve n => exact reserve_spec fresh n he h hfit hev
  | insert i item => exact insert_spec fresh i item he h hfit hev
  | erasen i n => exact erasen_spec fresh i n he h hfit hev
  | free => exact free_spec fresh hev

end AdcVector
end AdcLibs
