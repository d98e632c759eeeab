import AdcLibs.Library.Doubling
import AdcLibs.Vector.Safety

/-!
# The capacity

What an operation needs decides what becomes of the capacity: it stays, or one
reallocation at least doubles it.  Pops, erasures and odd reserves break the pattern
of the powers of two; a run of pushes follows it.
-/

namespace AdcLibs
namespace AdcVector

open Doubling

variable {e : Nat}

/-! ## Growing -/

theorem capacity_le_grown (need capacity : Nat) : capacity ≤ grownCapacity need capacity := by
  rw [grownCapacity]
  split
  · exact Nat.le_refl _
  · split
    · omega
    · split <;> omega

/-- A capacity that is exceeded at least doubles. -/
theorem double_le_grown {need capacity : Nat} (h : capacity < need) :
    2 * capacity ≤ grownCapacity need capacity := by
  rw [grownCapacity, if_neg (Nat.not_le_of_lt h)]
  split
  · exact Nat.le_refl _
  · split <;> omega

/-- No capacity is allocated, or at least 4. -/
def NullOrFour (capacity : Nat) : Prop := capacity = 0 ∨ 4 ≤ capacity

theorem nullOrFour_grown {need capacity : Nat} (h : NullOrFour capacity) :
    NullOrFour (grownCapacity need capacity) := by
  rw [NullOrFour] at h ⊢
  rw [grownCapacity]
  split
  · exact h
  · split
    · omega
    · split <;> omega

/-! ## What an operation needs -/

/-- The number of elements that an operation needs room for. -/
def VecOp.need : VecOp e → Vec → Nat
  | .push _, vec => adcVectorSize vec + 1
  | .reserve n, vec => max (adcVectorSize vec) n
  | .insert i _, vec =>
      if 0 ≤ i ∧ i < adcVectorSize vec then adcVectorSize vec + 1 else 0
  | _, _ => 0

def VecOp.isFree : VecOp e → Bool
  | .free => true
  | _ => false

def LibCall.isRealloc : LibCall → Bool
  | .realloc _ => true
  | _ => false

/-- The number of reallocations in an event. -/
def VecEvent.reallocs (ev : VecEvent e) : Nat := ev.calls.countP LibCall.isRealloc

/-- The capacity after an event, and whether it reallocates. -/
structure Growth (ev : VecEvent e) : Prop where
  capacity_eq : adcVectorCapacity ev.after =
    grownCapacity (ev.op.need ev.before) (adcVectorCapacity ev.before)
  reallocs_eq : ev.reallocs =
    if adcVectorCapacity ev.before < ev.op.need ev.before then 1 else 0

/-- The calls of a growth, with moves behind them. -/
theorem GrowsTo.reallocs_eq {vec : Vec} {need : Nat} {r : Vec × List LibCall}
    (h : GrowsTo vec need r) {moves : List LibCall}
    (hmoves : moves.countP LibCall.isRealloc = 0) :
    (r.2 ++ moves).countP LibCall.isRealloc =
      if adcVectorCapacity vec < need then 1 else 0 := by
  rw [List.countP_append, hmoves]
  rcases h.calls with ⟨hle, hcalls⟩ | ⟨hlt, newsize, hcalls⟩
  · rw [hcalls, if_neg (Nat.not_lt_of_le hle)]
    rfl
  · rw [hcalls, if_pos hlt]
    rfl

theorem GrowsTo.reallocs_eq_of_grow {vec : Vec} {need : Nat} {r : Vec × List LibCall}
    (h : GrowsTo vec need r) :
    r.2.countP LibCall.isRealloc = if adcVectorCapacity vec < need then 1 else 0 := by
  have hcalls := h.reallocs_eq (show ([] : List LibCall).countP LibCall.isRealloc = 0 from rfl)
  rwa [List.append_nil] at hcalls

/-- An operation that needs no room keeps the capacity. -/
theorem growth_of_kept {ev : VecEvent e} (hneed : ev.op.need ev.before = 0)
    (hcap : adcVectorCapacity ev.after = adcVectorCapacity ev.before)
    (hcalls : ev.reallocs = 0) : Growth ev := by
  refine ⟨?_, ?_⟩
  · rw [hneed, hcap, grownCapacity_of_le (Nat.zero_le _)]
  · rw [hneed, hcalls, if_neg (Nat.not_lt_zero _)]

/-- Every operation but a free. -/
theorem exec_growth (fresh : Nat → Byte) {vec : Vec} {op : VecOp e} {ev : VecEvent e}
    (he : 1 ≤ e) (hfree : op.isFree = false) (hfit : op.Fits vec)
    (hev : op.exec fresh vec = some ev) : Growth ev := by
  cases op with
  | push item =>
      have hgrows := addgrow_capacity fresh he hfit
      obtain ⟨r, hr, rfl⟩ := Option.map_eq_some_iff.mp hev
      obtain ⟨b, hb, rfl⟩ := Option.map_eq_some_iff.mp hr
      refine ⟨?_, ?_⟩
      · have hcap := hgrows.capacity_eq
        rw [hb] at hcap
        exact hcap
      · exact hgrows.reallocs_eq_of_grow
  | pop =>
      obtain ⟨b, rfl, hpop⟩ := Option.bind_eq_some_iff.mp hev
      split at hpop
      · exact absurd hpop (by simp)
      · obtain rfl := Option.some.inj hpop
        exact growth_of_kept rfl rfl rfl
  | reserve n =>
      have hgrows := grow_capacity fresh 0 n he rfl hfit
      obtain rfl := Option.some.inj hev
      exact ⟨hgrows.capacity_eq, hgrows.reallocs_eq_of_grow⟩
  | insert i item =>
      obtain ⟨hi, hfit⟩ := hfit
      obtain ⟨r, hr, rfl⟩ := Option.map_eq_some_iff.mp hev
      by_cases hguard : 0 ≤ i ∧ i < adcVectorSize vec
      · have hgrows := addgrow_capacity fresh he (hfit hguard)
        have hneed : (VecOp.insert i item).need vec = adcVectorSize vec + 1 := if_pos hguard
        cases vec with
        | none => exact absurd hguard.2 (by simp only [adcVectorSize]; omega)
        | some b =>
            have hin : 0 ≤ i ∧ sizeT i < b.size := (guard_iff hi).mpr hguard
            rw [adcVectorInsert, if_pos hin] at hr
            obtain ⟨b', hb', rfl⟩ := Option.map_eq_some_iff.mp hr
            refine ⟨?_, ?_⟩
            · have hcap := hgrows.capacity_eq
              rw [hb', ← hneed] at hcap
              exact hcap
            · rw [hneed]
              exact hgrows.reallocs_eq rfl
      · rw [insert_eq_self fresh item hi hguard] at hr
        obtain rfl := Option.some.inj hr
        exact growth_of_kept (if_neg hguard) rfl rfl
  | erasen i n =>
      obtain rfl := Option.some.inj hev
      cases vec with
      | none => exact growth_of_kept rfl rfl rfl
      | some b =>
          by_cases hguard : 0 ≤ i ∧ sizeT i < b.size ∧ 0 ≤ n
          · exact growth_of_kept rfl
              (by simp only [adcVectorErasen, if_pos hguard]; rfl)
              (by simp only [VecEvent.reallocs, adcVectorErasen, if_pos hguard]; rfl)
          · exact growth_of_kept rfl
              (by simp only [adcVectorErasen, if_neg hguard])
              (by simp only [VecEvent.reallocs, adcVectorErasen, if_neg hguard]; rfl)
  | free => exact absurd hfree (by simp [VecOp.isFree])

/-! ## Runs -/

/-- What an event does to the capacity. -/
structure Geometric (ev : VecEvent e) : Prop where
  size_le : adcVectorSize ev.after ≤ adcVectorCapacity ev.after
  nullOrFour : NullOrFour (adcVectorCapacity ev.after)
  capacity_le : adcVectorCapacity ev.before ≤ adcVectorCapacity ev.after
  reserve : ∀ n, ev.op = .reserve n → n ≤ adcVectorCapacity ev.after ∧
    (adcVectorCapacity ev.after ≠ adcVectorCapacity ev.before → adcVectorCapacity ev.before < n)
  doubles : ∀ b newsize, ev.before = some b → .realloc newsize ∈ ev.calls →
    2 * b.capacity ≤ adcVectorCapacity ev.after

/-- The header of a vector in a run. -/
structure Capacious (e : Nat) (vec : Vec) : Prop where
  bounded : Bounded e vec
  nullOrFour : NullOrFour (adcVectorCapacity vec)

theorem capacious_null : Capacious e none := ⟨bounded_null, .inl rfl⟩

theorem geometric_of_growth {ev : VecEvent e} (hbefore : SizeInv ev.before)
    (hfour : NullOrFour (adcVectorCapacity ev.before)) (hgrowth : Growth ev)
    (hafter : SizeInv ev.after) : Geometric ev := by
  have hcap := hgrowth.capacity_eq
  refine ⟨hafter, ?_, ?_, ?_, ?_⟩
  · rw [hcap]
    exact nullOrFour_grown hfour
  · rw [hcap]
    exact capacity_le_grown _ _
  · intro n hop
    have hneed : ev.op.need ev.before = max (adcVectorSize ev.before) n := by
      rw [hop]
      rfl
    rw [hneed] at hcap
    refine ⟨?_, fun hchanged => ?_⟩
    · have hroom := le_grownCapacity (max (adcVectorSize ev.before) n)
        (adcVectorCapacity ev.before)
      omega
    · by_contra hle
      rw [SizeInv] at hbefore
      rw [grownCapacity_of_le (by omega)] at hcap
      exact hchanged hcap
  · intro b newsize hb hmem
    have hcount := hgrowth.reallocs_eq
    have hpos : 0 < ev.reallocs := List.countP_pos_iff.mpr ⟨_, hmem, rfl⟩
    rw [hcap, hb]
    refine double_le_grown ?_
    by_contra hle
    rw [hb] at hcount
    change ev.reallocs = if b.capacity < _ then 1 else 0 at hcount
    rw [if_neg hle] at hcount
    omega

/-- Every operation but a free. -/
theorem exec_geometric (fresh : Nat → Byte) {vec : Vec} {op : VecOp e} {ev : VecEvent e}
    (he : 1 ≤ e) (h : Capacious e vec) (hfree : op.isFree = false) (hfit : op.Fits vec)
    (hev : op.exec fresh vec = some ev) : Capacious e ev.after ∧ Geometric ev := by
  have hspec := exec_spec fresh he h.bounded hfit hev
  have hgrowth := exec_growth fresh he hfree hfit hev
  obtain ⟨rfl, rfl⟩ := exec_records hev
  have hgeometric := geometric_of_growth h.bounded.inv h.nullOrFour hgrowth hspec.bounded.inv
  exact ⟨⟨hspec.bounded, hgeometric.nullOrFour⟩, hgeometric⟩

/-- Whole runs from `NULL`. -/
theorem trace_geometric (he : 1 ≤ e) {ops : List (VecOp e × (Nat → Byte))} {vec : Vec}
    {evs : List (VecEvent e)} (hrun : trace ops none = some (evs, vec))
    (hevs : ∀ ev ∈ evs, ev.op.isFree = false ∧ ev.op.Fits ev.before) :
    Capacious e vec ∧ ∀ ev ∈ evs, Geometric ev := by
  refine (trace_run ops hrun).invariant_and_events ?_ hevs capacious_null
  rintro s ev s' ⟨hfree, hfit⟩ hs ⟨rfl, rfl, fresh, hev⟩
  exact exec_geometric fresh he hs hfree hfit hev

/-! ## Pushes -/

/-- A vector of `k` pushed elements whose capacity has doubled `j` times. -/
structure Pushed (e : Nat) (vec : Vec) (k j : Nat) : Prop where
  bounded : Bounded e vec
  size_eq : adcVectorSize vec = k
  capacity_eq : adcVectorCapacity vec = 4 * 2 ^ j
  doubled : Doubled 4 k j

/-- The reallocations of a run. -/
def reallocs (evs : List (VecEvent e)) : Nat := (evs.map VecEvent.reallocs).sum

theorem push_exec (fresh : Nat → Byte) {vec : Vec} (item : Elem e) (h : SizeInv vec)
    (hsize : adcVectorSize vec + 1 < 2 ^ 64) :
    ∃ ev, (VecOp.push item).exec fresh vec = some ev ∧
      adcVectorSize ev.after = adcVectorSize vec + 1 := by
  obtain ⟨b, hb, hgrown⟩ := addgrow_grown (e := e) fresh h hsize
  have hbsize : b.size = adcVectorSize vec := hgrown.size_eq
  refine ⟨_, by rw [VecOp.exec, adcVectorPush, hb, Option.map_some, Option.map_some], ?_⟩
  change sizeT (b.size + 1) = _
  rw [hbsize]
  exact_mod_cast sizeT_natCast hsize

/-- The first push allocates four elements. -/
theorem push_first (fresh : Nat → Byte) (item : Elem e) (he : 1 ≤ e) (hfit : Allocatable e 4) :
    ∃ ev, (VecOp.push item).exec fresh none = some ev ∧ Pushed e ev.after 1 0 ∧
      ev.reallocs = 1 := by
  obtain ⟨ev, hev, hsize⟩ := push_exec fresh item (bounded_null (e := e)).inv (by decide)
  have hpush : (VecOp.push item).Fits none := hfit
  have hspec := exec_spec fresh he bounded_null hpush hev
  have hgrowth := exec_growth fresh he rfl hpush hev
  obtain ⟨hop, hbefore⟩ := exec_records hev
  have hcap := hgrowth.capacity_eq
  have hcount := hgrowth.reallocs_eq
  rw [hop, hbefore] at hcap hcount
  exact ⟨ev, hev, ⟨hspec.bounded, hsize, hcap, ⟨by decide, .inl rfl⟩⟩, hcount⟩

/-- A further push doubles the capacity of a full vector. -/
theorem push_next (fresh : Nat → Byte) {vec : Vec} {k j : Nat} (item : Elem e) (he : 1 ≤ e)
    (hk : 1 ≤ k) (h : Pushed e vec k j)
    (hfit : ∀ i, Doubled 4 (k + 1) i → Allocatable e (4 * 2 ^ i)) :
    ∃ ev j', (VecOp.push item).exec fresh vec = some ev ∧ Pushed e ev.after (k + 1) j' ∧
      j' = j + ev.reallocs := by
  have hroom := h.doubled.room
  obtain ⟨j', hgrown, hdoubled, hj'⟩ : ∃ j', grownCapacity (k + 1) (4 * 2 ^ j) = 4 * 2 ^ j' ∧
      Doubled 4 (k + 1) j' ∧ j' = j + if 4 * 2 ^ j < k + 1 then 1 else 0 := by
    by_cases hfull : 4 * 2 ^ j < k + 1
    · refine ⟨j + 1, ?_, h.doubled.double hk hfull, by rw [if_pos hfull]⟩
      rw [grownCapacity, if_neg (by omega), if_pos (by omega), Nat.pow_succ]
      omega
    · refine ⟨j, grownCapacity_of_le (by omega), h.doubled.stay (by omega), ?_⟩
      rw [if_neg hfull]
      omega
  have hneed : (VecOp.push item).need vec = k + 1 := congrArg (· + 1) h.size_eq
  have hop : (VecOp.push item).Fits vec := by
    rw [VecOp.Fits, h.size_eq, h.capacity_eq, hgrown]
    exact hfit j' hdoubled
  have hword : adcVectorSize vec + 1 < 2 ^ 64 := by
    have hlt := (hfit j' hdoubled).capacity_lt he
    have hroom' := hdoubled.room
    rw [h.size_eq]
    omega
  obtain ⟨ev, hev, hsize⟩ := push_exec fresh item h.bounded.inv hword
  have hspec := exec_spec fresh he h.bounded hop hev
  have hgrowth := exec_growth fresh he rfl hop hev
  obtain ⟨hopev, hbefore⟩ := exec_records hev
  have hcap := hgrowth.capacity_eq
  have hcount := hgrowth.reallocs_eq
  rw [hopev, hbefore, hneed, h.capacity_eq] at hcap hcount
  refine ⟨ev, j', hev, ⟨hspec.bounded, ?_, ?_, hdoubled⟩, ?_⟩
  · rw [hsize, h.size_eq]
  · rw [hcap, hgrown]
  · rw [hj', hcount]

/-- The run of a list of pushes, each with the bytes a reallocation finds. -/
def pushes (items : List (Elem e × (Nat → Byte))) : List (VecOp e × (Nat → Byte)) :=
  items.map fun x => (.push x.1, x.2)

theorem trace_pushes_cons {x : Elem e × (Nat → Byte)} {items : List (Elem e × (Nat → Byte))}
    {vec vec' : Vec} {ev : VecEvent e} {evs : List (VecEvent e)}
    (hev : (VecOp.push x.1).exec x.2 vec = some ev)
    (htrace : trace (pushes items) ev.after = some (evs, vec')) :
    trace (pushes (x :: items)) vec = some (ev :: evs, vec') := by
  rw [pushes] at htrace
  rw [pushes, List.map_cons, trace, hev, Option.bind_some, htrace, Option.map_some]

/-- A run of pushes behind the first one. -/
theorem pushes_run (he : 1 ≤ e) (items : List (Elem e × (Nat → Byte))) :
    ∀ {vec : Vec} {k j : Nat}, 1 ≤ k → Pushed e vec k j →
      (∀ k' i, k' ≤ k + items.length → Doubled 4 k' i → Allocatable e (4 * 2 ^ i)) →
      ∃ evs vec' j', trace (pushes items) vec = some (evs, vec') ∧
        Pushed e vec' (k + items.length) j' ∧ j' = j + reallocs evs := by
  induction items with
  | nil =>
      intro vec k j hk h hfit
      exact ⟨[], vec, j, rfl, h, rfl⟩
  | cons x items ih =>
      intro vec k j hk h hfit
      rw [List.length_cons] at hfit
      obtain ⟨ev, j₁, hev, hpushed, hj₁⟩ := push_next x.2 x.1 he hk h fun i hi =>
        hfit (k + 1) i (by omega) hi
      obtain ⟨evs, vec', j', htrace, hpushed', hj'⟩ := ih (by omega) hpushed
        fun k' i hk' hi => hfit k' i (by omega) hi
      refine ⟨ev :: evs, vec', j', trace_pushes_cons hev htrace, ?_, ?_⟩
      · rw [List.length_cons, Nat.add_comm items.length, ← Nat.add_assoc]
        exact hpushed'
      · rw [hj', hj₁, reallocs, reallocs, List.map_cons, List.sum_cons]
        omega

/-- From `NULL`, a run of pushes ends with the least power of two that has room, but at
least 4, and has reallocated once and at each doubling. -/
theorem pushes_capacity (he : 1 ≤ e) {items : List (Elem e × (Nat → Byte))} {p : Nat}
    (hne : items ≠ []) (hp : IsLeast {q | items.length ≤ q ∧ ∃ i, q = 2 ^ i} p)
    (hfit : Allocatable e (max 4 p)) :
    ∃ evs vec, trace (pushes items) none = some (evs, vec) ∧
      adcVectorCapacity vec = max 4 p ∧
      reallocs evs = 1 + Nat.log2 (adcVectorCapacity vec / 4) := by
  have hmax {j : Nat} (h : Doubled 4 items.length j) : 4 * 2 ^ j = max 4 p :=
    Doubled.eq_max (m := 2) h hp
  obtain ⟨last, hlast⟩ : ∃ j, Doubled 4 items.length j := exists_doubled (by decide) _
  have hall (k i : Nat) (hk : k ≤ items.length) (hi : Doubled 4 k i) :
      Allocatable e (4 * 2 ^ i) := by
    refine Allocatable.mono hfit ?_
    rw [← hmax hlast]
    exact Nat.mul_le_mul_left 4 (Nat.pow_le_pow_right (by decide) (hi.mono hlast hk))
  cases items with
  | nil => exact absurd rfl hne
  | cons x items =>
      obtain ⟨ev, hev, hpushed, hfirst⟩ :=
        push_first x.2 x.1 he (Allocatable.mono hfit (Nat.le_max_left 4 p))
      obtain ⟨evs, vec, j, htrace, hpushed', hj⟩ :=
        pushes_run he items (by decide) hpushed fun k i hk hi =>
          hall k i (by rw [List.length_cons]; omega) hi
      have hdoubled : Doubled 4 (x :: items).length j := by
        rw [List.length_cons, Nat.add_comm]
        exact hpushed'.doubled
      refine ⟨ev :: evs, vec, trace_pushes_cons hev htrace, ?_, ?_⟩
      · rw [hpushed'.capacity_eq, hmax hdoubled]
      · have hdiv : 4 * 2 ^ j / 4 = 2 ^ j := Nat.mul_div_cancel_left _ (by decide)
        rw [hpushed'.capacity_eq, hdiv, Nat.log2_two_pow, reallocs, List.map_cons,
          List.sum_cons, hfirst, hj, reallocs, Nat.zero_add]

/--
In every run from `NULL` without a free in which no `size_t` wraps, the capacity
holds the elements, is 0 or at least 4, never decreases and at least doubles in every
reallocation of a block; and `k` pushes end with the least power of two that is at least
`k`, but at least 4, after one reallocation and one more for each doubling.
-/
theorem growth_geometric (he : 1 ≤ e) :
    (∀ (ops : List (VecOp e × (Nat → Byte))) (vec : Vec) (evs : List (VecEvent e)),
      trace ops none = some (evs, vec) →
      (∀ ev ∈ evs, ev.op.isFree = false ∧ ev.op.Fits ev.before) →
      SizeInv vec ∧ NullOrFour (adcVectorCapacity vec) ∧ ∀ ev ∈ evs, Geometric ev) ∧
    ∀ (items : List (Elem e × (Nat → Byte))) (p : Nat), items ≠ [] →
      IsLeast {q | items.length ≤ q ∧ ∃ i, q = 2 ^ i} p → Allocatable e (max 4 p) →
      ∃ evs vec, trace (pushes items) none = some (evs, vec) ∧
        adcVectorCapacity vec = max 4 p ∧
        reallocs evs = 1 + Nat.log2 (adcVectorCapacity vec / 4) := by
  refine ⟨fun ops vec evs hrun hevs => ?_, fun items p hne hp hfit => ?_⟩
  · obtain ⟨hcapacious, hgeometric⟩ := trace_geometric he hrun hevs
    exact ⟨hcapacious.bounded.inv, hcapacious.nullOrFour, hgeometric⟩
  · exact pushes_capacity he hne hp hfit

/-- Five pushes, and a push, a pop and a reserve behind an odd reserve. -/
theorem growth_geometric_five :
    (∃ evs vec, trace (pushes (List.replicate 5 ((#v[1] : Elem 1), fun _ => 0))) none =
        some (evs, vec) ∧ adcVectorCapacity vec = 8 ∧ reallocs evs = 2) ∧
      ∃ evs vec, trace [((.reserve 5 : VecOp 1), fun _ => 0), (.push #v[1], fun _ => 0),
          (.pop, fun _ => 0), (.reserve 11, fun _ => 0)] none = some (evs, vec) ∧
        ∀ ev ∈ evs, Geometric ev := by
  constructor
  · have hleast : IsLeast {q | 5 ≤ q ∧ ∃ i, q = 2 ^ i} 8 := by
      refine ⟨⟨by decide, 3, rfl⟩, ?_⟩
      rintro q ⟨hq, i, rfl⟩
      have hi : 3 ≤ i := by
        by_contra hlt
        have hpow : 2 ^ i ≤ 2 ^ 2 := Nat.pow_le_pow_right (by decide) (by omega)
        omega
      have hpow : 2 ^ 3 ≤ 2 ^ i := Nat.pow_le_pow_right (by decide) hi
      exact hpow
    obtain ⟨evs, vec, htrace, hcap, hcount⟩ := (growth_geometric (e := 1) (by decide)).2
      (List.replicate 5 (#v[1], fun _ => 0)) 8 (by simp) hleast (by rw [Allocatable]; decide)
    rw [hcap] at hcount
    exact ⟨evs, vec, htrace, hcap, hcount⟩
  · refine ⟨_, _, rfl, ?_⟩
    refine ((growth_geometric (e := 1) (by decide)).1
      [(.reserve 5, fun _ => 0), (.push #v[1], fun _ => 0), (.pop, fun _ => 0),
        (.reserve 11, fun _ => 0)] _ _ rfl ?_).2.2
    simp [VecOp.isFree, VecOp.Fits, Allocatable, adcVectorSize, adcVectorCapacity,
      grownCapacity, sizeofHeader, adcVectorAddgrow, adcVectorGrow, adcVectorReserve,
      adcVectorPop, sizeT]

end AdcVector
end AdcLibs
