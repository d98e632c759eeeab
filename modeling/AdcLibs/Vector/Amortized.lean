import AdcLibs.Vector.Capacity

/-!
# The cost of growing

A reallocation copies the elements for which the old block had room.  As every
reallocation at least doubles the capacity, the blocks that are released and the one
that is left pay for all copies, and no block is larger than twice what was needed.
-/

namespace AdcLibs
namespace AdcVector

open Runs

variable {e : Nat}

/-- The elements that the reallocation of an event copies, at most. -/
def VecEvent.copied (ev : VecEvent e) : Nat :=
  if ev.reallocs = 0 then 0 else adcVectorCapacity ev.before

/-- The capacity that an event gives back. -/
def VecEvent.released (ev : VecEvent e) : Nat :=
  if ev.op.isFree then adcVectorCapacity ev.before else 0

def copied (evs : List (VecEvent e)) : Nat := (evs.map VecEvent.copied).sum

def released (evs : List (VecEvent e)) : Nat := (evs.map VecEvent.released).sum

/-- A capacity that grows is at most twice what is needed, or 4. -/
theorem grownCapacity_le (need capacity : Nat) :
    grownCapacity need capacity ≤ max capacity (max 4 (2 * need)) := by
  rw [grownCapacity]
  split
  · omega
  · split
    · omega
    · split <;> omega

/-- What a free does to the capacity. -/
theorem exec_free (fresh : Nat → Byte) {vec : Vec} {op : VecOp e} {ev : VecEvent e}
    (hfree : op.isFree = true) (hev : op.exec fresh vec = some ev) :
    adcVectorCapacity ev.after = 0 ∧ ev.reallocs = 0 := by
  cases op with
  | free =>
      obtain rfl := Option.some.inj hev
      cases vec with
      | none => exact ⟨rfl, rfl⟩
      | some b => exact ⟨rfl, rfl⟩
  | push item | pop | reserve n | insert i item | erasen i n =>
      exact absurd hfree (by simp [VecOp.isFree])

/-- One operation: the capacity it copies or releases comes out of what it adds. -/
theorem exec_pays (fresh : Nat → Byte) {vec : Vec} {op : VecOp e} {ev : VecEvent e}
    (he : 1 ≤ e) (hfit : op.Fits vec) (hev : op.exec fresh vec = some ev) :
    ev.copied + adcVectorCapacity ev.before ≤ ev.released + adcVectorCapacity ev.after ∧
      adcVectorCapacity ev.after ≤
        max (adcVectorCapacity ev.before) (max 4 (2 * ev.op.need ev.before)) := by
  obtain ⟨hop, hbefore⟩ := exec_records hev
  cases hfree : op.isFree with
  | true =>
      obtain ⟨hafter, hreallocs⟩ := exec_free fresh hfree hev
      rw [VecEvent.copied, VecEvent.released, if_pos hreallocs, hop, if_pos hfree, hafter]
      omega
  | false =>
      have hgrowth := exec_growth fresh he hfree hfit hev
      have hreleased : ev.released = 0 := by
        rw [VecEvent.released, hop, hfree]
        rfl
      rw [VecEvent.copied, hreleased, hgrowth.capacity_eq, hgrowth.reallocs_eq]
      refine ⟨?_, grownCapacity_le _ _⟩
      by_cases hgrow : adcVectorCapacity ev.before < ev.op.need ev.before
      · have hdouble := double_le_grown hgrow
        rw [if_pos hgrow, if_neg (by decide)]
        omega
      · have hkeep := capacity_le_grown (ev.op.need ev.before) (adcVectorCapacity ev.before)
        rw [if_neg hgrow, if_pos rfl]
        omega

/-- Whole runs, from any capacity. -/
theorem run_pays (he : 1 ≤ e) {vec vec' : Vec} {evs : List (VecEvent e)}
    (hrun : Run Executes vec evs vec') (hfits : ∀ ev ∈ evs, ev.op.Fits ev.before) :
    copied evs + adcVectorCapacity vec ≤ released evs + adcVectorCapacity vec' := by
  induction hrun with
  | nil s => exact Nat.le_refl _
  | @cons s s' t ev evs hstep _ ih =>
      obtain ⟨hfit, hfits⟩ := List.forall_mem_cons.mp hfits
      obtain ⟨rfl, rfl, fresh, hev⟩ := hstep
      have hpays := (exec_pays fresh he hfit hev).1
      have hrest := ih hfits
      simp only [copied, released, List.map_cons, List.sum_cons] at hrest ⊢
      omega

/-- The capacity stays within twice the need. -/
theorem run_capacity_le (he : 1 ≤ e) {vec vec' : Vec} {evs : List (VecEvent e)} {n : Nat}
    (hrun : Run Executes vec evs vec')
    (hevs : ∀ ev ∈ evs, ev.op.Fits ev.before ∧ ev.op.need ev.before ≤ n)
    (hvec : adcVectorCapacity vec ≤ max 4 (2 * n)) :
    adcVectorCapacity vec' ≤ max 4 (2 * n) := by
  refine hrun.invariant_of_events (I := fun v => adcVectorCapacity v ≤ max 4 (2 * n)) ?_ hevs hvec
  rintro s ev s' ⟨hfit, hneed⟩ hs ⟨rfl, rfl, fresh, hev⟩
  have hle := (exec_pays fresh he hfit hev).2
  omega

/--
In every run from `NULL` in which no `size_t` wraps, the reallocations copy no more
elements than the blocks that were released and the one that is left have room for; and
where no operation needs room for more than `n` elements, that one has room for at most
`2 * n`, or 4.  So without a free the copies are at most `2 * n`, or 4.
-/
theorem copies_amortized (he : 1 ≤ e) {ops : List (VecOp e × (Nat → Byte))} {vec : Vec}
    {evs : List (VecEvent e)} {n : Nat} (hrun : trace ops none = some (evs, vec))
    (hevs : ∀ ev ∈ evs, ev.op.Fits ev.before ∧ ev.op.need ev.before ≤ n) :
    copied evs ≤ released evs + adcVectorCapacity vec ∧
      adcVectorCapacity vec ≤ max 4 (2 * n) ∧
      ((∀ ev ∈ evs, ev.op.isFree = false) → copied evs ≤ max 4 (2 * n)) := by
  have hpays := run_pays he (trace_run ops hrun) fun ev hev => (hevs ev hev).1
  have hcap := run_capacity_le he (trace_run ops hrun) hevs (Nat.zero_le _)
  rw [adcVectorCapacity, Nat.add_zero] at hpays
  refine ⟨hpays, hcap, fun hfree => ?_⟩
  have hnone : released evs = 0 := by
    refine List.sum_eq_zero_iff_forall_eq_nat.mpr fun r hr => ?_
    obtain ⟨ev, hev, rfl⟩ := List.mem_map.mp hr
    rw [VecEvent.released, hfree ev hev]
    rfl
  omega

/-- Room for five elements behind room for four copies four. -/
theorem copies_amortized_five :
    ∃ evs vec, trace [((.reserve 4 : VecOp 1), fun _ => 0), (.reserve 5, fun _ => 0)] none =
        some (evs, vec) ∧ copied evs = 4 ∧ copied evs ≤ max 4 (2 * 5) := by
  obtain ⟨evs, vec, hrun, hcopied, hevs, hfree⟩ : ∃ evs vec,
      trace [((.reserve 4 : VecOp 1), fun _ => 0), (.reserve 5, fun _ => 0)] none =
        some (evs, vec) ∧ copied evs = 4 ∧
      (∀ ev ∈ evs, ev.op.Fits ev.before ∧ ev.op.need ev.before ≤ 5) ∧
      ∀ ev ∈ evs, ev.op.isFree = false := by
    refine ⟨_, _, rfl, rfl, ?_, ?_⟩
    · simp [VecOp.Fits, VecOp.need, Allocatable, adcVectorSize, adcVectorCapacity,
        grownCapacity, sizeofHeader, adcVectorGrow, adcVectorReserve, sizeT]
    · simp [VecOp.isFree]
  exact ⟨evs, vec, hrun, hcopied, (copies_amortized (by decide) hrun hevs).2.2 hfree⟩

end AdcVector
end AdcLibs
