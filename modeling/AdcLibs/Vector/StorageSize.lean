import AdcLibs.Vector.Macros

/-!
# The size of the storage

`adc__vector_grow` adds, doubles and multiplies in `size_t` without a check.  The
bytes that it asks `realloc` for are those of the new capacity exactly when the
request and the new block are counted by a `size_t`; a product that wraps gives a
small block that claims a large capacity.
-/

namespace AdcLibs
namespace AdcVector

open Runs

variable {e : Nat}

/-- If the growth reallocates, it asks for the header and the elements of the new
capacity, which is at least the size with the growth and the minimum. -/
def GrowExact (fresh : Nat → Byte) (e : Nat) (vec : Vec) (addsize minCap : Nat) : Prop :=
  ∀ newsize, .realloc newsize ∈ (adcVectorGrow fresh vec e addsize minCap).2 →
    newsize =
        sizeofHeader + e * adcVectorCapacity (adcVectorGrow fresh vec e addsize minCap).1 ∧
      adcVectorSize vec + addsize ≤
        adcVectorCapacity (adcVectorGrow fresh vec e addsize minCap).1 ∧
      minCap ≤ adcVectorCapacity (adcVectorGrow fresh vec e addsize minCap).1

/-- The capacity to allocate for `need` elements: at least 4, and twice the old one where
that is a `size_t`. -/
def wantedCapacity (need capacity : Nat) : Nat :=
  max need (max 4 (if 2 * capacity < 2 ^ 64 then 2 * capacity else 0))

/-- If the request exceeds the capacity, the size with the growth and the bytes of the
block to allocate are counted by a `size_t`. -/
def NoWrap (e : Nat) (vec : Vec) (addsize minCap : Nat) : Prop :=
  adcVectorCapacity vec < max (sizeT (adcVectorSize vec + addsize)) minCap →
    adcVectorSize vec + addsize < 2 ^ 64 ∧
      e * wantedCapacity (max (adcVectorSize vec + addsize) minCap) (adcVectorCapacity vec) +
        sizeofHeader < 2 ^ 64

/-! ## Headers -/

/-- The fields of the header are of type `size_t`. -/
def Words (vec : Vec) : Prop := adcVectorSize vec < 2 ^ 64 ∧ adcVectorCapacity vec < 2 ^ 64

/-- The argument of `adc_vector_reserve` is a `size_t`. -/
def VecOp.IsWord : VecOp e → Prop
  | .reserve n => n < 2 ^ 64
  | _ => True

theorem chosenCapacity_lt {need capacity : Nat} (hneed : need < 2 ^ 64) :
    chosenCapacity need capacity < 2 ^ 64 := by
  rw [chosenCapacity]
  split
  · exact sizeT_lt _
  · split
    · decide
    · exact hneed

theorem grow_words (fresh : Nat → Byte) {vec : Vec} (addsize : Nat) {minCap : Nat}
    (h : Words vec) (hmin : minCap < 2 ^ 64) :
    Words (adcVectorGrow fresh vec e addsize minCap).1 := by
  rcases grow_cases (e := e) fresh vec addsize minCap rfl with ⟨-, hgrow⟩ | ⟨-, hgrow⟩
  · rw [hgrow]
    exact h
  · rw [hgrow]
    exact ⟨h.1, chosenCapacity_lt (max_lt (sizeT_lt _) hmin)⟩

theorem addgrow_words (fresh : Nat → Byte) {vec : Vec} (h : Words vec) :
    Words (adcVectorAddgrow fresh e vec 1).1 := by
  cases vec with
  | none => exact grow_words fresh 1 h (by decide)
  | some b =>
      rw [adcVectorAddgrow]
      split
      · exact grow_words fresh 1 h (by decide)
      · exact h

theorem words_null : Words none := ⟨by decide, by decide⟩

/-- Every operation writes words to the header. -/
theorem exec_words {fresh : Nat → Byte} {vec : Vec} {op : VecOp e} {ev : VecEvent e}
    (h : Words vec) (hop : op.IsWord) (hev : op.exec fresh vec = some ev) : Words ev.after := by
  cases op with
  | push item =>
      obtain ⟨r, hr, rfl⟩ := Option.map_eq_some_iff.mp hev
      obtain ⟨b, hb, rfl⟩ := Option.map_eq_some_iff.mp hr
      have hgrown := addgrow_words (e := e) fresh h
      rw [hb] at hgrown
      refine ⟨?_, hgrown.2⟩
      change sizeT (b.size + 1) < 2 ^ 64
      exact sizeT_lt _
  | pop =>
      obtain ⟨b, rfl, hpop⟩ := Option.bind_eq_some_iff.mp hev
      split at hpop
      · exact absurd hpop (by simp)
      · obtain rfl := Option.some.inj hpop
        exact ⟨sizeT_lt _, h.2⟩
  | reserve n =>
      obtain rfl := Option.some.inj hev
      exact grow_words fresh 0 h hop
  | insert i item =>
      obtain ⟨r, hr, rfl⟩ := Option.map_eq_some_iff.mp hev
      cases vec with
      | none =>
          obtain rfl := Option.some.inj hr
          exact h
      | some b =>
          rw [adcVectorInsert] at hr
          split at hr
          · obtain ⟨b', hb', rfl⟩ := Option.map_eq_some_iff.mp hr
            have hgrown := addgrow_words (e := e) fresh h
            rw [hb'] at hgrown
            refine ⟨?_, hgrown.2⟩
            change sizeT (b'.size + 1) < 2 ^ 64
            exact sizeT_lt _
          · obtain rfl := Option.some.inj hr
            exact h
  | erasen i n =>
      obtain rfl := Option.some.inj hev
      cases vec with
      | none => exact h
      | some b =>
          simp only [adcVectorErasen]
          split
          · exact ⟨sizeT_lt _, h.2⟩
          · exact h
  | free =>
      obtain rfl := Option.some.inj hev
      cases vec with
      | none => exact h
      | some b => exact words_null

/-- A vector that is reached from `NULL` has words in its header. -/
theorem trace_words {ops : List (VecOp e × (Nat → Byte))} {evs : List (VecEvent e)} {vec : Vec}
    (hrun : trace ops none = some (evs, vec)) (hops : ∀ ev ∈ evs, ev.op.IsWord) : Words vec := by
  refine (trace_run ops hrun).invariant_of_events ?_ hops words_null
  rintro s ev s' hop hs ⟨rfl, rfl, fresh, hev⟩
  exact exec_words hs hop hev

/-! ## The storage -/

/-- The chosen capacity is the one to allocate. -/
theorem chosenCapacity_eq {need capacity : Nat} (hlt : capacity < need)
    (hcap : capacity < 2 ^ 64) : chosenCapacity need capacity = wantedCapacity need capacity := by
  have hdouble : sizeT (2 * capacity) =
      if 2 * capacity < 2 ^ 64 then 2 * capacity else 2 * capacity - 2 ^ 64 := by
    rw [sizeT]
    split <;> omega
  rw [chosenCapacity, wantedCapacity, hdouble]
  by_cases hword : 2 * capacity < 2 ^ 64
  · rw [if_pos hword]
    split
    · omega
    · split <;> omega
  · rw [if_neg hword]
    split
    · omega
    · split <;> omega

theorem growExact_iff (fresh : Nat → Byte) {vec : Vec} {addsize minCap : Nat} (h : Words vec)
    (hmin : minCap < 2 ^ 64) :
    GrowExact fresh e vec addsize minCap ↔ NoWrap e vec addsize minCap := by
  obtain ⟨need, hneed⟩ :
      ∃ need, need = max (sizeT (adcVectorSize vec + addsize)) minCap := ⟨_, rfl⟩
  rcases grow_cases (e := e) fresh vec addsize minCap hneed with ⟨hle, hgrow⟩ | ⟨hlt, hgrow⟩
  · refine iff_of_true (fun newsize hmem => ?_) fun hrequest => ?_
    · rw [hgrow] at hmem
      exact absurd hmem List.not_mem_nil
    · rw [← hneed] at hrequest
      exact absurd hle (Nat.not_le_of_lt hrequest)
  · have hword : need < 2 ^ 64 := by
      rw [hneed]
      exact max_lt (sizeT_lt _) hmin
    have hchosen := chosenCapacity_eq hlt h.2
    have hchosenlt : chosenCapacity need (adcVectorCapacity vec) < 2 ^ 64 :=
      chosenCapacity_lt hword
    have hroom : need ≤ chosenCapacity need (adcVectorCapacity vec) := le_chosen _ _
    have hsum := sizeT_eq_iff (adcVectorSize vec + addsize)
    have hbytes := sizeT_eq_iff
      (e * chosenCapacity need (adcVectorCapacity vec) + sizeofHeader)
    push_cast at hsum hbytes
    rw [GrowExact, hgrow, NoWrap, ← hneed]
    constructor
    · intro hexact _
      obtain ⟨hsize, hgrowth, -⟩ := hexact _ List.mem_cons_self
      change adcVectorSize vec + addsize ≤ chosenCapacity need (adcVectorCapacity vec) at hgrowth
      have hlt' : adcVectorSize vec + addsize < 2 ^ 64 := Nat.lt_of_le_of_lt hgrowth hchosenlt
      rw [← hsum.mpr hlt', ← hneed, ← hchosen]
      refine ⟨by rw [hsum.mpr hlt']; exact hlt', hbytes.mp ?_⟩
      rw [Nat.add_comm] at hsize
      exact hsize
    · intro hwrap newsize hmem
      obtain ⟨hlt', hblock⟩ := hwrap hlt
      rw [← hsum.mpr hlt', ← hneed, ← hchosen] at hblock
      obtain rfl : newsize = _ := by simpa using hmem
      refine ⟨?_, ?_, ?_⟩
      · rw [Nat.add_comm]
        exact hbytes.mpr hblock
      · change _ ≤ chosenCapacity need (adcVectorCapacity vec)
        have hword' := hsum.mpr hlt'
        omega
      · change _ ≤ chosenCapacity need (adcVectorCapacity vec)
        omega

/--
In every vector reached from `NULL`, a growth that reallocates asks for exactly the
bytes of its new capacity, and for enough, if and only if no `size_t` wraps.
-/
theorem storage_exact_iff {ops : List (VecOp e × (Nat → Byte))} {evs : List (VecEvent e)}
    {vec : Vec} (hrun : trace ops none = some (evs, vec)) (hops : ∀ ev ∈ evs, ev.op.IsWord)
    (fresh : Nat → Byte) (addsize minCap : Nat) (hmin : minCap < 2 ^ 64) :
    GrowExact fresh e vec addsize minCap ↔ NoWrap e vec addsize minCap :=
  growExact_iff fresh (trace_words hrun hops) hmin

/-- After a push, a request for ten elements of four bytes. -/
theorem storage_exact_iff_ten :
    ∃ evs vec, trace [((.push #v[1, 0, 0, 0] : VecOp 4), fun _ => 0)] none = some (evs, vec) ∧
      (GrowExact (fun _ => 0) 4 vec 0 10 ↔ NoWrap 4 vec 0 10) := by
  refine ⟨_, _, rfl, ?_⟩
  refine storage_exact_iff (e := 4)
    (rfl : trace [(.push #v[1, 0, 0, 0], fun _ => 0)] none = some (_, _)) ?_ _ 0 10 (by decide)
  simp [VecOp.IsWord]

/-- A reserve of `2^60` elements of 16 bytes asks for 16 bytes. -/
theorem reserve_wraps :
    ¬ ∀ (e : Nat) (ops : List (VecOp e × (Nat → Byte))) (evs : List (VecEvent e)) (vec : Vec),
      trace ops none = some (evs, vec) → ∀ (fresh : Nat → Byte) (n : Nat), n < 2 ^ 64 →
        GrowExact fresh e vec 0 n := by
  intro hall
  have hexact := hall 16 [] [] none rfl (fun _ => 0) (2 ^ 60) (by decide)
  have hbytes := (hexact 16 (by decide)).1
  exact absurd hbytes (by decide)

end AdcVector
end AdcLibs
