import AdcLibs.Vector.Macros

/-!
# The vector is a list

With the data area unbounded, a vector is the list of its elements: each macro
does to the list what its comment says, whatever the element size and however
the block has grown, and the byte counts of the moves, which exceed the elements
to move, do no harm.
-/

namespace AdcLibs
namespace AdcVector

open ElementArea

variable {e : Nat}

/-! ## The list -/

/-- What an operation does to a list, and what it pops; `none` is a pop of `[]`. -/
def VecOp.onList : VecOp e → List (Elem e) → Option (List (Elem e) × Option (Elem e))
  | .push item, l => some (l ++ [item], none)
  | .pop, l => if l = [] then none else some (l.dropLast, l.getLast?)
  | .reserve _, l => some (l, none)
  | .insert i item, l =>
      if 0 ≤ i ∧ i < l.length then some (l.insertIdx i.toNat item, none) else some (l, none)
  | .erasen i n, l =>
      if 0 ≤ i ∧ i < l.length ∧ 0 ≤ n then
        some (l.take i.toNat ++ l.drop (i.toNat + min n.toNat (l.length - i.toNat)), none)
      else some (l, none)
  | .free, _ => some ([], none)

/-- The list after a sequence of operations, and what was popped. -/
def listTrace : List (VecOp e) → List (Elem e) → Option (List (Elem e) × List (Elem e))
  | [], l => some (l, [])
  | op :: ops, l =>
      (op.onList l).bind fun r =>
        (listTrace ops r.1).map fun r' => (r'.1, r.2.toList ++ r'.2)

/-- The index, the count and their sum are below `2^31`. -/
def VecOp.InRange : VecOp e → Prop
  | .insert i _ => i < 2 ^ 31
  | .erasen i n => i < 2 ^ 31 ∧ n < 2 ^ 31 ∧ i + n < 2 ^ 31
  | _ => True

/-- All sizes, indices and counts are below `2^31`, and the contents are an object in
memory: their bytes are counted by a `size_t`. -/
def ListInRange : List (VecOp e) → List (Elem e) → Prop
  | [], _ => True
  | op :: ops, l =>
      op.InRange ∧ ∀ l' p, op.onList l = some (l', p) →
        l'.length < 2 ^ 31 ∧ e * l'.length < 2 ^ 64 ∧ ListInRange ops l'

/-- The vector `vec` after an operation has the contents `l'`. -/
structure Refines (vec : Vec) (l' : List (Elem e)) : Prop where
  inv : SizeInv vec
  elems_eq : elems vec = l'

theorem Refines.length_eq {vec : Vec} {l : List (Elem e)} (h : Refines vec l) :
    adcVectorSize vec = l.length := by
  rw [← h.elems_eq, length_elems]

section Ops

variable (fresh : Nat → Byte) {vec : Vec} {l : List (Elem e)}

theorem push_refines (h : Refines vec l) (item : Block → Elem e)
    (hlen : l.length + 1 < 2 ^ 64) :
    ∃ b r, Grown e vec (l.length + 1) (some b) ∧ adcVectorPush fresh item vec = some r ∧
      Refines r.1 (l ++ [item b]) := by
  have hsize := h.length_eq
  obtain ⟨b, hb, hgrown⟩ := addgrow_grown (e := e) fresh h.inv (by omega)
  have hbsize : b.size = l.length := hgrown.size_eq.trans hsize
  have hnext : sizeT (b.size + 1) = b.size + 1 := by
    exact_mod_cast sizeT_natCast (by omega : b.size + 1 < 2 ^ 64)
  rw [hsize] at hgrown
  refine ⟨b, _, hgrown, by rw [adcVectorPush, hb, Option.map_some], ?_, ?_⟩
  · have hroom := hgrown.room
    rw [← hbsize] at hroom
    simp only [SizeInv, adcVectorSize, hnext]
    exact hroom
  · simp only [elems, hnext]
    rw [contents_append, ← h.elems_eq, ← hgrown.elems_eq]
    rfl

theorem insert_refines (h : Refines vec l) {i : Int} (item : Block → Elem e) (he : 1 ≤ e)
    (hbytes : e * (l.length + 1) < 2 ^ 64) (hguard : 0 ≤ i ∧ i < l.length) :
    ∃ b r, Grown e vec (l.length + 1) (some b) ∧ adcVectorInsert fresh i item vec = some r ∧
      Refines r.1 (l.insertIdx i.toNat (item (openGap e i.toNat b))) := by
  have hsize := h.length_eq
  have hlen := le_bytes he (l.length + 1)
  cases vec with
  | none =>
      change 0 = l.length at hsize
      omega
  | some b₀ =>
      change b₀.size = l.length at hsize
      obtain ⟨b, hb, hgrown⟩ := addgrow_grown (e := e) fresh h.inv
        (show b₀.size + 1 < 2 ^ 64 by omega)
      have hbsize : b.size = b₀.size := hgrown.size_eq
      have hroom : b₀.size + 1 ≤ b.capacity := hgrown.room
      rw [← hsize] at hguard hbytes ⊢
      rw [← hbsize] at hbytes
      refine ⟨b, _, hgrown, insert_eq fresh item he hguard hb hbsize hbytes, ?_, ?_⟩
      · rw [← hbsize] at hroom
        exact hroom
      · -- the count of the move is at least that of the elements from `i` on
        obtain ⟨k, hk⟩ : ∃ k, b.size = i.toNat + k := Nat.exists_eq_add_of_le (by omega)
        have hle := le_bytes he (i.toNat + 1)
        have hsplit : e * (b.size + 1) = e * (i.toNat + 1) + e * k := by
          rw [← Nat.mul_add]
          congr 1
          omega
        have hrest : b.size - i.toNat = k := by omega
        have hnum : e * (b.size - i.toNat) ≤ e * (b.size + 1) - 1 - i.toNat := by
          rw [hrest]
          omega
        change contents (writeElem (openGap e i.toNat b).data _ _) (b.size + 1) = _
        rw [openGap, contents_insert _ _ (by omega) hnum, ← h.elems_eq, ← hgrown.elems_eq]
        rfl

theorem erasen_refines (h : Refines vec l) {i n : Int} (he : 1 ≤ e) (hi : i < 2 ^ 31)
    (hn : n < 2 ^ 31) (hbytes : e * l.length < 2 ^ 64)
    (hguard : 0 ≤ i ∧ i < l.length ∧ 0 ≤ n) :
    Refines (adcVectorErasen e i n vec).1
      (l.take i.toNat ++ l.drop (i.toNat + min n.toNat (l.length - i.toNat))) := by
  have hsize := h.length_eq
  cases vec with
  | none =>
      change 0 = l.length at hsize
      omega
  | some b =>
      change b.size = l.length at hsize
      have hinv : b.size ≤ b.capacity := h.inv
      rw [← hsize] at hguard hbytes ⊢
      obtain ⟨m, hm⟩ : ∃ m, m = min n.toNat (b.size - i.toNat) := ⟨_, rfl⟩
      rw [erasen_eq he hi hn hguard hm hbytes, ← hm]
      refine ⟨?_, ?_⟩
      · change b.size - m ≤ b.capacity
        omega
      · obtain ⟨k, hk⟩ : ∃ k, b.size = i.toNat + m + k := Nat.exists_eq_add_of_le (by omega)
        have hle := le_bytes he (i.toNat + m)
        have hsplit : e * b.size = e * (i.toNat + m) + e * k := by
          rw [← Nat.mul_add, hk]
        have hrest : b.size - (i.toNat + m) = k := by omega
        have hnum : e * (b.size - (i.toNat + m)) ≤ e * b.size - m - i.toNat := by
          rw [hrest]
          omega
        change contents _ (b.size - m) = _
        rw [contents_erase _ (by omega) hnum, ← h.elems_eq]
        rfl

theorem pop_refines {b : Block} (h : Refines (some b) l) (hlen : l.length < 2 ^ 31)
    (hne : l ≠ []) :
    Refines (some (adcVectorPop (e := e) b).1) l.dropLast ∧
      some (adcVectorPop b).2 = l.getLast? := by
  have hsize : b.size = l.length := h.length_eq
  have hinv : b.size ≤ b.capacity := h.inv
  have hpos := List.length_pos_iff.mpr hne
  have hleft : sizeT (b.size - 1) = b.size - 1 := by
    rw [sizeT_of_nonneg (by omega) (by omega)]
    omega
  have hlast : l = contents b.data (b.size - 1) ++ [readElem b.data (b.size - 1)] := by
    rw [← contents_dropLast, Nat.sub_add_cancel (by omega)]
    exact h.elems_eq.symm
  simp only [adcVectorPop, hleft]
  refine ⟨⟨?_, ?_⟩, ?_⟩
  · change b.size - 1 ≤ b.capacity
    omega
  · rw [hlast, List.dropLast_concat]
    rfl
  · rw [hlast, List.getLast?_concat]

theorem reserve_refines (h : Refines vec l) (n : Nat) (hlen : l.length < 2 ^ 31) :
    Refines (adcVectorReserve fresh e n vec).1 l := by
  have hsize := h.length_eq
  have hgrown := grow_grown (e := e) fresh 0 n h.inv (by omega)
  refine ⟨?_, hgrown.elems_eq.trans h.elems_eq⟩
  have hroom := hgrown.room
  rw [Nat.add_zero, ← hgrown.size_eq] at hroom
  exact hroom

end Ops

/-! ## Runs -/

/-- An operation does to the vector what it does to the list. -/
theorem exec_refines (fresh : Nat → Byte) {vec : Vec} {l l' : List (Elem e)}
    {p : Option (Elem e)} {op : VecOp e} (h : Refines vec l) (he : 1 ≤ e)
    (hlen : l.length < 2 ^ 31) (hbytes : e * l.length < 2 ^ 64) (hop : op.InRange)
    (hlist : op.onList l = some (l', p)) (hlen' : l'.length < 2 ^ 31)
    (hbytes' : e * l'.length < 2 ^ 64) :
    ∃ ev, op.exec fresh vec = some ev ∧ Refines ev.after l' ∧ ev.popped = p := by
  cases op with
  | push item =>
      obtain ⟨rfl, rfl⟩ : l ++ [item] = l' ∧ none = p := by simpa [VecOp.onList] using hlist
      rw [List.length_append, List.length_singleton] at hlen'
      obtain ⟨-, r, -, hr, href⟩ := push_refines fresh h (fun _ => item) (by omega)
      exact ⟨_, by rw [VecOp.exec, hr, Option.map_some], href, rfl⟩
  | pop =>
      rw [VecOp.onList] at hlist
      split at hlist
      · exact absurd hlist (by simp)
      · next hne =>
          obtain ⟨rfl, rfl⟩ : l.dropLast = l' ∧ l.getLast? = p := by simpa using hlist
          have hsize := h.length_eq
          have hpos := List.length_pos_iff.mpr hne
          cases vec with
          | none =>
              change 0 = l.length at hsize
              omega
          | some b =>
              change b.size = l.length at hsize
              obtain ⟨href, hpop⟩ := pop_refines h hlen hne
              have hexec : VecOp.exec fresh (.pop : VecOp e) (some b) =
                  some ⟨.pop, some b, some (adcVectorPop (e := e) b).1,
                    some (adcVectorPop b).2, []⟩ := by
                rw [VecOp.exec, Option.bind_some, if_neg (by omega)]
              exact ⟨_, hexec, href, hpop⟩
  | reserve n =>
      obtain ⟨rfl, rfl⟩ : l = l' ∧ none = p := by simpa [VecOp.onList] using hlist
      exact ⟨_, rfl, reserve_refines fresh h n hlen, rfl⟩
  | insert i item =>
      have hi : i < 2 ^ 31 := hop
      rw [VecOp.onList] at hlist
      split at hlist
      · next hguard =>
          obtain ⟨rfl, rfl⟩ : l.insertIdx i.toNat item = l' ∧ none = p := by
            simpa using hlist
          rw [List.length_insertIdx_of_le_length (by omega)] at hlen' hbytes'
          obtain ⟨-, r, -, hr, href⟩ :=
            insert_refines fresh h (fun _ => item) he hbytes' hguard
          exact ⟨_, by rw [VecOp.exec, hr, Option.map_some], href, rfl⟩
      · next hguard =>
          obtain ⟨rfl, rfl⟩ : l = l' ∧ none = p := by simpa using hlist
          rw [← h.length_eq] at hguard
          have hexec : VecOp.exec fresh (.insert i item) vec =
              some ⟨.insert i item, vec, vec, none, []⟩ := by
            rw [VecOp.exec, insert_eq_self fresh item hi hguard, Option.map_some]
          exact ⟨_, hexec, h, rfl⟩
  | erasen i n =>
      obtain ⟨hi, hn⟩ := hop
      rw [VecOp.onList] at hlist
      split at hlist
      · next hguard =>
          obtain ⟨rfl, rfl⟩ : l.take i.toNat ++
              l.drop (i.toNat + min n.toNat (l.length - i.toNat)) = l' ∧ none = p := by
            simpa using hlist
          exact ⟨_, rfl, erasen_refines h he hi hn.1 hbytes hguard, rfl⟩
      · next hguard =>
          obtain ⟨rfl, rfl⟩ : l = l' ∧ none = p := by simpa using hlist
          rw [← h.length_eq] at hguard
          refine ⟨_, rfl, ?_, rfl⟩
          rw [erasen_eq_self hi hguard]
          exact h
  | free =>
      obtain ⟨rfl, rfl⟩ : [] = l' ∧ none = p := by simpa [VecOp.onList] using hlist
      refine ⟨_, rfl, ?_, rfl⟩
      cases vec with
      | none => exact ⟨Nat.le_refl 0, rfl⟩
      | some b => exact ⟨Nat.le_refl 0, rfl⟩

/-- A run from a vector with the contents `l` is the run of the list from `l`. -/
theorem trace_refines (he : 1 ≤ e) (ops : List (VecOp e × (Nat → Byte))) :
    ∀ {vec : Vec} {l l' pops : List (Elem e)}, Refines vec l → l.length < 2 ^ 31 →
      e * l.length < 2 ^ 64 → listTrace (ops.map Prod.fst) l = some (l', pops) →
      ListInRange (ops.map Prod.fst) l →
      ∃ evs vec', trace ops vec = some (evs, vec') ∧ Refines vec' l' ∧
        evs.filterMap VecEvent.popped = pops := by
  induction ops with
  | nil =>
      intro vec l l' pops h _ _ hlist _
      obtain ⟨rfl, rfl⟩ : l = l' ∧ [] = pops := by simpa [listTrace] using hlist
      exact ⟨[], vec, rfl, h, rfl⟩
  | cons op ops ih =>
      obtain ⟨op, fresh⟩ := op
      intro vec l l' pops h hlen hbytes hlist hrange
      obtain ⟨⟨l₁, p⟩, hop, hrest⟩ := Option.bind_eq_some_iff.mp hlist
      obtain ⟨⟨l₂, pops'⟩, htail, heq⟩ := Option.map_eq_some_iff.mp hrest
      obtain ⟨rfl, rfl⟩ : l₂ = l' ∧ p.toList ++ pops' = pops := by simpa using heq
      obtain ⟨hin, hnext⟩ := hrange
      obtain ⟨hlen₁, hbytes₁, hrange₁⟩ := hnext l₁ p hop
      obtain ⟨ev, hev, href, hpop⟩ :=
        exec_refines fresh h he hlen hbytes hin hop hlen₁ hbytes₁
      obtain ⟨evs, vec', htrace, href', hpops⟩ := ih href hlen₁ hbytes₁ htail hrange₁
      refine ⟨ev :: evs, vec', ?_, href', ?_⟩
      · rw [trace, hev, Option.bind_some, htrace, Option.map_some]
      · rw [List.filterMap_cons, hpop, hpops]
        cases p with
        | none => rfl
        | some x => rfl

/-- From `NULL`, the contents, the size and the popped values of a vector are those of
a list. -/
theorem vector_refines_list (he : 1 ≤ e) (ops : List (VecOp e × (Nat → Byte)))
    {l pops : List (Elem e)} (hlist : listTrace (ops.map Prod.fst) [] = some (l, pops))
    (hrange : ListInRange (ops.map Prod.fst) ([] : List (Elem e))) :
    ∃ evs vec, trace ops none = some (evs, vec) ∧ elems vec = l ∧
      adcVectorSize vec = l.length ∧ evs.filterMap VecEvent.popped = pops := by
  have hinit : Refines none ([] : List (Elem e)) := ⟨Nat.le_refl 0, rfl⟩
  obtain ⟨evs, vec, htrace, href, hpops⟩ :=
    trace_refines he ops hinit (Nat.two_pow_pos 31) (Nat.two_pow_pos 64) hlist hrange
  exact ⟨evs, vec, htrace, href.elems_eq, href.length_eq, hpops⟩

/-- Elements of two bytes: a push, an insert before it, an erase behind the end and a pop. -/
theorem vector_refines_list_script :
    ∃ evs vec,
      trace [((.push #v[1, 2] : VecOp 2), fun _ => 0), (.insert 0 #v[3, 4], fun _ => 0),
        (.insert 5 #v[0, 0], fun _ => 0), (.erasen 1 7, fun _ => 0), (.pop, fun _ => 0)] none =
          some (evs, vec) ∧
      elems vec = ([] : List (Elem 2)) ∧ adcVectorSize vec = 0 ∧
      evs.filterMap VecEvent.popped = [#v[3, 4]] :=
  vector_refines_list (e := 2) (by decide)
    [(.push #v[1, 2], fun _ => 0), (.insert 0 #v[3, 4], fun _ => 0),
      (.insert 5 #v[0, 0], fun _ => 0), (.erasen 1 7, fun _ => 0), (.pop, fun _ => 0)]
    (rfl : listTrace _ [] = some ([], [#v[3, 4]]))
    (by simp [ListInRange, VecOp.InRange, VecOp.onList])

end AdcVector
end AdcLibs
