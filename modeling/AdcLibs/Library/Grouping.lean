import AdcLibs.Library.Loops

/-!
# Groups of items

A list whose items are handled one by one, except that some items take the item
behind them: the list is cut into groups of one or two items, and an item that
takes its successor but is the last one is a group cut short.  A loop that handles
the first group of what remains handles the groups from left to right.
-/

namespace Grouping

universe u v

inductive ItemGroup (α : Type u)
  | single (a : α)
  | pair (a b : α)
  | cut (a : α)
deriving DecidableEq, Repr

def ItemGroup.items {α : Type u} : ItemGroup α → List α
  | .single a => [a]
  | .pair a b => [a, b]
  | .cut a => [a]

variable {α : Type u} (takes : α → Bool)

/-- The groups of a list. -/
def groups : List α → List (ItemGroup α)
  | [] => []
  | [a] => if takes a then [.cut a] else [.single a]
  | a :: b :: l => if takes a then .pair a b :: groups l else .single a :: groups (b :: l)

variable {takes}

theorem groups_singleton (a : α) :
    groups takes [a] = if takes a then [.cut a] else [.single a] := rfl

theorem groups_cons_cons (a b : α) (l : List α) :
    groups takes (a :: b :: l) =
      if takes a then .pair a b :: groups takes l else .single a :: groups takes (b :: l) := rfl

theorem groups_single {a : α} (l : List α) (h : takes a = false) :
    groups takes (a :: l) = .single a :: groups takes l := by
  cases l with
  | nil =>
      rw [groups_singleton, h]
      rfl
  | cons b l =>
      rw [groups_cons_cons, h]
      rfl

theorem groups_pair {a : α} (b : α) (l : List α) (h : takes a = true) :
    groups takes (a :: b :: l) = .pair a b :: groups takes l := by
  rw [groups_cons_cons, if_pos h]

theorem groups_cut {a : α} (h : takes a = true) : groups takes [a] = [.cut a] := by
  rw [groups_singleton, if_pos h]

theorem groups_eq_nil {l : List α} : groups takes l = [] ↔ l = [] := by
  constructor
  · intro h
    match l with
    | [] => rfl
    | [a] =>
        rw [groups_singleton] at h
        split at h <;> exact absurd h (List.cons_ne_nil _ _)
    | a :: b :: l =>
        rw [groups_cons_cons] at h
        split at h <;> exact absurd h (List.cons_ne_nil _ _)
  · rintro rfl
    rfl

/-- The groups are the list: no item is left out and none is in two groups. -/
theorem flatMap_items_groups (takes : α → Bool) (l : List α) :
    (groups takes l).flatMap ItemGroup.items = l := by
  fun_induction groups takes l with
  | case1 => rfl
  | case2 | case3 => rfl
  | case4 a b l h ih => simp [ItemGroup.items, ih]
  | case5 a b l h ih => simp [ItemGroup.items, ih]

theorem length_groups_le (takes : α → Bool) (l : List α) :
    (groups takes l).length ≤ l.length := by
  fun_induction groups takes l with
  | case1 => exact Nat.le_refl 0
  | case2 | case3 => exact Nat.le_refl 1
  | case4 a b l h ih =>
      simp only [List.length_cons]
      omega
  | case5 a b l h ih =>
      simp only [List.length_cons] at ih ⊢
      omega

/-- A list whose first group is a pair. -/
theorem of_groups_eq_pair {a b : α} {l : List α} {gs : List (ItemGroup α)}
    (h : groups takes l = .pair a b :: gs) : takes a = true ∧ ∃ l', l = a :: b :: l' := by
  match l with
  | [] => exact absurd h.symm (List.cons_ne_nil _ _)
  | [c] =>
      rw [groups_singleton] at h
      split at h <;> exact absurd (List.cons.inj h).1 (by simp)
  | c :: d :: l' =>
      rw [groups_cons_cons] at h
      split at h
      · next htakes =>
          obtain ⟨rfl, rfl⟩ := ItemGroup.pair.inj (List.cons.inj h).1
          exact ⟨htakes, l', rfl⟩
      · exact absurd (List.cons.inj h).1 (by simp)

/-- The groups of two lists one behind the other, if the first one is not cut short. -/
theorem groups_append {l : List α} (l' : List α) (h : ∀ a, .cut a ∉ groups takes l) :
    groups takes (l ++ l') = groups takes l ++ groups takes l' := by
  fun_induction groups takes l with
  | case1 => rfl
  | case2 a htakes => exact absurd List.mem_cons_self (h a)
  | case3 a htakes => exact groups_single l' (Bool.eq_false_iff.mpr htakes)
  | case4 a b l htakes ih =>
      rw [List.cons_append, List.cons_append, groups_pair _ _ htakes,
        ih fun c hc => h c (List.mem_cons_of_mem _ hc), List.cons_append]
  | case5 a b l htakes ih =>
      rw [List.cons_append, groups_single _ (Bool.eq_false_iff.mpr htakes),
        ih fun c hc => h c (List.mem_cons_of_mem _ hc), List.cons_append]

/-! ## Runs -/

/-- A relation followed along a list. -/
inductive Run {γ : Type u} {σ : Type v} (R : γ → σ → σ → Prop) : List γ → σ → σ → Prop
  | nil (s : σ) : Run R [] s s
  | cons {g : γ} {gs : List γ} {s t u : σ} : R g s t → Run R gs t u → Run R (g :: gs) s u

section Run

variable {γ : Type u} {σ : Type v} {τ : Type v} {R : γ → σ → σ → Prop}

theorem Run.map {R' : γ → τ → τ → Prop} (f : σ → τ)
    (hR : ∀ g s t, R g s t → R' g (f s) (f t)) {gs : List γ} {s t : σ}
    (h : Run R gs s t) : Run R' gs (f s) (f t) := by
  induction h with
  | nil s => exact .nil _
  | cons hg _ ih => exact .cons (hR _ _ _ hg) ih

/-- What every step keeps is kept. -/
theorem Run.invariant {P : γ → Prop} {I : σ → Prop}
    (hR : ∀ g s t, P g → R g s t → I s → I t) {gs : List γ} {s t : σ}
    (h : Run R gs s t) (hP : ∀ g ∈ gs, P g) (hs : I s) : I t := by
  induction h with
  | nil s => exact hs
  | cons hg _ ih =>
      have hmem := List.forall_mem_cons.mp hP
      exact ih hmem.2 (hR _ _ _ hmem.1 hg hs)

end Run

/-- A loop whose body handles the first group of what remains, and which ends when
nothing remains, runs along the groups: its fuel is the number of groups. -/
theorem whileFuel_groups {σ : Type v} {cond : σ → Bool} {body : σ → σ}
    {R : ItemGroup α → σ → σ → Prop} {P : ItemGroup α → Prop} {I : σ → Prop} (rest : σ → List α)
    (hdone : ∀ s, I s → rest s = [] → cond s = false)
    (hstep : ∀ s g gs, I s → groups takes (rest s) = g :: gs → P g →
      cond s = true ∧ I (body s) ∧ groups takes (rest (body s)) = gs ∧ R g s (body s))
    {gs : List (ItemGroup α)} {s : σ} (hs : I s) (hgs : groups takes (rest s) = gs)
    (hP : ∀ g ∈ gs, P g) {fuel : Nat} (hfuel : gs.length < fuel) :
    ∃ t, Loops.whileFuel cond body fuel s = some t ∧ I t ∧ Run R gs s t := by
  induction gs generalizing s fuel with
  | nil =>
      obtain ⟨fuel, rfl⟩ := Nat.exists_eq_add_of_lt hfuel
      have hcond := hdone s hs (groups_eq_nil.mp hgs)
      exact ⟨s, by simp [Loops.whileFuel, hcond], hs, .nil s⟩
  | cons g gs ih =>
      obtain ⟨hg, hP⟩ := List.forall_mem_cons.mp hP
      obtain ⟨hcond, hnext, hrest, hR⟩ := hstep s g gs hs hgs hg
      rw [List.length_cons] at hfuel
      obtain ⟨fuel, rfl⟩ : ∃ n, fuel = n + 1 := ⟨fuel - 1, by omega⟩
      obtain ⟨t, ht, hI, hrun⟩ := ih hnext hrest hP (by omega : gs.length < fuel)
      exact ⟨t, by rw [Loops.whileFuel, if_pos hcond, ht], hI, .cons hR hrun⟩

end Grouping
