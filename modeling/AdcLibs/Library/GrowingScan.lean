import AdcLibs.Library.Loops
import AdcLibs.Library.Runs

/-!
# Scans of a table that grows

A loop goes through a table by index and tests the index against the length anew in
every round, while the rounds may append to the table, and may fail.  As long as the
table has a bound and no round fails the loop ends, and it has then handled each entry of
the final table once, in order.
-/

namespace GrowingScan

open Loops
open Runs

universe u v

variable {σ : Type u} {α : Type v} {cond : σ → Bool} {body : σ → Option σ} {index : σ → Nat}
  {table : σ → List α}

/-- The loop is a scan of the table, which its rounds may extend. -/
structure Scan (cond : σ → Bool) (body : σ → Option σ) (index : σ → Nat)
    (table : σ → List α) : Prop where
  cond_iff : ∀ s, cond s = true ↔ index s < (table s).length
  index_body : ∀ s s', body s = some s' → index s' = index s + 1
  table_body : ∀ s s', body s = some s' → table s <+: table s'

/-- A round of the scan, with the entry that it handles. -/
def Handles (body : σ → Option σ) (index : σ → Nat) (table : σ → List α) (s : σ) (a : α)
    (s' : σ) : Prop :=
  (table s)[index s]? = some a ∧ body s = some s'

/-- No entry is removed or replaced. -/
theorem Scan.table_prefix (h : Scan cond body index table) {s t : σ}
    (hrounds : Rounds cond body s t) : table s <+: table t := by
  induction hrounds with
  | refl s => exact List.prefix_rfl
  | next _ hbody _ ih => exact (h.table_body _ _ hbody).trans ih

/-- From the index on, the rounds handle the entries of the final table in order. -/
theorem Scan.run (h : Scan cond body index table) {s t : σ} (hrounds : Rounds cond body s t)
    (hend : cond t = false) (hle : index s ≤ (table s).length) :
    Run (Handles body index table) s ((table t).drop (index s)) t := by
  induction hrounds with
  | refl s =>
      have hlast : ¬ index s < (table s).length := by
        rw [← h.cond_iff, hend]
        exact Bool.false_ne_true
      rw [List.drop_eq_nil_of_le (Nat.le_of_not_lt hlast)]
      exact .nil s
  | @next s s' t hcond hbody hrest ih =>
      have hlt := (h.cond_iff s).mp hcond
      have hprefix := h.table_prefix (Rounds.next hcond hbody hrest)
      have hlast : index s < (table t).length := Nat.lt_of_lt_of_le hlt hprefix.length_le
      have hentry : (table s)[index s]? = some ((table t)[index s]) := by
        rw [List.getElem?_eq_getElem hlt, hprefix.getElem hlt]
      have hnext : index s' ≤ (table s').length := by
        rw [h.index_body s s' hbody]
        exact Nat.lt_of_lt_of_le hlt (h.table_body s s' hbody).length_le
      rw [List.drop_eq_getElem_cons hlast, ← h.index_body s s' hbody]
      exact .cons ⟨hentry, hbody⟩ (ih hend hnext)

/-- With a bound on the table and no round that fails, the fuel of one test more than
rounds is enough. -/
theorem Scan.ends (h : Scan cond body index table) {I : σ → Prop} {bound : Nat}
    (hbody : ∀ s, I s → cond s = true → ∃ s', body s = some s' ∧ I s')
    (hbound : ∀ s, I s → (table s).length ≤ bound) {s : σ} (hs : I s) :
    ∃ t, whileChecked cond body (bound - index s + 1) s = some t ∧ I t := by
  refine whileChecked_of_measure (I := I) (fun s => bound - index s) ?_ hs (Nat.lt_succ_self _)
  intro s hs hcond
  obtain ⟨s', hnext, hinv⟩ := hbody s hs hcond
  have hlt := (h.cond_iff s).mp hcond
  have hle := hbound s hs
  refine ⟨s', hnext, hinv, ?_⟩
  rw [h.index_body s s' hnext]
  omega

end GrowingScan
