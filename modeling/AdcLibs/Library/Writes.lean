import Mathlib.Logic.Function.Basic
import Mathlib.Tactic.Common

/-!
# Sequences of writes

A store is a function from keys to values.  After a sequence of writes each key
holds the value of the last write to it, or what it held before if there was none.
-/

namespace Writes

universe u v

variable {κ : Type u} {α : Type v} [DecidableEq κ]

/-- The store after a sequence of writes, from left to right. -/
def writeAll (ws : List (κ × α)) (store : κ → α) : κ → α :=
  ws.foldl (fun st w => Function.update st w.1 w.2) store

@[simp] theorem writeAll_nil (store : κ → α) : writeAll [] store = store := rfl

@[simp] theorem writeAll_cons (w : κ × α) (ws : List (κ × α)) (store : κ → α) :
    writeAll (w :: ws) store = writeAll ws (Function.update store w.1 w.2) := rfl

@[simp] theorem writeAll_append (ws ws' : List (κ × α)) (store : κ → α) :
    writeAll (ws ++ ws') store = writeAll ws' (writeAll ws store) :=
  List.foldl_append

/-- The values written to a key. -/
def writesTo (k : κ) (ws : List (κ × α)) : List α :=
  ws.filterMap fun w => if w.1 = k then some w.2 else none

theorem writesTo_cons_self (k : κ) (v : α) (ws : List (κ × α)) :
    writesTo k ((k, v) :: ws) = v :: writesTo k ws := by
  simp [writesTo]

theorem writesTo_cons_ne {k : κ} {w : κ × α} (h : w.1 ≠ k) (ws : List (κ × α)) :
    writesTo k (w :: ws) = writesTo k ws := by
  simp [writesTo, h]

theorem writesTo_map {β : Type*} (f : β → κ × α) (k : κ) (bs : List β) :
    writesTo k (bs.map f) = (bs.filter fun b => (f b).1 = k).map fun b => (f b).2 := by
  induction bs with
  | nil => rfl
  | cons b bs ih =>
      rw [List.map_cons]
      by_cases hk : (f b).1 = k
      · rw [List.filter_cons_of_pos (by simpa using hk), List.map_cons, ← ih]
        subst hk
        exact writesTo_cons_self _ _ _
      · rw [List.filter_cons_of_neg (by simpa using hk), ← ih, writesTo_cons_ne hk]

/-- The last write to a key decides what it holds. -/
theorem writeAll_apply (ws : List (κ × α)) (store : κ → α) (k : κ) :
    writeAll ws store k = ((writesTo k ws).getLast?).getD (store k) := by
  induction ws generalizing store with
  | nil => rfl
  | cons w ws ih =>
      obtain ⟨k', v⟩ := w
      rw [writeAll_cons, ih]
      by_cases hk : k' = k
      · subst hk
        rw [writesTo_cons_self, Function.update_self, List.getLast?_cons, Option.getD_some]
      · rw [writesTo_cons_ne hk, Function.update_of_ne (Ne.symm hk)]

end Writes
