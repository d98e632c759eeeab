import Mathlib.Data.List.DropRight

/-!
# Texts of lines with columns

A record is printed as a line, and its fields as columns of the line that are filled up
with blanks.  When no line contains the separator and no field ends in a blank, the
records can be read back from the text.
-/

namespace Columns

universe u v w

variable {α : Type u} {β : Type v} {γ : Type w} [DecidableEq α]

/-- The lines of a text, each ended by the separator. -/
def lines (sep : α) : List α → List (List α)
  | [] => []
  | c :: text =>
      if c = sep then [] :: lines sep text
      else
        match lines sep text with
        | [] => [[c]]
        | line :: rest => (c :: line) :: rest

theorem lines_cons {sep : α} {line : List α} (h : sep ∉ line) (text : List α) :
    lines sep (line ++ sep :: text) = line :: lines sep text := by
  induction line with
  | nil => simp [lines]
  | cons c line ih =>
      obtain ⟨hne, hline⟩ := not_or.mp (fun hor => h (List.mem_cons.mpr hor))
      rw [List.cons_append, lines, if_neg (Ne.symm hne), ih hline]

/-- The records of a text, where every line can be read. -/
def readLines (sep : α) (read : List α → Option β) (text : List α) : Option (List β) :=
  (lines sep text).mapM read

/-- The records that are printed as lines are read back. -/
theorem readLines_flatMap {sep : α} {read : List α → Option β} {print : γ → List α}
    {g : γ → β} {records : List γ}
    (h : ∀ r ∈ records, sep ∉ print r ∧ read (print r) = some (g r)) :
    readLines sep read (records.flatMap fun r => print r ++ [sep]) = some (records.map g) := by
  induction records with
  | nil => rfl
  | cons r records ih =>
      obtain ⟨⟨hsep, hread⟩, hrest⟩ := List.forall_mem_cons.mp h
      have ih := ih hrest
      rw [readLines] at ih
      rw [List.flatMap_cons, List.append_assoc, List.singleton_append, readLines,
        lines_cons hsep, List.mapM_cons, hread, ih]
      rfl

/-- A field without the blanks behind it. -/
def trim (blank : α) (field : List α) : List α := field.rdropWhile (· = blank)

theorem trim_append_replicate (blank : α) (field : List α) (n : Nat) :
    trim blank (field ++ List.replicate n blank) = trim blank field := by
  induction n with
  | zero => rw [List.replicate_zero, List.append_nil]
  | succ n ih =>
      rw [List.replicate_succ', ← List.append_assoc, trim,
        List.rdropWhile_concat_pos _ _ _ (by simp)]
      exact ih

theorem trim_eq_self {blank : α} {field : List α} (h : field.getLast? ≠ some blank) :
    trim blank field = field := by
  rw [trim, List.rdropWhile_eq_self_iff]
  intro hne hlast
  rw [List.getLast?_eq_some_getLast hne] at h
  exact h (congrArg some (of_decide_eq_true hlast))

end Columns
