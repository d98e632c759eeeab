import AdcLibs.Argp.Grammar

/-!
# The value parsers

A value parser either replaces the contents of the target or reports an error and
leaves them.  `parse_bool` calls `parse_int` on its own target and takes the error
code for the value, so that a numeral is stored and rejected.
-/

namespace AdcLibs
namespace Argp

variable {B : Build}

/-- Either every contents of the target are replaced by the same value, or they stay
and the error is the same. -/
def Transactional (f : Value B → Value B × ErrorType) : Prop :=
  (∃ v, ∀ out, f out = (v, .none)) ∨ ∃ err, err ≠ .none ∧ ∀ out, f out = (out, err)

theorem Transactional.store (v : Value B) : Transactional (B := B) fun _ => (v, .none) :=
  .inl ⟨v, fun _ => rfl⟩

/-- A check that reports an error goes in front. -/
theorem Transactional.check {f : Value B → Value B × ErrorType} (h : Transactional f)
    (c : Prop) [Decidable c] {err : ErrorType} (hne : err ≠ .none) :
    Transactional fun out => if c then (out, err) else f out := by
  by_cases hc : c
  · exact .inr ⟨err, hne, fun out => if_pos hc⟩
  · simpa only [if_neg hc] using h

theorem transactional_parseString (arg : Str) : Transactional (B := B) (parseString · arg) :=
  .store _

theorem transactional_parseInt (arg : Str) : Transactional (B := B) (parseInt · arg) :=
  ((Transactional.store _).check _ (by decide)).check _ (by decide)

theorem transactional_parseUint (arg : Str) : Transactional (B := B) (parseUint · arg) :=
  (((Transactional.store _).check _ (by decide)).check _ (by decide)).check _ (by decide)

theorem transactional_parseFloat (arg : Str) : Transactional (B := B) (parseFloat · arg) :=
  (((Transactional.store _).check _ (by decide)).check _ (by decide)).check _ (by decide)

theorem transactional_parseDouble (arg : Str) : Transactional (B := B) (parseDouble · arg) :=
  (((Transactional.store _).check _ (by decide)).check _ (by decide)).check _ (by decide)

/-- The error codes of `parse_int` are not those that `parse_bool` takes for values. -/
theorem parseInt_code (out : Value B) (arg : Str) :
    ¬ ((parseInt out arg).2.code = 1 ∨ (parseInt out arg).2.code = 0) := by
  simp only [parseInt]
  split
  · simp [ErrorType.code]
  · split
    · simp [ErrorType.code]
    · simp [ErrorType.code]

/-- Anything but `true` and `false` is rejected, with what `parse_int` leaves in the target. -/
theorem parseBool_of_ne {arg : Str} (htrue : arg ≠ "true".toList) (hfalse : arg ≠ "false".toList)
    (out : Value B) : parseBool out arg = ((parseInt out arg).1, .argInvalidBool) := by
  rw [parseBool, if_neg htrue, if_neg hfalse]
  exact if_pos (parseInt_code out arg)

/-- `parse_bool` is so unless `parse_int` accepts what it rejects. -/
theorem transactional_parseBool (arg : Str) :
    Transactional (B := B) (parseBool · arg) ∨
      (∃ v, ∀ out, parseBool (B := B) out arg = (v, .argInvalidBool)) ∧
        ∃ v, ∀ out, parseInt (B := B) out arg = (v, .none) := by
  by_cases htrue : arg = "true".toList
  · exact .inl (.inl ⟨.int 1, fun out => if_pos htrue⟩)
  · by_cases hfalse : arg = "false".toList
    · exact .inl (.inl ⟨.int 0, fun out => (if_neg htrue).trans (if_pos hfalse)⟩)
    · have hbool := parseBool_of_ne (B := B) htrue hfalse
      rcases transactional_parseInt (B := B) arg with
        ⟨v, (hv : ∀ out, parseInt out arg = (v, .none))⟩ |
          ⟨err, -, (herr : ∀ out, parseInt out arg = (out, err))⟩
      · exact .inr ⟨⟨v, fun out => by rw [hbool, hv]⟩, v, hv⟩
      · refine .inl (.inr ⟨.argInvalidBool, by decide, fun out => ?_⟩)
        exact (hbool out).trans (by rw [herr])

/-- The value parsers of the other types are so always. -/
theorem valueParser_transactional {type : AdcArgpType}
    {parse : Value B → Str → Value B × ErrorType} (h : valueParser B type = some parse)
    (hbool : type ≠ .bool) (arg : Str) : Transactional (parse · arg) := by
  cases type with
  | help | flag | max => exact absurd h (by simp [valueParser])
  | bool => exact absurd rfl hbool
  | string =>
      obtain rfl := Option.some.inj h
      exact transactional_parseString arg
  | int =>
      obtain rfl := Option.some.inj h
      exact transactional_parseInt arg
  | uint =>
      obtain rfl := Option.some.inj h
      exact transactional_parseUint arg
  | float =>
      obtain rfl := Option.some.inj h
      exact transactional_parseFloat arg
  | double =>
      obtain rfl := Option.some.inj h
      exact transactional_parseDouble arg

/-- What the value parser of an option does to the target, by its result. -/
theorem valueParser_spec {type : AdcArgpType} {parse : Value B → Str → Value B × ErrorType}
    (h : valueParser B type = some parse) (arg : Str) (out : Value B) :
    (∃ v, argResult B type arg = .ok v ∧ parse out arg = (v, .none)) ∨
      ∃ err, argResult B type arg = .error err ∧ err ≠ .none ∧ (parse out arg).2 = err ∧
        ((parse out arg).1 = out ∨
          type = .bool ∧ ∃ v, argResult B .int arg = .ok v) := by
  have hplain (htrans : Transactional (parse · arg)) :
      (∃ v, argResult B type arg = .ok v ∧ parse out arg = (v, .none)) ∨
        ∃ err, argResult B type arg = .error err ∧ err ≠ .none ∧ (parse out arg).2 = err ∧
          ((parse out arg).1 = out ∨ type = .bool ∧ ∃ v, argResult B .int arg = .ok v) := by
    rcases htrans with ⟨v, (hv : ∀ out, parse out arg = (v, .none))⟩ |
      ⟨err, hne, (herr : ∀ out, parse out arg = (out, err))⟩
    · exact .inl ⟨v, by simp [argResult, h, hv], hv out⟩
    · exact .inr ⟨err, by simp [argResult, h, herr, hne], hne, by rw [herr], .inl (by rw [herr])⟩
  by_cases hbool : type = .bool
  · subst hbool
    obtain rfl := Option.some.inj h
    rcases transactional_parseBool (B := B) arg with htrans | ⟨⟨v, hv⟩, w, hw⟩
    · exact hplain htrans
    · refine .inr ⟨.argInvalidBool, by simp [argResult, valueParser, hv], by decide,
        by rw [hv], .inr ⟨rfl, w, ?_⟩⟩
      simp [argResult, valueParser, hw]
  · exact hplain (valueParser_transactional h hbool arg)

end Argp
end AdcLibs
