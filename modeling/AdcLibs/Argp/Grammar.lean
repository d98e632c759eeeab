import AdcLibs.Argp.Model
import AdcLibs.Library.Grouping
import Mathlib.Data.List.GetD

/-!
# The grammar of the arguments

The arguments behind the program name are cut into groups: an argument that names an
option with a value takes the next argument, whatever it looks like, and every other
argument is a group by itself.  Each group stores to the target of its option or
records an error.  `adc_argp_parse` handles the groups from left to right.

What a rejected argument of a `bool` option leaves in the target of that option is
left open here.
-/

namespace AdcLibs
namespace Argp

open Grouping

/-! ## The groups -/

section Grammar

variable (B : Build) (opts : OptionTable)

/-- The index of the option that an argument names. -/
def lookup (arg : Str) : Option Nat :=
  let i := findOpt arg opts.1 (BitVec.ofNat 32 opts.1.length).toInt
  if i < 0 then none else some i.toNat

def optAt (i : Nat) : AdcArgpOption := opts.1.getD i default

/-- The value parser of a type; the other types have no value. -/
def valueParser : AdcArgpType → Option (Value B → Str → Value B × ErrorType)
  | .bool => some parseBool
  | .string => some parseString
  | .int => some parseInt
  | .uint => some parseUint
  | .float => some parseFloat
  | .double => some parseDouble
  | .help | .flag | .max => none

def takesValue (arg : Str) : Bool :=
  match lookup opts arg with
  | some i => (valueParser B (optAt opts i).valtype).isSome
  | none => false

/-- What the value parser of a type makes of an argument. -/
def argResult (type : AdcArgpType) (arg : Str) : Except ErrorType (Value B) :=
  match valueParser B type with
  | some parse =>
      let (v, err) := parse (.int 0) arg
      if err = .none then .ok v else .error err
  | none => .error .none

/-- The groups of the arguments behind the program name. -/
def argGroups (argv : List Str) : List (ItemGroup Str) :=
  groups (takesValue B opts) (argv.drop 1)

/-- The error that a group records. -/
def groupError : ItemGroup Str → Option ArgpError
  | .single arg => if lookup opts arg = none then some ⟨.optUnknown, none, arg⟩ else none
  | .pair name arg =>
      (lookup opts name).bind fun i =>
        match argResult B (optAt opts i).valtype arg with
        | .ok _ => none
        | .error err => some ⟨err, some i, arg⟩
  | .cut name => some ⟨.argMissing, lookup opts name, name⟩

/-- The target that a group stores to, with the value. -/
def groupStore : ItemGroup Str → Option (Loc × Value B)
  | .single arg =>
      (lookup opts arg).bind fun i =>
        if (optAt opts i).valtype = .flag then some ((optAt opts i).val, .int 1) else none
  | .pair name arg =>
      (lookup opts name).bind fun i =>
        match argResult B (optAt opts i).valtype arg with
        | .ok v => some ((optAt opts i).val, v)
        | .error _ => none
  | .cut _ => none

/-- The argument that a group starts with. -/
def groupName : ItemGroup Str → Str
  | .single arg => arg
  | .pair name _ => name
  | .cut name => name

/-- The group is a help option. -/
def isHelp (g : ItemGroup Str) : Bool :=
  match lookup opts (groupName g) with
  | some i => (optAt opts i).valtype == .help
  | none => false

/-- The group gives a `bool` option a numeral, and `loc` is the target of the option. -/
def BoolNumeral (g : ItemGroup Str) (loc : Loc) : Prop :=
  ∃ name arg i, g = .pair name arg ∧ lookup opts name = some i ∧
    (optAt opts i).valtype = .bool ∧ (optAt opts i).val = loc ∧
    (∃ err, argResult B .bool arg = .error err) ∧ ∃ v, argResult B .int arg = .ok v

variable {B}

/-- The store after a store to a target. -/
def applyStore : Option (Loc × Value B) → Store B → Store B
  | some (loc, v), store => store.set loc v
  | none, store => store

/-- What a group does to the store. -/
def GroupStep (g : ItemGroup Str) (store store' : Store B) : Prop :=
  ∀ loc, ¬ BoolNumeral B opts g loc → store' loc = applyStore (groupStore B opts g) store loc

end Grammar

/-! ## Looking up -/

variable {B : Build} {opts : OptionTable}

theorem findOptFrom_lt (longname : Bool) (arg : Str) (opts : List AdcArgpOption) (i : Nat) :
    findOptFrom longname arg opts i < i + opts.length := by
  induction opts generalizing i with
  | nil =>
      simp only [findOptFrom, List.length_nil]
      omega
  | cons opt opts ih =>
      have hnext := ih (i + 1)
      rw [findOptFrom, List.length_cons]
      split
      · omega
      · split <;> omega

theorem findOpt_lt (arg : Str) (opts : List AdcArgpOption) (optsLen : Int) :
    findOpt arg opts optsLen < opts.length := by
  have hfrom (longname : Bool) :
      findOptFrom longname arg (opts.take optsLen.toNat) 0 < opts.length := by
    have hlt := findOptFrom_lt longname arg (opts.take optsLen.toNat) 0
    rw [List.length_take] at hlt
    omega
  simp only [findOpt]
  split
  · exact hfrom true
  · split
    · exact hfrom false
    · omega

/-- An option that is found is in the table. -/
theorem lookup_lt {arg : Str} {i : Nat} (h : lookup opts arg = some i) :
    i < opts.1.length := by
  have hlt := findOpt_lt arg opts.1 (BitVec.ofNat 32 opts.1.length).toInt
  simp only [lookup] at h
  split at h
  · exact absurd h (by simp)
  · have hi := Option.some.inj h
    omega

theorem optAt_mem {i : Nat} (h : i < opts.1.length) : optAt opts i ∈ opts.1 := by
  rw [optAt, List.getD_eq_getElem _ _ h]
  exact List.getElem_mem h

/-- The types of accepted options: a flag and the help have no value, the others have. -/
theorem valueParser_isSome {i : Nat} (h : i < opts.1.length) :
    (valueParser B (optAt opts i).valtype).isSome = true ↔
      (optAt opts i).valtype ≠ .help ∧ (optAt opts i).valtype ≠ .flag := by
  have hmax := (opts.2.1 _ (optAt_mem h)).2.2.1
  cases htype : (optAt opts i).valtype <;> simp_all [valueParser]

/-- A group stores only to the target of the option that it names. -/
theorem groupStore_target {g : ItemGroup Str} {loc : Loc} {v : Value B}
    (h : groupStore B opts g = some (loc, v)) :
    ∃ i, lookup opts (groupName g) = some i ∧ (optAt opts i).valtype ≠ .help ∧
      (optAt opts i).val = loc := by
  cases g with
  | cut name => exact absurd h (by simp [groupStore])
  | single arg =>
      obtain ⟨i, hi, h⟩ := Option.bind_eq_some_iff.mp h
      split at h
      · next hflag =>
          refine ⟨i, hi, by rw [hflag]; decide, ?_⟩
          exact congrArg Prod.fst (Option.some.inj h)
      · exact absurd h (by simp)
  | pair name arg =>
      obtain ⟨i, hi, h⟩ := Option.bind_eq_some_iff.mp h
      split at h
      · next hok =>
          refine ⟨i, hi, fun hhelp => ?_, congrArg Prod.fst (Option.some.inj h)⟩
          rw [hhelp] at hok
          exact absurd hok (by simp [argResult, valueParser])
      · exact absurd h (by simp)

end Argp
end AdcLibs
