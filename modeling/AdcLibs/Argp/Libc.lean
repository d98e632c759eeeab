import Mathlib.Algebra.Ring.Int.Defs
import Mathlib.Algebra.Ring.Nat
import Mathlib.Tactic.Common

/-!
# The C library below `adc_argp.c`

Strings are lists of characters, without the terminator.  `strtol` and `strtoul`
are those of ISO C for base 0 and 64-bit `long`; the floating-point conversions,
with the types and comparisons that they need, are a parameter.
-/

namespace AdcLibs
namespace Argp

abbrev Str := List Char

/-- `isspace` -/
def isspace (c : Char) : Bool :=
  c == ' ' || c == '\t' || c == '\n' || c == '\x0b' || c == '\x0c' || c == '\r'

/-- The value of a digit or letter, for bases up to 36. -/
def digitValue (c : Char) : Option Nat :=
  if '0' ≤ c ∧ c ≤ '9' then some (c.toNat - '0'.toNat)
  else if 'a' ≤ c ∧ c ≤ 'z' then some (c.toNat - 'a'.toNat + 10)
  else if 'A' ≤ c ∧ c ≤ 'Z' then some (c.toNat - 'A'.toNat + 10)
  else none

/-- `c` is a digit of the base. -/
def isDigitOf (base : Nat) (c : Char) : Bool :=
  match digitValue c with
  | some d => d < base
  | none => false

/-- The number that digits stand for. -/
def digitsValue (base : Nat) (digits : Str) : Nat :=
  digits.foldl (fun n c => base * n + (digitValue c).getD 0) 0

/-- The base of a subject sequence for base 0, and the sequence from its first digit
on.  A `0x` without a hexadecimal digit is the octal number 0. -/
def subjectBase : Str → Nat × Str
  | '0' :: x :: d :: s =>
      if (x == 'x' || x == 'X') && isDigitOf 16 d then (16, d :: s) else (8, '0' :: x :: d :: s)
  | '0' :: s => (8, '0' :: s)
  | s => (10, s)

/-- The sign, the magnitude and the string behind the number at the start of `nptr`;
`none` when no conversion can be performed. -/
def strtoNumber (nptr : Str) : Option (Bool × Nat × Str) :=
  let s := nptr.dropWhile isspace
  let (negative, s) :=
    match s with
    | '-' :: s => (true, s)
    | '+' :: s => (false, s)
    | s => (false, s)
  let (base, s) := subjectBase s
  let digits := s.takeWhile (isDigitOf base)
  if digits = [] then none
  else some (negative, digitsValue base digits, s.dropWhile (isDigitOf base))

def longMax : Int := 2 ^ 63 - 1

def longMin : Int := -2 ^ 63

/-- `strtol(nptr, &endptr, 0)` -/
def strtol (nptr : Str) : Int × Str :=
  match strtoNumber nptr with
  | none => (0, nptr)
  | some (negative, magnitude, endptr) =>
      let n : Int := if negative then -magnitude else magnitude
      (max longMin (min n longMax), endptr)

def ulongMax : Nat := 2 ^ 64 - 1

/-- `strtoul(nptr, &endptr, 0)` -/
def strtoul (nptr : Str) : Nat × Str :=
  match strtoNumber nptr with
  | none => (0, nptr)
  | some (negative, magnitude, endptr) =>
      if magnitude > ulongMax then (ulongMax, endptr)
      else if negative then ((2 ^ 64 - magnitude) % 2 ^ 64, endptr)
      else (magnitude, endptr)

/-- `float` and `double`, as far as the parser uses them.  The conversions from
strings give the value, `endptr` and whether `errno` is `ERANGE` after them. -/
structure FloatEnv where
  Float : Type
  Double : Type
  strtof : Str → Float × Str × Bool
  strtod : Str → Double × Str × Bool
  /-- The conversion from `double` to `float`. -/
  ofDouble : Double → Float
  /-- The conversion from `float` to `double`. -/
  toDouble : Float → Double
  feq : Float → Float → Bool
  fle : Float → Float → Bool
  fneg : Float → Float
  hugeValf : Float
  fltMin : Float
  deq : Double → Double → Bool
  dle : Double → Double → Bool
  dneg : Double → Double
  hugeVal : Double
  dblMin : Double

example : strtol "  -0x1fz".toList = (-31, "z".toList) := by decide
example : strtoul "0xg".toList = (0, "xg".toList) := by decide

end Argp
end AdcLibs
