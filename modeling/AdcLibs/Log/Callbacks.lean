import AdcLibs.Argp.Numerals
import Mathlib.Algebra.Ring.Int.Defs

/-!
# The callbacks of the logger

`adc_log_msg`, the tables of levels, and what `stderr_callback` and `file_callback` write
when they get a message.  They are `none` where they read what is not there: through
`NULL`, of closed arguments, past the end of a table, or of arguments that do not fit
their format.  `adc_log_level_string` tests a level before it reads the table; the
callbacks do not.
-/

namespace AdcLibs
namespace AdcLog

open Argp

/-! ## Times -/

/-- `struct tm` -/
structure Tm where
  tmSec : Int
  tmMin : Int
  tmHour : Int
  tmMday : Int
  tmMon : Int
  tmYear : Int
deriving DecidableEq, Repr

/-- A field of `strftime` of two digits. -/
def twoDigits (n : Int) : Str :=
  List.replicate (2 - (intText n).length) '0' ++ intText n

/-- The conversions of `strftime` that the callbacks use. -/
def Tm.conversion (tm : Tm) : Char → Str
  | 'Y' => intText (tm.tmYear + 1900)
  | 'm' => twoDigits (tm.tmMon + 1)
  | 'd' => twoDigits tm.tmMday
  | 'H' => twoDigits tm.tmHour
  | 'M' => twoDigits tm.tmMin
  | 'S' => twoDigits tm.tmSec
  | c => ['%', c]

/-- The text of a format of `strftime`. -/
def Tm.text (tm : Tm) : Str → Str
  | '%' :: c :: format => tm.conversion c ++ tm.text format
  | c :: format => c :: tm.text format
  | [] => []

/-- What `buf` holds after `buf[strftime(buf, size, format, tm)] = '\0'`. -/
def strftime (size : Nat) (format : Str) (tm : Tm) : Str :=
  if (tm.text format).length + 1 ≤ size then tm.text format else []

/-! ## Levels -/

/-- The levels of the log macros. -/
inductive AdcLogLevel
  | debug
  | info
  | warn
  | error
deriving DecidableEq, Repr

/-- The enumeration constant. -/
def AdcLogLevel.code : AdcLogLevel → Int
  | .debug => 0
  | .info => 1
  | .warn => 2
  | .error => 3

def sLevelStrings : List Str :=
  ["DEBUG".toList, "INFO".toList, "WARN".toList, "ERROR".toList]

def colorReset : Str := "\x1b[0m".toList
def colorRed : Str := "\x1b[31m".toList
def colorGreen : Str := "\x1b[32m".toList
def colorYellow : Str := "\x1b[33m".toList
def colorCyan : Str := "\x1b[36m".toList
def colorGray : Str := "\x1b[90m".toList

def sLevelColors : List Str := [colorCyan, colorGreen, colorYellow, colorRed]

/-- The entry of a table of levels; `none` is past its ends. -/
def levelEntry (table : List Str) (level : Int) : Option Str :=
  if 0 ≤ level then table[level.toNat]? else none

/-- From `ADC_LOG_DEBUG` to `ADC_LOG_ERROR`. -/
def LevelInRange (level : Int) : Prop :=
  level ≥ AdcLogLevel.debug.code ∧ level ≤ AdcLogLevel.error.code

instance (level : Int) : Decidable (LevelInRange level) :=
  inferInstanceAs (Decidable (_ ∧ _))

/-- `adc_log_level_string`; `none` is a read past the ends of the table. -/
def adcLogLevelString (level : Int) : Option Str :=
  if level ≥ AdcLogLevel.debug.code ∧ level ≤ AdcLogLevel.error.code then
    levelEntry sLevelStrings level
  else some []

theorem code_inRange (level : AdcLogLevel) : LevelInRange level.code := by
  cases level with
  | debug | info | warn | error => decide

/-- The tables of levels have entries for the levels of the macros. -/
theorem levelEntry_ne_none_iff {table : List Str} (h : table.length = 4) (level : Int) :
    levelEntry table level ≠ none ↔ LevelInRange level := by
  rw [levelEntry, LevelInRange, AdcLogLevel.code, AdcLogLevel.code]
  split
  · next hnonneg =>
      rw [ne_eq, List.getElem?_eq_none_iff, h]
      omega
  · next hneg => exact iff_of_false (fun hne => hne rfl) fun hrange => hneg hrange.1

/-- `adc_log_level_string` reads the table at no other level. -/
theorem adcLogLevelString_ne_none (level : Int) : adcLogLevelString level ≠ none := by
  rw [adcLogLevelString]
  split
  · next hrange => exact (levelEntry_ne_none_iff rfl level).mpr hrange
  · exact Option.some_ne_none _

/-! ## Messages -/

/-- What the handlers, the lock handlers, the streams and the arguments are. -/
structure ClientTypes where
  /-- The handlers that a client registers, as `adc_log_log_handler` -/
  Client : Type
  /-- `adc_log_lock_handler` -/
  LockHandler : Type
  /-- `void *` and `FILE *`, without `NULL` -/
  Ptr : Type
  /-- `va_list` -/
  Args : Type

variable (C : ClientTypes)

/-- `adc_log_msg`; `none` is `NULL`, and for `args` that no `va_list` is open. -/
@[ext]
structure AdcLogMsg where
  fmt : Option Str
  file : Option Str
  line : Int
  level : Int
  args : Option C.Args
  time : Option Tm
  userdata : Option C.Ptr

/-- What is done to a stream. -/
inductive StreamOp
  | write (fp : C.Ptr) (text : Str)
  | flush (fp : C.Ptr)

variable {C} (vfprintf : Str → C.Args → Option Str)

/-- The text of a message. -/
def AdcLogMsg.text (msg : AdcLogMsg C) : Option Str := do
  vfprintf (← msg.fmt) (← msg.args)

/-! ## Writing -/

/-- The conversion `%-5s`. -/
def padLevel (s : Str) : Str := s ++ List.replicate (5 - s.length) ' '

/-- `file_callback` -/
def fileCallback (msg : AdcLogMsg C) : Option (List (StreamOp C)) := do
  let buf := strftime 64 "%Y-%m-%d %H:%M:%S".toList (← msg.time)
  let fp ← msg.userdata
  let level ← levelEntry sLevelStrings msg.level
  let file ← msg.file
  let text ← msg.text vfprintf
  some
    [.write fp (buf ++ " ".toList ++ padLevel level ++ " ".toList ++ file ++ ":".toList ++
        intText msg.line ++ ": ".toList),
      .write fp text, .write fp "\n".toList, .flush fp]

/-- `stderr_callback` with `ADC_LOG_USE_COLOR`, which is always defined -/
def stderrCallback (msg : AdcLogMsg C) : Option (List (StreamOp C)) := do
  let buf := strftime 16 "%H:%M:%S".toList (← msg.time)
  let fp ← msg.userdata
  let color ← levelEntry sLevelColors msg.level
  let level ← levelEntry sLevelStrings msg.level
  let file ← msg.file
  let text ← msg.text vfprintf
  some
    [.write fp (buf ++ " ".toList ++ color ++ padLevel level ++ " ".toList ++ colorReset ++
        colorGray ++ file ++ ":".toList ++ intText msg.line ++ ":".toList ++ colorReset ++
        " ".toList),
      .write fp text, .write fp "\n".toList, .flush fp]

/-- What a callback needs of its message. -/
structure AdcLogMsg.Readable (msg : AdcLogMsg C) : Prop where
  time : msg.time ≠ none
  stream : msg.userdata ≠ none
  level : LevelInRange msg.level
  file : msg.file ≠ none
  text : msg.text vfprintf ≠ none

theorem readable_iff (msg : AdcLogMsg C) :
    msg.Readable vfprintf ↔ (msg.time ≠ none ∧ msg.userdata ≠ none) ∧
      LevelInRange msg.level ∧ msg.file ≠ none ∧ msg.text vfprintf ≠ none :=
  ⟨fun h => ⟨⟨h.time, h.stream⟩, h.level, h.file, h.text⟩,
    fun h => ⟨h.1.1, h.1.2, h.2.1, h.2.2.1, h.2.2.2⟩⟩

instance (msg : AdcLogMsg C) : Decidable (msg.Readable vfprintf) :=
  have (α : Type) (x : Option α) : Decidable (x ≠ none) :=
    decidable_of_iff (x.isSome = true) Option.isSome_iff_ne_none
  decidable_of_iff _ (readable_iff vfprintf msg).symm

/-- `file_callback` gets through on the messages that it can read. -/
theorem fileCallback_ne_none_iff (msg : AdcLogMsg C) :
    fileCallback vfprintf msg ≠ none ↔ msg.Readable vfprintf := by
  have hlevel : levelEntry sLevelStrings msg.level ≠ none ↔ LevelInRange msg.level :=
    levelEntry_ne_none_iff rfl _
  rw [readable_iff, ← hlevel, fileCallback]
  cases msg.time with
  | none => simp
  | some time =>
      cases msg.userdata with
      | none => simp
      | some fp =>
          cases levelEntry sLevelStrings msg.level with
          | none => simp
          | some level =>
              cases msg.file with
              | none => simp
              | some file =>
                  cases msg.text vfprintf with
                  | none => simp
                  | some text => simp

/-- So does `stderr_callback`. -/
theorem stderrCallback_ne_none_iff (msg : AdcLogMsg C) :
    stderrCallback vfprintf msg ≠ none ↔ msg.Readable vfprintf := by
  have hcolor : levelEntry sLevelColors msg.level ≠ none ↔ LevelInRange msg.level :=
    levelEntry_ne_none_iff rfl _
  have hlevels : levelEntry sLevelColors msg.level ≠ none ↔
      levelEntry sLevelStrings msg.level ≠ none :=
    hcolor.trans (levelEntry_ne_none_iff rfl _).symm
  rw [readable_iff, ← hcolor, stderrCallback]
  cases msg.time with
  | none => simp
  | some time =>
      cases msg.userdata with
      | none => simp
      | some fp =>
          cases hcolor : levelEntry sLevelColors msg.level with
          | none => simp
          | some color =>
              obtain ⟨level, hlevel⟩ := Option.ne_none_iff_exists'.mp
                (hlevels.mp (hcolor ▸ Option.some_ne_none color))
              rw [hlevel]
              cases msg.file with
              | none => simp
              | some file =>
                  cases msg.text vfprintf with
                  | none => simp
                  | some text => simp

example :
    @fileCallback ⟨Nat, Nat, Nat, Nat⟩ (fun fmt _ => some fmt)
        ⟨some "x".toList, some "a.c".toList, 7, 1, some 0, some ⟨5, 30, 12, 1, 0, 124⟩, some 3⟩ =
      some [.write 3 "2024-01-01 12:30:05 INFO  a.c:7: ".toList, .write 3 "x".toList,
        .write 3 "\n".toList, .flush 3] := by
  rfl

end AdcLog
end AdcLibs
