import Depot.Binary64.Basic
import Depot.Logging.Fault
import Depot.Logging.Spelling
/-!
# Points of time

A point of time is a number of seconds since the start of 1970. It is written as a date and a time
of day in universal time, by the calendar that repeats every 400 years.

Its seconds must fit a word of 64 bits, and its year, counted from 1900, one of 32 bits. Beyond that
a plain stamp needs a year that fits a word of 32 bits itself, and a full stamp one of four digits.
-/

namespace Depot

/-- A date. -/
structure Date where
  year : Int
  month : Nat
  day : Nat
  deriving DecidableEq, Repr

namespace Date

/-- The date that lies so many days after the first of January 1970. Years are counted from March,
so that the leap day comes last, and in cycles of 400 years. -/
def ofDays (days : Int) : Date :=
  let shifted := days + 719468
  let era := Int.fdiv shifted 146097
  let dayOfEra := (Int.fmod shifted 146097).toNat
  let yearOfEra := (dayOfEra - dayOfEra / 1460 + dayOfEra / 36524 - dayOfEra / 146096) / 365
  let dayOfYear := dayOfEra - (365 * yearOfEra + yearOfEra / 4 - yearOfEra / 100)
  let shiftedMonth := (5 * dayOfYear + 2) / 153
  let day := dayOfYear - (153 * shiftedMonth + 2) / 5 + 1
  let month := if shiftedMonth < 10 then shiftedMonth + 3 else shiftedMonth - 9
  let year := yearOfEra + era * 400
  ⟨if month ≤ 2 then year + 1 else year, month, day⟩

example : ofDays 0 = ⟨1970, 1, 1⟩ := by decide
example : ofDays 11016 = ⟨2000, 2, 29⟩ := by decide
example : ofDays (-1) = ⟨1969, 12, 31⟩ := by decide

end Date

/-- A number of seconds since the start of 1970. -/
inductive Seconds where
  | exact (n : Int)
  | measured (x : Binary64)
  deriving DecidableEq, Repr

namespace Logging

/-- A value as a number of seconds. -/
def Value.seconds? : Value → Option Seconds
  | .json (.int n) => some (.exact n)
  | .json (.bool b) => some (.exact b.toNat)
  | .json (.float x) => some (.measured x)
  | _ => none

end Logging

/-- A point of time: whole seconds since the start of 1970, and millionths of the next second. -/
structure Instant where
  seconds : Int
  micros : Nat
  deriving DecidableEq, Repr

namespace Instant

open Logging (Fault)

/-- The fault of a measured number that is infinite or none. -/
def faultOf : Binary64 → Fault
  | .notANumber => .noTime
  | _ => .outOfRange

/-- The point of time with its fraction dropped. -/
def floored : Seconds → Except Fault Instant
  | .exact n => .ok ⟨n, 0⟩
  | .measured x =>
    match x.toFraction? with
    | some (num, den) => .ok ⟨Int.fdiv num den, 0⟩
    | none => .error (faultOf x)

/-- The nearest millionth of a second, a tie to the even one. The fraction is brought to millionths
in double precision, as it was measured. -/
def rounded : Seconds → Except Fault Instant
  | .exact n => .ok ⟨n, 0⟩
  | .measured x =>
    match x.toFraction? with
    | some (num, den) =>
      let whole := Int.tdiv num den
      let rest := Int.tmod num den
      -- what is left of a second is rounded to microseconds
      match (Binary64.ofFraction (rest < 0) (rest.natAbs * 1000000) den).toFraction? with
      | some (n, d) =>
        let micros : Int := Binary64.roundEven n.natAbs d
        let micros := if n < 0 then -micros else micros
        .ok ⟨whole + Int.fdiv micros 1000000, (Int.fmod micros 1000000).toNat⟩
      | none => .ok ⟨whole, 0⟩
    | none => .error (faultOf x)

/-- The date of a point of time. -/
def date (t : Instant) : Date := .ofDays (Int.fdiv t.seconds 86400)

/-- The time of day, to the second. -/
def clock (t : Instant) : String :=
  let second := (Int.fmod t.seconds 86400).toNat
  let two := Text.decimalPadded 2
  two (second / 3600) ++ ":" ++ two (second / 60 % 60) ++ ":" ++ two (second % 60)

/-- Month and day. -/
def monthAndDay (t : Instant) : String :=
  "-" ++ Text.decimalPadded 2 t.date.month ++ "-" ++ Text.decimalPadded 2 t.date.day

/-- Does the number fit a signed word of so many bits? -/
def fitsWord (bits : Nat) (n : Int) : Bool :=
  let bound := Int.ofNat (Nat.pow 2 (bits - 1))
  n < bound && -bound ≤ n

/-- A point of time that the calendar has, unless there is none. -/
def inCalendar (t : Instant) : Except Fault Instant :=
  if !fitsWord 64 t.seconds then .error .outOfRange
  else if !fitsWord 32 (t.date.year - 1900) then .error .beyondCalendar
  else .ok t

/-- A point of time as a stamp in a line of text: to the second, the year as it is. -/
def plainStamp (s : Seconds) : Except Fault String := do
  let t ← (← floored s).inCalendar
  if !fitsWord 32 t.date.year then throw .outOfRange
  else return Text.decimalInt t.date.year ++ t.monthAndDay ++ "T" ++ t.clock ++ "+0000"

/-- A point of time as a full stamp, with its millionths where there are any. A year that does not
fit a word is reported as the word that it leaves. -/
def fullStamp (s : Seconds) : Except Fault String := do
  let t ← (← rounded s).inCalendar
  let year := Int.bmod t.date.year (Nat.pow 2 32)
  if year < 1 ∨ 9999 < year then throw (.yearOutOfRange year)
  else return Text.decimalPadded 4 year.toNat ++ t.monthAndDay ++ "T" ++ t.clock ++
    (if t.micros = 0 then "" else "." ++ Text.decimalPadded 6 t.micros) ++ "+00:00"

end Instant

end Depot
