import Depot.Text.Digit
/-!
# Why a record cannot be written

Everything about a log record may be set to any value, and its message is made from a template and
arguments. The faults name the ways in which these do not go together.
-/

namespace Depot.Logging

/-- Why a record cannot be written. -/
inductive Fault where
  /-- A value is of a kind that cannot stand where it does, or there are too few or too many
  arguments. -/
  | wrongKind
  /-- An argument is asked for by a name that no argument has. -/
  | missingName
  /-- A value has too few items to tell of an exception. -/
  | missingItem
  /-- A value tells of an exception, but is none. -/
  | notException
  /-- A number does not fit the place where it is used. -/
  | outOfRange
  /-- The text would be too long to hold. -/
  | tooLong
  /-- A point of time is past the end of the calendar. -/
  | beyondCalendar
  /-- The template ends within a conversion. -/
  | incompleteConversion
  /-- The template ends within the name of an argument. -/
  | incompleteName
  | unknownLetter (letter : Char) (place : Nat)
  | widthTooBig
  | precisionTooBig
  /-- An integer has too many digits to be written. -/
  | tooManyDigits
  /-- What is to be written as an integer is not a number. -/
  | noInteger
  /-- What is to be a point of time is not a number. -/
  | noTime
  /-- A year has no full stamp. -/
  | yearOutOfRange (year : Int)
  deriving DecidableEq, Repr

/-- The message that goes with a fault. -/
def Fault.message : Fault → String
  | .wrongKind => "a value is of the wrong kind"
  | .missingName => "no argument has the name"
  | .missingItem => "a value has too few items"
  | .notException => "a value is no exception"
  | .outOfRange => "a number is out of range"
  | .tooLong => "the text is too long"
  | .beyondCalendar => "Value too large for defined data type"
  | .incompleteConversion => "incomplete format"
  | .incompleteName => "incomplete format key"
  | .unknownLetter c place =>
    let shown := if 31 ≤ c.toNat ∧ c.toNat ≤ 126 then c else '?'
    let code := String.ofList (Nat.toDigits 16 c.toNat)
    "unsupported format character '" ++ String.singleton shown ++ "' (0x" ++ code ++
      ") at index " ++ Text.decimal place
  | .widthTooBig => "width too big"
  | .precisionTooBig => "precision too big"
  | .tooManyDigits =>
    "Exceeds the limit (4300 digits) for integer string conversion; " ++
      "use sys.set_int_max_str_digits() to increase the limit"
  | .noInteger => "cannot convert float NaN to integer"
  | .noTime => "Invalid value NaN (not a number)"
  | .yearOutOfRange year => "year " ++ Text.decimalInt year ++ " is out of range"

end Depot.Logging
