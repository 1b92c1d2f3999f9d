import Depot.Binary64.Basic
import Depot.Text.Digit
/-!
# Decimals of a given precision

A number is rounded to a given number of places or digits by its exact value, a tie to the even
digit, and written positionally, with an exponent, or in the shorter way of the two.
-/

namespace Depot.Binary64

/-- The digits of a number as characters. -/
def numeralChars (n : Nat) : List Char := (Text.digitsOf n).map Text.digitChar

/-- `num / den` with so many places behind the point; without places a point is written where
asked. -/
def placedText (num den places : Nat) (point : Bool) : List Char :=
  let n := roundEven (num * Nat.pow 10 places) den
  let fraction := (Text.decimalPadded places (n % Nat.pow 10 places)).toList
  numeralChars (n / Nat.pow 10 places) ++
    (if places = 0 then (if point then ['.'] else []) else '.' :: fraction)

/-- The power of ten of the leading digit of `num / den`; zero for zero. -/
def leadingPlace (num den : Nat) : Int :=
  if num = 0 then 0
  else
    let k : Int := ((Text.digitsOf num).length : Int) - (Text.digitsOf den).length
    if den * Nat.pow 10 k.toNat ≤ num * Nat.pow 10 (-k).toNat then k else k - 1

/-- `num / den` rounded to `places + 1` digits: the digits as a number, and the power of ten of the
first. -/
def roundedDigits (num den places : Nat) : Nat × Int :=
  let k := leadingPlace num den
  let shift : Int := places - k
  let n := roundEven (num * Nat.pow 10 shift.toNat) (den * Nat.pow 10 (-shift).toNat)
  if Nat.pow 10 (places + 1) ≤ n then (n / 10, k + 1) else (n, k)

/-- Digits with one before the point, and an exponent of two digits or more. -/
def exponentText (letter : Char) (digits : List Char) (exponent : Int) (point : Bool) : List Char :=
  let mantissa := match digits with
    | [] => ['0']
    | [d] => if point then [d, '.'] else [d]
    | d :: ds => d :: '.' :: ds
  mantissa ++ letter :: (if exponent < 0 then '-' else '+') ::
    (Text.decimalPadded 2 exponent.natAbs).toList

/-- `num / den` with an exponent, and so many places behind the point. -/
def scientificPlaces (letter : Char) (num den places : Nat) (point : Bool) : List Char :=
  let (n, k) := roundedDigits num den places
  exponentText letter ((Text.decimalPadded (places + 1) n).toList) k point

/-- Drops zeros at the end. -/
def dropZeros (cs : List Char) : List Char := (cs.reverse.dropWhile (· == '0')).reverse

/-- `num / den` with so many digits, positional where that is short enough and with an exponent
otherwise. Zeros at the end are kept where asked. -/
def generalText (letter : Char) (num den digits : Nat) (keepZeros : Bool) : List Char :=
  let digits := max digits 1
  let (n, k) := roundedDigits num den (digits - 1)
  -- between these powers of ten no exponent is written
  if -4 ≤ k ∧ k < digits then
    let cs := placedText num den ((digits : Int) - 1 - k).toNat keepZeros
    -- zeros at the end go, and then the point if nothing is left behind it
    if keepZeros || !cs.contains '.' then cs
    else
      let cs := dropZeros cs
      if cs.getLast? = some '.' then cs.dropLast else cs
  else
    let cs := (Text.decimalPadded digits n).toList
    let cs := if keepZeros then cs else cs.take 1 ++ dropZeros (cs.drop 1)
    exponentText letter cs k keepZeros

end Depot.Binary64
