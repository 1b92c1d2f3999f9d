import Depot.Binary64.Basic
import Depot.Text.Digit
/-!
# The shortest decimal for a binary64 number

A finite number is written with the fewest decimal digits that read back as it, and of these with
the nearest. The reals that read back as a number form an interval around it; for one digit, two
digits and so on the module tests the two neighbours of the value on that decimal grid, in exact
integer arithmetic, and seventeen digits always suffice.
-/

namespace Depot.Binary64

/-- A value and the ends of the interval that rounds to it, as numerators over one denominator; the
ends belong to the interval where `closed`. -/
structure Rounding where
  value : Nat
  least : Nat
  greatest : Nat
  den : Nat
  closed : Bool

/-- The interval that rounds to `m · 2 ^ q`. Below a power of two the numbers lie twice as close. -/
def rounding (m : Nat) (q : Int) : Rounding :=
  let below := if m = Nat.pow 2 52 ∧ leastExponent < q then 1 else 2
  let scale := Nat.pow 2 (q - 2).toNat
  { value := 4 * m * scale, least := (4 * m - below) * scale, greatest := (4 * m + 2) * scale,
    den := Nat.pow 2 (2 - q).toNat, closed := m % 2 == 0 }

/-- `coefficient · 10 ^ place`, over the denominator `den`, and a numerator over it, brought to
integers that compare alike. -/
def aligned (coefficient : Nat) (place : Int) (den num : Nat) : Nat × Nat :=
  (coefficient * Nat.pow 10 place.toNat * den, num * Nat.pow 10 (-place).toNat)

/-- Does `coefficient · 10 ^ place` round to the value? -/
def Rounding.contains (r : Rounding) (coefficient : Nat) (place : Int) : Bool :=
  let (low, least) := aligned coefficient place r.den r.least
  let (high, greatest) := aligned coefficient place r.den r.greatest
  if r.closed then decide (least ≤ low ∧ high ≤ greatest)
  else decide (least < low ∧ high < greatest)

/-- The number of digits before the point of the value, not positive where it starts behind it. -/
def Rounding.places (r : Rounding) : Int :=
  let k : Int := (Text.digitsOf r.value).length - (Text.digitsOf r.den).length
  let (power, value) := aligned 1 k r.den r.value
  if power ≤ value then k + 1 else k

/-- The nearer of the value's neighbours on the grid of `n` digits that round to it, if any. -/
def Rounding.onGrid? (r : Rounding) (n : Nat) : Option (Nat × Int) :=
  let place := r.places - n
  let num := r.value * Nat.pow 10 (-place).toNat
  let den := r.den * Nat.pow 10 place.toNat
  let down := num / den
  match r.contains down place, r.contains (down + 1) place with
  -- both neighbours read back: the nearer one, and halfway between them the even one
  | true, true =>
    let twice := 2 * (num % den)
    if twice < den ∨ (twice = den ∧ down % 2 = 0) then some (down, place)
    else some (down + 1, place)
  | true, false => some (down, place)
  | false, true => some (down + 1, place)
  | false, false => none

/-- A coefficient and a power of ten that denote the value with the fewest digits. -/
def shortest (m : Nat) (q : Int) : Nat × Int :=
  let r := rounding m q
  ((List.range 17).findSome? fun n => r.onGrid? (n + 1)).getD (r.value / r.den, 0)

/-- Digits without the zeros at the end. -/
def dropTrailingZeros (digits : List Nat) : List Nat := (digits.reverse.dropWhile (· == 0)).reverse

/-- Digits with the point after the first `places`, and at least one digit on either side. -/
def pointedText (digits : List Nat) (places : Int) : List Char :=
  let ds := digits.map Text.digitChar
  if places ≤ 0 then '0' :: '.' :: List.replicate (-places).toNat '0' ++ ds
  else if ds.length ≤ places.toNat then
    ds ++ List.replicate (places.toNat - ds.length) '0' ++ ['.', '0']
  else ds.take places.toNat ++ '.' :: ds.drop places.toNat

/-- Digits with one before the point, and a signed exponent of two digits or more. -/
def scientificText (digits : List Nat) (exponent : Int) : List Char :=
  let ds := digits.map Text.digitChar
  let mantissa := if ds.length ≤ 1 then ds else ds.take 1 ++ '.' :: ds.drop 1
  mantissa ++ 'e' :: (if exponent < 0 then '-' else '+') ::
    (Text.decimalPadded 2 exponent.natAbs).toList

/-- The shortest text of a finite magnitude: positional from `0.0001` up to sixteen digits before
the point, scientific otherwise. -/
def magnitudeText (m : Nat) (q : Int) : List Char :=
  if m = 0 then ['0', '.', '0']
  else
    let (coefficient, place) := shortest m q
    let digits := Text.digitsOf coefficient
    let places : Int := place + digits.length
    let digits := dropTrailingZeros digits
    if -4 < places ∧ places ≤ 16 then pointedText digits places
    else scientificText digits (places - 1)

/-- The words that a format uses for the numbers without digits. -/
structure Words where
  infinity : String
  notANumber : String

/-- A number as text. -/
def toText (words : Words) : Binary64 → String
  | .finite negative m q => String.ofList ((if negative then ['-'] else []) ++ magnitudeText m q)
  | .infinite negative => (if negative then "-" else "") ++ words.infinity
  | .notANumber => words.notANumber

/-- The words of plain text. -/
def plainWords : Words := ⟨"inf", "nan"⟩

example : toText plainWords (ofDecimal false 25 (-1)) = "2.5" := by decide +kernel
example : toText plainWords (ofDecimal false 1 (-9)) = "1e-09" := by decide +kernel
example : toText plainWords (ofDecimal true 1000 0) = "-1000.0" := by decide +kernel

end Depot.Binary64
