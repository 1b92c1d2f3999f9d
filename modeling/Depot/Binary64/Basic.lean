/-!
# Binary64 numbers

Times and measured values are double precision numbers: a mantissa of 53 bits and a power of two.
The module keeps them as exact integers, `mantissa · 2 ^ exponent`, and rounds a fraction to the
nearest of them, a tie to the even mantissa.
-/

namespace Depot

/-- A double precision number. A finite one has the value `mantissa · 2 ^ exponent`. -/
inductive Binary64 where
  | finite (negative : Bool) (mantissa : Nat) (exponent : Int)
  | infinite (negative : Bool)
  | notANumber
  deriving DecidableEq, Repr, Inhabited

namespace Binary64

/-- The exponent of the smallest numbers. -/
def leastExponent : Int := -1074

/-- The exponent of the greatest numbers. -/
def greatestExponent : Int := 971

/-- The number zero. -/
def zero (negative : Bool) : Binary64 := .finite negative 0 leastExponent

/-- A quotient rounded to the nearest integer, a tie to the even one. -/
def roundEven (num den : Nat) : Nat :=
  let whole := num / den
  let twice := 2 * (num % den)
  if twice < den then whole
  else if den < twice then whole + 1
  else whole + whole % 2

/-- The power of two of the leading bit of a fraction. -/
def leadingBit (num den : Nat) : Int :=
  let e : Int := (num.log2 : Int) - den.log2
  if den * Nat.pow 2 e.toNat ≤ num * Nat.pow 2 (-e).toNat then e else e - 1

/-- The number nearest to a fraction, a tie to the even mantissa. -/
def ofFraction (negative : Bool) (num den : Nat) : Binary64 :=
  if num = 0 then zero negative
  else
    let q := max (leadingBit num den - 52) leastExponent
    let m := roundEven (num * Nat.pow 2 (-q).toNat) (den * Nat.pow 2 q.toNat)
    let (m, q) := if m = Nat.pow 2 53 then (Nat.pow 2 52, q + 1) else (m, q)
    if greatestExponent < q then .infinite negative else .finite negative m q

/-- The number nearest to `coefficient · 10 ^ exponent`. Powers of ten far out of range are not
expanded. -/
def ofDecimal (negative : Bool) (coefficient : Nat) (exponent : Int) : Binary64 :=
  if coefficient = 0 then zero negative
  else
    let place := exponent + (coefficient.log2 * 3 / 10 : Nat)
    if 400 < place then .infinite negative
    else if place + (coefficient.log2 : Nat) < -400 then zero negative
    else
      ofFraction negative (coefficient * Nat.pow 10 exponent.toNat) (Nat.pow 10 (-exponent).toNat)

/-- The number nearest to an integer. -/
def ofInt (n : Int) : Binary64 := ofFraction (n < 0) n.natAbs 1

/-- The value as a fraction, numerator and denominator, where the number is finite. -/
def toFraction? : Binary64 → Option (Int × Nat)
  | .finite negative m q =>
    let num : Nat := m * Nat.pow 2 q.toNat
    some (if negative then -(num : Int) else num, Nat.pow 2 (-q).toNat)
  | _ => none

/-- The value as an integer, where it is one. -/
def toInt? (x : Binary64) : Option Int :=
  match x.toFraction? with
  | some (num, den) => if num % den = 0 then some (num / den) else none
  | none => none

/-- Is it a number proper, of finite size? -/
def isFinite : Binary64 → Bool
  | .finite _ _ _ => true
  | _ => false

/-- Is the number zero, of either sign? -/
def isZero : Binary64 → Bool
  | .finite _ m _ => m == 0
  | _ => false

/-- Is the number greater than zero? -/
def isPositive : Binary64 → Bool
  | .finite negative m _ => !negative && m != 0
  | .infinite negative => !negative
  | .notANumber => false

example : ofDecimal false 1 (-1) = .finite false 7205759403792794 (-56) := by decide +kernel
example : ofDecimal false 1 400 = .infinite false := by decide +kernel

end Binary64

end Depot
