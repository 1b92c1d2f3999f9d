import Depot.Text.Digit
/-!
# Decimal numbers

A decimal number is a sign, a coefficient and a power of ten. Numbers of equal value may differ in
their spelling, `1.8` and `1.80`, or `0` and `-0`; a `Decimal` keeps the spelling, and
`Decimal.lt` compares values.

The comparison never expands the power of ten, whose exponent may have eighteen digits: it compares
the places of the leading digits first, and aligns the coefficients only where these agree, so that
the shift is bounded by the lengths of the coefficients.
-/

namespace Depot

/-- A decimal number: `coefficient · 10 ^ exponent`, negated where `negative`. -/
structure Decimal where
  negative : Bool
  coefficient : Nat
  exponent : Int
  deriving DecidableEq, Repr, Inhabited

namespace Decimal

/-- The digits of the coefficient, most significant first; zero has one. -/
def digits (d : Decimal) : List Nat := Text.digitsOf d.coefficient

/-- The power of ten of the leading digit. -/
def adjusted (d : Decimal) : Int := d.exponent + (d.digits.length - 1 : Nat)

/-- The greatest power of ten that a leading digit may have. -/
def greatestAdjusted : Int := 999999999999999999

/-- The least power of ten that a last digit may have. -/
def leastExponent : Int := -1999999999999999997

/-- Is the number within the range of exponents? -/
def InRange (d : Decimal) : Prop := d.adjusted ≤ greatestAdjusted ∧ leastExponent ≤ d.exponent

instance (d : Decimal) : Decidable d.InRange := inferInstanceAs (Decidable (_ ∧ _))

/-- Compares the magnitudes of two numbers other than zero: the place of the leading digit decides,
and for equal places the coefficients, brought to the lesser exponent. -/
def magnitudeLt (a b : Decimal) : Bool :=
  if a.adjusted = b.adjusted then
    decide (a.coefficient * Nat.pow 10 (a.exponent - b.exponent).toNat <
      b.coefficient * Nat.pow 10 (b.exponent - a.exponent).toNat)
  else decide (a.adjusted < b.adjusted)

/-- Is the value of `a` less than the value of `b`? -/
def lt (a b : Decimal) : Bool :=
  if a.coefficient = 0 then b.coefficient != 0 && !b.negative
  else if b.coefficient = 0 then a.negative
  else match a.negative, b.negative with
    | true, false => true
    | false, true => false
    | false, false => magnitudeLt a b
    | true, true => magnitudeLt b a

/-- The greater of two numbers, and the first where their values are equal. -/
def max (a b : Decimal) : Decimal := if lt a b then b else a

/-- Adds a number to a maximum that may still be missing. -/
def maxOption (current : Option Decimal) (d : Decimal) : Option Decimal :=
  match current with
  | none => some d
  | some c => some (max c d)

end Decimal

end Depot
