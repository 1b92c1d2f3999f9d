import Depot.Decimal.Basic
/-!
# Writing decimal numbers

A number is written with all its digits, so that reading it back gives the same sign, coefficient
and exponent. A point is enough as long as the exponent is not positive and the leading digit is at
most six places behind the point; otherwise the number is written with one digit before the point
and an exponent with its sign.
-/

namespace Depot.Decimal

/-- The digits of the coefficient as characters. -/
def digitChars (d : Decimal) : List Char := d.digits.map Text.digitChar

/-- Digits with the point after the first `places`; without a point where all digits stand before
it, and with zeros where the point stands before them. -/
def pointed (ds : List Char) (places : Int) : List Char :=
  if places ≤ 0 then '0' :: '.' :: List.replicate (-places).toNat '0' ++ ds
  else if ds.length ≤ places.toNat then ds
  else ds.take places.toNat ++ '.' :: ds.drop places.toNat

/-- An exponent with its sign. -/
def exponentText (e : Int) : List Char :=
  (if e < 0 then '-' else '+') :: (Text.digitsOf e.natAbs).map Text.digitChar

/-- A decimal number without its sign. -/
def unsignedChars (d : Decimal) : List Char :=
  if d.exponent ≤ 0 ∧ -6 ≤ d.adjusted then pointed d.digitChars (d.adjusted + 1)
  else pointed d.digitChars 1 ++ 'E' :: exponentText d.adjusted

/-- A decimal number as text. -/
def toText (d : Decimal) : String :=
  String.ofList ((if d.negative then ['-'] else []) ++ d.unsignedChars)

example : toText ⟨false, 18, -1⟩ = "1.8" := by decide +kernel
example : toText ⟨true, 0, 3⟩ = "-0E+3" := by decide +kernel
example : toText ⟨false, 12, 3⟩ = "1.2E+4" := by decide +kernel

end Depot.Decimal
