import Depot.Binary64.Basic
import Depot.Text.Blank
import Depot.Text.Digit
/-!
# Reading binary64 numbers

A number is written with an optional sign, digits with at most one point and at least one digit, and
an optional exponent; or it is one of the words `inf`, `infinity` and `nan` in any case. Blanks
around it are dropped. Without blanks, single underscores may stand between other characters.
-/

namespace Depot.Binary64

/-- Is it a blank around a number? The separators of units and records are none. -/
def isNumberBlank (c : Char) : Bool := Text.isBlank c && !(0x1C ≤ c.toNat && c.toNat ≤ 0x1F)

/-- The characters without the blanks at either end. -/
def trimBlanks (cs : List Char) : List Char :=
  ((cs.dropWhile isNumberBlank).reverse.dropWhile isNumberBlank).reverse

/-- Reads an exponent up to the end of the text. -/
def exponentOf? : List Char → Option Int
  | [] => some 0
  | e :: cs =>
    if e = 'e' ∨ e = 'E' then
      let (negative, cs) := Text.splitSign cs
      match Text.splitDigits cs with
      | ([], _) => none
      | (ds, []) => some (if negative then -(Text.ofDigits ds : Int) else Text.ofDigits ds)
      | _ => none
    else none

/-- Reads the digits of a number up to the end of the text. -/
def digitsOf? (negative : Bool) (cs : List Char) : Option Binary64 :=
  let (whole, rest) := Text.splitDigits cs
  let (fraction, rest) : List Nat × List Char :=
    match rest with
    | '.' :: rest => Text.splitDigits rest
    | _ => ([], rest)
  if whole.isEmpty && fraction.isEmpty then none
  else (exponentOf? rest).map fun e =>
    ofDecimal negative (Text.ofDigits (whole ++ fraction)) (e - (fraction.length : Nat))

/-- Reads a number without blanks and underscores. -/
def parsePlain? (cs : List Char) : Option Binary64 :=
  let (negative, cs) := Text.splitSign cs
  let word := String.ofList (cs.map Char.toLower)
  if word = "inf" ∨ word = "infinity" then some (.infinite negative)
  else if word = "nan" then some .notANumber
  else digitsOf? negative cs

/-- Do two underscores follow one another? -/
def hasDoubleUnderscore : List Char → Bool
  | '_' :: '_' :: _ => true
  | _ :: cs => hasDoubleUnderscore cs
  | [] => false

/-- A number without its underscores, where they stand singly between other characters. -/
def dropUnderscores? (cs : List Char) : Option (List Char) :=
  if cs.head? = some '_' ∨ cs.getLast? = some '_' ∨ hasDoubleUnderscore cs then none
  else some (cs.filter (· ≠ '_'))

/-- Reads a number. -/
def parse? (s : String) : Option Binary64 :=
  match parsePlain? (trimBlanks s.toList) with
  | some x => some x
  | none => (dropUnderscores? s.toList).bind parsePlain?

example : parse? " 2.5e0 " = some (ofDecimal false 25 (-1)) := by decide +kernel
example : parse? "1_000" = some (ofInt 1000) := by decide +kernel
example : parse? "1e" = none := by decide +kernel

end Depot.Binary64
