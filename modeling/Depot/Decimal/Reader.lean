import Depot.Decimal.Basic
import Depot.Text.Blank
/-!
# Reading decimal numbers

A decimal number is an optional sign, digits with at most one point and at least one digit, and an
optional exponent. Blanks around it are dropped, underscores may stand anywhere, and the digits may
be those of any script. The words for infinity and for "not a number", the latter with an optional
payload of digits, are numerals too, but denote no decimal number.
-/

namespace Depot.Decimal

/-- What a numeral denotes. -/
inductive Numeral where
  | number (d : Decimal)
  | infinity
  | notANumber
  deriving DecidableEq, Repr

/-- The ASCII form of one character of a numeral: nothing for an underscore, the ASCII digit for a
digit of any script. A character outside ASCII that is no digit, and the null character, have none.
-/
def plainChar? (c : Char) : Option (List Char) :=
  if c = '_' then some []
  else if c.toNat = 0 then none
  else if c.toNat < 0x80 then some [c]
  else (Text.digitValue? c).map fun d => [Text.digitChar d]

/-- The ASCII form of a numeral. -/
def plain? : List Char → Option (List Char)
  | [] => some []
  | c :: cs => do
    let front ← plainChar? c
    let back ← plain? cs
    return front ++ back

/-- Splits off a point and the digits after it, if there is a point. -/
def splitFraction : List Char → List Nat × List Char
  | '.' :: cs => Text.splitDigits cs
  | cs => ([], cs)

/-- Reads an exponent, if the text is one: the letter, an optional sign, and digits to the end. -/
def exponent? : List Char → Option Int
  | [] => some 0
  | e :: cs =>
    if e = 'e' ∨ e = 'E' then
      let (negative, cs) := Text.splitSign cs
      match Text.splitDigits cs with
      | ([], _) => none
      | (ds, []) =>
        let n := Text.ofDigits ds
        some (if negative then -(n : Int) else n)
      | _ => none
    else none

/-- Reads digits with an optional point and exponent, and places the coefficient. -/
def digits? (negative : Bool) (cs : List Char) : Option Decimal :=
  let (whole, rest) := Text.splitDigits cs
  let (fraction, rest) := splitFraction rest
  if whole.isEmpty && fraction.isEmpty then none
  else (exponent? rest).map fun e =>
    ⟨negative, Text.ofDigits (whole ++ fraction), e - (fraction.length : Nat)⟩

/-- Is the text a word for infinity? -/
def isInfinity (cs : List Char) : Bool :=
  let word := cs.map Char.toLower
  word == "inf".toList || word == "infinity".toList

/-- Is the text a word for "not a number", with an optional payload of digits? -/
def isNotANumber (cs : List Char) : Bool :=
  let word := cs.map Char.toLower
  let payload? := ["nan", "snan"].findSome? fun w =>
    if w.toList.isPrefixOf word then some (word.drop w.length) else none
  match payload? with
  | some payload => payload.all fun c => (Text.asciiDigit? c).isSome
  | none => false

/-- Reads a numeral. A number out of the range of exponents is none. -/
def numeral? (s : String) : Option Numeral := do
  let cs ← plain? (Text.stripChars s.toList)
  let (negative, cs) := Text.splitSign cs
  if isInfinity cs then return .infinity
  if isNotANumber cs then return .notANumber
  let d ← digits? negative cs
  if d.InRange then return .number d else none

example : numeral? " 1_0.5e-1 " = some (.number ⟨false, 105, -2⟩) := by decide +kernel
example : numeral? "-inf" = some .infinity := by decide +kernel
example : numeral? "1.2.3" = none := by decide +kernel

end Depot.Decimal
