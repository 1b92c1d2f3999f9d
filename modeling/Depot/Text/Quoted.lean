import Depot.Text.Printable
/-!
# Quoted text

Messages quote the text they complain about, so that blanks and invisible characters show. The quote
is `'`, unless the text holds that and no `"`. A backslash and the quote are escaped by a backslash,
tab and line ends by their letters, and any other character without a picture by its code point in
two, four or eight hexadecimal digits.
-/

namespace Depot.Text

/-- A hexadecimal digit in lower case. -/
def hexDigit (n : Nat) : Char := Nat.digitChar (n % 16)

/-- The last `width` hexadecimal digits of a number. -/
def hexDigits : (width n : Nat) → List Char
  | 0, _ => []
  | width + 1, n => hexDigits width (n / 16) ++ [hexDigit n]

/-- A character by its code point, in as few as two, four or eight digits. -/
def escapeCode (c : Char) : List Char :=
  if c.toNat ≤ 0xFF then '\\' :: 'x' :: hexDigits 2 c.toNat
  else if c.toNat ≤ 0xFFFF then '\\' :: 'u' :: hexDigits 4 c.toNat
  else '\\' :: 'U' :: hexDigits 8 c.toNat

/-- How one character of a text is shown between quotes. -/
def quoteChar (quote c : Char) : List Char :=
  if c = quote ∨ c = '\\' then ['\\', c]
  else if c = '\t' then ['\\', 't']
  else if c = '\n' then ['\\', 'n']
  else if c = '\r' then ['\\', 'r']
  else if isPrintable c then [c]
  else escapeCode c

/-- The quote to put around a text. -/
def quoteFor (s : String) : Char :=
  if s.toList.contains '\'' && !s.toList.contains '"' then '"' else '\''

/-- The text between quotes, with invisible characters escaped. -/
def quoted (s : String) : String :=
  let quote := quoteFor s
  String.ofList (quote :: s.toList.flatMap (quoteChar quote) ++ [quote])

example : quoted "g:a" = "'g:a'" := by decide
example : quoted "it's" = "\"it's\"" := by decide
example : quoted "a\n\x01" = "'a\\n\\x01'" := by decide

end Depot.Text
