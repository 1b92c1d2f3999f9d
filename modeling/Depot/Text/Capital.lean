/-!
# Capital letters within ASCII

Names of log levels and encodings are compared without regard to case. Only names in ASCII occur, so
it is enough to know which characters turn into ASCII letters: the small letters, and the few
letters of other scripts whose capitals are ASCII letters.
-/

namespace Depot.Text

/-- The capitals of a character where they are ASCII letters; any other character stays. -/
def capital (c : Char) : List Char :=
  match c.toNat with
  | 0xDF => ['S', 'S']
  | 0x131 => ['I']
  | 0x17F => ['S']
  | 0xFB00 => ['F', 'F']
  | 0xFB01 => ['F', 'I']
  | 0xFB02 => ['F', 'L']
  | 0xFB03 => ['F', 'F', 'I']
  | 0xFB04 => ['F', 'F', 'L']
  | 0xFB05 => ['S', 'T']
  | 0xFB06 => ['S', 'T']
  | _ => [c.toUpper]

/-- The text in capitals, as far as the capitals are ASCII letters. -/
def capitals (s : String) : String := String.ofList (s.toList.flatMap capital)

/-- The text with its ASCII capitals made small. -/
def small (s : String) : String := String.ofList (s.toList.map Char.toLower)

example : capitals "crıtical" = "CRITICAL" := by decide

end Depot.Text
