import Depot.Binary64.Shortest
import Depot.Json.Basic
import Depot.Text.Quoted
/-!
# Writing JSON

A value is written on one line: members and items are parted by a comma and a blank, a name and its
value by a colon and a blank. In a string only the quote, the backslash and the control characters
are escaped; all other characters stand for themselves, so a line holds no line end.

An integer with more than `maxDigits` digits cannot be written.
-/

namespace Depot.Json

/-- How a character is written inside a string. -/
def escapeChar (c : Char) : List Char :=
  if c = '"' then ['\\', '"']
  else if c = '\\' then ['\\', '\\']
  else if c = '\n' then ['\\', 'n']
  else if c = '\r' then ['\\', 'r']
  else if c = '\t' then ['\\', 't']
  else if c.toNat = 8 then ['\\', 'b']
  else if c.toNat = 12 then ['\\', 'f']
  else if c.toNat < 0x20 then '\\' :: 'u' :: Text.hexDigits 4 c.toNat
  else [c]

/-- A string between quotes. -/
def stringChars (s : String) : List Char := '"' :: s.toList.flatMap escapeChar ++ ['"']

/-- The words for the numbers without digits. -/
def floatWords : Binary64.Words := ⟨"Infinity", "NaN"⟩

mutual

/-- A value as text. -/
def chars : Json → List Char
  | .null => "null".toList
  | .bool b => (if b then "true" else "false").toList
  | .int n => (Text.decimalInt n).toList
  | .float x => (x.toText floatWords).toList
  | .str s => stringChars s
  | .array items => '[' :: itemChars items ++ [']']
  | .object members => '\x7b' :: memberChars members ++ ['\x7d']

/-- Items, parted by commas. -/
def itemChars : List Json → List Char
  | [] => []
  | [item] => item.chars
  | item :: items => item.chars ++ ',' :: ' ' :: itemChars items

/-- Members, parted by commas. -/
def memberChars : List (String × Json) → List Char
  | [] => []
  | [(name, value)] => stringChars name ++ ':' :: ' ' :: value.chars
  | (name, value) :: members =>
    stringChars name ++ ':' :: ' ' :: value.chars ++ ',' :: ' ' :: memberChars members

end

mutual

/-- Can the value be written? -/
def isWritable : Json → Bool
  | .int n => (Text.digitsOf n.natAbs).length ≤ maxDigits
  | .array items => itemsWritable items
  | .object members => membersWritable members
  | _ => true

/-- Can all items be written? -/
def itemsWritable : List Json → Bool
  | [] => true
  | item :: items => item.isWritable && itemsWritable items

/-- Can the values of all members be written? -/
def membersWritable : List (String × Json) → Bool
  | [] => true
  | (_, value) :: members => value.isWritable && membersWritable members

end

/-- A value as text on one line. -/
def render (j : Json) : String := String.ofList j.chars

end Depot.Json
