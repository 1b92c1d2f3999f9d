import Depot.Binary64.Shortest
import Depot.Json.Basic
import Depot.Path
import Depot.Text.Quoted
/-!
# Values in messages

How a value is spelled where it is put into a message. A text stands for itself, unless it is asked
to be quoted or is part of a list or an object, where it is always quoted. The other values of JSON
have one spelling. A path is spelled as its text.
-/

namespace Depot.Json

mutual

/-- A value as it stands inside another one. -/
def quotedChars : Json → List Char
  | .null => "None".toList
  | .bool b => (if b then "True" else "False").toList
  | .int n => (Text.decimalInt n).toList
  | .float x => (x.toText Binary64.plainWords).toList
  | .str s => (Text.quoted s).toList
  | .array items => '[' :: quotedItems items ++ [']']
  | .object members => '\x7b' :: quotedMembers members ++ ['\x7d']

/-- Items, parted by commas. -/
def quotedItems : List Json → List Char
  | [] => []
  | [item] => item.quotedChars
  | item :: items => item.quotedChars ++ ',' :: ' ' :: quotedItems items

/-- Members, parted by commas. -/
def quotedMembers : List (String × Json) → List Char
  | [] => []
  | [(name, value)] => (Text.quoted name).toList ++ ':' :: ' ' :: value.quotedChars
  | (name, value) :: members =>
    (Text.quoted name).toList ++ ':' :: ' ' :: value.quotedChars ++
      ',' :: ' ' :: quotedMembers members

end

/-- A value as it stands in a message. -/
def spelledChars : Json → List Char
  | .str s => s.toList
  | value => value.quotedChars

end Depot.Json

namespace Depot.Logging

/-- A value that a record may hold. -/
inductive Value where
  | json (value : Json)
  | path (p : Path)
  deriving Repr

namespace Value

instance : Inhabited Value := ⟨.json .null⟩

/-- Does the value count as nothing? A path never does. -/
def isNothing : Value → Bool
  | json value => value.isNothing
  | path _ => false

/-- A value quoted. -/
def quotedChars : Value → List Char
  | json value => value.quotedChars
  | path p => "PosixPath(".toList ++ (Text.quoted p.toText).toList ++ [')']

/-- A value as it stands in a message. -/
def spelledChars : Value → List Char
  | json value => value.spelledChars
  | path p => p.toText.toList

/-- A value as a text. -/
def toText (v : Value) : String := String.ofList v.spelledChars

end Value

end Depot.Logging
