import Depot.Binary64.Basic
import Depot.Dictionary
/-!
# JSON values

Log lines and list-valued settings are JSON. A `Json` value keeps integers apart from floating point
numbers, and keeps the members of an object in the order in which their names first occurred.
-/

namespace Depot

/-- A JSON value. -/
inductive Json where
  | null
  | bool (b : Bool)
  | int (n : Int)
  | float (x : Binary64)
  | str (s : String)
  | array (items : List Json)
  | object (members : List (String × Json))
  deriving Repr, Inhabited

namespace Json

/-- A member of a value; none where the value is no object or has no such member. -/
def field? (j : Json) (name : String) : Option Json :=
  match j with
  | .object members => Dictionary.get? members name
  | _ => none

/-- Does the value count as nothing? So do null, false, zero, and an empty text, list or object. -/
def isNothing : Json → Bool
  | null => true
  | bool b => !b
  | int n => n == 0
  | float x => x.isZero
  | str s => s.isEmpty
  | array items => items.isEmpty
  | object members => members.isEmpty

/-- The most digits that an integer may have as text. -/
def maxDigits : Nat := 4300

end Json

end Depot
