import Depot.Decimal.Reader
import Depot.Text.Quoted
/-!
# Version floors

A version floor is the least platform version that an artifact needs, a finite decimal number such
as `1.8` or `11`. Of several floors the greatest holds.
-/

namespace Depot.VersionFloor

/-- Why a text is no version floor. -/
inductive Refusal where
  | notDecimal (text : String)
  | notFinite (text : String)
  deriving DecidableEq, Repr

/-- The message that goes with a refusal. -/
def Refusal.message : Refusal → String
  | .notDecimal text => "Version floor is not a decimal number: " ++ Text.quoted text
  | .notFinite text => "Version floor is not a finite number: " ++ Text.quoted text

/-- Reads a version floor. -/
def parse (text : String) : Except Refusal Decimal :=
  match Decimal.numeral? text with
  | some (.number d) => .ok d
  | some _ => .error (.notFinite text)
  | none => .error (.notDecimal text)

end Depot.VersionFloor
