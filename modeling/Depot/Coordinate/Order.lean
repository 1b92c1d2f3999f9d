import Depot.Coordinate.Basic
/-!
# Coordinates in order

Coordinates are listed in the order of their sort keys, compared text by text and, within a text, by
code point.
-/

namespace Depot.Coordinate

/-- Does `a` come no later than `b`? -/
def precedes (a b : Coordinate) : Bool :=
  !b.sortKey.lex a.sortKey fun s t => decide (s < t)

/-- The distinct coordinates of a list in order. -/
def sorted (cs : List Coordinate) : List Coordinate := cs.eraseDups.mergeSort precedes

end Depot.Coordinate
