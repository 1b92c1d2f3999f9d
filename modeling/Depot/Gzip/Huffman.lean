/-!
# Huffman codes

A code gives each symbol a sequence of bits, and no sequence continues another. It is told by the
lengths alone: codes of one length are consecutive numbers in the order of their symbols, and the
first number of a length follows from the shorter codes. So a code is kept as the symbols of each
length, from one bit upwards, and reading a symbol walks along that list.
-/

namespace Depot.Gzip

/-- A code: the symbols of one bit, of two bits, and so on. -/
structure Huffman where
  levels : List (List Nat)
  deriving DecidableEq, Repr

namespace Huffman

/-- The greatest number of bits in a code. -/
def maxLength : Nat := 15

/-- The symbols of a given length. -/
def symbolsOfLength (lengths : List Nat) (n : Nat) : List Nat :=
  lengths.zipIdx.filterMap fun (length, symbol) => if length = n then some symbol else none

/-- The code in which the symbols have the given lengths; a symbol of length zero is not used. -/
def ofLengths (lengths : List Nat) : Huffman :=
  ⟨(List.range maxLength).map fun n => symbolsOfLength lengths (n + 1)⟩

/-- The number of codes that are left free after all levels, or none where a level has more symbols
than are free. -/
def free? (free : Nat) : List (List Nat) → Option Nat
  | [] => some free
  | symbols :: levels =>
    if 2 * free < symbols.length then none else free? (2 * free - symbols.length) levels

/-- Is every sequence of bits the start of a code, or the continuation of one? -/
def isComplete (h : Huffman) : Bool := free? 1 h.levels == some 0

/-- Has the code at most one symbol, and that of one bit? -/
def isTrivial (h : Huffman) : Bool :=
  match h.levels with
  | [] => true
  | first :: rest => first.length ≤ 1 && rest.all List.isEmpty

/-- Reads a symbol, given the least number of the level above and the bits read so far as a
number. -/
def readFrom :
    (levels : List (List Nat)) → (first code : Nat) → List Bool → Option (Nat × List Bool)
  | symbols :: levels, first, code, bit :: bits =>
    let code := 2 * code + bit.toNat
    let first := 2 * first
    match symbols[code - first]? with
    | some symbol => some (symbol, bits)
    | none => readFrom levels (first + symbols.length) code bits
  | _, _, _, _ => none

/-- Reads a symbol at the front of the bits. -/
def read (h : Huffman) (bits : List Bool) : Option (Nat × List Bool) := readFrom h.levels 0 0 bits

example : (ofLengths [2, 1, 2]).read [true, false, true] = some (0, [true]) := by decide

end Huffman

end Depot.Gzip
