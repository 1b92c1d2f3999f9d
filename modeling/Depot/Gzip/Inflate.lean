import Depot.Gzip.Huffman
/-!
# Compressed data

Compressed data are bits, taken from each octet from the least one upwards. They come in blocks, of
which the last is marked: stored octets, or symbols in Huffman codes, which are fixed or sent in
front of the block. A symbol is an octet, the end of the block, or a length that is followed by a
distance: so many octets are repeated from so far back.

Whatever breaks these rules makes the data corrupt; how they are broken makes no difference.
-/

namespace Depot.Gzip

/-- A reader of bits, which fails on corrupt data. -/
abbrev BitReader := StateT (List Bool) Option

/-- The bits of an octet, the least one first. -/
def bitsOfOctet (b : UInt8) : List Bool :=
  (List.range 8).map fun i => b.toNat / Nat.pow 2 i % 2 == 1

/-- The bits of octets. -/
def bitsOfOctets (bs : List UInt8) : List Bool := bs.flatMap bitsOfOctet

namespace BitReader

/-- Reads one bit. -/
def bit : BitReader Bool
  | [] => none
  | b :: bits => some (b, bits)

/-- Reads a number of so many bits, the least one first. -/
def number : (width : Nat) → BitReader Nat
  | 0 => pure 0
  | width + 1 => do
    let low ← bit
    let high ← number width
    return low.toNat + 2 * high

/-- Drops bits up to the end of an octet. -/
def align : BitReader Unit := modify fun bits => bits.drop (bits.length % 8)

/-- Reads so many octets onto the output. -/
def octets : (count : Nat) → Array UInt8 → BitReader (Array UInt8)
  | 0, out => pure out
  | count + 1, out => do
    let b ← number 8
    octets count (out.push (UInt8.ofNat b))

/-- Reads a symbol. -/
def symbol (h : Huffman) : BitReader Nat := h.read

/-- Goes on only where a condition holds. -/
def require (condition : Bool) : BitReader Unit := if condition then pure () else failure

end BitReader

open BitReader

/-- The codes of a block: for octets and lengths, and for distances. -/
structure BlockCodes where
  literals : Huffman
  distances : Huffman

/-- The codes that need not be sent. -/
def BlockCodes.fixed : BlockCodes where
  literals := .ofLengths (List.replicate 144 8 ++ List.replicate 112 9 ++ List.replicate 24 7 ++
    List.replicate 8 8)
  distances := .ofLengths (List.replicate 32 5)

/-- The least length and the number of further bits, for each length symbol. -/
def lengthTable : List (Nat × Nat) :=
  [(3, 0), (4, 0), (5, 0), (6, 0), (7, 0), (8, 0), (9, 0), (10, 0), (11, 1), (13, 1), (15, 1),
    (17, 1), (19, 2), (23, 2), (27, 2), (31, 2), (35, 3), (43, 3), (51, 3), (59, 3), (67, 4),
    (83, 4), (99, 4), (115, 4), (131, 5), (163, 5), (195, 5), (227, 5), (258, 0)]

/-- The least distance and the number of further bits, for each distance symbol. -/
def distanceTable : List (Nat × Nat) :=
  [(1, 0), (2, 0), (3, 0), (4, 0), (5, 1), (7, 1), (9, 2), (13, 2), (17, 3), (25, 3), (33, 4),
    (49, 4), (65, 5), (97, 5), (129, 6), (193, 6), (257, 7), (385, 7), (513, 8), (769, 8),
    (1025, 9), (1537, 9), (2049, 10), (3073, 10), (4097, 11), (6145, 11), (8193, 12), (12289, 12),
    (16385, 13), (24577, 13)]

/-- Reads a quantity of which a symbol tells the least value and the further bits. -/
def quantity (table : List (Nat × Nat)) (symbol : Nat) : BitReader Nat := do
  match table[symbol]? with
  | some (least, width) => return least + (← number width)
  | none => failure

/-- Repeats octets from so far back in the output. -/
def repeatBack (distance : Nat) : (count : Nat) → Array UInt8 → Array UInt8
  | 0, out => out
  | count + 1, out => repeatBack distance count (out.push (out[out.size - distance]?.getD 0))

/-- Reads symbols up to the end of the block; `fuel` bounds their number. -/
def symbols (codes : BlockCodes) : (fuel : Nat) → Array UInt8 → BitReader (Array UInt8)
  | 0, _ => failure
  | fuel + 1, out => do
    let s ← symbol codes.literals
    if s < 256 then symbols codes fuel (out.push (UInt8.ofNat s))
    else if s = 256 then return out
    else
      let count ← quantity lengthTable (s - 257)
      let distance ← quantity distanceTable (← symbol codes.distances)
      require (distance ≤ out.size)
      symbols codes fuel (repeatBack distance count out)

/-- The order in which the lengths of the code for code lengths are sent. -/
def lengthOrder : List Nat := [16, 17, 18, 0, 8, 7, 9, 6, 10, 5, 11, 4, 12, 3, 13, 2, 14, 1, 15]

/-- Reads so many numbers of three bits. -/
def smallNumbers : (count : Nat) → BitReader (List Nat)
  | 0 => pure []
  | count + 1 => do
    let n ← number 3
    let ns ← smallNumbers count
    return n :: ns

/-- The lengths of the code for code lengths, by symbol. -/
def lengthsInOrder (sent : List Nat) : List Nat :=
  (List.range 19).map fun symbol =>
    ((lengthOrder.zip sent).find? fun entry => entry.1 == symbol).elim 0 (·.2)

/-- Reads code lengths until there are `count` of them; the lengths so far come last first. -/
def codeLengths (code : Huffman) (count : Nat) : (fuel : Nat) → List Nat → BitReader (List Nat)
  | 0, _ => failure
  | fuel + 1, lengths => do
    if count ≤ lengths.length then
      require (lengths.length == count)
      return lengths.reverse
    else
      let s ← symbol code
      -- a length as it is, the last one again, and short and long runs of zeros
      if s < 16 then codeLengths code count fuel (s :: lengths)
      else if s = 16 then
        match lengths with
        | [] => failure
        | last :: _ =>
          codeLengths code count fuel (List.replicate (3 + (← number 2)) last ++ lengths)
      else if s = 17 then
        codeLengths code count fuel (List.replicate (3 + (← number 3)) 0 ++ lengths)
      else codeLengths code count fuel (List.replicate (11 + (← number 7)) 0 ++ lengths)

/-- Reads the codes that are sent with a block. There must be a code for the end of the block. -/
def sentCodes : BitReader BlockCodes := do
  let literalCount := 257 + (← number 5)
  let distanceCount := 1 + (← number 5)
  let lengthCount := 4 + (← number 4)
  require (literalCount ≤ 286 && distanceCount ≤ 30)
  -- the lengths are coded themselves, with a code that is sent in an order of its own
  let code := Huffman.ofLengths (lengthsInOrder (← smallNumbers lengthCount))
  require code.isComplete
  let count := literalCount + distanceCount
  let lengths ← codeLengths code count (count + 1) []
  -- the end of the block has to have a code
  require (lengths[256]?.getD 0 != 0)
  let literals := Huffman.ofLengths (lengths.take literalCount)
  let distances := Huffman.ofLengths (lengths.drop literalCount)
  -- a code that is not complete may have one symbol at most
  require (literals.isComplete || literals.isTrivial)
  require (distances.isComplete || distances.isTrivial)
  return { literals, distances }

/-- Reads a stored block. Its length is sent twice, once with all bits turned round. -/
def stored (out : Array UInt8) : BitReader (Array UInt8) := do
  align
  let count ← number 16
  let complement ← number 16
  require (count + complement == 0xFFFF)
  octets count out

/-- Reads a block onto the output. -/
def block (out : Array UInt8) : BitReader (Array UInt8) := do
  match ← number 2 with
  | 0 => stored out
  | 1 => symbols .fixed ((← get).length + 1) out
  | 2 =>
    let codes ← sentCodes
    symbols codes ((← get).length + 1) out
  | _ => failure

/-- Reads blocks up to the last one; `fuel` bounds their number. -/
def blocks : (fuel : Nat) → Array UInt8 → BitReader (Array UInt8)
  | 0, _ => failure
  | fuel + 1, out => do
    let last ← bit
    let out ← block out
    if last then return out else blocks fuel out

/-- Reads compressed data at the front of octets: the data, and the octets after them. -/
def inflate? (bs : List UInt8) : Option (List UInt8 × List UInt8) := do
  let bits := bitsOfOctets bs
  let (out, rest) ← (blocks (bits.length + 1) #[]).run bits
  return (out.toList, bs.drop (bs.length - rest.length / 8))

end Depot.Gzip
