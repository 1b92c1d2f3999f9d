import Depot.Gzip.Checksum
import Depot.Gzip.Inflate
/-!
# Compressed files

A compressed file is a sequence of members. Each has a head with optional fields, the compressed
data, and their checksum and length; zeros may follow it. The file's contents are the data of all
members, one after the other. A member that breaks a rule makes the whole file corrupt.
-/

namespace Depot.Gzip

/-- Does the file say that it is compressed? -/
def isCompressed (bs : List UInt8) : Bool := [0x1F, 0x8B].isPrefixOf bs

/-- Drops a number of octets that must be there. -/
def dropOctets? (count : Nat) (bs : List UInt8) : Option (List UInt8) :=
  if count ≤ bs.length then some (bs.drop count) else none

/-- Drops a text up to the zero that ends it. -/
def dropText (bs : List UInt8) : List UInt8 := (bs.dropWhile (· != 0)).drop 1

/-- A number from octets, the least one first. -/
def littleEndian (bs : List UInt8) : Nat := bs.foldr (fun b n => b.toNat + 256 * n) 0

/-- Is a flag set? -/
def hasFlag (flags : UInt8) (place : Nat) : Bool := flags.toNat / Nat.pow 2 place % 2 == 1

/-- Drops a field that tells its own length. -/
def dropExtra? (bs : List UInt8) : Option (List UInt8) :=
  if bs.length < 2 then none else dropOctets? (littleEndian (bs.take 2)) (bs.drop 2)

/-- Drops the head of a member. -/
def dropHead? : List UInt8 → Option (List UInt8)
  | 0x1F :: 0x8B :: 8 :: flags :: bs => do
    let bs ← dropOctets? 6 bs
    let bs ← if hasFlag flags 2 then dropExtra? bs else some bs
    let bs := if hasFlag flags 3 then dropText bs else bs
    let bs := if hasFlag flags 4 then dropText bs else bs
    if hasFlag flags 1 then dropOctets? 2 bs else some bs
  | _ => none

/-- Reads a member: its data, and what follows it. -/
def member? (bs : List UInt8) : Option (List UInt8 × List UInt8) := do
  let (data, rest) ← inflate? (← dropHead? bs)
  if rest.length < 8 then none
  else if littleEndian (rest.take 4) ≠ (checksum data).toNat then none
  else if littleEndian ((rest.drop 4).take 4) ≠ data.length % Nat.pow 2 32 then none
  else some (data, (rest.drop 8).dropWhile (· == 0))

/-- Reads members up to the end of the file; `fuel` bounds their number. -/
def members? : (fuel : Nat) → List UInt8 → Option (List UInt8)
  | _, [] => some []
  | 0, _ :: _ => none
  | fuel + 1, bs => do
    let (data, rest) ← member? bs
    let more ← members? fuel rest
    return data ++ more

/-- The contents of a compressed file, or none where it is corrupt. -/
def decompress? (bs : List UInt8) : Option (List UInt8) := members? bs.length bs

end Depot.Gzip
