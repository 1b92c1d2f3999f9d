/-!
# Checksums

The checksum of octets is the remainder of a division of polynomials over two elements, with the
bits turned round: the register starts with all bits set, and each bit that leaves it at the low end
is divided out.
-/

namespace Depot.Gzip

/-- The divisor, without its leading term and with the bits turned round. -/
def divisor : UInt32 := 0xEDB88320

/-- The register after one bit. -/
def checksumBit (r : UInt32) : UInt32 := if r &&& 1 = 1 then (r >>> 1) ^^^ divisor else r >>> 1

/-- The register after a number of bits. -/
def checksumBits : Nat → UInt32 → UInt32
  | 0, r => r
  | n + 1, r => checksumBits n (checksumBit r)

/-- The register after an octet. -/
def checksumOctet (r : UInt32) (b : UInt8) : UInt32 := checksumBits 8 (r ^^^ b.toUInt32)

/-- The checksum of octets. -/
def checksum (bs : List UInt8) : UInt32 := bs.foldl checksumOctet 0xFFFFFFFF ^^^ 0xFFFFFFFF

example : checksum [0x61, 0x62, 0x63] = 0x352441C2 := by decide +kernel

end Depot.Gzip
