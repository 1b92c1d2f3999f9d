/-!
# UTF-8

`Utf8.encode` writes characters as octets. `Utf8.decode` reads any octets: where they are not UTF-8,
each longest stretch that begins a character without completing it, and each octet that cannot begin
one, is read as one replacement character. The reader is a machine whose state is the character it
is in the middle of, so that reading is a single pass over the octets.
-/

namespace Depot.Utf8

/-- The octets of a character. -/
def encodeChar (c : Char) : List UInt8 :=
  let n := c.toNat
  if n < 0x80 then [UInt8.ofNat n]
  else if n < 0x800 then [UInt8.ofNat (0xC0 + n / 0x40), UInt8.ofNat (0x80 + n % 0x40)]
  else if n < 0x10000 then
    [UInt8.ofNat (0xE0 + n / 0x1000), UInt8.ofNat (0x80 + n / 0x40 % 0x40),
      UInt8.ofNat (0x80 + n % 0x40)]
  else
    [UInt8.ofNat (0xF0 + n / 0x40000), UInt8.ofNat (0x80 + n / 0x1000 % 0x40),
      UInt8.ofNat (0x80 + n / 0x40 % 0x40), UInt8.ofNat (0x80 + n % 0x40)]

/-- The octets of a text. -/
def encode (cs : List Char) : List UInt8 := cs.flatMap encodeChar

/-- The octets of a text. -/
def encodeString (s : String) : List UInt8 := encode s.toList

/-- A character of which some octets are read: the bits so far, how many octets are owed, and the
least and greatest octet that may come next. -/
structure Pending where
  bits : Nat
  owed : Nat
  least : Nat
  greatest : Nat
  deriving Repr, DecidableEq

/-- What an octet begins: a whole character, the start of one, or nothing. -/
inductive Lead where
  | whole (c : Char)
  | start (pending : Pending)
  | invalid
  deriving Repr, DecidableEq

/-- What an octet begins. The bounds on the second octet keep out forms longer than needed,
surrogates and code points past the last. -/
def lead (b : Nat) : Lead :=
  if b < 0x80 then .whole (Char.ofNat b)
  else if 0xC2 ≤ b ∧ b ≤ 0xDF then .start ⟨b - 0xC0, 1, 0x80, 0xBF⟩
  else if b = 0xE0 then .start ⟨0, 2, 0xA0, 0xBF⟩
  else if b = 0xED then .start ⟨0xD, 2, 0x80, 0x9F⟩
  else if 0xE1 ≤ b ∧ b ≤ 0xEF then .start ⟨b - 0xE0, 2, 0x80, 0xBF⟩
  else if b = 0xF0 then .start ⟨0, 3, 0x90, 0xBF⟩
  else if b = 0xF4 then .start ⟨4, 3, 0x80, 0x8F⟩
  else if 0xF1 ≤ b ∧ b ≤ 0xF3 then .start ⟨b - 0xF0, 3, 0x80, 0xBF⟩
  else .invalid

/-- Reads an octet between characters: the characters that are complete, and the one begun. -/
def begin? (bad : Char) (b : Nat) : List Char × Option Pending :=
  match lead b with
  | .whole c => ([c], none)
  | .start pending => ([], some pending)
  | .invalid => ([bad], none)

/-- Reads one octet. One that does not continue the character begun ends it as a replacement and is
read afresh. -/
def step (bad : Char) (state : Option Pending) (b : Nat) : List Char × Option Pending :=
  match state with
  | none => begin? bad b
  | some p =>
    if p.least ≤ b ∧ b ≤ p.greatest then
      let bits := 0x40 * p.bits + (b - 0x80)
      if p.owed ≤ 1 then ([Char.ofNat bits], none)
      else ([], some ⟨bits, p.owed - 1, 0x80, 0xBF⟩)
    else
      let (cs, next) := begin? bad b
      (bad :: cs, next)

/-- Reads octets from a state. A character that is still owed octets at the end is replaced. -/
def run (bad : Char) : Option Pending → List UInt8 → List Char
  | none, [] => []
  | some _, [] => [bad]
  | state, b :: bs =>
    let (cs, next) := step bad state b.toNat
    cs ++ run bad next bs

/-- Reads octets, with `bad` for what is not UTF-8. -/
def decode (bad : Char) (bs : List UInt8) : List Char := run bad none bs

/-- The character that stands for octets that could not be read. -/
def replacement : Char := '\uFFFD'

/-- Reads octets as a text, with the replacement character for what is not UTF-8. -/
def decodeReplacing (bs : List UInt8) : String := String.ofList (decode replacement bs)

example : decode '?' [0x61, 0xE2, 0x82, 0xAC, 0xFF, 0xE2, 0x82, 0x62] =
    ['a', '€', '?', '?', 'b'] := by decide

end Depot.Utf8
