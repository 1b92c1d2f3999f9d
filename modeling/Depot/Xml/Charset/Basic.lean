import Depot.Text.Utf8
import Depot.Xml.Character
import Depot.Xml.Charset.Table
import Depot.Xml.Refusal
/-!
# Character sets of documents

A document given as octets is in UTF-8 unless its first octets show UTF-16 or it declares another
character set. A declared set must agree with what the first octets have shown: it may not change
the size of a code unit, nor the order of octets within one. Beside the sets that every reader
knows, the single-octet sets of the table may be declared, as long as the characters of the markup
have their ASCII octets in them.

An octet without a character is read as one that may not stand in a document.
-/

namespace Depot.Xml

/-- A character set. -/
inductive Charset where
  | utf8
  | utf16 (bigEndian : Bool)
  /-- Code points below 128 alone, without the given one. -/
  | ascii (absent : Option Char)
  /-- The octets are the code points. Names may hold the signs among the letters. -/
  | latin
  /-- ASCII, and the given characters for the octets from 128 on. -/
  | table (high : List Char)
  deriving DecidableEq, Repr

namespace Charset

/-- Stands for what cannot be read; it may not stand in a document. -/
def unreadable : Char := '\uFFFF'

/-- The code units of UTF-16 octets; an odd octet at the end is unreadable. -/
def units (bigEndian : Bool) : List UInt8 → List Nat
  | a :: b :: bs =>
    (if bigEndian then a.toNat * 0x100 + b.toNat else b.toNat * 0x100 + a.toNat) ::
      units bigEndian bs
  | [_] => [0xFFFF]
  | [] => []

/-- The characters of code units. The first half of a pair takes the next unit for the second,
whatever it is; a second half alone is unreadable. -/
def ofUnits : List Nat → List Char
  | [] => []
  | [u] => if 0xD800 ≤ u ∧ u ≤ 0xDFFF then [unreadable] else [Char.ofNat u]
  | u :: v :: us =>
    if 0xD800 ≤ u ∧ u ≤ 0xDBFF then
      Char.ofNat (0x10000 + (u - 0xD800) * 0x400 + v % 0x400) :: ofUnits us
    else if 0xDC00 ≤ u ∧ u ≤ 0xDFFF then unreadable :: ofUnits (v :: us)
    else Char.ofNat u :: ofUnits (v :: us)

/-- The character of an octet, a character of a table from 128 on. -/
def ofHigh (high : List Char) (b : UInt8) : Char :=
  if b < 0x80 then Char.ofNat b.toNat
  else match high[b.toNat - 0x80]? with
    | some c => if c = Utf8.replacement then unreadable else c
    | none => unreadable

/-- Reads octets as characters. -/
def decode (charset : Charset) (bs : List UInt8) : List Char :=
  match charset with
  | utf8 => Utf8.decode unreadable bs
  | utf16 bigEndian => ofUnits (units bigEndian bs)
  | ascii absent => bs.map fun b =>
      let c := Char.ofNat b.toNat
      if b < 0x80 ∧ absent ≠ some c then c else unreadable
  | latin => bs.map fun b => Char.ofNat b.toNat
  | table high => bs.map (ofHigh high)

/-- The number of octets in a code unit. -/
def unitSize : Charset → Nat
  | utf16 _ => 2
  | _ => 1

/-- The letters that names may hold in a document in the character set. -/
def letters : Charset → Letters
  | utf16 _ => .withSigns
  | latin => .withSigns
  | _ => .common

/-- The character set that the first octets show, and the octets without a mark that shows it. -/
def detect : List UInt8 → Charset × List UInt8
  | 0xFE :: 0xFF :: bs => (utf16 true, bs)
  | 0xFF :: 0xFE :: bs => (utf16 false, bs)
  | 0xEF :: 0xBB :: 0xBF :: bs => (utf8, bs)
  | bs =>
    match bs with
    | 0 :: _ :: _ => (utf16 true, bs)
    | _ :: 0 :: _ => (utf16 false, bs)
    | _ => (utf8, bs)

/-- A label in small letters, its words parted by one underscore. -/
def normalizeLabel (label : String) : String :=
  let part (c : Char) : Bool := c.isAlphanum || c = '.'
  let go := label.toList.foldl (fun (acc : List Char × Bool) c =>
    let (read, gap) := acc
    if part c then
      (c.toLower :: (if gap && !read.isEmpty then '_' :: read else read), false)
    else (read, true)) ([], false)
  String.ofList go.1.reverse

/-- The characters of the octets from 128 on where the octets are the code points. -/
def latinHigh : List Char := (List.range 0x80).map fun n => Char.ofNat (n + 0x80)

/-- The character set of the table that a label names. -/
def ofLabel? (label : String) : Option (Except Refusal Charset) :=
  if asciiLabels.contains label then some (.ok (ascii none))
  else if tildelessLabels.contains label then some (.ok (ascii (some '~')))
  else if latinLabels.contains label then some (.ok (table latinHigh))
  else if unfitLabels.contains label then some (.error (.markup .malformed))
  else if multiByteLabels.contains label then some (.error .multiByteEncoding)
  else if textlessLabels.contains label then some (.error .textlessEncoding)
  else if hostLabels.contains label then some (.error .undecodable)
  else (tables.find? fun t => t.1.contains label).map fun t => .ok (table t.2.toList)

/-- The character set of the table that a document's label names, however it is spelled. A point may
stand for an underscore in most labels. -/
def ofTable (label : String) : Except Refusal Charset :=
  let label := normalizeLabel label
  let pointless := String.ofList (label.toList.map fun c => if c = '.' then '_' else c)
  match ofLabel? label with
  | some r => r
  | none =>
    if pointlessLabels.contains pointless then .error .unknownEncoding
    else (ofLabel? pointless).getD (.error .unknownEncoding)

/-- The character set in which a document goes on that so far was read in `current` and declares a
label. -/
def declared (current : Charset) (label : String) : Except Refusal Charset :=
  let agree (charset : Charset) : Except Refusal Charset :=
    if charset.unitSize = current.unitSize ∧ (current.unitSize = 2 → charset = current) then
      .ok charset
    else .error (.markup .malformed)
  match label.toList.map Char.toUpper |> String.ofList with
  | "UTF-8" => agree utf8
  | "US-ASCII" => agree (ascii none)
  | "ISO-8859-1" => agree latin
  | "UTF-16" => if current.unitSize = 2 then .ok current else .error (.markup .malformed)
  | "UTF-16BE" => agree (utf16 true)
  | "UTF-16LE" => agree (utf16 false)
  | _ => ofTable label

end Charset

end Depot.Xml
