import Depot.Xml.Charset.Basic
import Depot.Xml.Declaration
import Depot.Xml.Tree
/-!
# Documents

A document is read in three parts: its declaration, which decides how its octets are read; what
stands before the root element, among which the document type; and the root element with what
follows it.

A document given as a text is known to be in UTF-8, whatever it declares.
-/

namespace Depot.Xml

/-- A document as it is given. -/
inductive Source where
  | text (s : String)
  | octets (bs : List UInt8)
  deriving DecidableEq, Repr

namespace Document

/-- What is known of a document once its declaration is read. -/
structure Opening where
  letters : Letters
  /-- Does the document say that it stands alone? -/
  standalone : Bool
  /-- The characters after the declaration. -/
  rest : List Char
  deriving Repr

/-- Reads the declaration of a document that is given as a text. The encoding that it declares does
not count. -/
def openingOfText (s : String) : Except Fault Opening := do
  let (charset, bs) := Charset.detect (Utf8.encodeString s)
  match ← Declaration.split (charset.decode bs) with
  | (none, rest) => return ⟨charset.letters, false, rest⟩
  | (some d, rest) => return ⟨charset.letters, d.standalone, rest⟩

/-- Reads the declaration of a document that is given as octets. -/
def openingOfOctets (bs : List UInt8) : Except Refusal Opening := do
  let (charset, bs) := Charset.detect bs
  let cs := charset.decode bs
  match ← (Declaration.split cs).mapError .markup with
  | (none, rest) => return ⟨charset.letters, false, rest⟩
  | (some d, rest) =>
    match d.encoding with
    | some label =>
      let next ← charset.declared label
      let read := cs.length - rest.length
      -- the rest is decoded anew, from the octet at which the declaration ended
      let decoded :=
        if next = charset then rest else next.decode (bs.drop (charset.unitSize * read))
      return ⟨next.letters, d.standalone, decoded⟩
    | none => return ⟨charset.letters, d.standalone, rest⟩

/-- Skips what may stand before the root element, and reads the document type. The result is that
and the text from the root's start tag on. -/
def prolog (letters : Letters) (standalone : Bool) : (fuel : Nat) → Option Doctype → List Char →
    Except Fault (Doctype × List Char)
  | 0, _, _ => .error .malformed
  | fuel + 1, doctype?, cs =>
    let cs := skipSpace cs
    if (Doctype.takeText? "<!DOCTYPE" cs).isSome then
      match doctype?, Doctype.takeKeyword? "<!DOCTYPE" cs with
      -- there is one doctype at most, and a blank behind the keyword
      | none, some (_, rest) => do
        let (d, rest) ← (Doctype.read standalone).run letters rest
        prolog letters standalone fuel (some d) rest
      | _, _ => .error .malformed
    else if (Doctype.takeText? "<?" cs).isSome || (Doctype.takeText? "<!--" cs).isSome then do
      let (_, rest) ← Doctype.skipMarkup letters (.text 0) cs
      prolog letters standalone fuel doctype? rest
    else .ok (doctype?.getD { letters, standalone }, cs)

/-- Reads what follows the declaration. -/
def body (start : Opening) : Except Fault Element := do
  let cs := normalizeLines start.rest
  let (d, rest) ← prolog start.letters start.standalone (cs.length + 1) none cs
  match (tokens? d.dialect rest).bind (tree? d) with
  | some root => return root
  | none => throw .malformed

/-- Reads a document that is given as a text, which fails by its markup alone. -/
def ofText (s : String) : Except Fault Element := do
  body (← openingOfText s)

/-- Reads a document. -/
def parse (source : Source) : Except Refusal Element :=
  match source with
  | .text s => (ofText s).mapError .markup
  | .octets bs => do (body (← openingOfOctets bs)).mapError .markup

end Document

end Depot.Xml
