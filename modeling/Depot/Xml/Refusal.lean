/-!
# Why a document is refused

A document is refused where its markup is at fault: where it is not well formed, and where it
declares an entity, which could make a small document expand without bound. One that is given as
octets is refused also where it declares an encoding that cannot be read.
-/

namespace Depot.Xml

/-- What is wrong with the markup of a document. -/
inductive Fault where
  /-- The document is not well formed. -/
  | malformed
  /-- The document declares an entity of its own. -/
  | entityDeclared
  deriving DecidableEq, Repr

/-- Why a document is refused. -/
inductive Refusal where
  /-- The markup is at fault. -/
  | markup (fault : Fault)
  /-- The declared encoding is not known. -/
  | unknownEncoding
  /-- The declared encoding takes several octets for a character in a way that cannot be read. -/
  | multiByteEncoding
  /-- The declared encoding is not one of texts. -/
  | textlessEncoding
  /-- The declared encoding has no characters for the octets from 128 on, and no way to pass over
  them. -/
  | undecodable
  deriving DecidableEq, Repr

/-- Does the refusal concern the document's markup, and not how its octets are encoded? -/
def Refusal.isMarkup : Refusal → Bool
  | .markup _ => true
  | _ => false

/-- The short text by which messages name a fault. -/
def Fault.text : Fault → String
  | .malformed => "ParseError"
  | .entityDeclared => "EntitiesForbidden"

/-- The short text by which messages name a refusal. -/
def Refusal.text : Refusal → String
  | .markup fault => fault.text
  | .unknownEncoding => "unknown encoding"
  | .multiByteEncoding => "multi-byte encodings are not supported"
  | .textlessEncoding => "not an encoding of texts"
  | .undecodable => "octets past the last of the encoding"

end Depot.Xml
