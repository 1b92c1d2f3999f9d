import Depot.Coordinate.Fields
import Depot.Gzip.Archive
import Depot.Metadata.Basic
import Depot.Text.Blank
import Depot.Xml.Document
/-!
# Reading metadata

A metadata document holds a section `artifacts`, whose `artifact` elements each name a path, the
artifact's own identity and further identities as `aliases`, and the versions with which it is
compatible. Elements count by their local names; of several with one name the first counts. A text
is what stands before the first child, without the blanks around it, and a blank one is missing.

The first artifact that is not in order refuses the document.
-/

namespace Depot.Metadata

open Xml (Element)

/-- What is wrong with a metadata document. -/
inductive Cause where
  | document (refusal : Xml.Refusal)
  | noPath
  | invalidIdentity (issues : List Issue)
  /-- The file is compressed, but not in order. -/
  | corruptStream
  deriving DecidableEq, Repr

/-- The message that goes with a cause. -/
def Cause.message : Cause → String
  | .document refusal => "unable to parse metadata: " ++ refusal.text
  | .noPath => "<artifact> has no <path>"
  | .invalidIdentity _ => "invalid artifact identity: ValidationError"
  | .corruptStream => "corrupt gzip stream: ..."

/-- A metadata document that cannot be used: what is wrong, and the name of the source. -/
structure Malformed where
  cause : Cause
  name : String
  deriving DecidableEq, Repr

/-- The message that goes with a malformed document; a name, where there is one, comes first. -/
def Malformed.message (m : Malformed) : String :=
  if m.name = "" then m.cause.message else m.name ++ ": " ++ m.cause.message

/-! ### Artifacts -/

/-- The text of an element, without blanks around it. -/
def textOf (e : Element) : String := Text.strip e.leadingText

/-- The text of a child, if there is one that is not blank. -/
def childText? (e : Element) (tag : String) : Option String :=
  match e.child? tag with
  | some child => if textOf child = "" then none else some (textOf child)
  | none => none

/-- A text as a field. -/
def optionalField : Option String → RawField
  | none => .null
  | some s => .text s

/-- Reads an identity, which has no version. -/
def readIdentity (e : Element) : Except Cause Coordinate :=
  (Coordinate.ofFields {
    group := .text ((childText? e "groupId").getD "")
    artifact := .text ((childText? e "artifactId").getD "")
    extension := optionalField (childText? e "extension")
    classifier := optionalField (childText? e "classifier") }).mapError .invalidIdentity

/-- The versions with which an artifact is compatible. -/
def compatibleVersions (e : Element) : List String :=
  let elements := match e.child? "compatVersions" with
    | some parent => parent.childrenNamed "version"
    | none => []
  match (elements.map textOf).filter (· ≠ "") with
  | [] => [systemVersion]
  | versions => versions

/-- The identities of an artifact: its own, then its aliases. -/
def identities (e : Element) : List Element :=
  e :: match e.child? "aliases" with
    | some parent => parent.childrenNamed "alias"
    | none => []

/-- Reads an artifact: the coordinates under which it is to be registered, and where it lies. -/
def readArtifact (e : Element) : Except Cause (List (Coordinate × Location)) :=
  match childText? e "path" with
  | none => .error .noPath
  | some path => do
    let location : Location := ⟨path, (childText? e "namespace").getD ""⟩
    let versions := compatibleVersions e
    let identities ← (identities e).mapM readIdentity
    return identities.flatMap fun c => versions.map fun v => (c.withVersion (some v), location)

/-- The artifact elements of a document. -/
def artifactElements (root : Element) : List Element :=
  match root.child? "artifacts" with
  | some parent => parent.childrenNamed "artifact"
  | none => []

/-- Reads the registrations of a document. -/
def readRegistry (root : Element) : Except Cause Registry := do
  let entries ← (artifactElements root).mapM readArtifact
  return Registry.registerAll [] entries.flatten

/-! ### Sources -/

/-- Reads a document. -/
def ofDocument (source : Xml.Source) (name : String) : Except Malformed Metadata :=
  match Xml.Document.parse source with
  | .error refusal => .error ⟨.document refusal, name⟩
  | .ok root =>
    match readRegistry root with
    | .error cause => .error ⟨cause, name⟩
    | .ok registry => .ok ⟨name, registry⟩

/-- Reads the octets of a file, which may be compressed. -/
def ofFile (bs : List UInt8) (name : String) : Except Malformed Metadata :=
  if Gzip.isCompressed bs then
    match Gzip.decompress? bs with
    | some bs => ofDocument (.octets bs) name
    | none => .error ⟨.corruptStream, name⟩
  else ofDocument (.octets bs) name

end Depot.Metadata
