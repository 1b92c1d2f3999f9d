import Depot.Coordinate.Fields
import Depot.Fragment.Basic
import Depot.Xml.Document
/-!
# Reading fragments

A fragment is either a full document, which starts with a declaration, or a bare sequence of
records, which is read as the content of an element. Elements count by their local names, at any
depth:

* `dependency` maps the artifact of its one `maven` block to those of its `jpp` blocks;
* `autoRequires` is a block that names a required artifact;
* `requiresJava` and `requiresJavaDevel` hold a version floor.

A block has one `groupId` and one `artifactId`, and at most one `version`, `extension` and
`classifier`; a blank one of these counts as missing. All of a fragment is read before any of it is
used: the first record that is not in order refuses the fragment.
-/

namespace Depot.Fragment

open Xml (Element)

/-- What is wrong with a fragment. -/
inductive Cause where
  | document (fault : Xml.Fault)
  | mavenBlocks
  | noTarget
  /-- A block holds a field too often, or not at all though it must. -/
  | fieldCount (block field : String) (required : Bool)
  | invalidArtifact (block : String) (issues : List Issue)
  | floor (refusal : VersionFloor.Refusal)
  deriving DecidableEq, Repr

/-- The message that goes with a cause. -/
def Cause.message : Cause → String
  | .document fault => "unable to parse: " ++ fault.text
  | .mavenBlocks => "<dependency> must have exactly one <maven> block"
  | .noTarget => "<dependency> has no <jpp> block"
  | .fieldCount block field required =>
    "<" ++ block ++ "> must have " ++ (if required then "exactly" else "at most") ++ " one <" ++
      field ++ ">"
  | .invalidArtifact block _ => "invalid artifact in <" ++ block ++ ">: ValidationError"
  | .floor refusal => refusal.message

/-- A fragment that cannot be used: what is wrong, and where it comes from. -/
structure Malformed where
  cause : Cause
  source : String
  deriving DecidableEq, Repr

/-- The message that goes with a malformed fragment; a source, where there is one, comes first. -/
def Malformed.message (m : Malformed) : String :=
  if m.source = "" then m.cause.message else m.source ++ ": " ++ m.cause.message

/-! ### Blocks -/

/-- The text of a field that a block holds once, or at most once; blanks around it are dropped. -/
def fieldText (block : Element) (name : String) (required : Bool) : Except Cause (Option String) :=
  match block.childrenNamed name with
  | [] => if required then .error (.fieldCount block.tag name required) else .ok none
  | [field] => .ok (some (Text.strip field.allText))
  | _ => .error (.fieldCount block.tag name required)

/-- A text as a field; an empty one is none. -/
def versionField : Option String → RawField
  | none => .null
  | some s => if s = "" then .null else .text s

/-- A text as a field. -/
def optionalField : Option String → RawField
  | none => .null
  | some s => .text s

/-- Reads a block. -/
def readBlock (block : Element) : Except Cause Coordinate := do
  let group ← fieldText block "groupId" true
  let artifact ← fieldText block "artifactId" true
  let version ← fieldText block "version" false
  let extension ← fieldText block "extension" false
  let classifier ← fieldText block "classifier" false
  (Coordinate.ofFields {
    group := .text (group.getD "")
    artifact := .text (artifact.getD "")
    extension := optionalField extension
    classifier := optionalField classifier
    version := versionField version }).mapError (.invalidArtifact block.tag)

/-! ### Records -/

/-- Reads a mapping: the source of its one block, and the targets. -/
def readMapping (e : Element) : Except Cause FragmentRecord :=
  match e.childrenNamed "maven" with
  | [block] =>
    match e.childrenNamed "jpp" with
    | [] => .error .noTarget
    | blocks => do
      let source ← readBlock block
      let targets ← blocks.mapM readBlock
      return .mapping source targets
  | _ => .error .mavenBlocks

/-- Reads a version floor. -/
def readFloor (e : Element) (buildTime : Bool) : Except Cause FragmentRecord :=
  let version := Text.strip e.allText
  match VersionFloor.parse version with
  | .ok _ => .ok (.floor version buildTime)
  | .error refusal => .error (.floor refusal)

/-- Reads an element as a record, if it is one. -/
def readElement (e : Element) : Except Cause (Option FragmentRecord) :=
  match e.tag with
  | "dependency" => (readMapping e).map some
  | "autoRequires" => (readBlock e).map fun c => some (.requirement c)
  | "requiresJava" => (readFloor e false).map some
  | "requiresJavaDevel" => (readFloor e true).map some
  | _ => .ok none

/-- Reads the records among elements. -/
def readElements : List Element → Except Cause (List FragmentRecord)
  | [] => .ok []
  | e :: es => do
    let record ← readElement e
    let records ← readElements es
    return record.toList ++ records

/-- What is read of elements is what is read of the first, and then of the others. -/
theorem exists_of_readElements_cons {e : Element} {es : List Element}
    {records : List FragmentRecord} (h : readElements (e :: es) = .ok records) :
    ∃ r more, readElement e = .ok r ∧ readElements es = .ok more ∧ records = r.toList ++ more := by
  unfold readElements at h
  cases he : readElement e with
  | error cause =>
    rw [he] at h
    cases h
  | ok r =>
    cases hes : readElements es with
    | error cause =>
      rw [he, hes] at h
      cases h
    | ok more =>
      rw [he, hes] at h
      cases h
      exact ⟨r, more, rfl, rfl, rfl⟩

/-- Reads the records of a document. -/
def readRoot (root : Element) : Except Cause (List FragmentRecord) :=
  readElements root.selfAndDescendants

/-! ### Fragments -/

/-- Is the fragment a full document? -/
def isDocument (contents : String) : Bool :=
  (contents.toList.take 5).map Char.toLower == "<?xml".toList

/-- The document that a fragment stands for. -/
def wrap (contents : String) : String :=
  if isDocument contents then contents
  else "<dependencies>" ++ contents ++ "</dependencies>"

/-- Reads a fragment. -/
def read (contents : String) (source : String := "") : Except Malformed (List FragmentRecord) :=
  match Xml.Document.ofText (wrap contents) with
  | .error fault => .error ⟨.document fault, source⟩
  | .ok root => (readRoot root).mapError fun cause => ⟨cause, source⟩

/-- The text of a fragment's octets: without the mark at its start, and with the replacement
character for what is no text. -/
def decode (bs : List UInt8) : String :=
  match bs with
  | 0xEF :: 0xBB :: 0xBF :: rest => Utf8.decodeReplacing rest
  | _ => Utf8.decodeReplacing bs

/-- Why a fragment cannot be loaded. -/
inductive LoadError where
  | malformed (m : Malformed)
  /-- A record of it cannot be applied. -/
  | edit (e : Depmap.EditError)
  deriving DecidableEq, Repr

/-- Reads a fragment's octets into a map of its own. -/
def load (bs : List UInt8) (source : String) : Except LoadError Depmap := do
  let records ← (read (decode bs) source).mapError .malformed
  (FragmentRecord.applyAll .empty records).mapError .edit

end Depot.Fragment
