import Depot.Text.Blank
/-!
# Artifact coordinates

A coordinate names an artifact by group, artifact, extension, classifier and version. Group and
artifact are required; the extension is `jar` unless another is given; the classifier may be empty.
These four are kept without blanks around them. The version is free text and may be missing, which
means that none was asked for and is distinct from every given version.

The version `SYSTEM` is reserved: an artifact registered under it satisfies every requested version.
-/

namespace Depot

/-- The name of a group or of an artifact: not empty, without blanks around it, and of bounded
length. -/
structure Part where
  text : String
  strip_text : Text.strip text = text
  ne_empty : text ≠ ""
  length_le : text.length ≤ 200
  deriving DecidableEq

/-- An extension: not empty and without blanks around it. -/
structure Extension where
  text : String
  strip_text : Text.strip text = text
  ne_empty : text ≠ ""
  deriving DecidableEq

/-- A classifier: without blanks around it, and empty where an artifact has none. -/
structure Classifier where
  text : String
  strip_text : Text.strip text = text
  deriving DecidableEq

/-- The greatest number of characters in a group or artifact name. -/
def Part.maxLength : Nat := 200

/-- The extension `jar`, which need not be written. -/
def Extension.jar : Extension := ⟨"jar", by decide, by decide⟩

/-- The extension that a text stands for: the text without blanks around it, or `jar` where nothing
is left. -/
def Extension.ofText (s : String) : Extension :=
  if h : Text.strip s = "" then .jar else ⟨Text.strip s, Text.strip_strip s, h⟩

/-- The classifier that a text stands for. -/
def Classifier.ofText (s : String) : Classifier := ⟨Text.strip s, Text.strip_strip s⟩

/-- No classifier. -/
def Classifier.none : Classifier := ⟨"", by decide⟩

theorem Part.ext {a b : Part} (h : a.text = b.text) : a = b := by
  cases a; cases b; simp_all

theorem Extension.ext {a b : Extension} (h : a.text = b.text) : a = b := by
  cases a; cases b; simp_all

theorem Classifier.ext {a b : Classifier} (h : a.text = b.text) : a = b := by
  cases a; cases b; simp_all

instance : Inhabited Part := ⟨⟨"a", by decide, by decide, by decide⟩⟩
instance : Inhabited Extension := ⟨.jar⟩
instance : Inhabited Classifier := ⟨.none⟩

/-- The version that satisfies every requested version. -/
def systemVersion : String := "SYSTEM"

/-- The version that a text stands for: the text, or the reserved version where it is empty. -/
def versionOfText (s : String) : String := if s = "" then systemVersion else s

/-- The coordinate of an artifact. -/
structure Coordinate where
  group : Part
  artifact : Part
  extension : Extension
  classifier : Classifier
  version : Option String
  deriving DecidableEq, Inhabited

namespace Coordinate

/-- The coordinate with another version, or none. -/
def withVersion (c : Coordinate) (version : Option String) : Coordinate := { c with version }

/-- The coordinate without its version. -/
def withoutVersion (c : Coordinate) : Coordinate := c.withVersion none

/-- The coordinate without its version, and with the extension `jar`. -/
def withoutVersionAndExtension (c : Coordinate) : Coordinate :=
  { c with version := none, extension := .jar }

/-- Does `candidate` satisfy the version that is asked for? It does when it has that version or the
reserved one. -/
def isSatisfiedBy (requested candidate : Coordinate) : Bool :=
  requested.version == candidate.version || candidate.version == some systemVersion

/-- The five texts by which coordinates are ordered; a missing version counts as an empty one. -/
def sortKey (c : Coordinate) : List String :=
  [c.group.text, c.artifact.text, c.extension.text, c.classifier.text, c.version.getD ""]

@[simp] theorem withVersion_version (c : Coordinate) (v : Option String) :
    (c.withVersion v).version = v := rfl

@[simp] theorem withVersion_withVersion (c : Coordinate) (v w : Option String) :
    (c.withVersion v).withVersion w = c.withVersion w := rfl

@[simp] theorem withVersion_self (c : Coordinate) : c.withVersion c.version = c := rfl

@[simp] theorem withoutVersion_withVersion (c : Coordinate) (v : Option String) :
    (c.withVersion v).withoutVersion = c.withoutVersion := rfl

end Coordinate

end Depot
