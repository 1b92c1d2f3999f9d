import Depot.Coordinate.Basic
import Depot.OrderedSet
/-!
# Coordinates without a version

Packages are mapped to one another by what they are, whatever their version and extension: an
`Identity` is a group, an artifact and a classifier. What a package requires is told by a
`Requirement`, which keeps the extension too. Read as coordinates, both have no version, and an
identity has the extension `jar`.
-/

namespace Depot

/-- What an artifact is, whatever its version and extension. -/
structure Identity where
  group : Part
  artifact : Part
  classifier : Classifier
  deriving DecidableEq, Inhabited

/-- An artifact that is required in any version. -/
structure Requirement where
  group : Part
  artifact : Part
  extension : Extension
  classifier : Classifier
  deriving DecidableEq, Inhabited

/-- The identity of the artifact that a coordinate names. -/
def Coordinate.identity (c : Coordinate) : Identity := ⟨c.group, c.artifact, c.classifier⟩

/-- The requirement of the artifact that a coordinate names. -/
def Coordinate.requirement (c : Coordinate) : Requirement :=
  ⟨c.group, c.artifact, c.extension, c.classifier⟩

/-- The coordinate without version and with the extension `jar`. -/
def Identity.toCoordinate (i : Identity) : Coordinate :=
  ⟨i.group, i.artifact, .jar, i.classifier, none⟩

/-- The coordinate without version. -/
def Requirement.toCoordinate (r : Requirement) : Coordinate :=
  ⟨r.group, r.artifact, r.extension, r.classifier, none⟩

/-- The identity of a required artifact. -/
def Requirement.identity (r : Requirement) : Identity := ⟨r.group, r.artifact, r.classifier⟩

instance : Ranked Identity where
  rank i := [i.group.text, i.artifact.text, i.classifier.text]
  width := 3
  length_rank _ := rfl
  rank_injective := by
    intro a b h
    simp only [List.cons.injEq, and_true] at h
    obtain ⟨hg, ha, hc⟩ := h
    cases a; cases b
    simp only [Identity.mk.injEq]
    exact ⟨Part.ext hg, Part.ext ha, Classifier.ext hc⟩

instance : Ranked Requirement where
  rank r := [r.group.text, r.artifact.text, r.extension.text, r.classifier.text]
  width := 4
  length_rank _ := rfl
  rank_injective := by
    intro a b h
    simp only [List.cons.injEq, and_true] at h
    obtain ⟨hg, ha, he, hc⟩ := h
    cases a; cases b
    simp only [Requirement.mk.injEq]
    exact ⟨Part.ext hg, Part.ext ha, Extension.ext he, Classifier.ext hc⟩

@[simp] theorem Coordinate.identity_withVersion (c : Coordinate) (v : Option String) :
    (c.withVersion v).identity = c.identity := rfl

@[simp] theorem Identity.identity_toCoordinate (i : Identity) : i.toCoordinate.identity = i := rfl

@[simp] theorem Requirement.requirement_toCoordinate (r : Requirement) :
    r.toCoordinate.requirement = r := rfl

/-- An identity read as a coordinate is the coordinate it came from, without version and
extension. -/
theorem Coordinate.toCoordinate_identity (c : Coordinate) :
    c.identity.toCoordinate = c.withoutVersionAndExtension := rfl

/-- A requirement read as a coordinate is the coordinate it came from, without version. -/
theorem Coordinate.toCoordinate_requirement (c : Coordinate) :
    c.requirement.toCoordinate = c.withoutVersion := rfl

end Depot
