import Depot.Coordinate.Reduced
import Depot.Decimal.Printer
import Depot.VersionFloor
/-!
# Dependency maps

A dependency map tells under which other identities the packages of a distribution provide an
artifact, what they require at run time and at build time, and the least platform versions they
need. It is filled step by step, merged from several sources, and published: a published map is
frozen and shared, and every further step on it fails.

All of its parts are sets or maxima, so adding the same thing twice changes nothing.
-/

namespace Depot

/-- A dependency map. -/
structure Depmap where
  /-- Each pair maps an identity to one under which it is provided. -/
  mappings : OrderedSet (Identity × Identity)
  runtime : OrderedSet Requirement
  build : OrderedSet Requirement
  runtimeFloor : Option Decimal
  buildFloor : Option Decimal
  frozen : Bool

namespace Depmap

/-- Why a step on a map fails. -/
inductive EditError where
  /-- The map is published. -/
  | frozen
  /-- A version floor cannot be read. -/
  | floor (refusal : VersionFloor.Refusal)
  deriving DecidableEq, Repr

/-- The message that goes with a failed step. -/
def EditError.message : EditError → String
  | .frozen => "dependency map is published and read-only"
  | .floor refusal => refusal.message

/-- The map that holds nothing. -/
def empty : Depmap := ⟨.empty, .empty, .empty, none, none, false⟩

instance : Inhabited Depmap := ⟨empty⟩

/-- Goes on with a map that is not frozen. -/
def edit (m : Depmap) (change : Depmap → Except EditError Depmap) : Except EditError Depmap :=
  if m.frozen then .error .frozen else change m

/-- Maps the identity of `source` to that of `target`. -/
def addMapping (m : Depmap) (source target : Coordinate) : Except EditError Depmap :=
  m.edit fun m => .ok { m with mappings := m.mappings.insert (source.identity, target.identity) }

/-- Adds an artifact that is required at run time. -/
def addRuntime (m : Depmap) (c : Coordinate) : Except EditError Depmap :=
  m.edit fun m => .ok { m with runtime := m.runtime.insert c.requirement }

/-- Adds an artifact that is required at build time. -/
def addBuild (m : Depmap) (c : Coordinate) : Except EditError Depmap :=
  m.edit fun m => .ok { m with build := m.build.insert c.requirement }

/-- Raises one of the floors to a number, where that is greater. -/
def raiseFloor (m : Depmap) (buildTime : Bool) (d : Decimal) : Depmap :=
  if buildTime then { m with buildFloor := Decimal.maxOption m.buildFloor d }
  else { m with runtimeFloor := Decimal.maxOption m.runtimeFloor d }

/-- Adds a version floor, of which the greatest of each kind is kept. -/
def addFloor (m : Depmap) (buildTime : Bool) (version : String) : Except EditError Depmap :=
  m.edit fun m =>
    match VersionFloor.parse version with
    | .ok d => .ok (m.raiseFloor buildTime d)
    | .error refusal => .error (.floor refusal)

/-- Adds the floor of another map, if it has one, by its text. -/
def mergeFloor (m : Depmap) (buildTime : Bool) (floor : Option Decimal) : Except EditError Depmap :=
  match floor with
  | none => .ok m
  | some d => m.addFloor buildTime d.toText

/-- The map with the members of the sets of another map. -/
def mergeSets (m other : Depmap) : Depmap :=
  { m with
    mappings := m.mappings.union other.mappings
    runtime := m.runtime.union other.runtime
    build := m.build.union other.build }

/-- Adds all that another map holds. -/
def merge (m other : Depmap) : Except EditError Depmap :=
  m.edit fun m => do
    let m ← (m.mergeSets other).mergeFloor false other.runtimeFloor
    m.mergeFloor true other.buildFloor

/-- Is the identity mapped to another one? -/
def maps (m : Depmap) (i : Identity) : Bool := m.mappings.toList.any fun p => p.1 == i

/-- Drops the requirements whose artifacts are mapped. It is meant for a map that is complete. -/
def optimize (m : Depmap) : Except EditError Depmap :=
  m.edit fun m => .ok { m with
    runtime := m.runtime.filter fun r => !m.maps r.identity
    build := m.build.filter fun r => !m.maps r.identity }

/-- Publishes a map. -/
def freeze (m : Depmap) : Depmap := { m with frozen := true }

/-- The identities to which that of a coordinate is mapped. -/
def lookup (m : Depmap) (c : Coordinate) : OrderedSet Identity :=
  .ofList (m.mappings.toList.filterMap fun p => if p.1 = c.identity then some p.2 else none)

/-- Does the map hold nothing? -/
def isEmpty (m : Depmap) : Bool :=
  m.mappings.isEmpty && m.runtime.isEmpty && m.build.isEmpty && m.runtimeFloor.isNone &&
    m.buildFloor.isNone

/-- The number of pairs that are mapped. -/
def size (m : Depmap) : Nat := m.mappings.size

theorem mem_lookup {m : Depmap} {c : Coordinate} {i : Identity} :
    i ∈ m.lookup c ↔ (c.identity, i) ∈ m.mappings := by
  rw [lookup, OrderedSet.mem_ofList, List.mem_filterMap, OrderedSet.mem_def]
  constructor
  · rintro ⟨p, hp, h⟩
    -- only the pairs of the coordinate's own identity count
    split at h
    · next hi =>
      cases h
      exact hi ▸ hp
    · cases h
  · intro h
    exact ⟨_, h, by simp⟩

end Depmap

end Depot
