import Depot.Depmap.Basic
import Depot.Proofs.Decimal.ReadBack
/-!
# Dependency maps that can come about

A dependency map comes about from the empty one by its own steps (`Depmap.Reachable`). Every floor
of such a map has been read from a text, or passed on from another such map by its text, so it is
within the range of exponents (`Reachable.floorsInRange`). That is what it takes for merging to
work: a floor passes from map to map through its text, and one within the range arrives as it was
(`merge_eq`).

A step on a map that is not published is the change that it stands for (`edit_of_not_frozen`), and
on a published one it fails.
-/

namespace Depot.Depmap

/-! ### Steps -/

/-- A step on a map that is not published. -/
theorem edit_of_not_frozen {m : Depmap} (hm : m.frozen = false)
    (change : Depmap → Except EditError Depmap) : m.edit change = change m := by
  rw [edit, hm, if_neg Bool.false_ne_true]

/-- A step that works was taken on a map that is not published. -/
theorem edit_eq_ok {m m' : Depmap} {change : Depmap → Except EditError Depmap}
    (h : m.edit change = .ok m') : m.frozen = false ∧ change m = .ok m' := by
  unfold edit at h
  split at h
  · cases h
  · next hm => exact ⟨Bool.eq_false_iff.2 hm, h⟩

/-- A version that is a number raises the floor. -/
theorem addFloor_of_ok {m : Depmap} (hopen : m.frozen = false) (buildTime : Bool)
    {version : String} {d : Decimal} (hparse : VersionFloor.parse version = .ok d) :
    m.addFloor buildTime version = .ok (m.raiseFloor buildTime d) := by
  rw [addFloor, edit_of_not_frozen hopen, hparse]

/-- A version that is none is refused. -/
theorem addFloor_of_error {m : Depmap} (hopen : m.frozen = false) (buildTime : Bool)
    {version : String} {refusal : VersionFloor.Refusal}
    (hparse : VersionFloor.parse version = .error refusal) :
    m.addFloor buildTime version = .error (.floor refusal) := by
  rw [addFloor, edit_of_not_frozen hopen, hparse]

/-- Both floors, where there are any, are within the range of exponents. -/
structure FloorsInRange (m : Depmap) : Prop where
  runtime : ∀ d ∈ m.runtimeFloor, d.InRange
  build : ∀ d ∈ m.buildFloor, d.InRange

/-- The greater of two floors, and the first where their values are equal; a floor that is missing
does not count. -/
def joinFloors (current other : Option Decimal) : Option Decimal :=
  match other with
  | none => current
  | some d => Decimal.maxOption current d

/-- The map with all that another one holds. -/
def joined (m other : Depmap) : Depmap :=
  { m.mergeSets other with
    runtimeFloor := joinFloors m.runtimeFloor other.runtimeFloor
    buildFloor := joinFloors m.buildFloor other.buildFloor }

/-- A floor that is merged arrives as it was. -/
theorem mergeFloor_eq {m : Depmap} (hm : m.frozen = false) (buildTime : Bool)
    {floor : Option Decimal} (h : ∀ d ∈ floor, d.InRange) : m.mergeFloor buildTime floor =
      .ok (if buildTime then { m with buildFloor := joinFloors m.buildFloor floor }
        else { m with runtimeFloor := joinFloors m.runtimeFloor floor }) := by
  cases floor with
  | none => cases buildTime <;> rfl
  | some d =>
    refine (addFloor_of_ok hm buildTime (VersionFloor.parse_toText (h d rfl))).trans ?_
    cases buildTime <;> rfl

/-- **Merging.** A map whose floors are within the range of exponents is merged into one that is not
published by joining their parts. -/
theorem merge_eq {m other : Depmap} (hm : m.frozen = false) (h : other.FloorsInRange) :
    m.merge other = .ok (m.joined other) := by
  rw [merge, edit_of_not_frozen hm, mergeFloor_eq (m := m.mergeSets other) hm false h.runtime]
  exact mergeFloor_eq (m := { m.mergeSets other with
    runtimeFloor := joinFloors m.runtimeFloor other.runtimeFloor }) hm true h.build

/-! ### Maps that come about -/

/-- The maps that come about from the empty one by the steps on maps. -/
inductive Reachable : Depmap → Prop where
  | empty : Reachable .empty
  | addMapping {m m' : Depmap} {source target : Coordinate} (hm : Reachable m)
      (h : m.addMapping source target = .ok m') : Reachable m'
  | addRuntime {m m' : Depmap} {c : Coordinate} (hm : Reachable m) (h : m.addRuntime c = .ok m') :
      Reachable m'
  | addBuild {m m' : Depmap} {c : Coordinate} (hm : Reachable m) (h : m.addBuild c = .ok m') :
      Reachable m'
  | addFloor {m m' : Depmap} {buildTime : Bool} {version : String} (hm : Reachable m)
      (h : m.addFloor buildTime version = .ok m') : Reachable m'
  | merge {m other m' : Depmap} (hm : Reachable m) (hother : Reachable other)
      (h : m.merge other = .ok m') : Reachable m'
  | optimize {m m' : Depmap} (hm : Reachable m) (h : m.optimize = .ok m') : Reachable m'
  | freeze {m : Depmap} (hm : Reachable m) : Reachable m.freeze

/-- Steps that keep to maps that come about may be taken one after the other. -/
theorem Reachable.foldlM {α : Type} {step : Depmap → α → Except EditError Depmap}
    (hstep : ∀ {m m' : Depmap} {a : α}, m.Reachable → step m a = .ok m' → m'.Reachable)
    {as : List α} {m m' : Depmap} (hm : m.Reachable) (h : as.foldlM step m = .ok m') :
    m'.Reachable := by
  induction as generalizing m with
  | nil =>
    cases h
    exact hm
  | cons a as ih =>
    rw [List.foldlM_cons] at h
    cases hfirst : step m a with
    | error e =>
      rw [hfirst] at h
      cases h
    | ok next =>
      rw [hfirst] at h
      exact ih (hstep hm hfirst) h

/-- The greater of two numbers within the range of exponents is within it. -/
theorem inRange_of_mem_maxOption {current : Option Decimal} {c d : Decimal}
    (hcurrent : ∀ d ∈ current, d.InRange) (hd : d.InRange)
    (h : c ∈ Decimal.maxOption current d) : c.InRange := by
  cases current with
  | none =>
    obtain rfl := Option.some.inj h
    exact hd
  | some b =>
    obtain rfl := Option.some.inj h
    unfold Decimal.max
    split
    · exact hd
    · exact hcurrent b rfl

/-- The greater of two floors within the range of exponents is within it. -/
theorem inRange_of_mem_joinFloors {current other : Option Decimal} {c : Decimal}
    (hcurrent : ∀ d ∈ current, d.InRange) (hother : ∀ d ∈ other, d.InRange)
    (h : c ∈ joinFloors current other) : c.InRange := by
  cases other with
  | none => exact hcurrent c h
  | some d => exact inRange_of_mem_maxOption hcurrent (hother d rfl) h

/-- Adding a floor keeps both within the range of exponents. -/
theorem FloorsInRange.addFloor {m m' : Depmap} {buildTime : Bool} {version : String}
    (hm : m.FloorsInRange) (h : m.addFloor buildTime version = .ok m') : m'.FloorsInRange := by
  obtain ⟨-, h⟩ := edit_eq_ok h
  split at h
  · next d hd =>
    cases h
    have hrange := VersionFloor.inRange_of_parse hd
    cases buildTime with
    | true => exact ⟨hm.runtime, fun _ hc => inRange_of_mem_maxOption hm.build hrange hc⟩
    | false => exact ⟨fun _ hc => inRange_of_mem_maxOption hm.runtime hrange hc, hm.build⟩
  · cases h

/-- **Floors stay within the range of exponents** in every map that comes about. -/
theorem Reachable.floorsInRange {m : Depmap} (h : m.Reachable) : m.FloorsInRange := by
  induction h with
  | empty => exact ⟨fun _ hd => (nomatch hd), fun _ hd => (nomatch hd)⟩
  | addMapping _ h ih =>
    obtain ⟨-, h⟩ := edit_eq_ok h
    cases h
    exact ⟨ih.runtime, ih.build⟩
  | addRuntime _ h ih =>
    obtain ⟨-, h⟩ := edit_eq_ok h
    cases h
    exact ⟨ih.runtime, ih.build⟩
  | addBuild _ h ih =>
    obtain ⟨-, h⟩ := edit_eq_ok h
    cases h
    exact ⟨ih.runtime, ih.build⟩
  | addFloor _ h ih => exact ih.addFloor h
  | merge _ _ h ihm ihother =>
    -- the other map is within the range too, so its floors arrive as they were
    have hm := (edit_eq_ok h).1
    rw [merge_eq hm ihother] at h
    cases h
    exact ⟨fun _ hd => inRange_of_mem_joinFloors ihm.runtime ihother.runtime hd,
      fun _ hd => inRange_of_mem_joinFloors ihm.build ihother.build hd⟩
  | optimize _ h ih =>
    obtain ⟨-, h⟩ := edit_eq_ok h
    cases h
    exact ⟨ih.runtime, ih.build⟩
  | freeze _ ih => exact ⟨ih.runtime, ih.build⟩

end Depot.Depmap
