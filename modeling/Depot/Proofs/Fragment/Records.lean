import Depot.Fragment.Basic
import Depot.Proofs.Depmap.Reachable
/-!
# What records add to a map

A record adds pairs to the mappings of a map, requirements to its runtime part, or a floor
(`FragmentRecord.pairs`, `FragmentRecord.requirements`, `FragmentRecord.floors`). Records that are
applied one after the other add up (`FragmentRecord.Adds`): sets grow by what the records hold, and
each floor is raised by one number after the other, so that of numbers of equal value the earliest
stays.

Applying records can fail in two ways only, on a published map and by a version that is no number.
So records whose versions are numbers (`FragmentRecord.IsApplicable`) can be applied to every map
that is not published (`FragmentRecord.applyAll_eq`).
-/

namespace Depot

namespace FragmentRecord

/-- The pairs of identities that a record maps. -/
def pairs : FragmentRecord → List (Identity × Identity)
  | .mapping source targets => targets.map fun target => (source.identity, target.identity)
  | _ => []

/-- What a record requires at run time. -/
def requirements : FragmentRecord → List Requirement
  | .requirement c => [c.requirement]
  | _ => []

/-- The pairs of records are those of their mappings. -/
theorem mem_flatMap_pairs {records : List FragmentRecord} {p : Identity × Identity} :
    p ∈ records.flatMap pairs ↔ ∃ source targets target,
      .mapping source targets ∈ records ∧ target ∈ targets ∧
        p = (source.identity, target.identity) := by
  rw [List.mem_flatMap]
  constructor
  · rintro ⟨r, hr, hp⟩
    cases r with
    | mapping source targets =>
      obtain ⟨target, htarget, rfl⟩ := List.mem_map.1 hp
      exact ⟨source, targets, target, hr, htarget, rfl⟩
    | requirement c => exact nomatch hp
    | floor version buildTime => exact nomatch hp
  · rintro ⟨source, targets, target, hr, htarget, rfl⟩
    exact ⟨_, hr, List.mem_map.2 ⟨target, htarget, rfl⟩⟩

/-- What records require is what they name. -/
theorem mem_flatMap_requirements {records : List FragmentRecord} {q : Requirement} :
    q ∈ records.flatMap requirements ↔ ∃ c, .requirement c ∈ records ∧ q = c.requirement := by
  rw [List.mem_flatMap]
  constructor
  · rintro ⟨r, hr, hq⟩
    cases r with
    | mapping source targets => exact nomatch hq
    | requirement c => exact ⟨c, hr, List.mem_singleton.1 hq⟩
    | floor version buildTime => exact nomatch hq
  · rintro ⟨c, hr, rfl⟩
    exact ⟨_, hr, List.mem_singleton_self _⟩

/-- The floor of a record, of one kind. -/
def floors (buildTime : Bool) : FragmentRecord → List Decimal
  | .floor version b =>
    if b = buildTime then
      match VersionFloor.parse version with
      | .ok d => [d]
      | .error _ => []
    else []
  | _ => []

/-- Can the record be applied to a map that is not published? -/
def IsApplicable : FragmentRecord → Prop
  | .floor version _ => ∃ d, VersionFloor.parse version = .ok d
  | _ => True

/-- A floor raised to one number after the other. -/
def raised (floor : Option Decimal) (ds : List Decimal) : Option Decimal :=
  ds.foldl Decimal.maxOption floor

/-- The map `m'` is `m` with all that the records add. -/
structure Adds (m : Depmap) (records : List FragmentRecord) (m' : Depmap) : Prop where
  mem_mappings : ∀ p, p ∈ m'.mappings ↔ p ∈ m.mappings ∨ p ∈ records.flatMap pairs
  mem_runtime : ∀ q, q ∈ m'.runtime ↔ q ∈ m.runtime ∨ q ∈ records.flatMap requirements
  build : m'.build = m.build
  runtimeFloor : m'.runtimeFloor = raised m.runtimeFloor (records.flatMap (floors false))
  buildFloor : m'.buildFloor = raised m.buildFloor (records.flatMap (floors true))
  frozen : m'.frozen = m.frozen

/-- No records add nothing. -/
theorem Adds.nil (m : Depmap) : Adds m [] m := by
  constructor <;> simp [raised]

/-- Records add up. -/
theorem Adds.append {m m' m'' : Depmap} {a b : List FragmentRecord} (ha : Adds m a m')
    (hb : Adds m' b m'') : Adds m (a ++ b) m'' where
  mem_mappings p := by
    rw [hb.mem_mappings, ha.mem_mappings, List.flatMap_append, List.mem_append, or_assoc]
  mem_runtime q := by
    rw [hb.mem_runtime, ha.mem_runtime, List.flatMap_append, List.mem_append, or_assoc]
  build := hb.build.trans ha.build
  runtimeFloor := by
    rw [hb.runtimeFloor, ha.runtimeFloor, List.flatMap_append, raised, raised, raised,
      List.foldl_append]
  buildFloor := by
    rw [hb.buildFloor, ha.buildFloor, List.flatMap_append, raised, raised, raised,
      List.foldl_append]
  frozen := hb.frozen.trans ha.frozen

/-- There is one map with all that the records add. -/
theorem Adds.unique {m a b : Depmap} {records : List FragmentRecord} (ha : Adds m records a)
    (hb : Adds m records b) : a = b := by
  have hmappings : a.mappings = b.mappings :=
    OrderedSet.ext fun p => (ha.mem_mappings p).trans (hb.mem_mappings p).symm
  have hruntime : a.runtime = b.runtime :=
    OrderedSet.ext fun q => (ha.mem_runtime q).trans (hb.mem_runtime q).symm
  have hbuild := ha.build.trans hb.build.symm
  have hruntimeFloor := ha.runtimeFloor.trans hb.runtimeFloor.symm
  have hbuildFloor := ha.buildFloor.trans hb.buildFloor.symm
  have hfrozen := ha.frozen.trans hb.frozen.symm
  -- a map is told by its six components
  cases a
  cases b
  simp only at hmappings hruntime hbuild hruntimeFloor hbuildFloor hfrozen
  rw [hmappings, hruntime, hbuild, hruntimeFloor, hbuildFloor, hfrozen]

/-- The targets of a mapping are added one by one. -/
theorem apply_mapping {m : Depmap} (hm : m.frozen = false) (source : Coordinate)
    (targets : List Coordinate) :
    ∃ m', apply m (.mapping source targets) = .ok m' ∧ Adds m [.mapping source targets] m' := by
  -- on the targets, for every map, as each of them leads to another one
  induction targets generalizing m with
  | nil => exact ⟨m, rfl, by constructor <;> simp [raised, pairs, requirements, floors]⟩
  | cons target targets ih =>
    obtain ⟨next, hnext⟩ : ∃ next, next =
      { m with mappings := m.mappings.insert (source.identity, target.identity) } := ⟨_, rfl⟩
    have hstep : m.addMapping source target = .ok next := by
      rw [Depmap.addMapping, Depmap.edit_of_not_frozen hm, hnext]
    -- the map after the first target is open as well, so the others are added to it
    obtain ⟨m', hrun, hadds⟩ := ih (m := next) (by rw [hnext]; exact hm)
    refine ⟨m', ?_, ?_⟩
    · have hcons : apply m (.mapping source (target :: targets)) =
          (m.addMapping source target).bind fun m => apply m (.mapping source targets) := rfl
      rw [hcons, hstep]
      exact hrun
    · -- the pairs are the first one and those of the rest; nothing else is touched
      constructor
      · intro p
        rw [hadds.mem_mappings, hnext]
        simp [pairs, or_assoc, or_left_comm]
      · intro q
        rw [hadds.mem_runtime, hnext]
        simp [requirements]
      · rw [hadds.build, hnext]
      · rw [hadds.runtimeFloor, hnext]
        rfl
      · rw [hadds.buildFloor, hnext]
        rfl
      · rw [hadds.frozen, hnext]

/-- A record that can be applied adds what it holds. -/
theorem apply_eq {m : Depmap} (hm : m.frozen = false) {r : FragmentRecord} (hr : r.IsApplicable) :
    ∃ m', apply m r = .ok m' ∧ Adds m [r] m' := by
  cases r with
  | mapping source targets => exact apply_mapping hm source targets
  | requirement c =>
    refine ⟨{ m with runtime := m.runtime.insert c.requirement }, ?_, ?_⟩
    · show m.addRuntime c = _
      rw [Depmap.addRuntime, Depmap.edit_of_not_frozen hm]
    · constructor <;> simp [raised, pairs, requirements, floors, or_comm]
  | floor version buildTime =>
    obtain ⟨d, hd⟩ := hr
    refine ⟨m.raiseFloor buildTime d, ?_, ?_⟩
    · exact Depmap.addFloor_of_ok hm buildTime hd
    · cases buildTime with
      | true => constructor <;> simp [raised, pairs, requirements, floors, hd, Depmap.raiseFloor]
      | false => constructor <;> simp [raised, pairs, requirements, floors, hd, Depmap.raiseFloor]

/-- **Applying records.** Records that can be applied, applied one after the other to a map that is
not published, add all that they hold. -/
theorem applyAll_eq {m : Depmap} (hm : m.frozen = false) {records : List FragmentRecord}
    (h : ∀ r ∈ records, r.IsApplicable) :
    ∃ m', applyAll m records = .ok m' ∧ Adds m records m' := by
  -- no record publishes the map, so the next one can be applied again
  induction records generalizing m with
  | nil => exact ⟨m, rfl, .nil m⟩
  | cons r records ih =>
    obtain ⟨next, hstep, hfirst⟩ := apply_eq hm (h r List.mem_cons_self)
    obtain ⟨m', hrun, hrest⟩ := ih (m := next) (hfirst.frozen.trans hm)
      fun other hother => h other (List.mem_cons_of_mem r hother)
    refine ⟨m', ?_, hfirst.append hrest⟩
    rw [applyAll, List.foldlM_cons, hstep]
    exact hrun

/-- A map to which records were added comes about, if the map before did. -/
theorem reachable_of_applyAll {m m' : Depmap} (hm : m.Reachable) {records : List FragmentRecord}
    (h : applyAll m records = .ok m') : m'.Reachable := by
  refine Depmap.Reachable.foldlM (fun {m m' r} hm h => ?_) hm h
  cases r with
  | mapping source targets => exact Depmap.Reachable.foldlM .addMapping hm h
  | requirement c => exact hm.addRuntime h
  | floor version buildTime => exact hm.addFloor h

end FragmentRecord

end Depot
