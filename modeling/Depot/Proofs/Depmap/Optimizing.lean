import Depot.Proofs.Coordinate.Fields
import Depot.Proofs.Depmap.Reachable
/-!
# Dropping what is mapped

A requirement is dropped from a map if its artifact is mapped to another one (`Depmap.optimized`).
Which artifacts those are is a matter of the whole map, and merging only adds to them
(`Depmap.maps_joined`): what is dropped early would be dropped in the end as well, and what is not
dropped early may still be dropped in the end. So it does no harm to drop early, as long as it is
done once more when all is merged (`Depmap.optimized_joined_optimized`).

A requirement keeps its extension and its artifact is looked up without it, so requirements that
differ in their extensions alone are kept or dropped together.
-/

namespace Depot.Depmap

variable {a b m : Depmap}

/-- The identities that are mapped. -/
theorem maps_iff {i : Identity} : m.maps i = true ↔ ∃ target, (i, target) ∈ m.mappings := by
  unfold Depmap.maps
  rw [List.any_eq_true]
  constructor
  · rintro ⟨⟨source, target⟩, hp, hi⟩
    obtain rfl := eq_of_beq hi
    exact ⟨target, hp⟩
  · rintro ⟨target, hp⟩
    exact ⟨(i, target), hp, beq_self_eq_true i⟩

/-- A coordinate finds nothing exactly if its identity is not mapped. -/
theorem lookup_eq_empty_iff {c : Coordinate} : m.lookup c = .empty ↔ m.maps c.identity = false := by
  rw [← Bool.not_eq_true, maps_iff, not_exists]
  constructor
  · intro h target hp
    have hmem := mem_lookup.2 hp
    rw [h] at hmem
    exact OrderedSet.not_mem_empty target hmem
  · intro h
    exact OrderedSet.ext fun target =>
      iff_of_false (fun hmem => h target (mem_lookup.1 hmem)) (OrderedSet.not_mem_empty target)

/-- What is mapped after merging is what either map maps. -/
theorem maps_joined (a b : Depmap) (i : Identity) :
    (a.joined b).maps i = (a.maps i || b.maps i) := by
  rw [Bool.eq_iff_iff, Bool.or_eq_true, maps_iff, maps_iff, maps_iff, ← exists_or]
  exact exists_congr fun target => OrderedSet.mem_union

/-- The requirements whose artifacts the map does not map. -/
def unmapped (m : Depmap) (rs : OrderedSet Requirement) : OrderedSet Requirement :=
  rs.filter fun r => !m.maps r.identity

theorem mem_unmapped {rs : OrderedSet Requirement} {r : Requirement} :
    r ∈ m.unmapped rs ↔ r ∈ rs ∧ m.maps r.identity = false := by
  rw [unmapped, OrderedSet.mem_filter, Bool.not_eq_true']

/-- The map without the requirements whose artifacts it maps. -/
def optimized (m : Depmap) : Depmap :=
  { m with runtime := m.unmapped m.runtime, build := m.unmapped m.build }

theorem optimize_eq (hm : m.frozen = false) : m.optimize = .ok m.optimized :=
  edit_of_not_frozen hm _

/-- What is unmapped is so once and for all. -/
theorem unmapped_unmapped (m : Depmap) (rs : OrderedSet Requirement) :
    m.unmapped (m.unmapped rs) = m.unmapped rs := by
  refine OrderedSet.ext fun r => ?_
  rw [mem_unmapped, mem_unmapped, and_assoc, and_self]

theorem optimized_optimized (m : Depmap) : m.optimized.optimized = m.optimized := by
  show { m with
    runtime := m.unmapped (m.unmapped m.runtime), build := m.unmapped (m.unmapped m.build) } = _
  rw [unmapped_unmapped, unmapped_unmapped]
  rfl

/-- **Three filters are one.** What both maps together leave unmapped, each of them does, so nothing
is lost when each of them is asked first. -/
theorem unmapped_union_unmapped (a b : Depmap) (rs ss : OrderedSet Requirement) :
    (a.joined b).unmapped ((a.unmapped rs).union (b.unmapped ss)) =
      (a.joined b).unmapped (rs.union ss) := by
  refine OrderedSet.ext fun r => ?_
  simp only [mem_unmapped, OrderedSet.mem_union, maps_joined, Bool.or_eq_false_iff]
  constructor
  · rintro ⟨⟨hr, -⟩ | ⟨hr, -⟩, hab⟩
    · exact ⟨.inl hr, hab⟩
    · exact ⟨.inr hr, hab⟩
  · rintro ⟨hr | hr, ha, hb⟩
    · exact ⟨.inl ⟨hr, ha⟩, ha, hb⟩
    · exact ⟨.inr ⟨hr, hb⟩, ha, hb⟩

/-- Dropping early changes nothing in the end. -/
theorem optimized_joined_optimized (a b : Depmap) :
    (a.optimized.joined b.optimized).optimized = (a.joined b).optimized := by
  show { a.joined b with
    runtime := (a.joined b).unmapped ((a.unmapped a.runtime).union (b.unmapped b.runtime))
    build := (a.joined b).unmapped ((a.unmapped a.build).union (b.unmapped b.build)) } = _
  rw [unmapped_union_unmapped, unmapped_union_unmapped]
  rfl

/-- **Optimizing early is harmless once one optimizes at the end.** Of two maps that come about and
are not published, it does not matter whether what is mapped is dropped from each before they are
merged, if it is dropped afterwards. Dropping it twice is dropping it once. It leaves the mappings
and the floors alone, and so what a coordinate finds; and of the requirements it leaves those that
find nothing, all of them and no others. -/
theorem optimize_merge_optimize (haopen : a.frozen = false) (hb : b.Reachable)
    (hbopen : b.frozen = false) :
    (∃ a' b' early late result, a.optimize = .ok a' ∧ b.optimize = .ok b' ∧
      a'.merge b' = .ok early ∧ early.optimize = .ok result ∧
      a.merge b = .ok late ∧ late.optimize = .ok result) ∧
    ∃ a', a.optimize = .ok a' ∧ a'.optimize = .ok a' ∧ a'.mappings = a.mappings ∧
      a'.runtimeFloor = a.runtimeFloor ∧ a'.buildFloor = a.buildFloor ∧
      ∀ c : Coordinate, a'.lookup c = a.lookup c ∧
        (c.requirement ∈ a'.runtime ↔ c.requirement ∈ a.runtime ∧ a.lookup c = .empty) ∧
        (c.requirement ∈ a'.build ↔ c.requirement ∈ a.build ∧ a.lookup c = .empty) := by
  have hfloors := hb.floorsInRange
  -- optimizing leaves the floors alone, so they arrive as they were in either merge
  have hearly : a.optimized.merge b.optimized = .ok (a.optimized.joined b.optimized) :=
    merge_eq haopen ⟨hfloors.runtime, hfloors.build⟩
  have hresult : (a.optimized.joined b.optimized).optimize = .ok (a.joined b).optimized := by
    rw [← optimized_joined_optimized]
    exact optimize_eq haopen
  have htwice : a.optimized.optimize = .ok a.optimized := by
    rw [optimize_eq (m := a.optimized) haopen, optimized_optimized]
  refine ⟨⟨_, _, _, _, _, optimize_eq haopen, optimize_eq hbopen, hearly, hresult,
    merge_eq haopen hfloors, optimize_eq haopen⟩, a.optimized, optimize_eq haopen, htwice, rfl,
    rfl, rfl, fun c => ⟨rfl, ?_, ?_⟩⟩
  · rw [lookup_eq_empty_iff]
    exact mem_unmapped
  · rw [lookup_eq_empty_iff]
    exact mem_unmapped

/-- An artifact with an extension of its own. -/
def sampleArchive : Coordinate :=
  ⟨.literal "net" rfl, .literal "archive" rfl, .ofText "war", .none, none⟩

/-- A map that requires the artifact and another one. -/
def sampleRequiring : Depmap :=
  { Depmap.empty with
    runtime := (OrderedSet.empty.insert sampleArchive.requirement).insert
      (default : Coordinate).requirement }

/-- A map that maps the artifact and requires it as well. -/
def sampleMapping : Depmap :=
  { Depmap.empty with
    mappings := OrderedSet.empty.insert (sampleArchive.identity, (default : Coordinate).identity)
    runtime := OrderedSet.empty.insert sampleArchive.requirement }

/-- The artifact is dropped from the map that maps it, and from the other one when they are
merged. -/
theorem optimize_merge_optimize_sampleRequiring :
    sampleMapping.Reachable ∧ ∃ a' b' early late result,
      sampleRequiring.optimize = .ok a' ∧ sampleMapping.optimize = .ok b' ∧
      a'.merge b' = .ok early ∧ early.optimize = .ok result ∧
      sampleRequiring.merge sampleMapping = .ok late ∧ late.optimize = .ok result ∧
      sampleArchive.requirement ∈ a'.runtime ∧
      b'.runtime.toList = [] ∧ result.runtime.toList = [(default : Coordinate).requirement] := by
  have hmaps : Depmap.empty.addMapping sampleArchive default = .ok { sampleMapping with
      runtime := .empty } := rfl
  have hreachable : sampleMapping.Reachable :=
    .addRuntime (c := sampleArchive) (.addMapping .empty hmaps) rfl
  obtain ⟨⟨a', b', early, late, result, ha, hb, hearly, hresult, hlate, hlast⟩, kept, hkept, -, -,
    -, -, hall⟩ := optimize_merge_optimize (a := sampleRequiring) rfl hreachable rfl
  -- the theorem speaks of some results; here they are the ones that the equations give
  obtain rfl : kept = a' := Except.ok.inj (hkept.symm.trans ha)
  have harchive := (hall sampleArchive).2.1.2
    ⟨OrderedSet.contains_iff.1 (by decide +kernel), lookup_eq_empty_iff.2 (by decide +kernel)⟩
  obtain rfl : b' = sampleMapping.optimized := Except.ok.inj (hb.symm.trans (optimize_eq rfl))
  obtain rfl : late = sampleRequiring.joined sampleMapping :=
    Except.ok.inj (hlate.symm.trans (merge_eq rfl hreachable.floorsInRange))
  obtain rfl : result = (sampleRequiring.joined sampleMapping).optimized :=
    Except.ok.inj (hlast.symm.trans (optimize_eq rfl))
  exact ⟨hreachable, _, _, _, _, _, ha, hb, hearly, hresult, hlate, hlast, harchive,
    by decide +kernel, by decide +kernel⟩

end Depot.Depmap
