import Depot.Proofs.Depmap.Table
import Mathlib.Data.List.Sort
/-!
# What dependency maps list

The pairs of a table, and what is required, are listed by the keys of the coordinates
(`Table.mappings`, `Table.runtimeDependencies`, `Table.buildDependencies`). Keys do not tell all
coordinates apart, but those that the invariant leaves: so every list is strictly in order, and has
each member once. A list in strict order is determined by its members, and therefore a map lists
the same as its table does.

`History.listings_strict` puts together what holds of the table of every history, and so of every
map that comes about.
-/

namespace Depot.Depmap

namespace Table

/-- The pairs of a source and one of its targets, by the sources and then by the targets. -/
def mappings (t : Table) : List (Coordinate × Coordinate) :=
  (Coordinate.sorted (t.entries.map (·.1))).flatMap fun source =>
    (Coordinate.sorted (t.entries.targets source)).map fun target => (source, target)

/-- The number of targets of all sources. -/
def size (t : Table) : Nat := t.entries.size

/-- What is required at run time, in order. -/
def runtimeDependencies (t : Table) : List Coordinate := Coordinate.sorted t.runtime

/-- What is required at build time, in order. -/
def buildDependencies (t : Table) : List Coordinate := Coordinate.sorted t.build

end Table

open Coordinate (IsReduced KeyLt PairLt)

/-! ### Strict order -/

theorem pairwise_sorted_of_version {cs : List Coordinate} (h : ∀ c ∈ cs, c.version = none) :
    (Coordinate.sorted cs).Pairwise KeyLt :=
  Coordinate.pairwise_sorted fun a ha b hb => Coordinate.eq_of_sortKey_eq (h a ha) (h b hb)

namespace Entries.Valid

variable {es : Entries} (h : es.Valid)
include h

theorem version_of_mem_sources {c : Coordinate} (hc : c ∈ es.map (·.1)) : c.version = none := by
  obtain ⟨e, he, rfl⟩ := List.mem_map.1 hc
  exact (h.source e he).version

theorem isReduced_of_mem_pairs {p : Coordinate × Coordinate} (hp : p ∈ es.pairs) :
    p.1.IsReduced ∧ p.2.IsReduced := by
  obtain ⟨e, he, hsource, htarget⟩ := mem_pairs.1 hp
  exact ⟨hsource ▸ h.source e he, h.target e he p.2 htarget⟩

theorem version_of_mem_targets {source c : Coordinate} (hc : c ∈ es.targets source) :
    c.version = none := (h.isReduced_of_mem_pairs (h.mem_targets_iff.1 hc)).2.version

/-- No pair comes twice. -/
theorem nodup_pairs : es.pairs.Nodup := by
  refine List.pairwise_flatMap.2 ⟨fun e he => ?_, ?_⟩
  · exact (h.nodup e he).map fun _ _ => congrArg Prod.snd
  · refine (List.pairwise_map.1 h.sources).imp fun {e e'} hne p hp p' hp' heq => hne ?_
    obtain ⟨_, -, rfl⟩ := List.mem_map.1 hp
    obtain ⟨_, -, rfl⟩ := List.mem_map.1 hp'
    exact (Prod.mk.inj heq).1

end Entries.Valid

/-- Requirements in order are those of the set, read as coordinates. -/
theorem Table.IsRequired.toCoordinates_ofList {cs : List Coordinate} (hcs : IsRequired cs) :
    (OrderedSet.ofList (cs.map Coordinate.requirement)).toList.map Requirement.toCoordinate =
      Coordinate.sorted cs := by
  have hback : ∀ c ∈ cs, c.requirement.toCoordinate = c := fun c hc => by
    rw [Coordinate.toCoordinate_requirement, Coordinate.withoutVersion, ← hcs.version c hc,
      Coordinate.withVersion_self]
  -- both lists are strictly ascending, so it is enough that they have the same members
  refine List.Pairwise.eq_of_mem_iff ?_ (pairwise_sorted_of_version hcs.version) fun c => ?_
  · exact List.pairwise_map.2 ((OrderedSet.sorted _).imp Requirement.rank_lt_iff.1)
  · rw [Coordinate.mem_sorted, List.mem_map]
    constructor
    · rintro ⟨r, hr, rfl⟩
      obtain ⟨c, hc, rfl⟩ := List.mem_map.1 (OrderedSet.mem_ofList.1 (OrderedSet.mem_def.2 hr))
      rwa [hback c hc]
    · intro hc
      exact ⟨c.requirement, OrderedSet.mem_ofList.2 (List.mem_map_of_mem hc), hback c hc⟩

namespace Table.Invariant

variable {t : Table} (h : t.Invariant)
include h

theorem mem_mappings {p : Coordinate × Coordinate} : p ∈ t.mappings ↔ p ∈ t.entries.pairs := by
  obtain ⟨source, target⟩ := p
  rw [mappings, List.mem_flatMap]
  constructor
  · rintro ⟨s, -, hp⟩
    obtain ⟨c, hc, hp⟩ := List.mem_map.1 hp
    obtain ⟨rfl, rfl⟩ := Prod.mk.inj hp
    exact h.entries.mem_targets_iff.1 (Coordinate.mem_sorted.1 hc)
  · intro hp
    obtain ⟨e, he, rfl, -⟩ := Entries.mem_pairs.1 hp
    refine ⟨e.1, Coordinate.mem_sorted.2 (List.mem_map_of_mem he), List.mem_map.2 ⟨target, ?_, rfl⟩⟩
    exact Coordinate.mem_sorted.2 (h.entries.mem_targets_iff.2 hp)

/-- **Pairs are listed strictly in order.** -/
theorem pairwise_mappings : t.mappings.Pairwise PairLt := by
  refine List.pairwise_flatMap.2 ⟨fun source _ => ?_, ?_⟩
  · -- the pairs of one source are in the order of their targets
    refine List.pairwise_map.2 ((pairwise_sorted_of_version fun c hc => ?_).imp fun hlt => ?_)
    · exact h.entries.version_of_mem_targets hc
    · exact Prod.Lex.right _ hlt
  · -- those of two sources are in the order of the sources
    refine (pairwise_sorted_of_version fun c hc => ?_).imp fun hlt p hp q hq => ?_
    · exact h.entries.version_of_mem_sources hc
    · obtain ⟨_, -, rfl⟩ := List.mem_map.1 hp
      obtain ⟨_, -, rfl⟩ := List.mem_map.1 hq
      exact Prod.Lex.left _ _ hlt

theorem size_eq : t.size = t.mappings.length := by
  have hnodup : t.mappings.Nodup := by
    refine h.pairwise_mappings.imp fun {p q} hlt heq => ?_
    subst heq
    exact Std.Irrefl.irrefl (r := PairLt) p hlt
  have hperm : t.mappings.Perm t.entries.pairs :=
    (List.perm_ext_iff_of_nodup hnodup h.entries.nodup_pairs).2 fun p => h.mem_mappings
  rw [hperm.length_eq, Entries.length_pairs, size]

theorem lookup_ne_nil_iff (c : Coordinate) : t.lookup c ≠ [] ↔
    ∃ e ∈ t.entries, e.1.group = c.group ∧ e.1.artifact = c.artifact ∧
      e.1.classifier = c.classifier := by
  refine h.entries.targets_ne_nil_iff.trans (exists_congr fun e => and_congr_right fun he => ?_)
  constructor
  · intro hsource
    rw [hsource]
    exact ⟨rfl, rfl, rfl⟩
  · rintro ⟨hgroup, hartifact, hclassifier⟩
    refine (h.entries.source e he).eq_of_identity_eq c.isReduced_withoutVersionAndExtension ?_
    rw [Coordinate.identity, hgroup, hartifact, hclassifier]
    rfl

/-! ### Maps list what their tables list -/

theorem pairCoordinates_identities {p : Coordinate × Coordinate} (hp : p ∈ t.entries.pairs) :
    Identity.pairCoordinates (identities p) = p := by
  obtain ⟨hsource, htarget⟩ := h.entries.isReduced_of_mem_pairs hp
  exact Prod.ext hsource.withoutVersionAndExtension_eq htarget.withoutVersionAndExtension_eq

theorem mappings_toDepmap :
    t.toDepmap.mappings.toList.map Identity.pairCoordinates = t.mappings := by
  -- both lists are strictly in order, so it is enough that they have the same members
  refine List.Pairwise.eq_of_mem_iff ?_ h.pairwise_mappings fun p => ?_
  · exact List.pairwise_map.2 (t.toDepmap.mappings.sorted.imp Identity.rank_pair_lt_iff.1)
  · rw [h.mem_mappings, List.mem_map]
    constructor
    · rintro ⟨q, hq, rfl⟩
      obtain ⟨p, hp, rfl⟩ := List.mem_map.1 (OrderedSet.mem_ofList.1 (OrderedSet.mem_def.2 hq))
      rwa [h.pairCoordinates_identities hp]
    · intro hp
      refine ⟨identities p, ?_, h.pairCoordinates_identities hp⟩
      exact OrderedSet.mem_ofList.2 (List.mem_map_of_mem hp)

theorem lookup_toDepmap (c : Coordinate) :
    (t.toDepmap.lookup c).toList.map Identity.toCoordinate = Coordinate.sorted (t.lookup c) := by
  have hsource : c.identity.toCoordinate = c.withoutVersionAndExtension := c.toCoordinate_identity
  -- two strictly ascending lists again
  refine List.Pairwise.eq_of_mem_iff (r := KeyLt) ?_
    (pairwise_sorted_of_version fun _ hc => h.entries.version_of_mem_targets hc) fun target => ?_
  · exact List.pairwise_map.2 ((OrderedSet.sorted _).imp Identity.rank_lt_iff.1)
  · rw [Coordinate.mem_sorted, lookup, h.entries.mem_targets_iff, ← h.mem_mappings,
      ← h.mappings_toDepmap, List.mem_map, List.mem_map, ← hsource]
    constructor
    · rintro ⟨i, hi, rfl⟩
      exact ⟨_, mem_lookup.1 (OrderedSet.mem_def.2 hi), rfl⟩
    · rintro ⟨⟨i, j⟩, hp, hpair⟩
      obtain ⟨hi, rfl⟩ := Prod.mk.inj hpair
      obtain rfl : i = c.identity := congrArg Coordinate.identity hi
      exact ⟨j, mem_lookup.2 hp, rfl⟩

end Table.Invariant

/-- **What a dependency map keeps and lists.** Whatever steps have been taken, with whatever
coordinates, the sources and targets of its table have no version and the extension `jar`, each
source has a target, what is required has no version, and the floors are finite numbers that their
texts read back as. So every pair is listed once and strictly in order, the size counts what is
listed, and requirements are listed likewise; a coordinate finds something exactly if a source has
its group, artifact and classifier. The map that is kept in sets lists the same as the table. -/
theorem History.listings_strict :
    (∀ m : Depmap, m.Reachable ↔ ∃ h : History, h.map = m) ∧ ∀ h : History,
      (∀ e ∈ h.table.entries, e.1.IsReduced ∧ e.2 ≠ [] ∧ ∀ c ∈ e.2, c.IsReduced) ∧
      (∀ c, c ∈ h.table.runtime ∨ c ∈ h.table.build → c.version = none) ∧
      (∀ d, d ∈ h.table.runtimeFloor ∨ d ∈ h.table.buildFloor →
        d.InRange ∧ VersionFloor.parse d.toText = .ok d) ∧
      (h.table.mappings.Pairwise PairLt ∧ ∀ source target, (source, target) ∈ h.table.mappings ↔
        ∃ e ∈ h.table.entries, e.1 = source ∧ target ∈ e.2) ∧
      h.table.size = h.table.mappings.length ∧
      (h.table.runtimeDependencies.Pairwise KeyLt ∧
        ∀ c, c ∈ h.table.runtimeDependencies ↔ c ∈ h.table.runtime) ∧
      (h.table.buildDependencies.Pairwise KeyLt ∧
        ∀ c, c ∈ h.table.buildDependencies ↔ c ∈ h.table.build) ∧
      (∀ c, h.table.lookup c ≠ [] ↔ ∃ e ∈ h.table.entries,
        e.1.group = c.group ∧ e.1.artifact = c.artifact ∧ e.1.classifier = c.classifier) ∧
      h.map = h.table.toDepmap ∧
      h.map.mappings.toList.map Identity.pairCoordinates = h.table.mappings ∧
      h.map.size = h.table.size ∧
      h.map.runtime.toList.map Requirement.toCoordinate = h.table.runtimeDependencies ∧
      h.map.build.toList.map Requirement.toCoordinate = h.table.buildDependencies ∧
      ∀ c, (h.map.lookup c).toList.map Identity.toCoordinate =
        Coordinate.sorted (h.table.lookup c) := by
  refine ⟨fun m => History.reachable_iff, fun h => ?_⟩
  -- the invariant is the table's, and the set-based map is made of that table
  have hinv := h.invariant
  have hmap := h.map_eq_toDepmap
  -- that floors are in range is known of the map, whose floors are those of the table
  have hfloors : ∀ d, d ∈ h.table.runtimeFloor ∨ d ∈ h.table.buildFloor → d.InRange := by
    have hrange := h.reachable_map.floorsInRange
    rw [hmap] at hrange
    exact fun d hd => hd.elim (hrange.runtime d) (hrange.build d)
  have hmappings := hinv.mappings_toDepmap
  have hsize : h.table.toDepmap.size = h.table.size := by
    rw [hinv.size_eq, ← hmappings, List.length_map]
    rfl
  rw [hmap]
  refine ⟨fun e he => ?_, fun c hc => ?_, fun d hd => ?_, ⟨hinv.pairwise_mappings, fun s c => ?_⟩,
    hinv.size_eq, ⟨pairwise_sorted_of_version hinv.runtime.version, fun c => Coordinate.mem_sorted⟩,
    ⟨pairwise_sorted_of_version hinv.build.version, fun c => Coordinate.mem_sorted⟩,
    hinv.lookup_ne_nil_iff, rfl, hmappings, hsize, hinv.runtime.toCoordinates_ofList,
    hinv.build.toCoordinates_ofList, hinv.lookup_toDepmap⟩
  · -- what is left are the facts on single entries, requirements, floors and pairs
    exact ⟨hinv.entries.source e he, hinv.entries.ne_nil e he, hinv.entries.target e he⟩
  · exact hc.elim (hinv.runtime.version c) (hinv.build.version c)
  · exact ⟨hfloors d hd, VersionFloor.parse_toText (hfloors d hd)⟩
  · exact hinv.mem_mappings.trans Entries.mem_pairs

end Depot.Depmap
