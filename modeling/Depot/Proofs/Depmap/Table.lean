import Depot.Proofs.Depmap.Entries
import Depot.Proofs.Depmap.Reachable
/-!
# Dependency maps as tables of coordinates

A `Depmap` keeps identities and requirements, in sets that are in order. Here is the layout that
keeps coordinates instead (`Depmap.Table`): entries of sources with their targets, and lists of what
is required, in the order in which it was added. That no coordinate in it has more than it should is
no matter of types but an invariant of the steps (`Table.Invariant`).

A `History` tells how a map comes about, and gives both a map and a table. Step by step, the one
stands for the other (`History.map_eq_toDepmap`), and the table keeps to the invariant
(`History.invariant`). Dropping what is mapped is the step that needs the invariant for this: a
table is asked for the entry of a source, and a map for a pair.
-/

namespace Depot.Depmap

/-- A dependency map as a table of coordinates. -/
structure Table where
  entries : Entries
  runtime : List Coordinate
  build : List Coordinate
  runtimeFloor : Option Decimal
  buildFloor : Option Decimal
  frozen : Bool

namespace Table

/-- The table that holds nothing. -/
def empty : Table := ⟨[], [], [], none, none, false⟩

/-- Goes on with a table that is not frozen. -/
def edit (t : Table) (change : Table → Except EditError Table) : Except EditError Table :=
  if t.frozen then .error .frozen else change t

/-- Maps `source` to `target`, both without version and extension. -/
def addMapping (t : Table) (source target : Coordinate) : Except EditError Table :=
  t.edit fun t => .ok { t with
    entries := t.entries.extend source.withoutVersionAndExtension
      [target.withoutVersionAndExtension] }

/-- Adds what is required at run time, without its version. -/
def addRuntime (t : Table) (c : Coordinate) : Except EditError Table :=
  t.edit fun t => .ok { t with runtime := t.runtime.insert c.withoutVersion }

/-- Adds what is required at build time, without its version. -/
def addBuild (t : Table) (c : Coordinate) : Except EditError Table :=
  t.edit fun t => .ok { t with build := t.build.insert c.withoutVersion }

/-- Raises one of the floors to a number, where that is greater. -/
def raiseFloor (t : Table) (buildTime : Bool) (d : Decimal) : Table :=
  if buildTime then { t with buildFloor := Decimal.maxOption t.buildFloor d }
  else { t with runtimeFloor := Decimal.maxOption t.runtimeFloor d }

/-- Adds a version floor. -/
def addFloor (t : Table) (buildTime : Bool) (version : String) : Except EditError Table :=
  t.edit fun t =>
    match VersionFloor.parse version with
    | .ok d => .ok (t.raiseFloor buildTime d)
    | .error refusal => .error (.floor refusal)

/-- Adds the floor of another table, if it has one, by its text. -/
def mergeFloor (t : Table) (buildTime : Bool) (floor : Option Decimal) : Except EditError Table :=
  match floor with
  | none => .ok t
  | some d => t.addFloor buildTime d.toText

/-- The table with the entries and the requirements of another one, taken over as they are. -/
def mergeLists (t other : Table) : Table :=
  { t with
    entries := t.entries.extendAll other.entries
    runtime := other.runtime ∪ t.runtime
    build := other.build ∪ t.build }

/-- Adds all that another table holds. -/
def merge (t other : Table) : Except EditError Table :=
  t.edit fun t => do
    let t ← (t.mergeLists other).mergeFloor false other.runtimeFloor
    t.mergeFloor true other.buildFloor

/-- Has the coordinate, without version and extension, an entry? -/
def maps (t : Table) (c : Coordinate) : Bool :=
  t.entries.any fun e => e.1 == c.withoutVersionAndExtension

/-- Drops the requirements that have an entry. -/
def optimize (t : Table) : Except EditError Table :=
  t.edit fun t => .ok { t with
    runtime := t.runtime.filter fun c => !t.maps c
    build := t.build.filter fun c => !t.maps c }

/-- Publishes a table. -/
def freeze (t : Table) : Table := { t with frozen := true }

/-- The targets of a coordinate, whatever its version and extension. -/
def lookup (t : Table) (c : Coordinate) : List Coordinate :=
  t.entries.targets c.withoutVersionAndExtension

/-! ### The map for which a table stands -/

/-- The pairs of entries, by the identities of their coordinates. -/
def identities (p : Coordinate × Coordinate) : Identity × Identity := (p.1.identity, p.2.identity)

/-- The map for which a table stands. -/
def toDepmap (t : Table) : Depmap where
  mappings := .ofList (t.entries.pairs.map identities)
  runtime := .ofList (t.runtime.map Coordinate.requirement)
  build := .ofList (t.build.map Coordinate.requirement)
  runtimeFloor := t.runtimeFloor
  buildFloor := t.buildFloor
  frozen := t.frozen

/-- A step on a table is a step on its map if it is so where the table is not frozen. -/
theorem map_toDepmap_edit {t : Table} {change : Table → Except EditError Table}
    {change' : Depmap → Except EditError Depmap}
    (h : (change t).map toDepmap = change' t.toDepmap) :
    (t.edit change).map toDepmap = t.toDepmap.edit change' := by
  have hfrozen : t.toDepmap.frozen = t.frozen := rfl
  rw [edit, Depmap.edit, hfrozen]
  cases t.frozen with
  | true => rfl
  | false => exact h

theorem toDepmap_addMapping (t : Table) (source target : Coordinate) :
    (t.addMapping source target).map toDepmap = t.toDepmap.addMapping source target := by
  refine map_toDepmap_edit (congrArg Except.ok ?_)
  simp only [toDepmap, Depmap.mk.injEq, and_true]
  refine OrderedSet.ext fun p => ?_
  simp only [OrderedSet.mem_ofList, OrderedSet.mem_insert, List.mem_map, Entries.mem_pairs_extend,
    List.mem_singleton]
  -- reduced or not, a coordinate has one identity
  constructor
  · rintro ⟨⟨s, c⟩, ⟨rfl, rfl⟩ | hp, rfl⟩
    · exact .inl rfl
    · exact .inr ⟨_, hp, rfl⟩
  · rintro (rfl | ⟨p, hp, rfl⟩)
    · exact ⟨(source.withoutVersionAndExtension, target.withoutVersionAndExtension),
        .inl ⟨rfl, rfl⟩, rfl⟩
    · exact ⟨p, .inr hp, rfl⟩

/-- Adding a requirement to a list is adding it to the set. -/
theorem ofList_map_insert (cs : List Coordinate) (c : Coordinate) :
    (OrderedSet.ofList ((cs.insert c.withoutVersion).map Coordinate.requirement)) =
      (OrderedSet.ofList (cs.map Coordinate.requirement)).insert c.requirement := by
  refine OrderedSet.ext fun r => ?_
  simp only [OrderedSet.mem_ofList, OrderedSet.mem_insert, List.mem_map, List.mem_insert_iff]
  constructor
  · rintro ⟨d, rfl | hd, rfl⟩
    · exact .inl rfl
    · exact .inr ⟨d, hd, rfl⟩
  · rintro (rfl | ⟨d, hd, rfl⟩)
    · exact ⟨_, .inl rfl, rfl⟩
    · exact ⟨d, .inr hd, rfl⟩

/-- Joining lists of requirements is joining the sets. -/
theorem ofList_map_union (cs others : List Coordinate) :
    (OrderedSet.ofList ((others ∪ cs).map Coordinate.requirement)) =
      (OrderedSet.ofList (cs.map Coordinate.requirement)).union
        (.ofList (others.map Coordinate.requirement)) := by
  refine OrderedSet.ext fun r => ?_
  simp only [OrderedSet.mem_ofList, OrderedSet.mem_union, List.mem_map, List.mem_union_iff]
  grind

theorem toDepmap_addRuntime (t : Table) (c : Coordinate) :
    (t.addRuntime c).map toDepmap = t.toDepmap.addRuntime c := by
  refine map_toDepmap_edit (congrArg Except.ok ?_)
  rw [toDepmap, ofList_map_insert]
  rfl

theorem toDepmap_addBuild (t : Table) (c : Coordinate) :
    (t.addBuild c).map toDepmap = t.toDepmap.addBuild c := by
  refine map_toDepmap_edit (congrArg Except.ok ?_)
  rw [toDepmap, ofList_map_insert]
  rfl

theorem toDepmap_addFloor (t : Table) (buildTime : Bool) (version : String) :
    (t.addFloor buildTime version).map toDepmap = t.toDepmap.addFloor buildTime version := by
  refine map_toDepmap_edit ?_
  cases VersionFloor.parse version with
  | error refusal => rfl
  | ok d => cases buildTime <;> rfl

theorem toDepmap_mergeFloor (t : Table) (buildTime : Bool) (floor : Option Decimal) :
    (t.mergeFloor buildTime floor).map toDepmap = t.toDepmap.mergeFloor buildTime floor := by
  cases floor with
  | none => rfl
  | some d => exact t.toDepmap_addFloor buildTime d.toText

theorem toDepmap_mergeLists (t other : Table) :
    (t.mergeLists other).toDepmap = t.toDepmap.mergeSets other.toDepmap := by
  have hmappings : (OrderedSet.ofList ((t.entries.extendAll other.entries).pairs.map identities)) =
      t.toDepmap.mappings.union other.toDepmap.mappings := by
    refine OrderedSet.ext fun p => ?_
    simp only [toDepmap, OrderedSet.mem_ofList, OrderedSet.mem_union, List.mem_map,
      Entries.mem_pairs_extendAll]
    grind
  rw [toDepmap, mergeSets, ← hmappings]
  simp only [mergeLists, ofList_map_union]
  rfl

theorem toDepmap_merge (t other : Table) :
    (t.merge other).map toDepmap = t.toDepmap.merge other.toDepmap := by
  refine map_toDepmap_edit ?_
  have hruntime := (t.mergeLists other).toDepmap_mergeFloor false other.runtimeFloor
  rw [toDepmap_mergeLists] at hruntime
  show Except.map toDepmap (_ >>= _) = (_ >>= _ : Except EditError Depmap)
  rw [show other.toDepmap.runtimeFloor = other.runtimeFloor from rfl, ← hruntime]
  -- what the first floor leaves goes on to the second one
  cases (t.mergeLists other).mergeFloor false other.runtimeFloor with
  | error e => rfl
  | ok t => exact t.toDepmap_mergeFloor true other.buildFloor

/-! ### What the steps keep to -/

/-- What is required is listed once and has no version. -/
structure IsRequired (cs : List Coordinate) : Prop where
  nodup : cs.Nodup
  version : ∀ c ∈ cs, c.version = none

theorem IsRequired.nil : IsRequired [] := ⟨List.nodup_nil, fun _ h => absurd h List.not_mem_nil⟩

theorem IsRequired.insert {cs : List Coordinate} (h : IsRequired cs) (c : Coordinate) :
    IsRequired (cs.insert c.withoutVersion) where
  nodup := h.nodup.insert
  version d hd := by
    rcases List.mem_insert_iff.1 hd with rfl | hd
    · rfl
    · exact h.version d hd

theorem IsRequired.union {cs others : List Coordinate} (h : IsRequired cs)
    (hothers : IsRequired others) : IsRequired (others ∪ cs) where
  nodup := h.nodup.union others
  version c hc := (List.mem_union_iff.1 hc).elim (hothers.version c) (h.version c)

theorem IsRequired.filter {cs : List Coordinate} (h : IsRequired cs) (p : Coordinate → Bool) :
    IsRequired (cs.filter p) where
  nodup := h.nodup.filter p
  version c hc := h.version c (List.mem_filter.1 hc).1

/-- The entries are valid, and so is what is required. -/
structure Invariant (t : Table) : Prop where
  entries : t.entries.Valid
  runtime : IsRequired t.runtime
  build : IsRequired t.build

/-- A step that works was taken on a table that is not published. -/
theorem edit_eq_ok {t t' : Table} {change : Table → Except EditError Table}
    (h : t.edit change = .ok t') : change t = .ok t' := by
  unfold edit at h
  split at h
  · cases h
  · exact h

section

variable {t t' other : Table} (hinv : t.Invariant)
include hinv

theorem Invariant.addMapping {source target : Coordinate}
    (h : t.addMapping source target = .ok t') : t'.Invariant := by
  cases edit_eq_ok h
  refine ⟨hinv.entries.extend source.isReduced_withoutVersionAndExtension (List.cons_ne_nil _ _) ?_,
    hinv.runtime, hinv.build⟩
  intro c hc
  rw [List.mem_singleton.1 hc]
  exact target.isReduced_withoutVersionAndExtension

theorem Invariant.addRuntime {c : Coordinate} (h : t.addRuntime c = .ok t') : t'.Invariant := by
  cases edit_eq_ok h
  exact ⟨hinv.entries, hinv.runtime.insert c, hinv.build⟩

theorem Invariant.addBuild {c : Coordinate} (h : t.addBuild c = .ok t') : t'.Invariant := by
  cases edit_eq_ok h
  exact ⟨hinv.entries, hinv.runtime, hinv.build.insert c⟩

theorem Invariant.addFloor {buildTime : Bool} {version : String}
    (h : t.addFloor buildTime version = .ok t') : t'.Invariant := by
  have h := edit_eq_ok h
  split at h
  · cases h
    cases buildTime <;> exact ⟨hinv.entries, hinv.runtime, hinv.build⟩
  · cases h

theorem Invariant.mergeFloor {buildTime : Bool} {floor : Option Decimal}
    (h : t.mergeFloor buildTime floor = .ok t') : t'.Invariant := by
  cases floor with
  | none =>
    cases h
    exact hinv
  | some d => exact hinv.addFloor h

theorem Invariant.mergeLists (hother : other.Invariant) : (t.mergeLists other).Invariant where
  entries := hinv.entries.extendAll hother.entries
  runtime := hinv.runtime.union hother.runtime
  build := hinv.build.union hother.build

theorem Invariant.merge (hother : other.Invariant) (h : t.merge other = .ok t') :
    t'.Invariant := by
  have h := edit_eq_ok h
  -- the lists are taken over as they are, so the other table has to keep to the invariant as well
  have hlists := hinv.mergeLists hother
  cases hruntime : (t.mergeLists other).mergeFloor false other.runtimeFloor with
  | error e =>
    rw [hruntime] at h
    cases h
  | ok next =>
    rw [hruntime] at h
    exact (hlists.mergeFloor hruntime).mergeFloor h

theorem Invariant.optimize (h : t.optimize = .ok t') : t'.Invariant := by
  cases edit_eq_ok h
  exact ⟨hinv.entries, hinv.runtime.filter _, hinv.build.filter _⟩

/-- A coordinate has an entry exactly if the map has a pair for its identity: sources are reduced,
and each has a target. -/
theorem Invariant.maps_toDepmap (c : Coordinate) : t.toDepmap.maps c.identity = t.maps c := by
  rw [Bool.eq_iff_iff, Depmap.maps, maps, List.any_eq_true, List.any_eq_true]
  simp only [beq_iff_eq]
  constructor
  · rintro ⟨p, hp, hidentity⟩
    obtain ⟨q, hq, rfl⟩ := List.mem_map.1 (OrderedSet.mem_ofList.1 (OrderedSet.mem_def.2 hp))
    obtain ⟨e, he, hsource, -⟩ := Entries.mem_pairs.1 hq
    refine ⟨e, he, (hinv.entries.source e he).eq_of_identity_eq
      c.isReduced_withoutVersionAndExtension ?_⟩
    rw [hsource]
    exact hidentity
  · rintro ⟨e, he, hsource⟩
    -- an entry without a target would have no pair in the map
    obtain ⟨target, htarget⟩ := List.exists_mem_of_ne_nil _ (hinv.entries.ne_nil e he)
    have hpair : identities (e.1, target) ∈ t.toDepmap.mappings :=
      OrderedSet.mem_ofList.2 (List.mem_map.2
        ⟨_, Entries.mem_pairs.2 ⟨e, he, rfl, htarget⟩, rfl⟩)
    refine ⟨_, hpair, ?_⟩
    show e.1.identity = _
    rw [hsource]
    rfl

theorem Invariant.toDepmap_optimize : (t.optimize).map toDepmap = t.toDepmap.optimize := by
  refine map_toDepmap_edit (congrArg Except.ok ?_)
  -- a requirement is mapped in the table exactly if its identity is in the map
  have hfilter : ∀ cs : List Coordinate,
      (OrderedSet.ofList ((cs.filter fun c => !t.maps c).map Coordinate.requirement)) =
        (OrderedSet.ofList (cs.map Coordinate.requirement)).filter
          fun r => !t.toDepmap.maps r.identity := by
    refine fun cs => OrderedSet.ext fun r => ?_
    simp only [OrderedSet.mem_ofList, OrderedSet.mem_filter, List.mem_map, List.mem_filter]
    constructor
    · rintro ⟨c, ⟨hc, hmaps⟩, rfl⟩
      exact ⟨⟨c, hc, rfl⟩, (congrArg (!·) (hinv.maps_toDepmap c)).trans hmaps⟩
    · rintro ⟨⟨c, hc, rfl⟩, hmaps⟩
      exact ⟨c, ⟨hc, (congrArg (!·) (hinv.maps_toDepmap c)).symm.trans hmaps⟩, rfl⟩
  rw [toDepmap, hfilter, hfilter]
  rfl

end

end Table

/-! ### Histories -/

/-- How a map comes about: from the empty map by steps, of which one merges a map with a history of
its own. -/
inductive History where
  | empty
  | addMapping (before : History) (source target : Coordinate)
  | addRuntime (before : History) (c : Coordinate)
  | addBuild (before : History) (c : Coordinate)
  | addFloor (before : History) (buildTime : Bool) (version : String)
  | merge (before other : History)
  | optimize (before : History)
  | freeze (before : History)

namespace History

/-- What is there after a step: what comes of it, and what was there before where it fails. -/
def settle {σ : Type} (before : σ) : Except EditError σ → σ
  | .ok after => after
  | .error _ => before

/-- The map of a history. -/
def map : History → Depmap
  | empty => .empty
  | addMapping h source target => settle h.map (h.map.addMapping source target)
  | addRuntime h c => settle h.map (h.map.addRuntime c)
  | addBuild h c => settle h.map (h.map.addBuild c)
  | addFloor h buildTime version => settle h.map (h.map.addFloor buildTime version)
  | merge h other => settle h.map (h.map.merge other.map)
  | optimize h => settle h.map h.map.optimize
  | freeze h => h.map.freeze

/-- The table of a history. -/
def table : History → Table
  | empty => .empty
  | addMapping h source target => settle h.table (h.table.addMapping source target)
  | addRuntime h c => settle h.table (h.table.addRuntime c)
  | addBuild h c => settle h.table (h.table.addBuild c)
  | addFloor h buildTime version => settle h.table (h.table.addFloor buildTime version)
  | merge h other => settle h.table (h.table.merge other.table)
  | optimize h => settle h.table h.table.optimize
  | freeze h => h.table.freeze

/-- What holds before a step and of what comes of it, holds after it. -/
theorem settle_induction {σ : Type} {P : σ → Prop} {before : σ} (hbefore : P before)
    {outcome : Except EditError σ} (h : ∀ after, outcome = .ok after → P after) :
    P (settle before outcome) := by
  cases outcome with
  | ok after => exact h after rfl
  | error e => exact hbefore

/-- **Tables keep to the invariant**, along every history. -/
theorem invariant (h : History) : h.table.Invariant := by
  induction h with
  | empty => exact ⟨.nil, .nil, .nil⟩
  | addMapping h source target ih => exact settle_induction ih fun _ => ih.addMapping
  | addRuntime h c ih => exact settle_induction ih fun _ => ih.addRuntime
  | addBuild h c ih => exact settle_induction ih fun _ => ih.addBuild
  | addFloor h buildTime version ih => exact settle_induction ih fun _ => ih.addFloor
  | merge h other ih ihother => exact settle_induction ih fun _ => ih.merge ihother
  | optimize h ih => exact settle_induction ih fun _ => ih.optimize
  | freeze h ih => exact ⟨ih.entries, ih.runtime, ih.build⟩

theorem toDepmap_settle {t : Table} {m : Depmap} {outcome : Except EditError Table}
    {outcome' : Except EditError Depmap} (hm : m = t.toDepmap)
    (h : outcome.map Table.toDepmap = outcome') :
    settle m outcome' = (settle t outcome).toDepmap := by
  subst hm
  subst h
  cases outcome <;> rfl

/-- **The table of a history stands for its map.** -/
theorem map_eq_toDepmap (h : History) : h.map = h.table.toDepmap := by
  -- step by step along the history; only `optimize` needs the invariant
  induction h with
  | empty => rfl
  | addMapping h source target ih =>
    exact toDepmap_settle ih (ih ▸ h.table.toDepmap_addMapping source target)
  | addRuntime h c ih => exact toDepmap_settle ih (ih ▸ h.table.toDepmap_addRuntime c)
  | addBuild h c ih => exact toDepmap_settle ih (ih ▸ h.table.toDepmap_addBuild c)
  | addFloor h buildTime version ih =>
    exact toDepmap_settle ih (ih ▸ h.table.toDepmap_addFloor buildTime version)
  | merge h other ih ihother =>
    exact toDepmap_settle ih (ih ▸ ihother ▸ h.table.toDepmap_merge other.table)
  | optimize h ih => exact toDepmap_settle ih (ih ▸ h.invariant.toDepmap_optimize)
  | freeze h ih =>
    rw [map, ih]
    rfl

theorem reachable_map (h : History) : h.map.Reachable := by
  induction h with
  | empty => exact .empty
  | addMapping h source target ih => exact settle_induction ih fun _ => .addMapping ih
  | addRuntime h c ih => exact settle_induction ih fun _ => .addRuntime ih
  | addBuild h c ih => exact settle_induction ih fun _ => .addBuild ih
  | addFloor h buildTime version ih => exact settle_induction ih fun _ => .addFloor ih
  | merge h other ih ihother => exact settle_induction ih fun _ => .merge ih ihother
  | optimize h ih => exact settle_induction ih fun _ => .optimize ih
  | freeze h ih => exact .freeze ih

/-- The maps that come about are those of histories. -/
theorem reachable_iff {m : Depmap} : m.Reachable ↔ ∃ h : History, h.map = m := by
  constructor
  · intro hm
    -- each step of the map is the same step of its history
    induction hm with
    | empty => exact ⟨.empty, rfl⟩
    | addMapping _ h ih =>
      obtain ⟨before, rfl⟩ := ih
      exact ⟨before.addMapping _ _, congrArg (settle _) h⟩
    | addRuntime _ h ih =>
      obtain ⟨before, rfl⟩ := ih
      exact ⟨before.addRuntime _, congrArg (settle _) h⟩
    | addBuild _ h ih =>
      obtain ⟨before, rfl⟩ := ih
      exact ⟨before.addBuild _, congrArg (settle _) h⟩
    | addFloor _ h ih =>
      obtain ⟨before, rfl⟩ := ih
      exact ⟨before.addFloor _ _, congrArg (settle _) h⟩
    | merge _ _ h ih ihother =>
      -- a merge has two histories, and reaches the union of their maps
      obtain ⟨before, rfl⟩ := ih
      obtain ⟨other, rfl⟩ := ihother
      exact ⟨before.merge other, congrArg (settle _) h⟩
    | optimize _ h ih =>
      obtain ⟨before, rfl⟩ := ih
      exact ⟨before.optimize, congrArg (settle _) h⟩
    | freeze _ ih =>
      obtain ⟨before, rfl⟩ := ih
      exact ⟨before.freeze, rfl⟩
  · rintro ⟨h, rfl⟩
    exact h.reachable_map

end History

end Depot.Depmap
