import Depot.Depmap.Document
import Depot.Proofs.Fragment.Grammar
/-!
# A dependency map is read back from its document

Every part of a dependency map is written as an element that is read as one record, and holds
nothing else that counts: a floor (`reads_floor`), a pair that is mapped (`reads_mapping`), a
requirement. So the document of a map is read as the records of its parts, in order
(`read_toDocument`). Applied to the empty map, these records give every part back that the options
have let through (`applyAll_read_toDocument`).

Two things are needed of the map: its floors are within the range of exponents, which every map
grants that comes about by the steps on maps, and its texts are made of characters that a document
may hold, without carriage returns, which would be read as line feeds.
-/

namespace Depot

open Xml (Element Markup IsTag)

namespace Fragment

/-- A pair that is mapped is read from its two blocks. -/
theorem reads_mapping (p : Identity × Identity) :
    Reads [Depmap.mappingMarkup p] [.mapping p.1.toCoordinate [p.2.toCoordinate]] := by
  have hread : ∀ level, readElement ((Depmap.mappingMarkup p).element level) =
      .ok (some (.mapping p.1.toCoordinate [p.2.toCoordinate])) := by
    intro level
    have hsource := readBlock_toMarkup (c := p.1.toCoordinate) (fun v hv => nomatch hv) "maven"
      (level + 1)
    have htarget := readBlock_toMarkup (c := p.2.toCoordinate) (fun v hv => nomatch hv) "jpp"
      (level + 1)
    -- each of the two blocks is the only one of its tag
    have hmaven : ((Depmap.mappingMarkup p).element level).childrenNamed "maven" =
        [(p.1.toCoordinate.toMarkup "maven").element (level + 1)] := by
      rw [Depmap.mappingMarkup, Markup.childrenNamed_group]
      rfl
    have hjpp : ((Depmap.mappingMarkup p).element level).childrenNamed "jpp" =
        [(p.2.toCoordinate.toMarkup "jpp").element (level + 1)] := by
      rw [Depmap.mappingMarkup, Markup.childrenNamed_group]
      rfl
    show (readMapping ((Depmap.mappingMarkup p).element level)).map some = _
    unfold readMapping
    simp only [hmaven, hjpp, List.mapM_cons, List.mapM_nil, hsource, htarget, bind, Except.bind]
    rfl
  exact Reads.group hread ((reads_block (by decide) p.1.toCoordinate).append
    (reads_block (by decide) p.2.toCoordinate))

/-- A floor is read from its element. -/
theorem reads_floor {d : Decimal} (hd : d.InRange) {tag : String} {buildTime : Bool}
    (htag : tag = if buildTime then "requiresJavaDevel" else "requiresJava") :
    -- the text of a floor is not changed by stripping, and is parsed as the floor
    Reads [.text tag d.toText] [.floor d.toText buildTime] := by
  have hfloor : ∀ (tag : String) level,
      readFloor (Markup.element (.text tag d.toText) level) buildTime =
        .ok (.floor d.toText buildTime) := by
    intro tag level
    unfold readFloor
    rw [Markup.allText_text, d.strip_toText]
    simp only [VersionFloor.parse_toText hd]
  refine Reads.text (r := some (.floor d.toText buildTime)) fun level => ?_
  cases buildTime with
  | true =>
    have hread : readElement (Markup.element (.text "requiresJavaDevel" d.toText) level) =
        (readFloor (Markup.element (.text "requiresJavaDevel" d.toText) level) true).map some := rfl
    rw [htag, if_pos rfl, hread, hfloor]
    rfl
  | false =>
    have hread : readElement (Markup.element (.text "requiresJava" d.toText) level) =
        (readFloor (Markup.element (.text "requiresJava" d.toText) level) false).map some := rfl
    rw [htag, if_neg Bool.false_ne_true, hread, hfloor]
    rfl

end Fragment

namespace Depmap

/-- All texts of the map's coordinates are made of writable characters. -/
structure IsWritable (m : Depmap) : Prop where
  mappings : ∀ p ∈ m.mappings, p.1.toCoordinate.IsWritable ∧ p.2.toCoordinate.IsWritable
  runtime : ∀ r ∈ m.runtime, r.toCoordinate.IsWritable
  build : ∀ r ∈ m.build, r.toCoordinate.IsWritable

variable {m : Depmap} (options : DocumentOptions)

/-- The floor at build time that is written. -/
def writtenBuildFloor (m : Depmap) : Option Decimal :=
  if options.writeBuild then m.buildFloor else none

/-- The records of a map, in the order of its document. -/
def toRecords (m : Depmap) : List FragmentRecord :=
  (if options.skipRequires then []
    else m.runtimeFloor.toList.map (fun d => .floor d.toText false) ++
      (m.writtenBuildFloor options).toList.map (fun d => .floor d.toText true)) ++
  m.mappings.toList.map (fun p => .mapping p.1.toCoordinate [p.2.toCoordinate]) ++
  (if options.skipRequires then []
    else (m.writtenRequirements options).toList.map fun r => .requirement r.toCoordinate)

/-! ### The document of a map -/

/-- A requirement that is written belongs to the map. -/
theorem IsWritable.writtenRequirements (h : m.IsWritable) {r : Requirement}
    (hr : r ∈ m.writtenRequirements options) : r.toCoordinate.IsWritable := by
  unfold Depmap.writtenRequirements at hr
  split at hr
  · rcases OrderedSet.mem_union.1 hr with hr | hr
    · exact h.runtime r hr
    · exact h.build r hr
  · exact h.runtime r hr

/-- A floor is written with characters that can be read back. -/
theorem wellFormed_floorMarkup {tag : String} (htag : IsTag tag) {floor : Option Decimal} :
    ∀ item ∈ floorMarkup tag floor, item.WellFormed := by
  have hchars : ∀ c ∈ Decimal.writtenChars, Xml.isLegal c = true ∧ c ≠ '\r' :=
    List.all_iff_forall_prop.1 (by decide)
  intro item hitem
  cases floor with
  | none => exact nomatch hitem
  | some d =>
    obtain rfl := List.mem_singleton.1 hitem
    exact .text htag fun c hc => hchars c (d.mem_writtenChars hc)

/-- The document of a map with writable texts can be read back. -/
theorem IsWritable.wellFormed_toMarkup (h : m.IsWritable) : (m.toMarkup options).WellFormed := by
  refine .group (by decide) fun item hitem => ?_
  simp only [List.mem_append] at hitem
  -- the mark for what is provided, the floors, the mappings and the requirements
  rcases hitem with ((hitem | hitem) | hitem) | hitem
  · split at hitem
    · obtain rfl := List.mem_singleton.1 hitem
      exact .text (by decide) fun c hc => nomatch hc
    · exact nomatch hitem
  · split at hitem
    · exact nomatch hitem
    · rcases List.mem_append.1 hitem with hitem | hitem
      · exact wellFormed_floorMarkup (by decide) item hitem
      · split at hitem
        · exact wellFormed_floorMarkup (by decide) item hitem
        · exact nomatch hitem
  · obtain ⟨p, hp, rfl⟩ := List.mem_map.1 hitem
    obtain ⟨hsource, htarget⟩ := h.mappings p hp
    refine .group (by decide) fun block hblock => ?_
    simp only [List.mem_cons, List.not_mem_nil, or_false] at hblock
    rcases hblock with rfl | rfl
    · exact Coordinate.wellFormed_toMarkup hsource (by decide)
    · exact Coordinate.wellFormed_toMarkup htarget (by decide)
  · split at hitem
    · exact nomatch hitem
    · obtain ⟨r, hr, rfl⟩ := List.mem_map.1 hitem
      exact Coordinate.wellFormed_toMarkup (h.writtenRequirements options hr) (by decide)

/-- A floor, where there is one, is read as its record. -/
theorem reads_floorMarkup {floor : Option Decimal} (h : ∀ d ∈ floor, d.InRange) {tag : String}
    {buildTime : Bool} (htag : tag = if buildTime then "requiresJavaDevel" else "requiresJava") :
    Fragment.Reads (floorMarkup tag floor)
      (floor.toList.map fun d => .floor d.toText buildTime) := by
  cases floor with
  | none => exact .nil
  | some d => exact Fragment.reads_floor (h d rfl) htag

/-- The parts of a map are read as its records. -/
theorem reads_toMarkup (hfloors : m.FloorsInRange) :
    Fragment.Reads [m.toMarkup options] (m.toRecords options) := by
  -- part by part, each with the options that let it through
  have hprovides : Fragment.Reads
      (if options.skipProvides then [.text "skipProvides" ""] else []) [] := by
    split
    · exact .text_of_other (by decide)
    · exact .nil
  have hfloor : Fragment.Reads
      (if options.skipRequires then []
        else floorMarkup "requiresJava" m.runtimeFloor ++
          (if options.writeBuild then floorMarkup "requiresJavaDevel" m.buildFloor else []))
      (if options.skipRequires then []
        else m.runtimeFloor.toList.map (fun d => .floor d.toText false) ++
          (m.writtenBuildFloor options).toList.map (fun d => .floor d.toText true)) := by
    split
    · exact .nil
    · refine (reads_floorMarkup hfloors.runtime (by decide)).append ?_
      unfold writtenBuildFloor
      split
      · exact reads_floorMarkup hfloors.build (by decide)
      · exact .nil
  have hmappings : Fragment.Reads (m.mappings.toList.map mappingMarkup)
      (m.mappings.toList.map fun p => .mapping p.1.toCoordinate [p.2.toCoordinate]) :=
    .map fun p _ => Fragment.reads_mapping p
  have hrequirements : Fragment.Reads
      (if options.skipRequires then []
        else (m.writtenRequirements options).toList.map fun r =>
          r.toCoordinate.toMarkup "autoRequires")
      (if options.skipRequires then []
        else (m.writtenRequirements options).toList.map fun r => .requirement r.toCoordinate) := by
    split
    · exact .nil
    · exact .map fun r _ => Fragment.reads_requirement rfl
  -- the parts stand in this order in the group
  exact .group_of_other (by decide)
    (((hprovides.append hfloor).append hmappings).append hrequirements)

/-- **Reading the document of a map.** A document is read as the records of the map that was
written, whatever the options and wherever it is said to come from. -/
theorem read_toDocument (hfloors : m.FloorsInRange) (htexts : m.IsWritable) (source : String) :
    Fragment.read (m.toDocument options) source = .ok (m.toRecords options) := by
  -- a document that says so itself is not wrapped
  have hdocument : Fragment.isDocument (m.toDocument options) = true := by
    unfold Fragment.isDocument
    rw [toDocument, String.toList_ofList]
    rfl
  have hwrap : Fragment.wrap (m.toDocument options) = m.toDocument options := by
    rw [Fragment.wrap, hdocument, if_pos rfl]
  have hparse : Xml.Document.ofText (m.toDocument options) = .ok ((m.toMarkup options).element 0) :=
    Xml.Document.ofText_document (by decide) (htexts.wellFormed_toMarkup options)
  have hroot : Fragment.readRoot ((m.toMarkup options).element 0) = .ok (m.toRecords options) := by
    have hreads := reads_toMarkup options hfloors 0
    rwa [List.flatMap_singleton] at hreads
  unfold Fragment.read
  rw [hwrap, hparse]
  simp only [hroot]
  rfl

/-! ### What the records bring back -/

/-- Records of a kind that has none of something have none of it together. -/
theorem flatMap_map_eq_nil {α β : Type} (as : List α) {f : α → FragmentRecord}
    {g : FragmentRecord → List β} (h : ∀ a, g (f a) = []) : (as.map f).flatMap g = [] := by
  rw [List.flatMap_eq_nil_iff]
  intro r hr
  obtain ⟨a, -, rfl⟩ := List.mem_map.1 hr
  exact h a

/-- The pairs that are mapped come back. -/
theorem flatMap_pairs_toRecords : (m.toRecords options).flatMap FragmentRecord.pairs =
    m.mappings.toList := by
  -- the mappings alone hold pairs, so all other parts drop out
  have hmappings : (m.mappings.toList.map fun p =>
      FragmentRecord.mapping p.1.toCoordinate [p.2.toCoordinate]).flatMap FragmentRecord.pairs =
      m.mappings.toList := by
    simp [FragmentRecord.pairs, List.flatMap_map]
  unfold toRecords
  rw [List.flatMap_append, List.flatMap_append, hmappings]
  split
  · exact List.append_nil _
  · rw [List.flatMap_append, flatMap_map_eq_nil _ fun _ => rfl, flatMap_map_eq_nil _ fun _ => rfl,
      flatMap_map_eq_nil _ fun _ => rfl, List.append_nil]
    rfl

/-- The requirements that are written come back. -/
theorem flatMap_requirements_toRecords :
    (m.toRecords options).flatMap FragmentRecord.requirements =
      if options.skipRequires then [] else (m.writtenRequirements options).toList := by
  -- the requirements alone count, so all other parts drop out
  have hrequirements : ((m.writtenRequirements options).toList.map fun r =>
      FragmentRecord.requirement r.toCoordinate).flatMap FragmentRecord.requirements =
      (m.writtenRequirements options).toList := by
    simp [FragmentRecord.requirements, List.flatMap_map]
  unfold toRecords
  rw [List.flatMap_append, List.flatMap_append,
    flatMap_map_eq_nil m.mappings.toList fun _ => rfl]
  split
  · rfl
  · rw [List.flatMap_append, flatMap_map_eq_nil _ fun _ => rfl, flatMap_map_eq_nil _ fun _ => rfl,
      hrequirements]
    rfl

/-- A written floor is the floor of its record, and of no other kind. -/
theorem floors_toText {d : Decimal} (hd : d.InRange) (written buildTime : Bool) :
    FragmentRecord.floors buildTime (.floor d.toText written) =
      if written = buildTime then [d] else [] := by
  simp only [FragmentRecord.floors, VersionFloor.parse_toText hd]

/-- The records of a floor that is written have that floor. -/
theorem flatMap_floors_map {floor : Option Decimal} (h : ∀ d ∈ floor, d.InRange)
    (written buildTime : Bool) :
    (floor.toList.map fun d => FragmentRecord.floor d.toText written).flatMap
      (FragmentRecord.floors buildTime) = if written = buildTime then floor.toList else [] := by
  cases floor with
  | none => exact (ite_self []).symm
  | some d =>
    show FragmentRecord.floors buildTime (.floor d.toText written) ++ [] = _
    rw [floors_toText (h d rfl), List.append_nil]
    rfl

/-- The floors that are written come back, each of its kind. -/
theorem flatMap_floors_toRecords (hfloors : m.FloorsInRange) (buildTime : Bool) :
    (m.toRecords options).flatMap (FragmentRecord.floors buildTime) =
      if options.skipRequires then []
      else if buildTime then (m.writtenBuildFloor options).toList else m.runtimeFloor.toList := by
  have hbuild : ∀ d ∈ m.writtenBuildFloor options, d.InRange := by
    unfold writtenBuildFloor
    split
    · exact hfloors.build
    · exact fun d hd => nomatch hd
  unfold toRecords
  rw [List.flatMap_append, List.flatMap_append,
    flatMap_map_eq_nil m.mappings.toList fun _ => rfl]
  split
  · rfl
  · rw [List.flatMap_append, flatMap_floors_map hfloors.runtime, flatMap_floors_map hbuild,
      flatMap_map_eq_nil _ fun _ => rfl]
    cases buildTime <;> simp

/-- A missing floor that is raised to another one is that. -/
theorem raised_none (floor : Option Decimal) : FragmentRecord.raised none floor.toList = floor := by
  cases floor <;> rfl

/-- **Writing a map and reading it back loses nothing.** The document of a map that comes about by
the steps on maps is read whatever the options are, and its records, applied to the empty map, give
back: the mappings; what is required at run time, with what is required at build time if that was to
be written, or nothing if no requirements were; nothing that is required at build time; and each
floor that was written, as the same decimal number. -/
theorem applyAll_read_toDocument (hm : m.Reachable) (htexts : m.IsWritable)
    (options : DocumentOptions) :
    ∃ records m', (∀ source, Fragment.read (m.toDocument options) source = .ok records) ∧
      FragmentRecord.applyAll .empty records = .ok m' ∧
      m'.mappings = m.mappings ∧
      m'.runtime = (if options.skipRequires then .empty
        else if options.writeBuild then m.runtime.union m.build else m.runtime) ∧
      m'.build = .empty ∧
      m'.runtimeFloor = (if options.skipRequires then none else m.runtimeFloor) ∧
      m'.buildFloor =
        (if options.writeBuild ∧ ¬ options.skipRequires then m.buildFloor else none) := by
  have hfloors := hm.floorsInRange
  have hread := read_toDocument options hfloors htexts
  -- records that are read can be applied, and add to the empty map what they hold
  obtain ⟨m', happly, hadds⟩ := FragmentRecord.applyAll_eq (m := .empty) rfl
    (Fragment.isApplicable_of_read (hread ""))
  refine ⟨m.toRecords options, m', hread, happly, ?_, ?_, hadds.build, ?_, ?_⟩
  · refine OrderedSet.ext fun p => ?_
    rw [hadds.mem_mappings, flatMap_pairs_toRecords]
    exact or_iff_right (OrderedSet.not_mem_empty p)
  · refine OrderedSet.ext fun r => ?_
    rw [hadds.mem_runtime, flatMap_requirements_toRecords]
    refine (or_iff_right (OrderedSet.not_mem_empty r)).trans ?_
    split
    · exact ⟨fun h => (nomatch h), fun h => absurd h (OrderedSet.not_mem_empty r)⟩
    · exact Iff.rfl
  · rw [hadds.runtimeFloor, flatMap_floors_toRecords options hfloors]
    split
    · rfl
    · exact raised_none m.runtimeFloor
  · -- build floors are written on request, unless requirements are skipped altogether
    rw [hadds.buildFloor, flatMap_floors_toRecords options hfloors]
    show FragmentRecord.raised none _ = _
    cases hskip : options.skipRequires with
    | true => simp [FragmentRecord.raised]
    | false =>
      rw [if_neg Bool.false_ne_true, if_pos rfl, raised_none, writtenBuildFloor]
      cases options.writeBuild <;> rfl

/-- A coordinate with markup characters, a blank and a letter past ASCII in its names, and with an
extension and a classifier of its own. -/
def sampleCoordinate : Coordinate where
  group := ⟨"org.<b> & \"caf\u00e9\"", by decide, by decide, by decide⟩
  artifact := ⟨"a  b", by decide, by decide, by decide⟩
  extension := ⟨"tar.gz", by decide, by decide⟩
  classifier := ⟨"]]>", by decide⟩
  version := some "1"

/-- A map with something in each of its parts; one of its floors is a negative zero. -/
def sampleMap : Depmap where
  mappings := OrderedSet.empty.insert (sampleCoordinate.identity, (default : Coordinate).identity)
  runtime := OrderedSet.empty.insert sampleCoordinate.requirement
  build := OrderedSet.empty.insert (default : Coordinate).requirement
  runtimeFloor := some ⟨true, 0, 3⟩
  buildFloor := some ⟨false, 180, -2⟩
  frozen := false

theorem applyAll_read_toDocument_sampleMap :
    sampleMap.Reachable ∧ sampleMap.IsWritable ∧
    ∃ records m', (∀ source, Fragment.read
        (sampleMap.toDocument { writeBuild := true }) source = .ok records) ∧
      FragmentRecord.applyAll .empty records = .ok m' ∧
      m'.mappings = sampleMap.mappings ∧
      m'.runtime = sampleMap.runtime.union sampleMap.build ∧
      m'.build = .empty ∧
      m'.runtimeFloor = some ⟨true, 0, 3⟩ ∧
      m'.buildFloor = some ⟨false, 180, -2⟩ := by
  -- the sets are filled one after the other, then both floors are raised
  have hreachable : sampleMap.Reachable := by
    have hfloor : ∀ (m : Depmap) (buildTime : Bool) (d : Decimal), m.frozen = false → d.InRange →
        m.addFloor buildTime d.toText = .ok (m.raiseFloor buildTime d) := by
      intro m buildTime d hm hd
      rw [addFloor, edit_of_not_frozen hm, VersionFloor.parse_toText hd]
    have hsets : Reachable { sampleMap with runtimeFloor := none, buildFloor := none } := by
      have hmapping : addMapping .empty sampleCoordinate default =
          .ok { Depmap.empty with mappings := sampleMap.mappings } := rfl
      have hruntime : addRuntime { Depmap.empty with mappings := sampleMap.mappings }
          sampleCoordinate = .ok { Depmap.empty with
            mappings := sampleMap.mappings, runtime := sampleMap.runtime } := rfl
      have hbuild : addBuild { Depmap.empty with
            mappings := sampleMap.mappings, runtime := sampleMap.runtime } default =
          .ok { sampleMap with runtimeFloor := none, buildFloor := none } := rfl
      exact ((Reachable.empty.addMapping hmapping).addRuntime hruntime).addBuild hbuild
    exact (hsets.addFloor (hfloor _ false ⟨true, 0, 3⟩ rfl (by decide +kernel))).addFloor
      (hfloor _ true ⟨false, 180, -2⟩ rfl (by decide +kernel))
  -- each set has a single member, so there are two coordinates to check
  have hwritable : sampleMap.IsWritable := by
    have hidentities : sampleCoordinate.identity.toCoordinate.IsWritable ∧
        (default : Coordinate).identity.toCoordinate.IsWritable := by
      decide
    have hrequirements : sampleCoordinate.requirement.toCoordinate.IsWritable ∧
        (default : Coordinate).requirement.toCoordinate.IsWritable := by
      decide
    refine ⟨fun p hp => ?_, fun r hr => ?_, fun r hr => ?_⟩
    · obtain rfl := (OrderedSet.mem_insert.1 hp).resolve_right (OrderedSet.not_mem_empty p)
      exact hidentities
    · obtain rfl := (OrderedSet.mem_insert.1 hr).resolve_right (OrderedSet.not_mem_empty r)
      exact hrequirements.1
    · obtain rfl := (OrderedSet.mem_insert.1 hr).resolve_right (OrderedSet.not_mem_empty r)
      exact hrequirements.2
  exact ⟨hreachable, hwritable,
    applyAll_read_toDocument hreachable hwritable { writeBuild := true }⟩

end Depmap

end Depot
