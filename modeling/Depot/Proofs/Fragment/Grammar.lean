import Depot.Proofs.Decimal.Grammar
import Depot.Proofs.Fragment.Elements
import Depot.Proofs.Fragment.Records
import Depot.Proofs.Outcome
/-!
# The grammar of fragments

`IsRecord` says which elements stand for which records, one rule a kind of record, without reading
anything. A record is told by its tag; what is in it are blocks, which name coordinates (`Names`),
or a number. What else is inside does not count, except that it may hold records of its own.

Apart from what they stand for, elements can be in order or not (`IsInOrder`), which is a matter of
counting children, of lengths, and of numbers. `exists_isRecord_iff` joins the two: an element with
the tag of a record stands for a record exactly if it is in order.

The reader takes the elements of a document one by one, each before those inside it, and stops at
the first that is not in order. `readElement_eq_ok_iff` compares one element with the rules, and
`readElements_eq_ok_iff` is the induction along the elements. So a fragment is read exactly if all
of its elements are in order, and then every element with the tag of a record gives its record
(`reads_all_or_nothing`).
-/

namespace Depot.Fragment

open Xml (Element)

/-! ### Blocks -/

/-- The texts of the children of a name, without blanks around them. -/
def fields (block : Element) (name : String) : List String :=
  (block.childrenNamed name).map fun field => Text.strip field.allText

/-- The block has at most one child of the name; there is no text for it if that child is missing or
blank. -/
inductive HasField (block : Element) (name : String) : Option String → Prop
  | missing (h : fields block name = []) : HasField block name none
  | blank (h : fields block name = [""]) : HasField block name none
  | text {s : String} (h : fields block name = [s]) (hs : s ≠ "") : HasField block name (some s)

/-- The block names the coordinate. There must be texts for group and artifact; a missing or blank
extension is `jar`, a missing or blank classifier is empty, and a missing or blank version is
none. -/
structure Names (block : Element) (c : Coordinate) : Prop where
  group : HasField block "groupId" (some c.group.text)
  artifact : HasField block "artifactId" (some c.artifact.text)
  extension : ∃ s, HasField block "extension" s ∧ c.extension.text = s.getD "jar"
  classifier : ∃ s, HasField block "classifier" s ∧ c.classifier.text = s.getD ""
  version : HasField block "version" c.version

/-- The block is in order: it holds the required fields once and the others at most once, and the
texts of the required ones are neither blank nor too long. -/
structure IsBlock (block : Element) : Prop where
  required : ∀ name ∈ ["groupId", "artifactId"], ∃ field, block.childrenNamed name = [field] ∧
    1 ≤ (Text.strip field.allText).length ∧ (Text.strip field.allText).length ≤ 200
  optional : ∀ name ∈ ["version", "extension", "classifier"],
    (block.childrenNamed name).length ≤ 1

variable {block : Element} {name : String}

/-- The texts have no blanks around them. -/
theorem strip_of_mem_fields {s : String} (h : s ∈ fields block name) : Text.strip s = s := by
  obtain ⟨field, -, rfl⟩ := List.mem_map.1 h
  exact Text.strip_strip _

theorem HasField.isTrimmed {t : Option String} (h : HasField block name t) :
    ∀ s ∈ t, Text.IsTrimmed s := by
  intro s hs
  cases h with
  | missing => cases hs
  | blank => cases hs
  | text h hne =>
    obtain rfl := Option.some.inj hs
    exact ⟨strip_of_mem_fields (h ▸ List.mem_singleton_self _), hne⟩

/-- There is a text for a field if it is not blank. -/
theorem hasField_of_fields_eq {t : Option String} (h : fields block name = t.toList) :
    HasField block name (t.filter (· != "")) := by
  cases t with
  | none => exact .missing h
  | some s =>
    by_cases hs : s = ""
    · subst hs
      exact .blank h
    · have hfilter : (some s).filter (· != "") = some s := by simp [hs]
      rw [hfilter]
      exact .text h hs

theorem HasField.exists_fields_eq {s : Option String} (h : HasField block name s) :
    ∃ t : Option String, fields block name = t.toList ∧ t.filter (· != "") = s := by
  cases h with
  | missing h => exact ⟨none, h, rfl⟩
  | blank h => exact ⟨some "", h, rfl⟩
  | text h hs => exact ⟨some _, h, by simp [hs]⟩

/-- A field is read if it is there once, or if it may be missing and is. -/
theorem fieldText_eq_ok_iff {required : Bool} {t : Option String} :
    fieldText block name required = .ok t ↔
      fields block name = t.toList ∧ (required = true → t ≠ none) := by
  unfold fieldText fields
  -- none, one or several: only several are refused
  split
  · next h => rw [h]; cases required <;> cases t <;> simp
  · next field h => rw [h]; cases t <;> simp [eq_comm]
  · next hnil hone =>
    refine iff_of_false (fun h => nomatch h) fun ⟨h, _⟩ => ?_
    cases t with
    | none => exact hnil (List.map_eq_nil_iff.1 h)
    | some s =>
      obtain ⟨field, hfield, -⟩ := List.map_eq_singleton_iff.1 h
      exact hone field hfield

/-- Whether the text of a field is blank or missing makes no difference to its default. -/
theorem getD_filter_ne_empty (t : Option String) : (t.filter (· != "")).getD "" = t.getD "" := by
  cases t with
  | none => rfl
  | some s => by_cases hs : s = "" <;> simp [Option.filter, hs]

/-- The fields of a block make the coordinate that their texts tell. -/
theorem ofFields_eq_ok_iff {group artifact version extension classifier : Option String}
    {c : Coordinate} (hgroup : HasField block "groupId" (group.filter (· != "")))
    (hartifact : HasField block "artifactId" (artifact.filter (· != "")))
    (hextension : HasField block "extension" (extension.filter (· != "")))
    (hclassifier : HasField block "classifier" (classifier.filter (· != ""))) :
    Coordinate.ofFields {
        group := .text (group.getD "")
        artifact := .text (artifact.getD "")
        extension := optionalField extension
        classifier := optionalField classifier
        version := versionField version } = .ok c ↔
      group.filter (· != "") = some c.group.text ∧
      artifact.filter (· != "") = some c.artifact.text ∧
      c.extension.text = (extension.filter (· != "")).getD "jar" ∧
      c.classifier.text = (classifier.filter (· != "")).getD "" ∧
      version.filter (· != "") = c.version := by
  -- a field that is empty counts as a missing one
  have htext : ∀ t, (optionalField t).textOrEmpty = t.getD "" := fun t => by cases t <;> rfl
  have hversion : versionOfField (versionField version) = .ok (version.filter (· != "")) := by
    cases version with
    | none => rfl
    | some v => by_cases hv : v = "" <;> simp [versionField, versionOfField, Option.filter, hv]
  rw [Coordinate.ofFields_eq_ok_iff, htext, htext, hversion, Except.ok.injEq]
  simp only [← getD_filter_ne_empty group, ← getD_filter_ne_empty artifact,
    ← getD_filter_ne_empty extension, ← getD_filter_ne_empty classifier]
  rw [Part.ofField_getD_eq_ok_iff hgroup.isTrimmed, Part.ofField_getD_eq_ok_iff hartifact.isTrimmed,
    Extension.ofText_getD_eq_iff hextension.isTrimmed,
    Classifier.ofText_getD_eq_iff hclassifier.isTrimmed]
  rfl

/-- **Blocks** are read as the coordinates that they name. -/
theorem readBlock_eq_ok_iff {c : Coordinate} : readBlock block = .ok c ↔ Names block c := by
  simp only [readBlock, bind_eq_ok_iff, mapError_eq_ok_iff, fieldText_eq_ok_iff]
  constructor
  · rintro ⟨group, ⟨hgroup, -⟩, artifact, ⟨hartifact, -⟩, version, ⟨hversion, -⟩, extension,
      ⟨hextension, -⟩, classifier, ⟨hclassifier, -⟩, h⟩
    -- what was read of each field is its text, unless that is blank
    replace hgroup := hasField_of_fields_eq hgroup
    replace hartifact := hasField_of_fields_eq hartifact
    replace hversion := hasField_of_fields_eq hversion
    replace hextension := hasField_of_fields_eq hextension
    replace hclassifier := hasField_of_fields_eq hclassifier
    obtain ⟨hg, ha, he, hk, hv⟩ :=
      (ofFields_eq_ok_iff hgroup hartifact hextension hclassifier).1 h
    exact ⟨hg ▸ hgroup, ha ▸ hartifact, ⟨_, hextension, he⟩, ⟨_, hclassifier, hk⟩, hv ▸ hversion⟩
  · rintro ⟨hgroup, hartifact, ⟨e, hextension, he⟩, ⟨k, hclassifier, hk⟩, hversion⟩
    obtain ⟨group, hg, hgroupText⟩ := hgroup.exists_fields_eq
    obtain ⟨artifact, ha, hartifactText⟩ := hartifact.exists_fields_eq
    obtain ⟨version, hv, hversionText⟩ := hversion.exists_fields_eq
    obtain ⟨extension, hx, rfl⟩ := hextension.exists_fields_eq
    obtain ⟨classifier, hc, rfl⟩ := hclassifier.exists_fields_eq
    have hsome : ∀ {t : Option String} {s}, t.filter (· != "") = some s → t ≠ none := by
      rintro t s h rfl
      cases h
    refine ⟨group, ⟨hg, fun _ => hsome hgroupText⟩, artifact, ⟨ha, fun _ => hsome hartifactText⟩,
      version, ⟨hv, fun h => nomatch h⟩, extension, ⟨hx, fun h => nomatch h⟩, classifier,
      ⟨hc, fun h => nomatch h⟩, ?_⟩
    exact (ofFields_eq_ok_iff (hgroupText ▸ hgroup) (hartifactText ▸ hartifact) hextension
      hclassifier).2 ⟨hgroupText, hartifactText, he, hk, hversionText⟩

/-- There is something to say about a field exactly if it is there at most once. -/
theorem exists_hasField_iff :
    (∃ s, HasField block name s) ↔ (block.childrenNamed name).length ≤ 1 := by
  have hlength : (fields block name).length = (block.childrenNamed name).length := List.length_map _
  rw [← hlength]
  constructor
  · rintro ⟨s, h⟩
    cases h with
    | missing h => rw [h]; exact Nat.zero_le 1
    | blank h => rw [h]; exact Nat.le_refl 1
    | text h => rw [h]; exact Nat.le_refl 1
  · intro h
    match hfields : fields block name, h with
    | [], _ => exact ⟨none, .missing hfields⟩
    | [s], _ => exact ⟨_, hasField_of_fields_eq (t := some s) hfields⟩

/-- The text of a field that is there once and not blank. -/
theorem hasField_some_iff {s : String} : HasField block name (some s) ↔
    ∃ field, block.childrenNamed name = [field] ∧ Text.strip field.allText = s ∧ s ≠ "" := by
  constructor
  · rintro (_ | _ | ⟨h, hs⟩)
    obtain ⟨field, hfield, hstrip⟩ := List.map_eq_singleton_iff.1 h
    exact ⟨field, hfield, hstrip, hs⟩
  · rintro ⟨field, hfield, rfl, hs⟩
    exact .text (by rw [fields, hfield]; rfl) hs

/-- There is a text for a required field exactly if it is there once and its text is neither blank
nor too long. -/
theorem exists_part_iff : (∃ p : Part, HasField block name (some p.text)) ↔
    ∃ field, block.childrenNamed name = [field] ∧
      1 ≤ (Text.strip field.allText).length ∧ (Text.strip field.allText).length ≤ 200 := by
  constructor
  · rintro ⟨p, hp⟩
    obtain ⟨field, hfield, hstrip, -⟩ := hasField_some_iff.1 hp
    have hpos : 1 ≤ p.text.length :=
      Nat.pos_of_ne_zero fun h => p.ne_empty (String.length_eq_zero_iff.1 h)
    exact ⟨field, hfield, hstrip ▸ hpos, hstrip ▸ p.length_le⟩
  · rintro ⟨field, hfield, hpos, hlength⟩
    have hne : Text.strip field.allText ≠ "" := fun h => absurd (h ▸ hpos) (by decide)
    exact ⟨⟨_, Text.strip_strip _, hne, hlength⟩, hasField_some_iff.2 ⟨field, hfield, rfl, hne⟩⟩

/-- **Which blocks name something.** A block names a coordinate exactly if it is in order. -/
theorem exists_names_iff : (∃ c, Names block c) ↔ IsBlock block := by
  constructor
  · rintro ⟨c, hgroup, hartifact, ⟨e, hextension, -⟩, ⟨k, hclassifier, -⟩, hversion⟩
    -- a required field is a part, an optional one occurs at most once
    refine ⟨?_, ?_⟩
    · rw [List.forall_mem_cons, List.forall_mem_singleton]
      exact ⟨exists_part_iff.1 ⟨_, hgroup⟩, exists_part_iff.1 ⟨_, hartifact⟩⟩
    · rw [List.forall_mem_cons, List.forall_mem_cons, List.forall_mem_singleton]
      exact ⟨exists_hasField_iff.1 ⟨_, hversion⟩, exists_hasField_iff.1 ⟨_, hextension⟩,
        exists_hasField_iff.1 ⟨_, hclassifier⟩⟩
  · rintro ⟨hrequired, hoptional⟩
    obtain ⟨group, hgroup⟩ := exists_part_iff.2 (hrequired "groupId" (by decide))
    obtain ⟨artifact, hartifact⟩ := exists_part_iff.2 (hrequired "artifactId" (by decide))
    obtain ⟨version, hversion⟩ := exists_hasField_iff.2 (hoptional "version" (by decide))
    obtain ⟨s, hextension⟩ := exists_hasField_iff.2 (hoptional "extension" (by decide))
    obtain ⟨t, hclassifier⟩ := exists_hasField_iff.2 (hoptional "classifier" (by decide))
    obtain ⟨extension, he⟩ : ∃ e : Extension, e.text = s.getD "jar" :=
      ⟨_, Extension.text_ofText_getD hextension.isTrimmed⟩
    obtain ⟨classifier, hc⟩ : ∃ c : Classifier, c.text = t.getD "" :=
      ⟨_, Classifier.text_ofText_getD hclassifier.isTrimmed⟩
    exact ⟨⟨group, artifact, extension, classifier, version⟩, hgroup, hartifact,
      ⟨s, hextension, he⟩, ⟨t, hclassifier, hc⟩, hversion⟩

/-! ### Records -/

/-- The tags of the elements that hold a number: is it one for build time? -/
def floorTags : List (String × Bool) := [("requiresJava", false), ("requiresJavaDevel", true)]

/-- The element stands for the record. -/
inductive IsRecord (e : Element) : FragmentRecord → Prop
  | mapping {block : Element} {source : Coordinate} {targets : List Coordinate}
      (htag : e.tag = "dependency") (hblock : e.childrenNamed "maven" = [block])
      (hsource : Names block source) (hne : e.childrenNamed "jpp" ≠ [])
      (htargets : List.Forall₂ Names (e.childrenNamed "jpp") targets) :
      IsRecord e (.mapping source targets)
  | requirement {c : Coordinate} (htag : e.tag = "autoRequires") (h : Names e c) :
      IsRecord e (.requirement c)
  | floor {buildTime : Bool} {d : Decimal} (htag : (e.tag, buildTime) ∈ floorTags)
      (h : Decimal.IsNumeral e.allText d) : IsRecord e (.floor (Text.strip e.allText) buildTime)

/-- The element is in order: if it has the tag of a record, it holds what such a record needs. -/
structure IsInOrder (e : Element) : Prop where
  mapping : e.tag = "dependency" →
    (∃ block, e.childrenNamed "maven" = [block] ∧ IsBlock block) ∧
      e.childrenNamed "jpp" ≠ [] ∧ ∀ block ∈ e.childrenNamed "jpp", IsBlock block
  requirement : e.tag = "autoRequires" → IsBlock e
  floor : ∀ buildTime, (e.tag, buildTime) ∈ floorTags → ∃ d, Decimal.IsNumeral e.allText d

variable {e : Element}

/-- The tags of records. -/
theorem mem_recordTags_iff {tag : String} : tag ∈ recordTags ↔
    tag = "dependency" ∨ tag = "autoRequires" ∨ ∃ buildTime, (tag, buildTime) ∈ floorTags := by
  simp [recordTags, floorTags]

theorem not_mem_floorTags {buildTime : Bool} (h : e.tag = "dependency" ∨ e.tag = "autoRequires") :
    (e.tag, buildTime) ∉ floorTags := by
  rcases h with h | h <;> rw [h] <;> cases buildTime <;> decide

/-- **Which elements stand for records.** An element with the tag of a record stands for a record
exactly if it is in order. -/
theorem exists_isRecord_iff (htag : e.tag ∈ recordTags) : (∃ r, IsRecord e r) ↔ IsInOrder e := by
  constructor
  · -- an element has one tag, so two of the three parts ask for nothing
    rintro ⟨r, h⟩
    cases h with
    | mapping htag hblock hsource hne htargets =>
      refine ⟨fun _ => ⟨⟨_, hblock, exists_names_iff.1 ⟨_, hsource⟩⟩, hne, fun block hblock => ?_⟩,
        fun h => absurd (htag.symm.trans h) (by decide),
        fun _ h => absurd h (not_mem_floorTags (.inl htag))⟩
      exact exists_names_iff.1 (exists_forall₂_iff.1 ⟨_, htargets⟩ block hblock)
    | requirement htag h =>
      exact ⟨fun h => absurd (htag.symm.trans h) (by decide), fun _ => exists_names_iff.1 ⟨_, h⟩,
        fun _ h => absurd h (not_mem_floorTags (.inr htag))⟩
    | floor htag h =>
      exact ⟨fun h => absurd htag (not_mem_floorTags (.inl h)),
        fun h => absurd htag (not_mem_floorTags (.inr h)), fun _ _ => ⟨_, h⟩⟩
  · -- the tag decides which part is asked for, and that part makes the record
    intro h
    rcases mem_recordTags_iff.1 htag with htag | htag | ⟨buildTime, htag⟩
    · obtain ⟨⟨block, hblock, hsource⟩, hne, htargets⟩ := h.mapping htag
      obtain ⟨source, hsource⟩ := exists_names_iff.2 hsource
      obtain ⟨targets, htargets⟩ :=
        exists_forall₂_iff.2 fun block hblock => exists_names_iff.2 (htargets block hblock)
      exact ⟨_, .mapping htag hblock hsource hne htargets⟩
    · obtain ⟨c, hc⟩ := exists_names_iff.2 (h.requirement htag)
      exact ⟨_, .requirement htag hc⟩
    · obtain ⟨d, hd⟩ := h.floor buildTime htag
      exact ⟨_, .floor htag hd⟩

/-- An element with another tag is in order, whatever it holds. -/
theorem isInOrder_of_other (htag : e.tag ∉ recordTags) : IsInOrder e where
  mapping h := absurd (mem_recordTags_iff.2 (.inl h)) htag
  requirement h := absurd (mem_recordTags_iff.2 (.inr (.inl h))) htag
  floor buildTime h := absurd (mem_recordTags_iff.2 (.inr (.inr ⟨buildTime, h⟩))) htag

/-! ### Reading elements -/

theorem readMapping_eq_ok_iff {r : FragmentRecord} : readMapping e = .ok r ↔
    ∃ block source targets, e.childrenNamed "maven" = [block] ∧ Names block source ∧
      e.childrenNamed "jpp" ≠ [] ∧ List.Forall₂ Names (e.childrenNamed "jpp") targets ∧
      FragmentRecord.mapping source targets = r := by
  have hblocks : ∀ {blocks targets}, blocks.mapM readBlock = .ok targets ↔
      List.Forall₂ Names blocks targets := by
    intro blocks targets
    simp only [mapM_eq_ok_iff, readBlock_eq_ok_iff]
  unfold readMapping
  split
  · next block hblock =>
    split
    · -- no target
      next hnil =>
      refine iff_of_false (fun h => nomatch h) ?_
      rintro ⟨_, _, _, -, -, hne, -⟩
      exact hne hnil
    · next hne =>
      simp only [bind_eq_ok_iff, readBlock_eq_ok_iff, hblocks, hblock]
      constructor
      · rintro ⟨source, hsource, targets, htargets, h⟩
        exact ⟨block, source, targets, rfl, hsource, hne, htargets, Except.ok.inj h⟩
      · rintro ⟨_, source, targets, ⟨⟩, hsource, -, htargets, rfl⟩
        exact ⟨source, hsource, targets, htargets, rfl⟩
  · -- no source, or more than one
    next hother =>
    refine iff_of_false (fun h => nomatch h) ?_
    rintro ⟨block, _, _, hblock, -⟩
    exact hother block hblock

theorem readFloor_eq_ok_iff {buildTime : Bool} {r : FragmentRecord} :
    readFloor e buildTime = .ok r ↔
      ∃ d, Decimal.IsNumeral e.allText d ∧ .floor (Text.strip e.allText) buildTime = r := by
  simp only [← Decimal.isNumeral_strip_iff (s := e.allText), ← VersionFloor.parse_eq_ok_iff,
    readFloor]
  cases VersionFloor.parse (Text.strip e.allText) <;> simp

theorem readElement_of_mapping (htag : e.tag = "dependency") :
    readElement e = (readMapping e).map some := by
  simp only [readElement, htag]

theorem readElement_of_requirement (htag : e.tag = "autoRequires") :
    readElement e = (readBlock e).map fun c => some (.requirement c) := by
  simp only [readElement, htag]

theorem readElement_of_floor {buildTime : Bool} (htag : (e.tag, buildTime) ∈ floorTags) :
    readElement e = (readFloor e buildTime).map some := by
  simp only [floorTags, List.mem_cons, Prod.mk.injEq, List.not_mem_nil, or_false] at htag
  obtain ⟨htag, rfl⟩ | ⟨htag, rfl⟩ := htag <;> simp only [readElement, htag]

/-- **Elements** are read as the records that they stand for. -/
theorem readElement_eq_ok_iff {r : FragmentRecord} :
    readElement e = .ok (some r) ↔ IsRecord e r := by
  constructor
  · intro h
    by_cases htag : e.tag ∈ recordTags
    · -- the tag decides which reader is applied
      rcases mem_recordTags_iff.1 htag with htag | htag | ⟨buildTime, htag⟩
      · rw [readElement_of_mapping htag] at h
        obtain ⟨_, hread, ⟨⟩⟩ := map_eq_ok_iff.1 h
        obtain ⟨block, source, targets, hblock, hsource, hne, htargets, rfl⟩ :=
          readMapping_eq_ok_iff.1 hread
        exact .mapping htag hblock hsource hne htargets
      · rw [readElement_of_requirement htag] at h
        obtain ⟨c, hread, ⟨⟩⟩ := map_eq_ok_iff.1 h
        exact .requirement htag (readBlock_eq_ok_iff.1 hread)
      · rw [readElement_of_floor htag] at h
        obtain ⟨_, hread, ⟨⟩⟩ := map_eq_ok_iff.1 h
        obtain ⟨d, hd, rfl⟩ := readFloor_eq_ok_iff.1 hread
        exact .floor htag hd
    · -- an element of another tag gives no record
      rw [readElement_of_other htag] at h
      cases h
  · -- the other way, each rule names its tag
    intro h
    cases h with
    | mapping htag hblock hsource hne htargets =>
      rw [readElement_of_mapping htag]
      exact map_eq_ok_iff.2
        ⟨_, readMapping_eq_ok_iff.2 ⟨_, _, _, hblock, hsource, hne, htargets, rfl⟩, rfl⟩
    | requirement htag h =>
      rw [readElement_of_requirement htag]
      exact map_eq_ok_iff.2 ⟨_, readBlock_eq_ok_iff.2 h, rfl⟩
    | floor htag h =>
      rw [readElement_of_floor htag]
      exact map_eq_ok_iff.2 ⟨_, readFloor_eq_ok_iff.2 ⟨_, h, rfl⟩, rfl⟩

/-- An element with the tag of a record is no record only if reading it fails. -/
theorem readElement_ne_ok_none (htag : e.tag ∈ recordTags) : readElement e ≠ .ok none := by
  have hmap : ∀ {α : Type} {x : Except Cause α} {f : α → FragmentRecord},
      x.map (fun a => some (f a)) ≠ .ok none := by
    rintro α (_ | _) f h <;> cases h
  rcases mem_recordTags_iff.1 htag with htag | htag | ⟨buildTime, htag⟩
  · rw [readElement_of_mapping htag]
    exact hmap
  · rw [readElement_of_requirement htag]
    exact hmap
  · rw [readElement_of_floor htag]
    exact hmap

/-- The elements that have the tag of a record. -/
def recordElements (es : List Element) : List Element := es.filter fun e => e.tag ∈ recordTags

/-- **Elements one after the other** are read as the records that they stand for, in order. -/
theorem readElements_eq_ok_iff {es : List Element} {records : List FragmentRecord} :
    readElements es = .ok records ↔ List.Forall₂ IsRecord (recordElements es) records := by
  -- along the elements: one with the tag of a record gives the first record, or the whole fails
  induction es generalizing records with
  | nil =>
    rw [recordElements, List.filter_nil, List.forall₂_nil_left_iff]
    exact (Except.ok.injEq _ _).to_iff.trans eq_comm
  | cons e es ih =>
    by_cases htag : e.tag ∈ recordTags
    · have hcons : recordElements (e :: es) = e :: recordElements es :=
        List.filter_cons_of_pos (by simpa using htag)
      rw [hcons, List.forall₂_cons_left_iff]
      constructor
      · intro h
        obtain ⟨r, more, he, hes, rfl⟩ := exists_of_readElements_cons h
        cases r with
        | none => exact absurd he (readElement_ne_ok_none htag)
        | some r => exact ⟨r, more, readElement_eq_ok_iff.1 he, ih.1 hes, rfl⟩
      · rintro ⟨r, more, he, hes, rfl⟩
        exact readElements_cons (readElement_eq_ok_iff.2 he) (ih.2 hes)
    · -- an element of another tag adds nothing
      have hcons : recordElements (e :: es) = recordElements es :=
        List.filter_cons_of_neg (by simpa using htag)
      have he := readElement_of_other htag
      rw [hcons]
      constructor
      · intro h
        obtain ⟨r, more, he', hes, rfl⟩ := exists_of_readElements_cons h
        obtain rfl := Except.ok.inj (he.symm.trans he')
        exact ih.1 hes
      · intro h
        exact readElements_cons he (ih.2 h)

/-- Elements can be read exactly if all of them are in order. -/
theorem exists_readElements_iff {es : List Element} :
    (∃ records, readElements es = .ok records) ↔ ∀ e ∈ es, IsInOrder e := by
  simp only [readElements_eq_ok_iff, exists_forall₂_iff]
  constructor
  · intro h e he
    by_cases htag : e.tag ∈ recordTags
    · exact (exists_isRecord_iff htag).1 (h e (List.mem_filter.2 ⟨he, by simpa using htag⟩))
    · exact isInOrder_of_other htag
  · intro h e he
    obtain ⟨hmem, htag⟩ := List.mem_filter.1 he
    exact (exists_isRecord_iff (by simpa using htag)).2 (h e hmem)

/-! ### Fragments -/

/-- The elements of a tree in document order: the root, and then the trees of its children one after
the other. -/
theorem selfAndDescendants_eq (e : Element) :
    e.selfAndDescendants = e :: e.children.flatMap Element.selfAndDescendants := by
  have hcontent : ∀ k : Xml.Content,
      k.descendants = k.children.flatMap Element.selfAndDescendants := by
    intro k
    -- along the content, where an element brings all that is inside it
    induction k with
    | nil => rfl
    | char c rest ih => exact ih
    | element n k rest _ ih =>
      rw [Xml.Content.descendants, Xml.Content.children, List.flatMap_cons, ← ih]
      rfl
  rw [Element.selfAndDescendants, hcontent]
  rfl

/-- The records of a fragment are those of its elements, or what is wrong is wrong with one of
them. -/
theorem read_eq {contents source : String} {root : Element}
    (hroot : Xml.Document.ofText (wrap contents) = .ok root) :
    read contents source =
      (readElements root.selfAndDescendants).mapError fun cause => ⟨cause, source⟩ := by
  unfold read
  rw [hroot]
  rfl

/-- What is read is a document. -/
theorem exists_root_of_read {contents source : String} {records : List FragmentRecord}
    (h : read contents source = .ok records) :
    ∃ root, Xml.Document.ofText (wrap contents) = .ok root := by
  unfold read at h
  split at h
  · cases h
  · next root hroot => exact ⟨root, hroot⟩

/-- The version of a record is a number. -/
theorem IsRecord.isApplicable {r : FragmentRecord} (h : IsRecord e r) : r.IsApplicable := by
  cases h with
  | mapping => exact trivial
  | requirement => exact trivial
  | floor _ h => exact ⟨_, VersionFloor.parse_eq_ok_iff.2 (Decimal.isNumeral_strip_iff.2 h)⟩

/-- **Records that are read can be applied.** -/
theorem isApplicable_of_read {contents source : String} {records : List FragmentRecord}
    (h : read contents source = .ok records) : ∀ r ∈ records, r.IsApplicable := by
  obtain ⟨root, hroot⟩ := exists_root_of_read h
  rw [read_eq hroot, mapError_eq_ok_iff, readElements_eq_ok_iff] at h
  exact forall_mem_of_forall₂ h fun _ _ => IsRecord.isApplicable

/-- **All or nothing.** A fragment whose markup is in order is read exactly if each of its elements,
at any depth, is in order, and is refused as malformed otherwise. What is read are the records that
its elements stand for, one for each element with the tag of a record, in document order; and these
can be applied to every map that is not published. -/
theorem reads_all_or_nothing {contents : String} {root : Element}
    (hroot : Xml.Document.ofText (wrap contents) = .ok root) (source : String) :
    (∀ e : Element, e.selfAndDescendants = e :: e.children.flatMap Element.selfAndDescendants) ∧
    ((∃ records, read contents source = .ok records) ↔
      ∀ e ∈ root.selfAndDescendants, IsInOrder e) ∧
    ((∃ cause, read contents source = .error ⟨cause, source⟩) ↔
      ∃ e ∈ root.selfAndDescendants, ¬ IsInOrder e) ∧
    (∀ records, read contents source = .ok records ↔
      List.Forall₂ IsRecord (recordElements root.selfAndDescendants) records) ∧
    ∀ records, read contents source = .ok records → ∀ m : Depmap, m.frozen = false →
      ∃ m', FragmentRecord.applyAll m records = .ok m' := by
  -- reading is reading the elements in order; the source is only named in the error
  have hread : ∀ records, read contents source = .ok records ↔
      readElements root.selfAndDescendants = .ok records := by
    intro records
    rw [read_eq hroot, mapError_eq_ok_iff]
  have hexists : (∃ records, read contents source = .ok records) ↔
      ∀ e ∈ root.selfAndDescendants, IsInOrder e := by
    simp only [hread, exists_readElements_iff]
  refine ⟨selfAndDescendants_eq, hexists, ?_, fun records => ?_, fun records h m hm => ?_⟩
  · -- reading fails exactly if it does not succeed, and always with this source
    have hnot : (∃ e ∈ root.selfAndDescendants, ¬ IsInOrder e) ↔
        ¬ ∃ records, read contents source = .ok records := by
      rw [hexists]
      simp only [not_forall, exists_prop]
    rw [hnot, read_eq hroot]
    cases readElements root.selfAndDescendants with
    | error cause => exact iff_of_true ⟨cause, rfl⟩ fun ⟨_, h⟩ => nomatch h
    | ok records => exact iff_of_false (fun ⟨_, h⟩ => nomatch h) fun h => h ⟨records, rfl⟩
  · rw [hread, readElements_eq_ok_iff]
  · -- records are applicable as they are read, so the open map takes them all
    obtain ⟨m', hm', -⟩ := FragmentRecord.applyAll_eq hm (isApplicable_of_read h)
    exact ⟨m', hm'⟩

/-- A mapping with a floor inside its target, and with blanks around texts. -/
def nestedText : String :=
  "<dependency><maven><groupId>org.nested</groupId><artifactId> nested </artifactId>" ++
  "<version> </version></maven><jpp><groupId>org.nested</groupId><artifactId>nested</artifactId>" ++
  "<requiresJava> 1.80 </requiresJava></jpp></dependency>"

/-- What it holds. -/
def nestedRecords : List FragmentRecord :=
  let c : Coordinate := ⟨.literal "org.nested" rfl, .literal "nested" rfl, .jar, .none, none⟩
  [.mapping c [c], .floor "1.80" false]

theorem reads_all_or_nothing_nested : ∃ root,
    Xml.Document.ofText (wrap nestedText) = .ok root ∧
      read nestedText "nested" = .ok nestedRecords ∧
      (∀ e ∈ root.selfAndDescendants, IsInOrder e) ∧
      List.Forall₂ IsRecord (recordElements root.selfAndDescendants) nestedRecords ∧
      ∃ m, FragmentRecord.applyAll .empty nestedRecords = .ok m := by
  have hread : read nestedText "nested" = .ok nestedRecords := eq_ok_of_toOption (by decide +kernel)
  obtain ⟨root, hroot⟩ := exists_root_of_read hread
  obtain ⟨-, hall, -, hrecords, happly⟩ := reads_all_or_nothing hroot "nested"
  exact ⟨root, hroot, hread, hall.1 ⟨_, hread⟩, (hrecords _).1 hread, happly _ hread .empty rfl⟩

end Depot.Fragment
