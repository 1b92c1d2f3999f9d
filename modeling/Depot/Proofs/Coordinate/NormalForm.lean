import Depot.Proofs.Coordinate.Written
import Depot.Proofs.Fragment.Grammar
import Depot.Proofs.Metadata.Index
import Depot.Proofs.Resolver.Rewriting
/-!
# Coordinates stay in normal form

Only building a coordinate from fields looks at them. All that is done with a coordinate later, from
giving it another version to reading a target for a request, copies fields, and the last of these
takes them from two coordinates at once. So it takes an argument that nothing else than normal forms
comes about, and that a check would never say anything new.

`Coordinate.Texts` are five fields of which nothing is known. On these, building is described by
rules (`Texts.Built`), and all copies are made without a check. `Yields` runs both sides along each
other: the texts of one side, and the coordinate that the program has on the other. It has one rule
for building and one for each copy, and all other sources of coordinates come down to these: a text,
a fragment and a metadata document are read by building. By induction along the rules the texts are
in normal form, the coordinate is made of them, and building it again from them gives it back
(`isNormal_of_yields`).

Two facts carry this. A name is bounded before the blanks around it are dropped, and dropping blanks
makes no text longer, so what was accepted once is accepted as it is (`Texts.built_fields_iff`). And
no copy puts together anything but fields that were normal in their own place.
-/

namespace Depot

/-- The coordinates that a record names. -/
def FragmentRecord.coordinates : FragmentRecord → List Coordinate
  | .mapping source targets => source :: targets
  | .requirement c => [c]
  | .floor _ _ => []

namespace Coordinate

/-- Five fields of a coordinate, of which nothing is known. -/
structure Texts where
  group : String
  artifact : String
  extension : String
  classifier : String
  version : Option String
  deriving DecidableEq

/-- The fields of a coordinate. -/
def texts (c : Coordinate) : Texts :=
  ⟨c.group.text, c.artifact.text, c.extension.text, c.classifier.text, c.version⟩

theorem texts_injective : Function.Injective texts := by
  intro a b h
  obtain ⟨hgroup, hartifact, hextension, hclassifier, hversion⟩ := Texts.mk.inj h
  calc a = ⟨a.group, a.artifact, a.extension, a.classifier, a.version⟩ := rfl
    _ = b := by rw [Part.ext hgroup, Part.ext hartifact, Extension.ext hextension,
      Classifier.ext hclassifier, hversion]

namespace Texts

variable {t target request : Texts} {f : CoordinateFields}

/-! ### Copies without a check -/

/-- The fields from which a coordinate of these texts would be built. -/
def fields (t : Texts) : CoordinateFields where
  group := .text t.group
  artifact := .text t.artifact
  extension := .text t.extension
  classifier := .text t.classifier
  version := match t.version with
    | some v => .text v
    | none => .null

/-- Another version, or none. -/
def withVersion (t : Texts) (version : Option String) : Texts := { t with version }

def withoutVersion (t : Texts) : Texts := t.withVersion none

def withoutVersionAndExtension (t : Texts) : Texts :=
  { t with version := none, extension := "jar" }

/-- A target as it is asked for. -/
def restored (target request : Texts) : Texts :=
  { target with
    extension := request.extension
    classifier := if target.classifier = "" then request.classifier else target.classifier
    version := request.version }

/-- What is asked for: the targets, then the request unless it is among them. -/
def candidates (targets : List Texts) (request : Texts) : List Texts :=
  let mapped := targets.map fun target => target.restored request
  if mapped.contains request then mapped else mapped ++ [request]

/-! ### Normal forms -/

/-- The text is a name: it is not blank, has no blanks around it, and is not too long. -/
structure IsName (s : String) : Prop extends Text.IsTrimmed s where
  length_le : s.length ≤ 200

/-- The texts are in normal form. -/
structure IsNormal (t : Texts) : Prop where
  group : IsName t.group
  artifact : IsName t.artifact
  extension : Text.IsTrimmed t.extension
  classifier : Text.strip t.classifier = t.classifier

theorem isTrimmed_jar : Text.IsTrimmed "jar" := ⟨by decide, by decide⟩

theorem IsNormal.withVersion (h : t.IsNormal) (version : Option String) :
    (t.withVersion version).IsNormal :=
  ⟨h.group, h.artifact, h.extension, h.classifier⟩

theorem IsNormal.withoutVersionAndExtension (h : t.IsNormal) :
    t.withoutVersionAndExtension.IsNormal :=
  ⟨h.group, h.artifact, isTrimmed_jar, h.classifier⟩

/-- **Two coordinates in one.** What is put together of a target and a request has its names from
the one and its extension from the other; whichever of them the classifier comes from, it has no
blanks around it. -/
theorem IsNormal.restored (htarget : target.IsNormal) (hrequest : request.IsNormal) :
    (target.restored request).IsNormal where
  group := htarget.group
  artifact := htarget.artifact
  extension := hrequest.extension
  classifier := by
    have heither : (target.restored request).classifier =
        if target.classifier = "" then request.classifier else target.classifier := rfl
    rw [heither]
    split
    · exact hrequest.classifier
    · exact htarget.classifier

/-- What is asked for is in normal form, if the targets and the request are. -/
theorem isNormal_of_mem_candidates {targets : List Texts} (htargets : ∀ t ∈ targets, t.IsNormal)
    (hrequest : request.IsNormal) (h : t ∈ candidates targets request) : t.IsNormal := by
  -- a target keeps its own names and takes the rest from itself or the request
  have hmapped : ∀ t ∈ targets.map fun target => target.restored request, t.IsNormal := by
    intro t ht
    obtain ⟨target, htarget, rfl⟩ := List.mem_map.1 ht
    exact (htargets target htarget).restored hrequest
  rw [candidates] at h
  split at h
  · exact hmapped t h
  · rcases List.mem_append.1 h with h | h
    · exact hmapped t h
    · obtain rfl := List.mem_singleton.1 h
      exact hrequest

/-! ### Building -/

/-- The field holds the name, and blanks around it. All of that is not too long. -/
def HoldsName (field : RawField) (s : String) : Prop :=
  ∃ raw, field = .text raw ∧ raw.length ≤ 200 ∧ Text.strip raw = s ∧ s ≠ ""

/-- The field holds the text, which is empty if nothing is there, or a value that counts as
nothing. -/
inductive HoldsText : RawField → String → Prop
  | text (raw : String) : HoldsText (.text raw) raw
  | null : HoldsText .null ""
  | absent : HoldsText .absent ""
  | hollow : HoldsText (.other true) ""

/-- The field holds the version, or none. -/
inductive HoldsVersion : RawField → Option String → Prop
  | text (version : String) : HoldsVersion (.text version) (some version)
  | null : HoldsVersion .null none
  | absent : HoldsVersion .absent none

/-- The texts are what is built from the fields. -/
structure Built (f : CoordinateFields) (t : Texts) : Prop where
  group : HoldsName f.group t.group
  artifact : HoldsName f.artifact t.artifact
  extension : ∃ raw, HoldsText f.extension raw ∧
    t.extension = if Text.strip raw = "" then "jar" else Text.strip raw
  classifier : ∃ raw, HoldsText f.classifier raw ∧ t.classifier = Text.strip raw
  version : HoldsVersion f.version t.version

theorem holdsText_iff {field : RawField} {raw : String} :
    HoldsText field raw ↔ field.isUnfit = false ∧ field.textOrEmpty = raw := by
  constructor
  · rintro (_ | _ | _ | _) <;> exact ⟨rfl, rfl⟩
  · rintro ⟨hfit, rfl⟩
    cases field with
    | text raw => exact .text raw
    | null => exact .null
    | absent => exact .absent
    | other hollow =>
      cases hollow with
      | true => exact .hollow
      | false => cases hfit

theorem holdsVersion_iff {field : RawField} {version : Option String} :
    HoldsVersion field version ↔ versionOfField field = .ok version := by
  constructor
  · rintro (_ | _ | _) <;> rfl
  · intro h
    cases field with
    | text version =>
      cases h
      exact .text version
    | null =>
      cases h
      exact .null
    | absent =>
      cases h
      exact .absent
    | other hollow => cases h

theorem HoldsName.isName {field : RawField} {s : String} (h : HoldsName field s) : IsName s := by
  obtain ⟨raw, -, hlength, rfl, hne⟩ := h
  exact ⟨Text.isTrimmed_strip hne, (Text.length_strip_le raw).trans hlength⟩

theorem Built.isNormal (h : Built f t) : t.IsNormal where
  group := h.group.isName
  artifact := h.artifact.isName
  extension := by
    obtain ⟨raw, -, hextension⟩ := h.extension
    rw [hextension]
    split
    · exact isTrimmed_jar
    · next hne => exact Text.isTrimmed_strip hne
  classifier := by
    obtain ⟨raw, -, hclassifier⟩ := h.classifier
    rw [hclassifier, Text.strip_strip]

/-- What is built from fields is determined by them. -/
theorem Built.unique {t' : Texts} (h : Built f t) (h' : Built f t') : t = t' := by
  have hname : ∀ {field s s'}, HoldsName field s → HoldsName field s' → s = s' := by
    rintro field s s' ⟨raw, rfl, -, hs, -⟩ ⟨raw', hraw, -, hs', -⟩
    cases hraw
    exact hs.symm.trans hs'
  have htext : ∀ {field s s'}, HoldsText field s → HoldsText field s' → s = s' := by
    intro field s s' hs hs'
    exact (holdsText_iff.1 hs).2.symm.trans (holdsText_iff.1 hs').2
  have hversion : t.version = t'.version :=
    Except.ok.inj ((holdsVersion_iff.1 h.version).symm.trans (holdsVersion_iff.1 h'.version))
  obtain ⟨raw, hraw, hextension⟩ := h.extension
  obtain ⟨raw', hraw', hextension'⟩ := h'.extension
  obtain ⟨plain, hplain, hclassifier⟩ := h.classifier
  obtain ⟨plain', hplain', hclassifier'⟩ := h'.classifier
  -- extension and classifier come from the same texts on both sides
  obtain rfl := htext hraw hraw'
  obtain rfl := htext hplain hplain'
  calc t = ⟨t.group, t.artifact, t.extension, t.classifier, t.version⟩ := rfl
    _ = t' := by rw [hname h.group h'.group, hname h.artifact h'.artifact, hextension,
      ← hextension', hclassifier, ← hclassifier', hversion]

/-- **Building again.** Texts are built from themselves exactly if they are in normal form. -/
theorem built_fields_iff : Built t.fields t ↔ t.IsNormal := by
  constructor
  · exact Built.isNormal
  · intro h
    have hname : ∀ {s}, IsName s → HoldsName (.text s) s := by
      intro s hs
      exact ⟨s, rfl, hs.length_le, hs.strip, hs.ne_empty⟩
    -- a normal extension is its own stripped form
    have hextension : t.extension =
        if Text.strip t.extension = "" then "jar" else Text.strip t.extension := by
      rw [h.extension.strip, if_neg h.extension.ne_empty]
    refine ⟨hname h.group, hname h.artifact, ⟨_, .text _, hextension⟩,
      ⟨_, .text _, h.classifier.symm⟩, ?_⟩
    unfold fields
    cases t.version with
    | none => exact .null
    | some version => exact .text version

end Texts

end Coordinate

/-! ### The program -/

theorem Part.ofField_eq_ok_iff {name : String} {field : RawField} {p : Part} :
    ofField name field = .ok p ↔ Coordinate.Texts.HoldsName field p.text := by
  cases field with
  | text s =>
    rw [ofField_text_eq_ok_iff]
    constructor
    · rintro ⟨hlength, hs⟩
      exact ⟨s, rfl, hlength, hs, p.ne_empty⟩
    · rintro ⟨raw, hraw, hlength, hs, -⟩
      cases hraw
      exact ⟨hlength, hs⟩
  | _ => exact iff_of_false error_ne_ok fun ⟨_, h, _⟩ => nomatch h

theorem Extension.text_ofText (s : String) :
    (ofText s).text = if Text.strip s = "" then "jar" else Text.strip s := by
  unfold ofText
  split <;> rfl

namespace Coordinate

variable {c : Coordinate} {f : CoordinateFields}

/-- Where extension and classifier are texts, or nothing, it is the fields that decide. -/
theorem ofAnyFields_eq_ok_iff_of_fit (hextension : f.extension.isUnfit = false)
    (hclassifier : f.classifier.isUnfit = false) :
    ofAnyFields f = .ok c ↔ ofFields f = .ok c := by
  rw [ofAnyFields, hextension, hclassifier, Bool.false_or, if_neg Bool.false_ne_true,
    mapError_eq_ok_iff]

/-- **Building**, as it is done, is what the rules say. -/
theorem ofAnyFields_eq_ok_iff : ofAnyFields f = .ok c ↔ Texts.Built f c.texts := by
  constructor
  · intro h
    -- without this the fields are not even looked at
    have hfit : f.extension.isUnfit = false ∧ f.classifier.isUnfit = false := by
      rw [← Bool.or_eq_false_iff, ← Bool.not_eq_true]
      intro hunfit
      rw [ofAnyFields, if_pos hunfit] at h
      cases h
    obtain ⟨hgroup, hartifact, hextension, hclassifier, hversion⟩ :=
      ofFields_eq_ok_iff.1 ((ofAnyFields_eq_ok_iff_of_fit hfit.1 hfit.2).1 h)
    -- of the extension and the classifier the raw texts have to be named as well
    refine ⟨Part.ofField_eq_ok_iff.1 hgroup, Part.ofField_eq_ok_iff.1 hartifact, ?_, ?_,
      Texts.holdsVersion_iff.2 hversion⟩
    · refine ⟨_, Texts.holdsText_iff.2 ⟨hfit.1, rfl⟩, ?_⟩
      rw [← Extension.text_ofText, hextension]
      rfl
    · refine ⟨_, Texts.holdsText_iff.2 ⟨hfit.2, rfl⟩, ?_⟩
      show c.classifier.text = _
      rw [← hclassifier]
      rfl
  · intro h
    -- the raw texts are those of the fields, as no field is unfit
    obtain ⟨raw, hraw, hextension⟩ := h.extension
    obtain ⟨raw', hraw', hclassifier⟩ := h.classifier
    obtain ⟨hfit, rfl⟩ := Texts.holdsText_iff.1 hraw
    obtain ⟨hfit', rfl⟩ := Texts.holdsText_iff.1 hraw'
    refine (ofAnyFields_eq_ok_iff_of_fit hfit hfit').2 (ofFields_eq_ok_iff.2 ⟨?_, ?_, ?_, ?_, ?_⟩)
    · exact Part.ofField_eq_ok_iff.2 h.group
    · exact Part.ofField_eq_ok_iff.2 h.artifact
    · exact Extension.ext ((Extension.text_ofText _).trans hextension.symm)
    · exact Classifier.ext hclassifier.symm
    · exact Texts.holdsVersion_iff.1 h.version

/-- A target as it is asked for is made of the fields of both, as they are. -/
theorem texts_restored (target c : Coordinate) :
    (target.restored c).texts = target.texts.restored c.texts := by
  unfold restored texts Texts.restored
  congr 1
  exact apply_ite Classifier.text _ _ _

/-- The candidates are found by copying. -/
theorem map_texts_candidates (m? : Option Depmap) (c : Coordinate) :
    (Depmap.candidates m? c).map texts =
      Texts.candidates ((Depmap.targets m? c).map texts) c.texts := by
  have hmapped : ((Depmap.targets m? c).map texts).map (fun target => target.restored c.texts) =
      (Depmap.restoredTargets m? c).map texts := by
    rw [Depmap.restoredTargets, List.map_map, List.map_map]
    exact List.map_congr_left fun target _ => (texts_restored target c).symm
  -- whether the request is there already can be seen of the texts
  have hmem : c.texts ∈ (Depmap.restoredTargets m? c).map texts ↔
      c ∈ Depmap.restoredTargets m? c := List.mem_map_of_injective texts_injective
  rw [Depmap.candidates_eq, Texts.candidates]
  simp only [hmapped, List.contains_iff_mem, hmem]
  split
  · rw [List.append_nil]
  · rw [List.map_append, List.map_singleton]

end Coordinate

/-- Every coordinate of a fragment is built from fields. -/
theorem Fragment.exists_ofAnyFields_of_read {contents source : String}
    {records : List FragmentRecord} (h : read contents source = .ok records) {c : Coordinate}
    (hc : c ∈ records.flatMap FragmentRecord.coordinates) :
    ∃ f, Coordinate.ofAnyFields f = .ok c := by
  obtain ⟨root, hroot⟩ := exists_root_of_read h
  rw [read_eq hroot, mapError_eq_ok_iff, readElements_eq_ok_iff] at h
  -- it is the coordinate of a block
  have hblock : ∀ r ∈ records, ∀ c ∈ r.coordinates, ∃ block, Names block c := by
    refine forall_mem_of_forall₂ h fun e r hr => ?_
    cases hr with
    | @mapping block source targets _ _ hsource _ htargets =>
      refine List.forall_mem_cons.2 ⟨⟨block, hsource⟩, ?_⟩
      exact forall_mem_of_forall₂ htargets fun block c hnames => ⟨block, hnames⟩
    | requirement _ hnames => exact List.forall_mem_singleton.2 ⟨e, hnames⟩
    | floor => exact List.forall_mem_nil _
  obtain ⟨r, hr, hc⟩ := List.mem_flatMap.1 hc
  obtain ⟨block, hnames⟩ := hblock r hr c hc
  have hread := readBlock_eq_ok_iff.2 hnames
  simp only [readBlock, bind_eq_ok_iff, mapError_eq_ok_iff] at hread
  obtain ⟨group, -, artifact, -, version, -, extension, -, classifier, -, hread⟩ := hread
  have hfit : ∀ text : Option String, (optionalField text).isUnfit = false := by
    intro text
    cases text <;> rfl
  exact ⟨_, (Coordinate.ofAnyFields_eq_ok_iff_of_fit (hfit _) (hfit _)).2 hread⟩

/-- Every coordinate of a metadata document is built from fields, and then has another version. -/
theorem Metadata.exists_ofAnyFields_of_ofDocument {source : Xml.Source} {name : String}
    {m : Metadata} (h : ofDocument source name = .ok m) {c : Coordinate}
    (hc : c ∈ m.registry.coordinates) :
    ∃ f built version, Coordinate.ofAnyFields f = .ok built ∧ c = built.withVersion version := by
  obtain ⟨root, hroot⟩ := exists_root_of_ofDocument h
  unfold ofDocument at h
  rw [hroot] at h
  cases hread : readRegistry root with
  | error cause =>
    simp only [hread] at h
    cases h
  | ok registry =>
    simp only [hread] at h
    cases h
    -- it is the coordinate of an identity, under one of the versions
    obtain ⟨e, -, ⟨identity, -, hnames⟩, version, -, hversion⟩ := (mem_coordinates_iff hread).1 hc
    have hbuilt : readIdentity identity = .ok (c.withVersion none) :=
      readIdentity_eq_ok_iff.2 ⟨hnames.withVersion none, rfl⟩
    rw [readIdentity, mapError_eq_ok_iff] at hbuilt
    have hfit : ∀ text : Option String, (optionalField text).isUnfit = false := by
      intro text
      cases text <;> rfl
    refine ⟨_, c.withVersion none, c.version,
      (Coordinate.ofAnyFields_eq_ok_iff_of_fit (hfit _) (hfit _)).2 hbuilt, ?_⟩
    rw [Coordinate.withVersion_withVersion, Coordinate.withVersion_self]

namespace Coordinate

/-! ### All sources -/

/-- The texts are made up in the same way as the coordinate, but no copy is looked at. -/
inductive Yields : Texts → Coordinate → Prop
  | built {f : CoordinateFields} {t : Texts} {c : Coordinate} (ht : t.Built f)
      (hc : ofAnyFields f = .ok c) : Yields t c
  | withVersion {t : Texts} {c : Coordinate} (h : Yields t c) (version : Option String) :
      Yields (t.withVersion version) (c.withVersion version)
  | withoutVersion {t : Texts} {c : Coordinate} (h : Yields t c) :
      Yields t.withoutVersion c.withoutVersion
  | withoutVersionAndExtension {t : Texts} {c : Coordinate} (h : Yields t c) :
      Yields t.withoutVersionAndExtension c.withoutVersionAndExtension
  /-- A map holds targets for a request, and the coordinate is one of those that are tried. -/
  | candidate {m? : Option Depmap} {held : Coordinate → Texts} {request t : Texts}
      {c d : Coordinate} {n : Nat} (hrequest : Yields request c)
      (htargets : ∀ target ∈ Depmap.targets m? c, Yields (held target) target)
      (ht : (Texts.candidates ((Depmap.targets m? c).map held) request)[n]? = some t)
      (hd : (Depmap.candidates m? c)[n]? = some d) : Yields t d

/-- **Along the rules** the texts stay in normal form, and the coordinate is made of them. -/
theorem Yields.isNormal_and_texts {t : Texts} {c : Coordinate} (h : Yields t c) :
    t.IsNormal ∧ c.texts = t := by
  induction h with
  | built ht hc => exact ⟨ht.isNormal, (ofAnyFields_eq_ok_iff.1 hc).unique ht⟩
  | withVersion _ version ih =>
    obtain ⟨hnormal, rfl⟩ := ih
    exact ⟨hnormal.withVersion version, rfl⟩
  | withoutVersion _ ih =>
    obtain ⟨hnormal, rfl⟩ := ih
    exact ⟨hnormal.withVersion none, rfl⟩
  | withoutVersionAndExtension _ ih =>
    obtain ⟨hnormal, rfl⟩ := ih
    exact ⟨hnormal.withoutVersionAndExtension, rfl⟩
  | @candidate m? held request t c d n _ _ ht hd ihrequest ihtargets =>
    obtain ⟨hrequest, rfl⟩ := ihrequest
    -- the texts that are held for the targets are those of the targets
    have hheld : (Depmap.targets m? c).map held = (Depmap.targets m? c).map texts :=
      List.map_congr_left fun target htarget => (ihtargets target htarget).2.symm
    have htargets : ∀ t ∈ (Depmap.targets m? c).map held, t.IsNormal := by
      intro t ht
      obtain ⟨target, htarget, rfl⟩ := List.mem_map.1 ht
      exact (ihtargets target htarget).1
    have hnormal := Texts.isNormal_of_mem_candidates htargets hrequest (List.mem_of_getElem? ht)
    rw [hheld, ← map_texts_candidates, List.getElem?_map, hd] at ht
    exact ⟨hnormal, Option.some.inj ht⟩

/-- What is built has the texts that the rules give. -/
theorem yields_of_ofAnyFields (h : ofAnyFields f = .ok c) : Yields c.texts c :=
  .built (ofAnyFields_eq_ok_iff.1 h) h

/-- What is read from a text is built. -/
theorem yields_of_parse {text : String} (h : parse text = .ok c) : Yields c.texts c := by
  obtain ⟨f, hf, hfields⟩ := parse_eq_ok_iff.1 h
  -- extension and classifier are texts, or left out
  have hfit : f.extension.isUnfit = false ∧ f.classifier.isUnfit = false := by
    unfold fieldsOfParts? at hf
    split at hf <;> cases hf <;> exact ⟨rfl, rfl⟩
  exact yields_of_ofAnyFields ((ofAnyFields_eq_ok_iff_of_fit hfit.1 hfit.2).2 hfields)

/-- All that is tried for a request comes of the request and the targets. -/
theorem yields_of_mem_candidates {m? : Option Depmap} (hrequest : Yields c.texts c)
    (htargets : ∀ target ∈ Depmap.targets m? c, Yields target.texts target) {d : Coordinate}
    (hd : d ∈ Depmap.candidates m? c) : Yields d.texts d := by
  obtain ⟨n, hn⟩ := List.getElem?_of_mem hd
  refine .candidate hrequest htargets ?_ hn
  rw [← map_texts_candidates, List.getElem?_map, hn]
  rfl

/-- **Coordinates stay in normal form.** Wherever a coordinate comes from, be it built, read from a
text, a fragment or a metadata document, copied or put together of two, and in whatever order this
is done, its names are not blank, have no blanks around them and are not too long, its extension is
not blank and has no blanks around it, and neither has its classifier. Building it again from its
fields gives it back. -/
theorem isNormal_of_yields :
    (∀ t c, Yields t c → t.IsNormal ∧ c.texts = t ∧ ofAnyFields t.fields = .ok c) ∧
    (∀ f c, ofAnyFields f = .ok c → Yields c.texts c) ∧
    (∀ text c, parse text = .ok c → Yields c.texts c) ∧
    (∀ contents source records, Fragment.read contents source = .ok records →
      ∀ c ∈ records.flatMap FragmentRecord.coordinates, Yields c.texts c) ∧
    (∀ source name m, Metadata.ofDocument source name = .ok m →
      ∀ c ∈ m.registry.coordinates, Yields c.texts c) ∧
    ∀ m? c, Yields c.texts c → (∀ target ∈ Depmap.targets m? c, Yields target.texts target) →
      ∀ d ∈ Depmap.candidates m? c, Yields d.texts d := by
  refine ⟨?_, fun f c => yields_of_ofAnyFields, fun text c => yields_of_parse, ?_, ?_,
    fun m? c hrequest htargets d => yields_of_mem_candidates hrequest htargets⟩
  · -- what the checks yield is normal, and a normal coordinate is built again from its own fields
    intro t c h
    obtain ⟨hnormal, hc⟩ := h.isNormal_and_texts
    refine ⟨hnormal, hc, ofAnyFields_eq_ok_iff.2 ?_⟩
    rw [hc]
    exact Texts.built_fields_iff.2 hnormal
  · -- each coordinate of a fragment was built from some fields
    intro contents source records hread c hc
    obtain ⟨f, hbuilt⟩ := Fragment.exists_ofAnyFields_of_read hread hc
    exact yields_of_ofAnyFields hbuilt
  · -- so was each coordinate of a metadata file, up to the version it is given
    intro source name m hread c hc
    obtain ⟨f, built, version, hbuilt, rfl⟩ := Metadata.exists_ofAnyFields_of_ofDocument hread hc
    exact (yields_of_ofAnyFields hbuilt).withVersion version

/-- A coordinate and one to which it is mapped. -/
def mappedPair : Coordinate × Coordinate :=
  (⟨.literal "net.asked" rfl, .literal "asked" rfl, .ofText "war", .ofText "tests", some "2"⟩,
    ⟨.literal "net.held" rfl, .literal "held" rfl, .ofText "pom", .none, some "1"⟩)

/-- A map from the one to the other. -/
def mappedPairMap : Depmap :=
  { Depmap.empty with
    mappings := .ofList [(mappedPair.1.identity, mappedPair.2.identity)] }

/-- Two coordinates are read, with blanks inside. The second is kept in a map without its version
and its extension, and is put together with the first. -/
theorem isNormal_of_yields_mappedPair : ∃ c,
    Yields ⟨"net.held", "held", "war", "tests", some "2"⟩ c ∧
      Texts.IsNormal ⟨"net.held", "held", "war", "tests", some "2"⟩ ∧
      ofAnyFields (Texts.fields ⟨"net.held", "held", "war", "tests", some "2"⟩) = .ok c := by
  obtain ⟨hall, -, hparse, -⟩ := isNormal_of_yields
  have hrequest : parse "\tnet.asked: asked :war : tests:2 " = .ok mappedPair.1 :=
    eq_ok_of_toOption (by decide +kernel)
  have htarget : parse "net.held :held:pom:1" = .ok mappedPair.2 :=
    eq_ok_of_toOption (by decide +kernel)
  have htargets : Depmap.targets (some mappedPairMap) mappedPair.1 =
      [mappedPair.2.withoutVersionAndExtension] := by decide +kernel
  have hcandidate : (Depmap.candidates (some mappedPairMap) mappedPair.1)[0]? =
      some (mappedPair.2.restored mappedPair.1) := by decide +kernel
  -- the candidate is the target with extension and version of the request
  have hyields : Yields ⟨"net.held", "held", "war", "tests", some "2"⟩
      (mappedPair.2.restored mappedPair.1) := by
    refine @Yields.candidate _ (fun _ => mappedPair.2.texts.withoutVersionAndExtension) _ _ _ _ _
      (hparse _ _ hrequest) ?_ ?_ hcandidate
    · intro target hmem
      rw [htargets] at hmem
      obtain rfl := List.mem_singleton.1 hmem
      exact (hparse _ _ htarget).withoutVersionAndExtension
    · rw [htargets]
      decide +kernel
  obtain ⟨hnormal, -, hbuilt⟩ := hall _ _ hyields
  exact ⟨_, hyields, hnormal, hbuilt⟩

end Coordinate

end Depot
