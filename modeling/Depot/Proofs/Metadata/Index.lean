import Depot.Metadata.Reader
import Depot.Proofs.Coordinate.Fields
import Depot.Proofs.Outcome
import Mathlib.Data.Set.Card
/-!
# The index of a metadata document

`Provides` says, without reading anything, under which coordinates an artifact of a document can be
found: each of its identities, with each of its versions. `LiesAt` says where it lies, and
`IsInOrder` what it must hold so that it counts.

The index is built by registering these coordinates one after the other, artifact by artifact,
unless they are registered already. A list of registrations is therefore asked as if it was never
built: `Registry.location?_registerAll` says that what is found is the first entry of the list. Of
one artifact all entries agree on the place (`location?_of_readArtifact`), so among the entries of
all artifacts the first artifact that provides a coordinate decides
(`location?_flatten_eq_some_iff`). So asking the index is the same as going through the artifacts of
the document (`index_agrees_with_scan`).
-/

namespace Depot

/-! ### First members -/

/-- The member is the first of the list that has the property. -/
def IsFirst {α : Type} (P : α → Prop) (as : List α) (a : α) : Prop :=
  ∃ before after, as = before ++ a :: after ∧ (∀ b ∈ before, ¬ P b) ∧ P a

section IsFirst

variable {α : Type} {P : α → Prop}

theorem not_isFirst_nil (a : α) : ¬ IsFirst P [] a := by
  rintro ⟨before, after, h, -⟩
  exact List.append_ne_nil_of_right_ne_nil _ (List.cons_ne_nil _ _) h.symm

/-- The first member of a list is its head, or the first of the rest if the head does not have the
property. -/
theorem isFirst_cons_iff {a b : α} {as : List α} :
    IsFirst P (a :: as) b ↔ P a ∧ a = b ∨ ¬ P a ∧ IsFirst P as b := by
  constructor
  · rintro ⟨before, after, h, hbefore, hb⟩
    cases before with
    | nil =>
      obtain ⟨rfl, -⟩ := List.cons.inj h
      exact .inl ⟨hb, rfl⟩
    | cons c before =>
      obtain ⟨rfl, rfl⟩ := List.cons.inj h
      obtain ⟨ha, hbefore⟩ := List.forall_mem_cons.1 hbefore
      exact .inr ⟨ha, before, after, rfl, hbefore, hb⟩
  · rintro (⟨ha, rfl⟩ | ⟨ha, before, after, rfl, hbefore, hb⟩)
    · exact ⟨[], as, rfl, List.forall_mem_nil _, ha⟩
    · exact ⟨a :: before, after, rfl, List.forall_mem_cons.2 ⟨ha, hbefore⟩, hb⟩

/-- There is a first member exactly if there is one at all. -/
theorem exists_isFirst_iff {as : List α} : (∃ a, IsFirst P as a) ↔ ∃ a ∈ as, P a := by
  induction as with
  | nil => exact iff_of_false (fun ⟨a, h⟩ => not_isFirst_nil a h) fun ⟨_, h, _⟩ => nomatch h
  | cons a as ih =>
    simp only [isFirst_cons_iff, List.exists_mem_cons_iff, ← ih]
    by_cases ha : P a <;> simp [ha]

/-- Searching finds the first member that passes. -/
theorem find?_eq_some_iff_isFirst {p : α → Bool} {as : List α} {a : α} :
    as.find? p = some a ↔ IsFirst (p · = true) as a := by
  rw [List.find?_eq_some_iff_append]
  constructor
  · rintro ⟨ha, before, after, h, hbefore⟩
    exact ⟨before, after, h, fun b hb => by simpa using hbefore b hb, ha⟩
  · rintro ⟨before, after, h, hbefore, ha⟩
    exact ⟨ha, before, after, h, fun b hb => by simpa using hbefore b hb⟩

end IsFirst

/-! ### Registrations -/

namespace Registry

variable {c : Coordinate} {location : Location}

/-- The coordinates that are registered. -/
def coordinates (r : Registry) : List Coordinate := r.map (·.1)

/-- A place is found for what is registered. -/
theorem isSome_location?_iff {r : Registry} :
    (r.location? c).isSome = true ↔ c ∈ r.coordinates := by
  simp only [location?, Option.isSome_map, List.find?_isSome, beq_iff_eq, coordinates, List.mem_map]

/-- Of two lists the first that has a place for a coordinate counts. -/
theorem location?_append (a b : Registry) (c : Coordinate) :
    location? (a ++ b) c = (a.location? c).or (b.location? c) := by
  rw [location?, List.find?_append, Option.map_or]
  rfl

/-- Registering a coordinate adds it at the end, or makes no difference. -/
theorem location?_register (r : Registry) (entry : Coordinate × Location) (c : Coordinate) :
    (r.register entry.1 entry.2).location? c = (r.location? c).or (location? [entry] c) := by
  unfold register
  split
  · next h =>
    -- the coordinate has a place already, so its new one is not found
    by_cases hc : entry.1 = c
    · obtain ⟨other, hother, hentry⟩ := List.any_eq_true.1 h
      have hsome : (r.location? c).isSome = true :=
        isSome_location?_iff.2 (List.mem_map.2 ⟨other, hother, (beq_iff_eq.1 hentry).trans hc⟩)
      rw [Option.or_of_isSome hsome]
    · have hnone : location? [entry] c = none := by simp [location?, hc]
      rw [hnone, Option.or_none]
  · rw [location?_append]

/-- **Registering a list** comes to asking the list: the first entry for a coordinate counts. -/
theorem location?_registerAll (r : Registry) (entries : List (Coordinate × Location))
    (c : Coordinate) :
    (r.registerAll entries).location? c = (r.location? c).or (location? entries c) := by
  induction entries generalizing r with
  | nil => exact (Option.or_none).symm
  | cons entry entries ih =>
    have hcons : r.registerAll (entry :: entries) =
        (r.register entry.1 entry.2).registerAll entries := rfl
    rw [hcons, ih, location?_register, Option.or_assoc, ← location?_append, List.singleton_append]

/-- No coordinate is registered twice. -/
theorem nodup_registerAll {r : Registry} (h : r.coordinates.Nodup)
    (entries : List (Coordinate × Location)) : (r.registerAll entries).coordinates.Nodup := by
  induction entries generalizing r with
  | nil => exact h
  | cons entry entries ih =>
    refine ih (r := r.register entry.1 entry.2) ?_
    -- a coordinate is entered only if it is not there yet
    unfold register
    split
    · exact h
    · next hnew =>
      have hmem : entry.1 ∉ r.coordinates := by
        intro hc
        obtain ⟨other, hother, heq⟩ := List.mem_map.1 hc
        exact hnew (List.any_eq_true.2 ⟨other, hother, beq_iff_eq.2 heq⟩)
      rw [coordinates, List.map_append, List.map_singleton]
      exact h.append (List.nodup_singleton _) (List.disjoint_singleton.2 hmem)

/-- Where all entries agree on the place, it is the place of everything that is registered. -/
theorem location?_eq_some_iff_of_forall {r : Registry} (h : ∀ entry ∈ r, entry.2 = location)
    {other : Location} :
    r.location? c = some other ↔ c ∈ r.coordinates ∧ other = location := by
  have hplace : ∀ {found}, r.location? c = some found → found = location := by
    intro found hfound
    obtain ⟨entry, hentry, rfl⟩ := Option.map_eq_some_iff.1 hfound
    exact h entry (List.mem_of_find?_eq_some hentry)
  rw [← isSome_location?_iff]
  constructor
  · intro hother
    exact ⟨Option.isSome_of_eq_some hother, hplace hother⟩
  · rintro ⟨hsome, rfl⟩
    obtain ⟨found, hfound⟩ := Option.isSome_iff_exists.1 hsome
    exact hfound.trans (congrArg some (hplace hfound))

end Registry

namespace Metadata

open Xml (Element)

/-! ### The rules -/

/-- The first child of the name holds the text, which is what stands before any element in it, and
is not blank. -/
def HasText (e : Element) (name s : String) : Prop :=
  ∃ child, IsFirst (·.tag = name) e.children child ∧ Text.strip child.leadingText = s ∧ s ≠ ""

/-- The same, with a default for a text that is missing or blank. -/
def HasTextOr (e : Element) (name default s : String) : Prop :=
  HasText e name s ∨ (∀ t, ¬ HasText e name t) ∧ s = default

/-- The element names the coordinate, but for its version. -/
structure Names (e : Element) (c : Coordinate) : Prop where
  group : HasText e "groupId" c.group.text
  artifact : HasText e "artifactId" c.artifact.text
  extension : HasTextOr e "extension" "jar" c.extension.text
  classifier : HasTextOr e "classifier" "" c.classifier.text

theorem Names.withVersion {e : Element} {c : Coordinate} (h : Names e c) (version : Option String) :
    Names e (c.withVersion version) :=
  ⟨h.group, h.artifact, h.extension, h.classifier⟩

/-- The element is an identity of the artifact: its own, or an alias. -/
inductive IsIdentity (e : Element) : Element → Prop
  | own : IsIdentity e e
  | other {aliases other : Element} (haliases : IsFirst (·.tag = "aliases") e.children aliases)
      (hother : other ∈ aliases.children) (htag : other.tag = "alias") : IsIdentity e other

/-- The artifact lists the version as one with which it is compatible. -/
inductive Lists (e : Element) : String → Prop
  | mk {versions version : Element}
      (hversions : IsFirst (·.tag = "compatVersions") e.children versions)
      (hversion : version ∈ versions.children) (htag : version.tag = "version")
      (hne : Text.strip version.leadingText ≠ "") : Lists e (Text.strip version.leadingText)

/-- The artifact has the version: one that it lists, or the reserved one if it lists none. -/
inductive HasVersion (e : Element) : String → Prop
  | listed {v : String} (h : Lists e v) : HasVersion e v
  | system (h : ∀ v, ¬ Lists e v) : HasVersion e "SYSTEM"

/-- The artifact can be found under the coordinate. -/
def Provides (e : Element) (c : Coordinate) : Prop :=
  (∃ identity, IsIdentity e identity ∧ Names identity c) ∧ ∃ v, HasVersion e v ∧ c.version = some v

/-- The artifact lies at the place. -/
structure LiesAt (e : Element) (location : Location) : Prop where
  path : HasText e "path" location.path
  namespaceName : HasTextOr e "namespace" "" location.namespaceName

/-- The artifact is what a source of this name reports for the coordinate. -/
structure IsReport (e : Element) (name : String) (c : Coordinate) (found : Artifact) : Prop where
  coordinate : found.coordinate = c
  liesAt : LiesAt e ⟨found.path, found.namespaceName⟩
  version : c.version = some found.version
  source : found.source = name

/-- The artifact is in order: it has a path, and its identities have groups and artifacts that are
not too long. -/
structure IsInOrder (e : Element) : Prop where
  path : ∃ s, HasText e "path" s
  identity : ∀ identity, IsIdentity e identity → ∀ name ∈ ["groupId", "artifactId"],
    ∃ s, HasText identity name s ∧ s.length ≤ 200

/-! ### Texts -/

variable {e : Element}

/-- The first child of a name is found. -/
theorem child?_eq_some_iff {name : String} {child : Element} :
    e.child? name = some child ↔ IsFirst (·.tag = name) e.children child := by
  simp only [Element.child?, find?_eq_some_iff_isFirst, beq_iff_eq]

theorem childText?_eq_some_iff {name s : String} :
    childText? e name = some s ↔ HasText e name s := by
  simp only [HasText, ← child?_eq_some_iff, childText?, textOf]
  cases e.child? name with
  | none => simp
  | some child =>
    by_cases hblank : Text.strip child.leadingText = ""
    · simp only [hblank, if_true]
      refine iff_of_false (fun h => nomatch h) ?_
      rintro ⟨_, ⟨⟩, rfl, hne⟩
      exact hne hblank
    · simp only [hblank, if_false, Option.some.injEq]
      constructor
      · rintro rfl
        exact ⟨child, rfl, rfl, hblank⟩
      · rintro ⟨_, rfl, rfl, -⟩
        rfl

/-- A text has no blanks around it. -/
theorem isTrimmed_of_mem_childText? {name : String} :
    ∀ s ∈ childText? e name, Text.IsTrimmed s := by
  intro s hs
  obtain ⟨child, -, rfl, hne⟩ := childText?_eq_some_iff.1 hs
  exact Text.isTrimmed_strip hne

/-- A text that may be missing is what is read, or the default. -/
theorem hasTextOr_iff {name default s : String} :
    HasTextOr e name default s ↔ s = (childText? e name).getD default := by
  simp only [HasTextOr, ← childText?_eq_some_iff]
  cases childText? e name with
  | none => simp
  | some t => simp [eq_comm]

/-! ### Artifacts -/

theorem mem_childrenNamed_iff {name : String} {child : Element} :
    child ∈ e.childrenNamed name ↔ child ∈ e.children ∧ child.tag = name := by
  simp only [Element.childrenNamed, List.mem_filter, beq_iff_eq]

theorem mem_identities_iff {identity : Element} :
    identity ∈ identities e ↔ IsIdentity e identity := by
  unfold identities
  constructor
  · intro h
    rcases List.mem_cons.1 h with rfl | h
    · exact .own
    · split at h
      · next aliases haliases =>
        obtain ⟨hother, htag⟩ := mem_childrenNamed_iff.1 h
        exact .other (child?_eq_some_iff.1 haliases) hother htag
      · exact nomatch h
  · rintro (_ | ⟨haliases, hother, htag⟩)
    · exact List.mem_cons_self
    · rw [child?_eq_some_iff.2 haliases]
      exact List.mem_cons_of_mem _ (mem_childrenNamed_iff.2 ⟨hother, htag⟩)

/-- The versions that an artifact lists, in order. -/
def listedVersions (e : Element) : List String :=
  let elements := match e.child? "compatVersions" with
    | some parent => parent.childrenNamed "version"
    | none => []
  (elements.map textOf).filter (· ≠ "")

theorem compatibleVersions_eq (e : Element) : compatibleVersions e =
    if listedVersions e = [] then [systemVersion] else listedVersions e := by
  unfold compatibleVersions listedVersions
  cases e.child? "compatVersions" with
  | none => rfl
  | some parent =>
    dsimp only
    split
    · next hnil => exact (if_pos hnil).symm
    · next hne => exact (if_neg hne).symm

theorem mem_listedVersions_iff {v : String} : v ∈ listedVersions e ↔ Lists e v := by
  rw [listedVersions, List.mem_filter, List.mem_map, decide_eq_true_eq]
  constructor
  · rintro ⟨⟨version, hversion, rfl⟩, hne⟩
    split at hversion
    · next versions hversions =>
      obtain ⟨hchild, htag⟩ := mem_childrenNamed_iff.1 hversion
      exact .mk (child?_eq_some_iff.1 hversions) hchild htag hne
    · exact nomatch hversion
  · rintro ⟨hversions, hversion, htag, hne⟩
    rw [child?_eq_some_iff.2 hversions]
    exact ⟨⟨_, mem_childrenNamed_iff.2 ⟨hversion, htag⟩, rfl⟩, hne⟩

theorem mem_compatibleVersions_iff {v : String} : v ∈ compatibleVersions e ↔ HasVersion e v := by
  rw [compatibleVersions_eq]
  split
  · -- nothing is listed, so there is the system version alone
    next hnil =>
    have hnone : ∀ v, ¬ Lists e v := fun v h => nomatch hnil ▸ mem_listedVersions_iff.2 h
    rw [List.mem_singleton]
    constructor
    · rintro rfl
      exact .system hnone
    · rintro (h | _)
      · exact absurd h (hnone v)
      · rfl
  · next hne =>
    rw [mem_listedVersions_iff]
    refine ⟨.listed, ?_⟩
    rintro (h | h)
    · exact h
    · obtain ⟨w, hw⟩ := List.exists_mem_of_ne_nil _ hne
      exact absurd (mem_listedVersions_iff.1 hw) (h w)

/-- **Identities** are read as the coordinates that they name, without a version. -/
theorem readIdentity_eq_ok_iff {c : Coordinate} :
    readIdentity e = .ok c ↔ Names e c ∧ c.version = none := by
  have htext : ∀ t, (optionalField t).textOrEmpty = t.getD "" := fun t => by cases t <;> rfl
  rw [readIdentity, mapError_eq_ok_iff, Coordinate.ofFields_eq_ok_iff]
  simp only [htext, Part.ofField_getD_eq_ok_iff isTrimmed_of_mem_childText?,
    Extension.ofText_getD_eq_iff isTrimmed_of_mem_childText?,
    Classifier.ofText_getD_eq_iff isTrimmed_of_mem_childText?]
  constructor
  · rintro ⟨hgroup, hartifact, hextension, hclassifier, hversion⟩
    exact ⟨⟨childText?_eq_some_iff.1 hgroup, childText?_eq_some_iff.1 hartifact,
      hasTextOr_iff.2 hextension, hasTextOr_iff.2 hclassifier⟩, (Except.ok.inj hversion).symm⟩
  · rintro ⟨⟨hgroup, hartifact, hextension, hclassifier⟩, hversion⟩
    exact ⟨childText?_eq_some_iff.2 hgroup, childText?_eq_some_iff.2 hartifact,
      hasTextOr_iff.1 hextension, hasTextOr_iff.1 hclassifier, congrArg _ hversion.symm⟩

/-- An identity can be read if it has a group and an artifact that are not too long. -/
theorem exists_readIdentity_iff : (∃ c, readIdentity e = .ok c) ↔
    ∀ name ∈ ["groupId", "artifactId"], ∃ s, HasText e name s ∧ s.length ≤ 200 := by
  rw [List.forall_mem_cons, List.forall_mem_singleton]
  constructor
  · rintro ⟨c, hc⟩
    obtain ⟨⟨hgroup, hartifact, -, -⟩, -⟩ := readIdentity_eq_ok_iff.1 hc
    exact ⟨⟨_, hgroup, c.group.length_le⟩, ⟨_, hartifact, c.artifact.length_le⟩⟩
  · rintro ⟨⟨g, hgroup, hg⟩, ⟨a, hartifact, ha⟩⟩
    -- both names are parts, and for extension and classifier there are defaults
    have hpart : ∀ {name s}, HasText e name s → s.length ≤ 200 → ∃ p : Part, p.text = s := by
      intro name s h hlength
      have hs := isTrimmed_of_mem_childText? s (childText?_eq_some_iff.2 h)
      exact ⟨⟨s, hs.strip, hs.ne_empty, hlength⟩, rfl⟩
    obtain ⟨group, rfl⟩ := hpart hgroup hg
    obtain ⟨artifact, rfl⟩ := hpart hartifact ha
    obtain ⟨extension, hextension⟩ : ∃ x : Extension,
        x.text = (childText? e "extension").getD "jar" :=
      ⟨_, Extension.text_ofText_getD isTrimmed_of_mem_childText?⟩
    obtain ⟨classifier, hclassifier⟩ : ∃ x : Classifier,
        x.text = (childText? e "classifier").getD "" :=
      ⟨_, Classifier.text_ofText_getD isTrimmed_of_mem_childText?⟩
    exact ⟨⟨group, artifact, extension, classifier, none⟩, readIdentity_eq_ok_iff.2
      ⟨⟨hgroup, hartifact, hasTextOr_iff.2 hextension, hasTextOr_iff.2 hclassifier⟩, rfl⟩⟩

/-- Where an artifact lies is what is read of its path and namespace. -/
theorem liesAt_iff {location : Location} : LiesAt e location ↔
    childText? e "path" = some location.path ∧
      location.namespaceName = (childText? e "namespace").getD "" := by
  rw [childText?_eq_some_iff, ← hasTextOr_iff]
  exact ⟨fun h => ⟨h.path, h.namespaceName⟩, fun h => ⟨h.1, h.2⟩⟩

/-- An artifact lies at one place. -/
theorem LiesAt.unique {a b : Location} (ha : LiesAt e a) (hb : LiesAt e b) : a = b := by
  obtain ⟨hpath, hname⟩ := liesAt_iff.1 ha
  obtain ⟨hpath', hname'⟩ := liesAt_iff.1 hb
  exact congrArg₂ Location.mk (Option.some.inj (hpath.symm.trans hpath')) (hname.trans hname'.symm)

/-- An artifact is read as the registrations of all its identities with all its versions. -/
theorem readArtifact_eq_ok_iff {entries : List (Coordinate × Location)} :
    readArtifact e = .ok entries ↔ ∃ location cs, LiesAt e location ∧
      List.Forall₂ (fun identity c => readIdentity identity = .ok c) (identities e) cs ∧
      (cs.flatMap fun c => (compatibleVersions e).map fun v => (c.withVersion (some v), location)) =
        entries := by
  unfold readArtifact
  split
  · -- without a path there is no location
    next hpath =>
    refine iff_of_false (fun h => nomatch h) ?_
    rintro ⟨location, -, hlies, -⟩
    exact nomatch hpath.symm.trans (liesAt_iff.1 hlies).1
  · next path hpath =>
    have hplace : LiesAt e ⟨path, (childText? e "namespace").getD ""⟩ := liesAt_iff.2 ⟨hpath, rfl⟩
    simp only [bind_eq_ok_iff, mapM_eq_ok_iff]
    constructor
    · rintro ⟨cs, hcs, h⟩
      exact ⟨_, cs, hplace, hcs, Except.ok.inj h⟩
    · rintro ⟨location, cs, hlies, hcs, rfl⟩
      rw [hlies.unique hplace]
      exact ⟨cs, hcs, rfl⟩

/-- **Which artifacts can be read**: those that are in order. -/
theorem exists_readArtifact_iff : (∃ entries, readArtifact e = .ok entries) ↔ IsInOrder e := by
  simp only [readArtifact_eq_ok_iff]
  constructor
  · rintro ⟨_, location, cs, hlies, hcs, -⟩
    refine ⟨⟨_, hlies.path⟩, fun identity hidentity => exists_readIdentity_iff.1 ?_⟩
    exact exists_forall₂_iff.1 ⟨cs, hcs⟩ identity (mem_identities_iff.2 hidentity)
  · rintro ⟨⟨path, hpath⟩, hidentity⟩
    obtain ⟨cs, hcs⟩ := exists_forall₂_iff.2 fun identity h =>
      exists_readIdentity_iff.2 (hidentity identity (mem_identities_iff.1 h))
    exact ⟨_, ⟨path, _⟩, cs, ⟨hpath, hasTextOr_iff.2 rfl⟩, hcs, rfl⟩

/-- What an artifact is registered under is what it provides. -/
theorem mem_coordinates_of_readArtifact {entries : List (Coordinate × Location)} {c : Coordinate}
    (h : readArtifact e = .ok entries) : c ∈ Registry.coordinates entries ↔ Provides e c := by
  obtain ⟨location, cs, -, hcs, rfl⟩ := readArtifact_eq_ok_iff.1 h
  -- identities are read without a version, and each version is put in afterwards
  have hmem : ∀ c, c ∈ cs ↔ (∃ identity, IsIdentity e identity ∧ Names identity c) ∧
      c.version = none := by
    intro c
    simp only [mem_iff_of_forall₂ hcs, mem_identities_iff, readIdentity_eq_ok_iff]
    constructor
    · rintro ⟨identity, hidentity, hnames, hversion⟩
      exact ⟨⟨identity, hidentity, hnames⟩, hversion⟩
    · rintro ⟨⟨identity, hidentity, hnames⟩, hversion⟩
      exact ⟨identity, hidentity, hnames, hversion⟩
  simp only [Registry.coordinates, List.mem_map, List.mem_flatMap, mem_compatibleVersions_iff, hmem]
  constructor
  · rintro ⟨_, ⟨base, ⟨⟨identity, hidentity, hnames⟩, -⟩, v, hv, rfl⟩, rfl⟩
    exact ⟨⟨identity, hidentity, hnames.withVersion (some v)⟩, v, hv, rfl⟩
  · rintro ⟨⟨identity, hidentity, hnames⟩, v, hv, hversion⟩
    refine ⟨(c, location), ⟨c.withVersion none, ⟨⟨identity, hidentity, hnames.withVersion none⟩,
      rfl⟩, v, hv, ?_⟩, rfl⟩
    rw [← hversion]
    rfl

/-- **Registrations of an artifact.** Among them a coordinate is found exactly if the artifact
provides it, and with the place where the artifact lies. -/
theorem location?_of_readArtifact {entries : List (Coordinate × Location)} {c : Coordinate}
    {location : Location} (h : readArtifact e = .ok entries) :
    Registry.location? entries c = some location ↔ Provides e c ∧ LiesAt e location := by
  rw [← mem_coordinates_of_readArtifact h]
  obtain ⟨place, cs, hplace, -, rfl⟩ := readArtifact_eq_ok_iff.1 h
  have hall : ∀ entry ∈ cs.flatMap fun c =>
      (compatibleVersions e).map fun v => (c.withVersion (some v), place), entry.2 = place := by
    simp only [List.mem_flatMap, List.mem_map]
    rintro entry ⟨_, _, _, _, rfl⟩
    rfl
  rw [Registry.location?_eq_some_iff_of_forall hall]
  exact and_congr_right fun _ => ⟨fun h => h ▸ hplace, fun hlies => hlies.unique hplace⟩

/-! ### Documents -/

/-- **Registrations of artifacts** one after the other. Among them a coordinate is found with the
place of the first artifact that provides it. -/
theorem location?_flatten_eq_some_iff {es : List Element} {L : List (List (Coordinate × Location))}
    (h : List.Forall₂ (fun e entries => readArtifact e = .ok entries) es L) {c : Coordinate}
    {location : Location} :
    Registry.location? L.flatten c = some location ↔
      ∃ e, IsFirst (Provides · c) es e ∧ LiesAt e location := by
  -- along the artifacts: the first of them decides if it provides the coordinate
  induction h with
  | nil =>
    refine iff_of_false (fun h => nomatch h) ?_
    rintro ⟨e, he, -⟩
    exact not_isFirst_nil e he
  | @cons e entries es L he _ ih =>
    have hentries : ∀ location, Registry.location? entries c = some location ↔
        Provides e c ∧ LiesAt e location := fun _ => location?_of_readArtifact he
    rw [List.flatten_cons, Registry.location?_append]
    simp only [isFirst_cons_iff]
    by_cases hprovides : Provides e c
    · -- the entries of this artifact have the coordinate, so the others are not asked
      have hsome : (Registry.location? entries c).isSome = true :=
        Registry.isSome_location?_iff.2 ((mem_coordinates_of_readArtifact he).2 hprovides)
      rw [Option.or_of_isSome hsome, hentries]
      simp [hprovides]
    · have hnone : Registry.location? entries c = none :=
        Option.eq_none_iff_forall_ne_some.2 fun found h => hprovides ((hentries found).1 h).1
      rw [hnone, Option.none_or, ih]
      simp [hprovides]

/-- A document can be read if all of its artifacts are in order. -/
theorem exists_readRegistry_iff {root : Element} :
    (∃ registry, readRegistry root = .ok registry) ↔ ∀ e ∈ artifactElements root, IsInOrder e := by
  simp only [readRegistry, bind_eq_ok_iff, mapM_eq_ok_iff, ← exists_readArtifact_iff,
    ← exists_forall₂_iff]
  constructor
  · rintro ⟨_, L, hL, -⟩
    exact ⟨L, hL⟩
  · rintro ⟨L, hL⟩
    exact ⟨_, L, hL, rfl⟩

/-- **The index of a document.** A coordinate is found with the place of the first artifact that
provides it, and no coordinate is registered twice. -/
theorem location?_of_readRegistry {root : Element} {registry : Registry}
    (h : readRegistry root = .ok registry) :
    (∀ c location, registry.location? c = some location ↔
      ∃ e, IsFirst (Provides · c) (artifactElements root) e ∧ LiesAt e location) ∧
    registry.coordinates.Nodup := by
  obtain ⟨L, hL, h⟩ := bind_eq_ok_iff.1 h
  obtain rfl := Except.ok.inj h
  refine ⟨fun c location => ?_, Registry.nodup_registerAll (r := []) List.nodup_nil _⟩
  rw [Registry.location?_registerAll, ← location?_flatten_eq_some_iff (mapM_eq_ok_iff.1 hL)]
  rfl

/-- The coordinates that are registered are those that an artifact provides. -/
theorem mem_coordinates_iff {root : Element} {registry : Registry}
    (h : readRegistry root = .ok registry) {c : Coordinate} :
    c ∈ registry.coordinates ↔ ∃ e ∈ artifactElements root, Provides e c := by
  obtain ⟨hlocation, -⟩ := location?_of_readRegistry h
  rw [← Registry.isSome_location?_iff, Option.isSome_iff_exists, ← exists_isFirst_iff]
  simp only [hlocation]
  constructor
  · rintro ⟨location, e, he, -⟩
    exact ⟨e, he⟩
  · rintro ⟨e, he⟩
    -- the first artifact lies somewhere, as it is in order
    have hmem : e ∈ artifactElements root := by
      obtain ⟨before, after, hlist, -⟩ := he
      rw [hlist]
      exact List.mem_append_right before List.mem_cons_self
    obtain ⟨path, hpath⟩ := (exists_readRegistry_iff.1 ⟨registry, h⟩ e hmem).path
    exact ⟨⟨path, _⟩, e, he, hpath, hasTextOr_iff.2 rfl⟩

/-- A version is not empty. -/
theorem HasVersion.ne_empty {v : String} (h : HasVersion e v) : v ≠ "" := by
  cases h with
  | listed h =>
    cases h with
    | mk _ _ _ hne => exact hne
  | system => decide

/-- What a source reports is what it has for the first artifact that provides the coordinate. -/
theorem lookup_eq_some_iff {root : Element} {registry : Registry}
    (h : readRegistry root = .ok registry) {name : String} {c : Coordinate} {found : Artifact} :
    (Metadata.mk name registry).lookup c = some found ↔
      ∃ e, IsFirst (Provides · c) (artifactElements root) e ∧ IsReport e name c found := by
  obtain ⟨hlocation, -⟩ := location?_of_readRegistry h
  -- what is provided has a version, so no default is filled in for it
  have hversion : ∀ {e}, Provides e c → c.version = some (versionOfText (c.version.getD "")) := by
    rintro e ⟨-, v, hv, hc⟩
    rw [hc, Option.getD_some, versionOfText, if_neg hv.ne_empty]
  simp only [lookup, Option.map_eq_some_iff, hlocation]
  constructor
  · rintro ⟨location, ⟨e, he, hlies⟩, rfl⟩
    obtain ⟨_, _, _, _, hprovides⟩ := id he
    exact ⟨e, he, rfl, hlies, hversion hprovides, rfl⟩
  · rintro ⟨e, he, rfl, hlies, hfound, rfl⟩
    obtain ⟨_, _, _, _, hprovides⟩ := id he
    have hsame : versionOfText (found.coordinate.version.getD "") = found.version :=
      Option.some.inj ((hversion hprovides).symm.trans hfound)
    refine ⟨_, ⟨e, he, hlies⟩, ?_⟩
    rw [hsame]

/-- What is read is a document. -/
theorem exists_root_of_ofDocument {source : Xml.Source} {name : String} {m : Metadata}
    (h : ofDocument source name = .ok m) : ∃ root, Xml.Document.parse source = .ok root := by
  unfold ofDocument at h
  split at h
  · cases h
  · next root hroot => exact ⟨root, hroot⟩

/-- **The index agrees with a scan.** A document is refused exactly if one of its artifacts is not
in order. Otherwise a coordinate is found exactly if an artifact provides it, what is reported is
the first of these artifacts in the order of the document, and the size of the index is the number
of coordinates that are provided. -/
theorem index_agrees_with_scan {source : Xml.Source} {root : Element}
    (hroot : Xml.Document.parse source = .ok root) (name : String) :
    ((∃ cause, ofDocument source name = .error ⟨cause, name⟩) ↔
      ∃ e ∈ artifactElements root, ¬ IsInOrder e) ∧
    ((∀ e ∈ artifactElements root, IsInOrder e) → ∃ m, ofDocument source name = .ok m ∧
      (∀ c, m.lookup c ≠ none ↔ ∃ e ∈ artifactElements root, Provides e c) ∧
      (∀ c found, m.lookup c = some found ↔
        ∃ e, IsFirst (Provides · c) (artifactElements root) e ∧ IsReport e name c found) ∧
      Set.encard {c | ∃ e ∈ artifactElements root, Provides e c} = m.size) := by
  have hnot : (∃ e ∈ artifactElements root, ¬ IsInOrder e) ↔
      ¬ ∃ registry, readRegistry root = .ok registry := by
    rw [exists_readRegistry_iff]
    simp only [not_forall, exists_prop]
  rw [hnot, ← exists_readRegistry_iff]
  -- the registry is read as a whole or not at all
  cases hread : readRegistry root with
  | error cause =>
    have hof : ofDocument source name = .error ⟨cause, name⟩ := by
      simp only [ofDocument, hroot, hread]
    rw [hof]
    exact ⟨iff_of_true ⟨cause, rfl⟩ fun ⟨_, h⟩ => (nomatch h), fun ⟨_, h⟩ => (nomatch h)⟩
  | ok registry =>
    have hof : ofDocument source name = .ok ⟨name, registry⟩ := by
      simp only [ofDocument, hroot, hread]
    rw [hof]
    refine ⟨iff_of_false (fun ⟨_, h⟩ => nomatch h) fun h => h ⟨registry, rfl⟩, fun _ =>
      ⟨⟨name, registry⟩, rfl, fun c => ?_, fun c found => lookup_eq_some_iff hread, ?_⟩⟩
    · rw [← mem_coordinates_iff hread, ← Registry.isSome_location?_iff, lookup,
        ← Option.isSome_iff_ne_none, Option.isSome_map]
    · -- no coordinate is entered twice, so the set has as many members as the list
      have hset : {c | ∃ e ∈ artifactElements root, Provides e c} =
          (registry.coordinates.toFinset : Set Coordinate) := by
        ext c
        rw [Set.mem_ofPred_eq, ← mem_coordinates_iff hread, List.coe_toFinset, Set.mem_ofPred_eq]
      have hcard := List.toFinset_card_of_nodup (location?_of_readRegistry hread).2
      rw [hset, Set.encard_coe_eq_coe_finsetCard, hcard, Registry.coordinates, List.length_map]
      rfl

/-- Two artifacts in a document, of which the second has the name that is an alias of the first. -/
def aliasText : String :=
  "<m><artifacts><artifact><path>/a</path><groupId>org</groupId><artifactId>own</artifactId>" ++
  "<aliases><alias><groupId>org</groupId><artifactId> other </artifactId></alias></aliases>" ++
  "</artifact><artifact><path>/b</path><groupId>org</groupId><artifactId>other</artifactId>" ++
  "</artifact></artifacts></m>"

/-- The name that both have, with the reserved version, as neither lists one. -/
def aliasCoordinate : Coordinate where
  group := .literal "org" rfl
  artifact := .literal "other" rfl
  extension := .jar
  classifier := .none
  version := some systemVersion

theorem index_agrees_with_scan_alias : ∃ root,
    Xml.Document.parse (.text aliasText) = .ok root ∧
      (∀ e ∈ artifactElements root, IsInOrder e) ∧
      Set.encard {c | ∃ e ∈ artifactElements root, Provides e c} = 2 ∧
      ∃ e, IsFirst (Provides · aliasCoordinate) (artifactElements root) e ∧
        IsReport e "alias" aliasCoordinate ⟨aliasCoordinate, "/a", systemVersion, "alias", ""⟩ := by
  have hread : (ofDocument (.text aliasText) "alias").toOption.map
      (fun m => (m.size, m.lookup aliasCoordinate)) =
        some (2, some ⟨aliasCoordinate, "/a", systemVersion, "alias", ""⟩) := by decide +kernel
  obtain ⟨m, hm, hpair⟩ := Option.map_eq_some_iff.1 hread
  obtain ⟨hsize, hlookup⟩ := Prod.mk.inj hpair
  replace hm := eq_ok_of_toOption hm
  obtain ⟨root, hroot⟩ := exists_root_of_ofDocument hm
  obtain ⟨hrefused, haccepted⟩ := index_agrees_with_scan hroot "alias"
  -- the document is accepted, so its artifacts are in order
  have hall : ∀ e ∈ artifactElements root, IsInOrder e := by
    refine Classical.byContradiction fun h => ?_
    obtain ⟨cause, hcause⟩ := hrefused.2 (by simpa using h)
    exact nomatch hm.symm.trans hcause
  obtain ⟨m', hm', -, hreport, hcard⟩ := haccepted hall
  obtain rfl := Except.ok.inj (hm.symm.trans hm')
  exact ⟨root, hroot, hall, by rw [hcard, hsize]; rfl, (hreport _ _).1 hlookup⟩

end Metadata

end Depot
