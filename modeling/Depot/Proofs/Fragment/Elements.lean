import Depot.Coordinate.Markup
import Depot.Fragment.Reader
import Depot.Proofs.Coordinate.Fields
import Depot.Proofs.Xml.ReadBack
/-!
# Written blocks are read back

A coordinate is written as a block with its default fields left out, and read by code that shares
nothing with the writer but the names of the fields. `readBlock_toMarkup` joins the two ends: the
block of a coordinate is read as that coordinate.

A document is read element by element, at any depth. `Reads` says which records elements that are
written are read as, together with all that is inside them; it holds at every level of indentation
and is closed under writing elements one after the other, so the records of a document are those of
its parts in order.
-/
namespace Depot

open Xml (Element Markup IsTag)

/-- A character that a document may hold, by the ranges of the standard, and that is no carriage
return. -/
def Xml.IsWritable (c : Char) : Prop :=
  c = '\t' ∨ c = '\n' ∨ (0x20 ≤ c.toNat ∧ c.toNat ≤ 0xD7FF) ∨
    (0xE000 ≤ c.toNat ∧ c.toNat ≤ 0xFFFD) ∨ (0x10000 ≤ c.toNat ∧ c.toNat ≤ 0x10FFFF)

instance (c : Char) : Decidable (Xml.IsWritable c) := inferInstanceAs (Decidable (_ ∨ _))

/-- A writable character is legal, and no carriage return. -/
theorem Xml.isLegal_of_isWritable {c : Char} (h : Xml.IsWritable c) :
    Xml.isLegal c = true ∧ c ≠ '\r' := by
  rcases h with rfl | rfl | h
  · decide
  · decide
  · have hne : c ≠ '\r' := by
      rintro rfl
      exact absurd h (by decide)
    refine ⟨?_, hne⟩
    unfold Xml.isLegal
    rw [if_neg (by omega)]
    simp only [Bool.and_eq_true, bne_iff_ne, ne_eq]
    omega

/-- What a document may hold and be read back with, by the ranges of the standard, is what is legal
and no carriage return. -/
theorem Xml.isWritable_iff {c : Char} :
    Xml.IsWritable c ↔ Xml.isLegal c = true ∧ c ≠ '\r' := by
  refine ⟨isLegal_of_isWritable, fun ⟨hlegal, hne⟩ => ?_⟩
  have hvalid : c.toNat < 0xD800 ∨ 0xDFFF < c.toNat ∧ c.toNat < 0x110000 := c.valid
  simp only [isLegal] at hlegal
  split at hlegal
  · simp only [Bool.or_eq_true, decide_eq_true_eq, hne, or_false] at hlegal
    exact hlegal.imp_right .inl
  · simp only [Bool.and_eq_true, bne_iff_ne, ne_eq] at hlegal
    exact .inr (.inr (by omega))

/-! ### Coordinates -/

namespace Coordinate

/-- All texts of the coordinate are made of writable characters. -/
def IsWritable (c : Coordinate) : Prop := ∀ s ∈ c.sortKey, ∀ b ∈ s.toList, Xml.IsWritable b

instance (c : Coordinate) : Decidable c.IsWritable :=
  decidable_of_iff ((c.sortKey.all fun s => s.toList.all fun b => decide (Xml.IsWritable b)) = true)
    (by simp only [List.all_eq_true, decide_eq_true_eq, IsWritable])

theorem tagged_toMarkup (c : Coordinate) {tag : String} (htag : IsTag tag) :
    (c.toMarkup tag).Tagged := by
  -- a field that is left out has nothing to check
  have hoptional : ∀ {field s skipped : String}, IsTag field →
      ∀ item ∈ optionalField field s skipped, item.Tagged := by
    intro field s skipped hfield item hitem
    unfold optionalField at hitem
    split at hitem
    · exact nomatch hitem
    · obtain rfl := List.mem_singleton.1 hitem
      exact .text hfield
  refine .group htag fun item hitem => ?_
  simp only [List.mem_append, List.mem_cons, List.not_mem_nil, or_false] at hitem
  rcases hitem with (((rfl | rfl) | hitem) | hitem) | hitem
  · exact .text (by decide)
  · exact .text (by decide)
  · exact hoptional (by decide) item hitem
  · exact hoptional (by decide) item hitem
  · exact hoptional (by decide) item hitem

/-- The characters that are written are those of the texts of the coordinate, but for a default that
is left out. -/
theorem forall_mem_chars_toMarkup_iff {c : Coordinate} {tag : String} {P : Char → Prop}
    (hjar : ∀ b ∈ Extension.jar.text.toList, P b) :
    (∀ b ∈ (c.toMarkup tag).chars, P b) ↔ ∀ s ∈ c.sortKey, ∀ b ∈ s.toList, P b := by
  -- a field is left out only for its default, of which `P` is known
  have hoptional : ∀ {field s skipped : String}, (∀ b ∈ skipped.toList, P b) →
      ((∀ b ∈ Markup.charsOf (optionalField field s skipped), P b) ↔ ∀ b ∈ s.toList, P b) := by
    intro field s skipped hskipped
    unfold optionalField
    split
    · next h =>
      rw [h]
      exact iff_of_true (List.forall_mem_nil _) hskipped
    · simp [Markup.charsOf, Markup.chars]
  have hempty : ∀ b ∈ "".toList, P b := List.forall_mem_nil _
  simp only [toMarkup, Markup.chars, Markup.charsOf, Markup.charsOf_append, List.append_nil,
    List.forall_mem_append, hoptional hjar, hoptional hempty, sortKey, List.forall_mem_cons,
    and_assoc]
  simp

/-- The default extension can be written. -/
theorem isLegal_jar : ∀ b ∈ Extension.jar.text.toList, Xml.isLegal b = true ∧ b ≠ '\r' :=
  List.all_iff_forall_prop.1 (by decide)

/-- A written coordinate is an element that can be read back. -/
theorem wellFormed_toMarkup {c : Coordinate} (hc : c.IsWritable) {tag : String} (htag : IsTag tag) :
    (c.toMarkup tag).WellFormed := by
  refine Markup.wellFormed_iff.2 ⟨c.tagged_toMarkup htag, ?_⟩
  exact (forall_mem_chars_toMarkup_iff isLegal_jar).2 fun s hs b hb =>
    Xml.isLegal_of_isWritable (hc s hs b hb)

end Coordinate

namespace Fragment

/-- A field of a block that is written once. -/
theorem fieldText_of_one {tag name s : String} {items : List Markup} {level : Nat} (required : Bool)
    (h : (items.filter fun item => item.tag == name) = [.text name s]) :
    fieldText (Markup.element (.group tag items) level) name required =
      .ok (some (Text.strip s)) := by
  unfold fieldText
  rw [Markup.childrenNamed_group, h]
  simp only [List.map_cons, List.map_nil, Markup.allText_text]

/-- A field of a block that is not written. -/
theorem fieldText_of_none {tag name : String} {items : List Markup} {level : Nat}
    (h : (items.filter fun item => item.tag == name) = []) :
    fieldText (Markup.element (.group tag items) level) name false = .ok none := by
  unfold fieldText
  rw [Markup.childrenNamed_group, h]
  rfl

/-- A field that is written unless it has its default is read as its text, or as nothing. -/
theorem fieldText_optionalField {tag name s skipped : String} {items : List Markup} {level : Nat}
    (h : (items.filter fun item => item.tag == name) = Coordinate.optionalField name s skipped) :
    fieldText (Markup.element (.group tag items) level) name false =
      .ok (if s = skipped then none else some (Text.strip s)) := by
  unfold Coordinate.optionalField at h
  split
  · next hs =>
    rw [if_pos hs] at h
    exact fieldText_of_none h
  · next hs =>
    rw [if_neg hs] at h
    exact fieldText_of_one false h

/-- Which of the optional fields have a given tag. -/
theorem filter_optionalField (tag name s skipped : String) :
    ((Coordinate.optionalField tag s skipped).filter fun item => item.tag == name) =
      if tag = name then Coordinate.optionalField tag s skipped else [] := by
  unfold Coordinate.optionalField
  by_cases h : tag = name
  · rw [if_pos h]
    split <;> simp [Markup.tag, h]
  · rw [if_neg h]
    split <;> simp [Markup.tag, h]

/-- An extension that is left out where it is the default is read as what it was. -/
theorem ofText_extensionField (e : Extension) : Extension.ofText (RawField.textOrEmpty
    (optionalField (if e.text = Extension.jar.text then none else some (Text.strip e.text)))) =
    e := by
  split
  · next h => exact (Extension.ext h).symm
  · show Extension.ofText (Text.strip e.text) = e
    rw [e.strip_text]
    unfold Extension.ofText
    rw [dif_neg (by rw [e.strip_text]; exact e.ne_empty)]
    exact Extension.ext e.strip_text

/-- A classifier that is left out where it is empty is read as what it was. -/
theorem ofText_classifierField (c : Classifier) : Classifier.ofText (RawField.textOrEmpty
    (optionalField (if c.text = "" then none else some (Text.strip c.text)))) = c := by
  refine Classifier.ext ?_
  split
  · next h => exact h.symm
  · show Text.strip (Text.strip c.text) = c.text
    rw [c.strip_text, c.strip_text]

/-- A version is read as what it was, if there is none, or one that is neither empty nor has blanks
around it. -/
theorem versionOfField_versionField {version : Option String}
    (h : ∀ v ∈ version, v ≠ "" ∧ Text.strip v = v) : versionOfField (versionField
      (if version.getD "" = "" then none else some (Text.strip (version.getD "")))) =
    .ok version := by
  cases version with
  | none => rfl
  | some v =>
    obtain ⟨hne, hstrip⟩ := h v rfl
    show versionOfField (versionField (if v = "" then none else some (Text.strip v))) = _
    rw [if_neg hne, hstrip, versionField, if_neg hne]
    rfl

/-- **Reading a coordinate.** The block that is written for a coordinate is read as that coordinate,
with its default fields filled in. A version, where there is one, must be neither empty nor have
blanks around it. -/
theorem readBlock_toMarkup {c : Coordinate}
    (hversion : ∀ v ∈ c.version, v ≠ "" ∧ Text.strip v = v) (tag : String) (level : Nat) :
    readBlock ((c.toMarkup tag).element level) = .ok c := by
  obtain ⟨items, hitems⟩ : ∃ items : List Markup, items =
      [.text "groupId" c.group.text, .text "artifactId" c.artifact.text] ++
        Coordinate.optionalField "extension" c.extension.text Extension.jar.text ++
        Coordinate.optionalField "classifier" c.classifier.text "" ++
        Coordinate.optionalField "version" (c.version.getD "") "" := ⟨_, rfl⟩
  have hmarkup : c.toMarkup tag = .group tag items := by rw [hitems]; rfl
  -- each field is found by its tag alone
  have hfilter : ∀ name, (items.filter fun item => item.tag == name) =
      (if "groupId" = name then [.text "groupId" c.group.text] else []) ++
      (if "artifactId" = name then [.text "artifactId" c.artifact.text] else []) ++
      (if "extension" = name then
        Coordinate.optionalField "extension" c.extension.text Extension.jar.text else []) ++
      (if "classifier" = name then
        Coordinate.optionalField "classifier" c.classifier.text "" else []) ++
      (if "version" = name then
        Coordinate.optionalField "version" (c.version.getD "") "" else []) := by
    intro name
    rw [hitems]
    simp only [List.filter_append, filter_optionalField, List.filter_cons, List.filter_nil,
      Markup.tag_text, beq_iff_eq]
    by_cases hg : "groupId" = name <;> by_cases ha : "artifactId" = name <;> simp [hg, ha]
  have hgroup := hfilter "groupId"
  have hartifact := hfilter "artifactId"
  have hextension := hfilter "extension"
  have hclassifier := hfilter "classifier"
  have hversions := hfilter "version"
  simp only [String.reduceEq, if_true, if_false, List.append_nil, List.nil_append]
    at hgroup hartifact hextension hclassifier hversions
  rw [hmarkup]
  unfold readBlock
  rw [fieldText_of_one true hgroup, fieldText_of_one true hartifact,
    fieldText_optionalField hversions, fieldText_optionalField hextension,
    fieldText_optionalField hclassifier]
  simp only [bind, Except.bind, Option.getD_some, c.group.strip_text, c.artifact.strip_text]
  -- and the texts that are read make the fields of the coordinate
  unfold Coordinate.ofFields
  simp only [Part.ofField_text, ofText_extensionField, ofText_classifierField,
    versionOfField_versionField hversion]
  rfl

/-! ### Elements that are read as records -/

/-- Elements, wherever they are written, are read as records, each together with all that is inside
it. -/
def Reads (items : List Markup) (records : List FragmentRecord) : Prop :=
  ∀ level, readElements (items.flatMap fun item => (item.element level).selfAndDescendants) =
    .ok records

/-- The records of an element come before those of the elements that follow. -/
theorem readElements_cons {e : Element} {es : List Element} {r : Option FragmentRecord}
    {records : List FragmentRecord} (he : readElement e = .ok r)
    (hes : readElements es = .ok records) :
    readElements (e :: es) = .ok (r.toList ++ records) := by
  rw [readElements, he, hes]
  rfl

/-- Elements one after the other are read as their records one after the other. -/
theorem readElements_append {as bs : List Element} {a b : List FragmentRecord}
    (ha : readElements as = .ok a) (hb : readElements bs = .ok b) :
    readElements (as ++ bs) = .ok (a ++ b) := by
  -- on the elements in front, whose first record stays in front
  induction as generalizing a with
  | nil =>
    cases ha
    exact hb
  | cons e as ih =>
    obtain ⟨r, more, he, has, rfl⟩ := exists_of_readElements_cons ha
    rw [List.cons_append, readElements_cons he (ih has), ← List.append_assoc]

theorem Reads.nil : Reads [] [] := fun _ => rfl

theorem Reads.append {as bs : List Markup} {a b : List FragmentRecord} (ha : Reads as a)
    (hb : Reads bs b) : Reads (as ++ bs) (a ++ b) := by
  intro level
  rw [List.flatMap_append]
  exact readElements_append (ha level) (hb level)

/-- Elements of one kind are read one by one. -/
theorem Reads.map {α : Type} {f : α → Markup} {g : α → FragmentRecord} {as : List α}
    (h : ∀ a ∈ as, Reads [f a] [g a]) : Reads (as.map f) (as.map g) := by
  induction as with
  | nil => exact .nil
  | cons a as ih =>
    exact (h a List.mem_cons_self).append (ih fun b hb => h b (List.mem_cons_of_mem a hb))

/-- An element that holds text is read by itself. -/
theorem Reads.text {tag s : String} {r : Option FragmentRecord}
    (h : ∀ level, readElement (Markup.element (.text tag s) level) = .ok r) :
    Reads [.text tag s] r.toList := by
  intro level
  rw [List.flatMap_singleton, Markup.selfAndDescendants_text, readElements_cons (h level) rfl,
    List.append_nil]

/-- An element that holds elements is read by itself, and then what is inside. -/
theorem Reads.group {tag : String} {items : List Markup} {r : Option FragmentRecord}
    {records : List FragmentRecord}
    (h : ∀ level, readElement (Markup.element (.group tag items) level) = .ok r)
    (hitems : Reads items records) : Reads [.group tag items] (r.toList ++ records) := by
  intro level
  rw [List.flatMap_singleton, Markup.selfAndDescendants_group,
    readElements_cons (h level) (hitems (level + 1))]

/-- The tags of the elements that count. -/
def recordTags : List String := ["dependency", "autoRequires", "requiresJava", "requiresJavaDevel"]

/-- An element with another tag does not count. -/
theorem readElement_of_other {e : Element} (h : e.tag ∉ recordTags) : readElement e = .ok none := by
  simp only [recordTags, List.mem_cons, List.not_mem_nil, or_false, not_or] at h
  obtain ⟨hdependency, hrequires, hfloor, hbuildFloor⟩ := h
  unfold readElement
  split
  · next heq => exact absurd heq hdependency
  · next heq => exact absurd heq hrequires
  · next heq => exact absurd heq hfloor
  · next heq => exact absurd heq hbuildFloor
  · rfl

/-- An element with another tag that holds text does not count. -/
theorem Reads.text_of_other {tag s : String} (h : tag ∉ recordTags) : Reads [.text tag s] [] :=
  Reads.text (r := none) fun _ => readElement_of_other h

/-- Of an element with another tag only what is inside counts. -/
theorem Reads.group_of_other {tag : String} {items : List Markup} {records : List FragmentRecord}
    (h : tag ∉ recordTags) (hitems : Reads items records) : Reads [.group tag items] records :=
  Reads.group (r := none) (fun _ => readElement_of_other h) hitems

/-- The fields of a coordinate do not count. -/
theorem reads_fields (tag : String) {items : List Markup} {c : Coordinate}
    (h : c.toMarkup tag = .group tag items) : Reads items [] := by
  -- the tags of the fields are not those of records
  have hoptional : ∀ {name s skipped : String}, name ∉ recordTags →
      Reads (Coordinate.optionalField name s skipped) [] := by
    intro name s skipped hname
    unfold Coordinate.optionalField
    split
    · exact .nil
    · exact .text_of_other hname
  cases h
  have hnames : Reads ([.text "groupId" c.group.text] ++ [.text "artifactId" c.artifact.text])
      ([] ++ []) := (Reads.text_of_other (by decide)).append (Reads.text_of_other (by decide))
  exact ((hnames.append (hoptional (by decide))).append (hoptional (by decide))).append
    (hoptional (by decide))

/-- A block that is no record of its own, as inside a mapping, does not count. -/
theorem reads_block {tag : String} (htag : tag ∉ recordTags) (c : Coordinate) :
    Reads [c.toMarkup tag] [] :=
  Reads.group_of_other htag (reads_fields tag rfl)

/-- A requirement is read from its block. -/
theorem reads_requirement {c : Coordinate} (hversion : c.version = none) :
    Reads [c.toMarkup "autoRequires"] [.requirement c] := by
  have hread : ∀ level, readElement ((c.toMarkup "autoRequires").element level) =
      .ok (some (.requirement c)) := by
    intro level
    have hblock := readBlock_toMarkup (c := c) (fun v hv => by rw [hversion] at hv; cases hv)
      "autoRequires" level
    show (readBlock ((c.toMarkup "autoRequires").element level)).map _ = _
    rw [hblock]
    rfl
  exact Reads.group hread (reads_fields "autoRequires" rfl)

end Fragment

end Depot
