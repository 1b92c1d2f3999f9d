import Depot.Coordinate.Grammar
import Depot.Proofs.Coordinate.Written
import Depot.Proofs.Fragment.Elements
import Depot.Proofs.Outcome
import Depot.Proofs.Xml.Refused
import Depot.Resolver.BuildDocument
/-!
# Build dependencies are read back

A document of build dependencies is ASCII, whatever was asked for. Read as a document, and its
records field by field (`records?`), it has one record for each coordinate with the version under
which the artifact was found, in the order of the requests and without repetitions (`written`).

The texts in these records are those of the coordinates, if all their characters can be written: a
carriage return is put out as it is and read as a line feed, and a character that may not stand in a
document makes the reader refuse it. `records_render` says both, and that nothing else is lost.
-/

namespace Depot

open Xml (Element Markup isLegal normalizeText)

/-- The coordinate of a result, with the version under which the artifact was found, or the reserved
one. -/
def Resolution.built (r : Resolution) : Coordinate :=
  r.coordinate.withVersion (some (if r.found then r.version.getD systemVersion else systemVersion))

namespace BuildDocument

/-- The coordinates that are written, each once. -/
def written (results : List Resolution) : List Coordinate :=
  (results.map Resolution.built).eraseDups

/-- The text of the first child of a name. -/
def childText? (e : Element) (name : String) : Option String := (e.child? name).map Element.allText

/-- A record as it is read: its five fields. An absent extension is `jar`, an absent classifier is
empty. -/
def record? (e : Element) : Option (List String) :=
  if e.tag = "dependency" then do
    return [← childText? e "groupId", ← childText? e "artifactId",
      (childText? e "extension").getD Extension.jar.text, (childText? e "classifier").getD "",
      ← childText? e "version"]
  else none

/-- The records of a document. -/
def records? (root : Element) : Option (List (List String)) :=
  if root.tag = "dependencies" then root.children.mapM record? else none

/-! ### The records that are written -/

/-- The members at their first places, of those that were not seen before. -/
theorem distinct_eq (seen cs : List Coordinate) :
    distinct seen cs = (cs.filter fun c => !seen.contains c).eraseDups := by
  induction cs generalizing seen with
  | nil => rfl
  | cons c cs ih =>
    rw [distinct, List.filter_cons]
    cases hseen : seen.contains c with
    | true => exact ih seen
    | false =>
      -- what is kept here counts as seen from here on
      have hrest : (fun b => !(c :: seen).contains b) = fun b => !(b == c) && !seen.contains b := by
        funext b
        rw [List.contains_cons, Bool.not_or]
      rw [if_neg Bool.false_ne_true, ih, hrest, Bool.not_false, if_pos rfl, List.eraseDups_cons,
        List.filter_filter]

variable {results : List Resolution}

/-- The comment in front of the records may stand there. -/
theorem isComment_header : Xml.isComment
    "Build dependencies generated by mcp-local-artifact-resolver".toList = true := by
  decide

/-- The versions that were found are not empty. -/
theorem coordinates_eq (h : ∀ r ∈ results, r.version ≠ some "") :
    coordinates results = results.map Resolution.built := by
  refine List.map_congr_left fun r hr => ?_
  have hversion : r.buildVersion =
      if r.found then r.version.getD systemVersion else systemVersion := by
    have hne := h r hr
    obtain ⟨c, path, version, namespaceName, source⟩ := r
    cases path with
    | none => rfl
    | some path =>
      cases version with
      | none => rfl
      | some v => exact if_neg fun h => hne (congrArg some h)
  rw [hversion]
  rfl

theorem toMarkup_eq (h : ∀ r ∈ results, r.version ≠ some "") : toMarkup results =
    .group "dependencies" ((written results).map (Coordinate.toMarkup "dependency")) := by
  have hall : ((results.map Resolution.built).filter fun c => !([] : List Coordinate).contains c) =
      results.map Resolution.built := List.filter_eq_self.2 fun _ _ => rfl
  rw [toMarkup, distinct_eq, coordinates_eq h, hall, written]

theorem tagged_toMarkup (results : List Resolution) : (toMarkup results).Tagged := by
  refine .group (by decide) fun item hitem => ?_
  obtain ⟨c, -, rfl⟩ := List.mem_map.1 hitem
  exact c.tagged_toMarkup (by decide)

/-- The characters that are written may all stand in a document exactly if those of the coordinates
may. -/
theorem isLegal_chars_iff (h : ∀ r ∈ results, r.version ≠ some "") :
    (∀ b ∈ (toMarkup results).chars, isLegal b = true) ↔
      ∀ c ∈ written results, ∀ s ∈ c.sortKey, ∀ b ∈ s.toList, isLegal b = true := by
  have hrecord : ∀ c : Coordinate, (∀ b ∈ (c.toMarkup "dependency").chars, isLegal b = true) ↔
      ∀ s ∈ c.sortKey, ∀ b ∈ s.toList, isLegal b = true :=
    fun _ => Coordinate.forall_mem_chars_toMarkup_iff fun b hb => (Coordinate.isLegal_jar b hb).1
  simp only [toMarkup_eq h, Markup.chars, Markup.mem_charsOf, List.mem_map, ← hrecord]
  constructor
  · intro hall c hc b hb
    exact hall b ⟨_, ⟨c, hc, rfl⟩, hb⟩
  · rintro hall b ⟨_, ⟨c, hc, rfl⟩, hb⟩
    exact hall c hc b hb

/-! ### The records that are read -/

section Fields

variable {outer name : String} {level : Nat}

/-- Of elements one after the other, the first ones come first. -/
theorem childText?_append (as bs : List Markup) :
    childText? (Markup.element (.group outer (as ++ bs)) level) name =
      (childText? (Markup.element (.group outer as) level) name).or
        (childText? (Markup.element (.group outer bs) level) name) := by
  simp only [childText?, Element.child?, Markup.children_group, List.map_append,
    List.find?_append, Option.map_or]

/-- An element that holds text is found by its tag. -/
theorem childText?_text (tag s : String) :
    childText? (Markup.element (.group outer [.text tag s]) level) name =
      if tag = name then some s else none := by
  have htag : ((Markup.text tag s).element (level + 1)).tag = tag := rfl
  unfold childText? Element.child?
  rw [Markup.children_group, List.map_singleton, List.find?_singleton, htag]
  by_cases h : tag = name
  · simp [h]
  · simp [h]

/-- A field that is left out where it has its default is found by its tag, if it is there. -/
theorem childText?_optionalField (tag s skipped : String) :
    childText? (Markup.element
      (.group outer ((Coordinate.optionalField tag s skipped).map Markup.normalized)) level) name =
      if tag = name ∧ s ≠ skipped then some (normalizeText s) else none := by
  unfold Coordinate.optionalField
  split
  · next h =>
    rw [if_neg fun hname => hname.2 h]
    rfl
  · next h =>
    rw [List.map_singleton, Markup.normalized_text, childText?_text]
    simp [h]

end Fields

/-- A record is read as the texts of its coordinate, with line ends normalized. -/
theorem record?_element {c : Coordinate} (h : c.version.getD "" ≠ "") (level : Nat) :
    record? ((c.toMarkup "dependency").normalized.element level) =
      some (c.sortKey.map normalizeText) := by
  obtain ⟨e, he⟩ : ∃ e, e = (c.toMarkup "dependency").normalized.element level := ⟨_, rfl⟩
  -- a field is found by its tag alone
  have hfield : ∀ name, childText? e name =
      (((((if "groupId" = name then some (normalizeText c.group.text) else none).or
      (if "artifactId" = name then some (normalizeText c.artifact.text) else none)).or
      (if "extension" = name ∧ c.extension.text ≠ Extension.jar.text then
        some (normalizeText c.extension.text) else none)).or
      (if "classifier" = name ∧ c.classifier.text ≠ "" then
        some (normalizeText c.classifier.text) else none)).or
      (if "version" = name ∧ c.version.getD "" ≠ "" then
        some (normalizeText (c.version.getD "")) else none)) := by
    intro name
    -- all five fields one after the other, each of them on its own
    have hnames : [Markup.text "groupId" c.group.text, .text "artifactId" c.artifact.text] =
        [.text "groupId" c.group.text] ++ [.text "artifactId" c.artifact.text] := rfl
    rw [he, Coordinate.toMarkup, Markup.normalized_group, hnames]
    simp only [List.map_append, List.map_singleton, Markup.normalized_text, childText?_append,
      childText?_text, childText?_optionalField]
  have htag : e.tag = "dependency" := by
    rw [he, Coordinate.toMarkup, Markup.normalized_group]
    rfl
  have hgroup := hfield "groupId"
  have hartifact := hfield "artifactId"
  have hextension := hfield "extension"
  have hclassifier := hfield "classifier"
  have hversion := hfield "version"
  simp only [String.reduceEq, if_true, if_false, true_and, false_and, Option.or_none,
    Option.none_or] at hgroup hartifact hextension hclassifier hversion
  rw [if_pos h] at hversion
  -- what is left out is read as its default, which is normalized
  have hjar : (childText? e "extension").getD Extension.jar.text =
      normalizeText c.extension.text := by
    rw [hextension]
    split
    · rfl
    · next hjar =>
      rw [Decidable.not_not.1 hjar]
      decide
  have hempty : (childText? e "classifier").getD "" = normalizeText c.classifier.text := by
    rw [hclassifier]
    split
    · rfl
    · next hempty =>
      rw [Decidable.not_not.1 hempty]
      decide
  rw [← he, record?, htag, if_pos rfl, hgroup, hartifact, hjar, hempty, hversion]
  rfl

/-- Elements that are read one by one. -/
theorem mapM_eq_some {α β γ : Type} {f : α → β} {g : β → Option γ} {k : α → γ} {as : List α}
    (h : ∀ a ∈ as, g (f a) = some (k a)) : (as.map f).mapM g = some (as.map k) := by
  induction as with
  | nil => rfl
  | cons a as ih =>
    rw [List.map_cons, List.mapM_cons, h a List.mem_cons_self,
      ih fun b hb => h b (List.mem_cons_of_mem a hb)]
    rfl

/-- A coordinate that is written has a version. -/
theorem version_of_mem_written (h : ∀ r ∈ results, r.version ≠ some "") {c : Coordinate}
    (hc : c ∈ written results) : c.version.getD "" ≠ "" := by
  obtain ⟨r, hr, rfl⟩ := List.mem_map.1 (List.mem_eraseDups.1 hc)
  show (if r.found then r.version.getD systemVersion else systemVersion) ≠ ""
  split
  · cases hv : r.version with
    | none => decide
    | some v => exact fun he => h r hr (hv.trans (congrArg some he))
  · decide

/-- The records are read as the texts of the coordinates, with line ends normalized. -/
theorem records?_element (h : ∀ r ∈ results, r.version ≠ some "") :
    records? ((toMarkup results).normalized.element 0) =
      some ((written results).map fun c => c.sortKey.map normalizeText) := by
  rw [toMarkup_eq h, Markup.normalized_group]
  have htag : ∀ items, (Markup.element (.group "dependencies" items) 0).tag = "dependencies" :=
    fun _ => rfl
  rw [records?, htag, if_pos rfl, Markup.children_group, List.map_map, List.map_map]
  exact mapM_eq_some fun c hc => record?_element (version_of_mem_written h hc) 1

/-! ### The whole document -/

/-- The document is refused exactly if there is a character in a coordinate that may not stand in
one. -/
theorem exists_ofText_render_iff (h : ∀ r ∈ results, r.version ≠ some "") :
    (∃ root, Xml.Document.ofText (render results) = .ok root) ↔
      ∀ c ∈ written results, ∀ s ∈ c.sortKey, ∀ b ∈ s.toList, isLegal b = true := by
  have htagged := tagged_toMarkup results
  rw [← isLegal_chars_iff h]
  constructor
  · rintro ⟨root, hroot⟩ b hb
    cases hlegal : isLegal b with
    | true => rfl
    -- a character that is not legal would have the text refused
    | false =>
      have herror := Xml.Document.ofText_document_of_not_isLegal isComment_header htagged
        ⟨b, hb, hlegal⟩
      cases hroot.symm.trans herror
  · exact fun hlegal => ⟨_, Xml.Document.ofText_document_of_isLegal isComment_header htagged hlegal⟩

/-- If it is not refused, its records are the coordinates, with line ends normalized. -/
theorem records?_of_ofText_render (h : ∀ r ∈ results, r.version ≠ some "") {root : Element}
    (hroot : Xml.Document.ofText (render results) = .ok root) :
    records? root = some ((written results).map fun c => c.sortKey.map normalizeText) := by
  have hlegal := (isLegal_chars_iff h).2 ((exists_ofText_render_iff h).1 ⟨_, hroot⟩)
  have hread := Xml.Document.ofText_document_of_isLegal isComment_header
    (tagged_toMarkup results) hlegal
  cases hroot.symm.trans hread
  exact records?_element h

/-- The texts of a coordinate are normalized exactly if there are no carriage returns in them. -/
theorem map_normalizeText_eq_self_iff {texts : List String} :
    texts.map normalizeText = texts ↔ ∀ s ∈ texts, ∀ b ∈ s.toList, b ≠ '\r' := by
  have hid : texts.map normalizeText = texts ↔ texts.map normalizeText = texts.map id := by
    rw [List.map_id]
  rw [hid, List.map_inj_left]
  exact forall₂_congr fun s _ => Xml.normalizeText_eq_self_iff

/-- **Build dependencies are read back.** For results of coordinates that were read, found under no
version, the requested or the reserved one, the document is ASCII. It is refused exactly if there is
a character in a coordinate that may not stand in a document. Otherwise its records are the
coordinates with the version that was found, once each, with line ends normalized; so they are what
was written exactly if all characters can be written. -/
theorem records_render (hparsed : ∀ r ∈ results, ∃ text, Coordinate.parse text = .ok r.coordinate)
    (hversion : ∀ r ∈ results,
      r.version = none ∨ r.version = r.coordinate.version ∨ r.version = some systemVersion) :
    (∀ b ∈ (render results).toList, b.toNat < 0x80) ∧
    ((∃ root, Xml.Document.ofText (render results) = .ok root) ↔
      ∀ c ∈ written results, ∀ s ∈ c.sortKey, ∀ b ∈ s.toList, isLegal b = true) ∧
    (∀ root, Xml.Document.ofText (render results) = .ok root →
      records? root = some ((written results).map fun c => c.sortKey.map normalizeText)) ∧
    ((∃ root, Xml.Document.ofText (render results) = .ok root ∧
        records? root = some ((written results).map Coordinate.sortKey)) ↔
      ∀ c ∈ written results, c.IsWritable) := by
  -- neither of the versions that can be found is empty
  have hne : ∀ r ∈ results, r.version ≠ some "" := by
    intro r hr he
    obtain ⟨text, htext⟩ := hparsed r hr
    obtain ⟨v, hv, hvne⟩ := Coordinate.version_of_parse htext
    rcases hversion r hr with h | h | h
    · cases h.symm.trans he
    · exact hvne (Option.some.inj (hv.symm.trans (h.symm.trans he)))
    · exact absurd (Option.some.inj (h.symm.trans he)) (by decide)
  have hlegal := exists_ofText_render_iff hne
  have hrecords := fun root (hroot : Xml.Document.ofText (render results) = .ok root) =>
    records?_of_ofText_render hne hroot
  refine ⟨?_, hlegal, hrecords, ?_⟩
  · intro b hb
    rw [render, String.toList_ofList] at hb
    have hcomment : ∀ b ∈ "Build dependencies generated by mcp-local-artifact-resolver".toList,
        b.toNat < 0x80 := List.all_iff_forall_prop.1 (by decide)
    exact Markup.toNat_lt_of_mem_document hcomment (tagged_toMarkup results) hb
  · -- writable is what is legal and needs no normalizing
    have hsplit : (∀ c ∈ written results, c.IsWritable) ↔
        (∀ c ∈ written results, ∀ s ∈ c.sortKey, ∀ b ∈ s.toList, isLegal b = true) ∧
        ∀ c ∈ written results, c.sortKey.map normalizeText = c.sortKey := by
      simp only [map_normalizeText_eq_self_iff, Coordinate.IsWritable, Xml.isWritable_iff,
        ← forall_and]
    rw [hsplit, ← hlegal, ← List.map_inj_left]
    constructor
    · rintro ⟨root, hroot, hsame⟩
      exact ⟨⟨root, hroot⟩, Option.some.inj ((hrecords root hroot).symm.trans hsame)⟩
    · rintro ⟨⟨root, hroot⟩, hsame⟩
      exact ⟨root, hroot, (hrecords root hroot).trans (congrArg some hsame)⟩

/-- A request for an artifact of one group, in one version. -/
def sampleRequest (artifact : Part) : Coordinate where
  group := .literal "g" rfl
  artifact := artifact
  extension := .jar
  classifier := .none
  version := some "1"

/-- Results for one artifact that was found, one that was not, and the first one again. -/
def sampleResults : List Resolution :=
  let found := sampleRequest (.literal "a" rfl)
  [⟨found, some "/a.jar", some "1", none, none⟩,
    .missing (sampleRequest (.literal "b" rfl)),
    ⟨found, some "/a.jar", some "1", none, none⟩]

/-- A result for an artifact with a carriage return in its name. -/
def sampleReturn : List Resolution :=
  [.missing (sampleRequest (.literal "a\rb" rfl))]

theorem records_render_sampleResults :
    (∃ root, Xml.Document.ofText (render sampleResults) = .ok root ∧
      records? root = some [["g", "a", "jar", "", "1"], ["g", "b", "jar", "", "SYSTEM"]]) ∧
    ∃ root, Xml.Document.ofText (render sampleReturn) = .ok root ∧
      records? root = some [["g", "a\nb", "jar", "", "SYSTEM"]] ∧
      ¬ ∀ c ∈ written sampleReturn, c.IsWritable := by
  -- the coordinates are those of texts, which can be compared by evaluating
  have hreads : ∀ (results : List Resolution) (texts : List String),
      (∀ r ∈ results, ∃ text ∈ texts, (Coordinate.parse text).toOption = some r.coordinate) →
      ∀ r ∈ results, ∃ text, Coordinate.parse text = .ok r.coordinate := by
    intro results texts h r hr
    obtain ⟨text, -, htext⟩ := h r hr
    exact ⟨text, eq_ok_of_toOption htext⟩
  obtain ⟨-, -, -, hgood⟩ := records_render
    (hreads sampleResults ["g:a:1", "g:b:1"] (by decide +kernel)) (by decide +kernel)
  obtain ⟨-, hread, hrecords, -⟩ := records_render
    (hreads sampleReturn ["g:a\rb:1"] (by decide +kernel)) (by decide +kernel)
  -- the carriage return is legal, so the text is read; it is not read as it was written
  have hlegal : ((written sampleReturn).all fun c => c.sortKey.all fun s => s.toList.all isLegal) =
      true := by decide +kernel
  simp only [List.all_eq_true] at hlegal
  obtain ⟨root, hroot⟩ := hread.2 hlegal
  exact ⟨hgood.2 (by decide +kernel), root, hroot, hrecords root hroot, by decide +kernel⟩

end BuildDocument

end Depot
