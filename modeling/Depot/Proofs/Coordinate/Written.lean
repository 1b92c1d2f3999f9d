import Depot.Coordinate.Grammar
import Depot.Proofs.Coordinate.Fields
import Depot.Proofs.Path.Written
import Mathlib.Data.List.TakeWhile
/-!
# Coordinates as they are written

A coordinate is written as five fields with colons between them, whatever it was read from. Reading
takes the blanks at both ends of a text away and cuts the rest at every colon. So two things can get
lost on the way back: a colon inside a field, and a blank at the end of the version. A coordinate
without them is plain (`Coordinate.IsPlain`).

A plain coordinate is read back as it was, but for a version that is empty or missing, which is read
as the reserved one (`Coordinate.IsPlain.parse_toText`). Whatever is read is plain and has a version
(`Coordinate.isPlain_of_parse`, `Coordinate.version_of_parse`), so it is read back too.
-/

namespace Depot

namespace Text

/-! ### The ends of a text -/

/-- Nothing is left of a text exactly when all of it is blank. -/
theorem strip_eq_empty_iff (s : String) : strip s = "" ↔ isAllBlank s = true := by
  rw [← String.toList_inj, strip, String.toList_ofList, stripChars, String.toList_empty,
    List.reverse_eq_nil_iff, List.dropWhile_eq_nil_iff, isAllBlank, List.all_eq_true]
  constructor
  · -- what was cut at the front is blank, and all that was left then
    intro h c hc
    rw [← List.takeWhile_append_dropWhile (p := isBlank) (l := s.toList)] at hc
    rcases List.mem_append.1 hc with hc | hc
    · exact List.mem_takeWhile_imp hc
    · exact h c (List.mem_reverse.2 hc)
  · intro h c hc
    exact h c ((List.dropWhile_suffix isBlank).subset (List.mem_reverse.1 hc))

theorem mem_of_mem_strip {s : String} {b : Char} (h : b ∈ (strip s).toList) : b ∈ s.toList := by
  rw [strip, String.toList_ofList, stripChars, List.mem_reverse] at h
  have hback := (List.dropWhile_sublist _).subset h
  exact (List.dropWhile_sublist _).subset (List.mem_reverse.1 hback)

/-- Fields that are joined end with the last of them. -/
theorem isSuffix_joinChars {separator : Char} {fields : List (List Char)} {field : List Char}
    (h : fields.getLast? = some field) : field <:+ joinChars separator fields := by
  induction fields with
  | nil => cases h
  | cons first fields ih =>
    cases fields with
    | nil =>
      obtain rfl := Option.some.inj h
      exact List.suffix_rfl
    | cons second fields =>
      rw [List.getLast?_cons_cons] at h
      exact ((ih h).trans (List.suffix_cons separator _)).trans (List.suffix_append first _)

/-- The last field of a text without blanks around it does not end in a blank. -/
theorem isBlank_of_mem_getLast?_split {separator : Char} {s field : String}
    (h : (split separator (strip s)).getLast? = some field) :
    ∀ b ∈ field.toList.getLast?, isBlank b = false := by
  rw [split, List.getLast?_map] at h
  obtain ⟨cs, hcs, rfl⟩ := Option.map_eq_some_iff.1 h
  -- the last field ends the whole text
  obtain ⟨front, hfront⟩ := joinChars_splitChars separator (strip s).toList ▸ isSuffix_joinChars hcs
  have hstrip : stripChars (strip s).toList = (strip s).toList := by
    rw [strip, String.toList_ofList, stripChars_stripChars]
  intro b hb
  rw [String.toList_ofList] at hb
  refine (stripChars_eq_self_iff.1 hstrip).2 b ?_
  rw [← hfront, List.getLast?_append, hb]
  rfl

/-- The fields of a text hold no separator. -/
theorem not_mem_of_mem_split {separator : Char} {s field : String}
    (h : field ∈ split separator s) : separator ∉ field.toList := by
  obtain ⟨cs, hcs, rfl⟩ := List.mem_map.1 h
  rw [String.toList_ofList]
  exact not_mem_of_mem_splitChars hcs

end Text

namespace Coordinate

/-! ### What is read -/

/-- A text is read as a coordinate if its fields are those of one. -/
theorem parse_eq_ok_iff {t : String} {c : Coordinate} : parse t = .ok c ↔
    ∃ f, fieldsOfParts? (Text.split ':' (Text.strip t)) = some f ∧ ofFields f = .ok c := by
  unfold parse
  cases fieldsOfParts? (Text.split ':' (Text.strip t)) with
  | none => simp
  | some f => simp [mapError_eq_ok_iff]

/-- The fields of a coordinate are among those of its text, or are left out; the version is the last
of them, or the reserved one. -/
structure Selects (parts : List String) (f : CoordinateFields) : Prop where
  group : ∃ s ∈ parts, f.group = .text s
  artifact : ∃ s ∈ parts, f.artifact = .text s
  extension : f.extension.textOrEmpty ∈ parts ∨ f.extension.textOrEmpty = ""
  classifier : f.classifier.textOrEmpty ∈ parts ∨ f.classifier.textOrEmpty = ""
  version : ∃ s, f.version = .text (versionOfText s) ∧ (parts.getLast? = some s ∨ s = "")

theorem selects_of_fieldsOfParts? {parts : List String} {f : CoordinateFields}
    (h : fieldsOfParts? parts = some f) : Selects parts f := by
  unfold fieldsOfParts? at h
  -- from two fields to five
  split at h <;> cases h
  · next group artifact =>
    exact ⟨⟨group, by simp, rfl⟩, ⟨artifact, by simp, rfl⟩, .inr rfl, .inr rfl, "", rfl, .inr rfl⟩
  · next group artifact version =>
    exact ⟨⟨group, by simp, rfl⟩, ⟨artifact, by simp, rfl⟩, .inr rfl, .inr rfl, version, rfl,
      .inl rfl⟩
  · next group artifact extension version =>
    exact ⟨⟨group, by simp, rfl⟩, ⟨artifact, by simp, rfl⟩, .inl (by simp [RawField.textOrEmpty]),
      .inr rfl, version, rfl, .inl rfl⟩
  · next group artifact extension classifier version =>
    exact ⟨⟨group, by simp, rfl⟩, ⟨artifact, by simp, rfl⟩, .inl (by simp [RawField.textOrEmpty]),
      .inl (by simp [RawField.textOrEmpty]), version, rfl, .inl rfl⟩

theorem versionOfText_ne_empty (s : String) : versionOfText s ≠ "" := by
  unfold versionOfText
  split
  · decide
  · assumption

/-- A coordinate that is read has a version, and not an empty one. -/
theorem version_of_parse {text : String} {c : Coordinate} (h : parse text = .ok c) :
    ∃ v, c.version = some v ∧ v ≠ "" := by
  obtain ⟨f, hparts, hfields⟩ := parse_eq_ok_iff.1 h
  obtain ⟨-, -, -, -, hversion⟩ := ofFields_eq_ok_iff.1 hfields
  obtain ⟨s, hs, -⟩ := (selects_of_fieldsOfParts? hparts).version
  rw [hs] at hversion
  exact ⟨_, (Except.ok.inj hversion).symm, versionOfText_ne_empty s⟩

/-! ### What is read back -/

/-- No field holds a colon, and the version does not end in a blank. -/
structure IsPlain (c : Coordinate) : Prop where
  colons : ∀ s ∈ c.sortKey, ':' ∉ s.toList
  version : ∀ b ∈ (c.version.getD "").toList.getLast?, Text.isBlank b = false

/-- **Whatever is read is plain**: its fields come from between colons, and its version from the end
of a text without blanks around it. -/
theorem isPlain_of_parse {t : String} {c : Coordinate} (h : parse t = .ok c) : c.IsPlain := by
  obtain ⟨f, hparts, hfields⟩ := parse_eq_ok_iff.1 h
  obtain ⟨hgroup, hartifact, hextension, hclassifier, hversion⟩ := ofFields_eq_ok_iff.1 hfields
  have hselects := selects_of_fieldsOfParts? hparts
  -- stripping a field adds no colon
  have hstrip : ∀ s, s ∈ Text.split ':' (Text.strip t) ∨ s = "" → ':' ∉ (Text.strip s).toList := by
    rintro s (hs | rfl)
    · exact fun hcolon => Text.not_mem_of_mem_split hs (Text.mem_of_mem_strip hcolon)
    · decide
  obtain ⟨group, hmemgroup, hfgroup⟩ := hselects.group
  obtain ⟨artifact, hmemartifact, hfartifact⟩ := hselects.artifact
  obtain ⟨v, hfversion, hv⟩ := hselects.version
  rw [hfgroup, Part.ofField_text_eq_ok_iff] at hgroup
  rw [hfartifact, Part.ofField_text_eq_ok_iff] at hartifact
  rw [hfversion] at hversion
  have hversion : c.version.getD "" = versionOfText v := by rw [← Except.ok.inj hversion]; rfl
  constructor
  · -- each part is a field stripped or a default, and no field holds a colon
    intro s hs
    simp only [sortKey, List.mem_cons, List.not_mem_nil, or_false] at hs
    rcases hs with rfl | rfl | rfl | rfl | rfl
    · exact hgroup.2 ▸ hstrip group (.inl hmemgroup)
    · exact hartifact.2 ▸ hstrip artifact (.inl hmemartifact)
    · rw [← hextension, Extension.ofText]
      split
      · decide
      · exact hstrip _ hselects.extension
    · rw [← hclassifier]
      exact hstrip _ hselects.classifier
    · rw [hversion, versionOfText]
      split
      · decide
      · next hne =>
        have hlast := hv.resolve_right hne
        exact Text.not_mem_of_mem_split (List.mem_of_getLast? hlast)
  · -- the version is the last field, and the whole text is stripped
    rw [hversion, versionOfText]
    split
    · rintro b hb
      obtain rfl : 'M' = b := Option.some.inj hb
      rfl
    · next hne => exact Text.isBlank_of_mem_getLast?_split (hv.resolve_right hne)

namespace IsPlain

variable {c : Coordinate} (h : c.IsPlain)
include h

/-- The text of a plain coordinate has no blanks around it: it starts with the group, which has
none, and ends with the version, or with a colon. -/
theorem strip_toText : Text.strip c.toText = c.toText := by
  rw [← String.toList_inj, Text.strip, String.toList_ofList, toText, Text.join,
    String.toList_ofList, Text.stripChars_eq_self_iff]
  have hgroup : Text.stripChars c.group.text.toList = c.group.text.toList := by
    have hstrip := congrArg String.toList c.group.strip_text
    rwa [Text.strip, String.toList_ofList] at hstrip
  have hne : c.group.text.toList ≠ [] := fun he => c.group.ne_empty (String.toList_inj.1 he)
  -- the text starts where the group does
  constructor
  · intro b hb
    refine (Text.stripChars_eq_self_iff.1 hgroup).1 b ?_
    simp only [sortKey, List.map_cons, Text.joinChars] at hb
    rwa [List.head?_append_of_ne_nil _ hne] at hb
  · -- it ends where the version does, or with the last colon
    intro b hb
    simp only [sortKey, List.map_cons, List.map_nil, Text.joinChars, List.getLast?_append_cons,
      List.getLast?_cons] at hb
    cases hlast : (c.version.getD "").toList.getLast? with
    | none =>
      rw [hlast] at hb
      obtain rfl := Option.some.inj hb
      decide
    | some last =>
      rw [hlast] at hb
      exact h.version b (hlast.trans hb)

theorem split_toText : Text.split ':' (Text.strip c.toText) = c.sortKey := by
  rw [h.strip_toText]
  exact Text.split_join (List.cons_ne_nil _ _) h.colons

/-- **A plain coordinate is read back**; a version that is empty or missing is read as the reserved
one. -/
theorem parse_toText :
    parse c.toText = .ok (c.withVersion (some (versionOfText (c.version.getD "")))) := by
  refine parse_eq_ok_iff.2 ⟨_, congrArg fieldsOfParts? h.split_toText, ofFields_eq_ok_iff.2 ?_⟩
  refine ⟨Part.ofField_text _ c.group, Part.ofField_text _ c.artifact, ?_, ?_, rfl⟩
  · exact (Extension.ofText_getD_eq_iff (t := some c.extension.text) fun s hs =>
      Option.some.inj hs ▸ ⟨c.extension.strip_text, c.extension.ne_empty⟩).2 rfl
  · exact Classifier.ext c.classifier.strip_text

end IsPlain

/-- **Printing and parsing are inverse.** What is read from a text has a version, and not an empty
one, and is read back from its own text. A plain coordinate is read back from its text as it was if
it has such a version, and with the reserved one if its version is missing or empty. No coordinate
is read back that is not plain. -/
theorem parse_toText_inverse :
    (∀ t c, parse t = .ok c → (∃ v, c.version = some v ∧ v ≠ "") ∧ parse c.toText = .ok c) ∧
    ∀ c : Coordinate,
      (c.IsPlain →
        (∀ v, c.version = some v → v ≠ "" → parse c.toText = .ok c) ∧
        (c.version = none ∨ c.version = some "" →
          parse c.toText = .ok (c.withVersion (some systemVersion)))) ∧
      (parse c.toText = .ok c → c.IsPlain) := by
  have hback : ∀ (c : Coordinate) (v : String), c.IsPlain → c.version = some v → v ≠ "" →
      parse c.toText = .ok c := by
    intro c v hc hv hne
    rw [hc.parse_toText, hv, Option.getD_some, versionOfText, if_neg hne, ← hv, withVersion_self]
  refine ⟨fun t c h => ?_, fun c => ⟨fun hc => ⟨fun v => hback c v hc, fun hv => ?_⟩,
    isPlain_of_parse⟩⟩
  · -- what was read has a version, and is plain
    obtain ⟨v, hv, hne⟩ := version_of_parse h
    exact ⟨⟨v, hv, hne⟩, hback c v (isPlain_of_parse h) hv hne⟩
  · -- without a version, the one of the system is read
    rw [hc.parse_toText]
    rcases hv with hv | hv
    all_goals
      rw [hv]
      rfl

/-- A coordinate with a blank inside a field, and one before its version. -/
def spacedCoordinate : Coordinate :=
  ⟨.literal "spaced" rfl, .literal "a b" rfl, .ofText "war", .none, some " 1"⟩

/-- Blanks around other fields than the version are dropped when it is read, and what has no version
comes back with the reserved one. -/
theorem parse_toText_inverse_spacedCoordinate :
    parse " spaced: a b :war :\t1\n" = .ok (spacedCoordinate.withVersion (some "\t1")) ∧
    parse (spacedCoordinate.withVersion (some "\t1")).toText =
      .ok (spacedCoordinate.withVersion (some "\t1")) ∧
    spacedCoordinate.IsPlain ∧ spacedCoordinate.toText = "spaced:a b:war:: 1" ∧
    parse spacedCoordinate.toText = .ok spacedCoordinate ∧
    spacedCoordinate.withoutVersion.toText = "spaced:a b:war::" ∧
    parse spacedCoordinate.withoutVersion.toText =
      .ok (spacedCoordinate.withVersion (some systemVersion)) := by
  obtain ⟨hread, hplain⟩ := parse_toText_inverse
  have htext : parse " spaced: a b :war :\t1\n" = .ok (spacedCoordinate.withVersion (some "\t1")) :=
    eq_ok_of_toOption (by decide +kernel)
  have hspaced : spacedCoordinate.IsPlain :=
    ⟨by decide, fun b hb => (Option.some.inj hb : '1' = b) ▸ rfl⟩
  have hbare : spacedCoordinate.withoutVersion.IsPlain := ⟨by decide, nofun⟩
  exact ⟨htext, (hread _ _ htext).2, hspaced, by decide,
    ((hplain _).1 hspaced).1 " 1" rfl (by decide), by decide, ((hplain _).1 hbare).2 (.inl rfl)⟩

end Coordinate

end Depot
