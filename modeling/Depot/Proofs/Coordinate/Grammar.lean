import Depot.Proofs.Coordinate.Written
/-!
# Which texts are coordinates

The text of a coordinate has from two to five fields between colons, and the first two of them are
names (`Coordinate.IsShaped`). Group and artifact always come first and the version last, so what
the fields in between are depends on how many there are (`Coordinate.StandFor`). A text is read
exactly if its fields have this shape, as the coordinate for which they stand, and otherwise the
error tells which of the two things it lacks (`parse_accepts_shaped`).

There is another way to read the short forms. A text with one colon leaves out a second one, and a
text that ends in a colon leaves out the reserved version. When both are filled in
(`Coordinate.completed`), and the text is cut only then, a coordinate has at least three fields, and
the last of them is its version. Cutting comes after filling in, so a colon that is added may be the
one at the end. `parse_eq_parseCompleted` says that this makes no difference.
-/

namespace Depot

/-! ### Names -/

namespace Part

variable {field s : String}

/-- The text may stand for a group or an artifact: with the blanks around it, it is not too long,
and it is more than blanks. -/
structure Accepts (s : String) : Prop where
  length_le : s.length ≤ 200
  not_blank : Text.isAllBlank s = false

/-- What is wrong with a text that is to stand for a group or an artifact. -/
def faults (field s : String) : List Issue :=
  if s = "" then [⟨[field], .tooShort⟩]
  else if 200 < s.length then [⟨[field], .tooLong⟩]
  else if Text.isAllBlank s then [⟨[field], .blank⟩]
  else []

/-- Nothing is wrong with a text exactly if it may stand for a name. -/
theorem faults_eq_nil_iff : faults field s = [] ↔ Accepts s := by
  unfold faults
  -- the checks in their order: empty, too long, blank
  split
  · next hempty =>
    subst hempty
    refine iff_of_false (List.cons_ne_nil _ _) fun h => ?_
    exact absurd h.not_blank (by decide)
  · split
    · next hlong =>
      exact iff_of_false (List.cons_ne_nil _ _) fun h => Nat.not_le.2 hlong h.length_le
    · next hshort =>
      split
      · next hblank =>
        refine iff_of_false (List.cons_ne_nil _ _) fun h => ?_
        exact Bool.false_ne_true (h.not_blank.symm.trans hblank)
      · next hblank =>
        exact iff_of_true rfl ⟨Nat.not_lt.1 hshort, Bool.eq_false_iff.2 hblank⟩

/-- The check on names passes a text exactly if nothing is wrong with it, and else reports that. -/
theorem ofField_text_cases (field s : String) :
    (∃ p, ofField field (.text s) = .ok p ∧ faults field s = []) ∨
      (ofField field (.text s) = .error (faults field s) ∧ faults field s ≠ []) := by
  have hrefused : ∀ {kind}, ofText? s = .error kind →
      ofField field (.text s) = .error [⟨[field], kind⟩] := by
    intro kind h
    simp only [ofField, h]
    rfl
  -- the checks in their order: empty, too long, blank; what passes them all is kept stripped
  by_cases hempty : s = ""
  · have hfaults : faults field s = [⟨[field], .tooShort⟩] := if_pos hempty
    rw [hfaults]
    exact .inr ⟨hrefused (if_pos (String.length_eq_zero_iff.2 hempty)), List.cons_ne_nil _ _⟩
  · have hlength : s.length ≠ 0 := fun h => hempty (String.length_eq_zero_iff.1 h)
    by_cases hlong : maxLength < s.length
    · have hfaults : faults field s = [⟨[field], .tooLong⟩] :=
        (if_neg hempty).trans (if_pos hlong)
      rw [hfaults]
      refine .inr ⟨hrefused ?_, List.cons_ne_nil _ _⟩
      rw [ofText?, if_neg hlength, dif_pos hlong]
    · by_cases hblank : Text.strip s = ""
      · have hfaults : faults field s = [⟨[field], .blank⟩] :=
          (if_neg hempty).trans ((if_neg hlong).trans
            (if_pos ((Text.strip_eq_empty_iff s).1 hblank)))
        rw [hfaults]
        refine .inr ⟨hrefused ?_, List.cons_ne_nil _ _⟩
        rw [ofText?, if_neg hlength, dif_neg hlong, dif_pos hblank]
      · -- a text that passes them all is the part, stripped, and there is no fault to report
        refine .inl ⟨⟨Text.strip s, Text.strip_strip s, hblank, ?_⟩, ?_, ?_⟩
        · exact Nat.le_trans (Text.length_strip_le s) (Nat.not_lt.1 hlong)
        · exact ofField_text_eq_ok_iff.2 ⟨Nat.not_lt.1 hlong, rfl⟩
        · refine faults_eq_nil_iff.2 ⟨Nat.not_lt.1 hlong, Bool.eq_false_iff.2 fun h => ?_⟩
          exact hblank ((Text.strip_eq_empty_iff s).2 h)

end Part

namespace Coordinate

/-! ### Shapes -/

/-- The fields of a text: what stands between its colons, without the blanks around the text. -/
def textFields (t : String) : List String := Text.split ':' (Text.strip t)

/-- The fields have the shape of a coordinate. -/
structure IsShaped (fields : List String) : Prop where
  two_le : 2 ≤ fields.length
  le_five : fields.length ≤ 5
  names : ∀ s ∈ fields.take 2, Part.Accepts s

/-- The coordinate is the one for which the fields stand. With a version they are at least three;
an extension comes before the version and after the artifact, and a classifier before the version
and after the extension. -/
structure StandFor (fields : List String) (c : Coordinate) : Prop where
  group : c.group.text = Text.strip (fields.getD 0 "")
  artifact : c.artifact.text = Text.strip (fields.getD 1 "")
  extension : c.extension.text =
    if 4 ≤ fields.length ∧ Text.isAllBlank (fields.getD 2 "") = false then
      Text.strip (fields.getD 2 "")
    else "jar"
  classifier : c.classifier.text =
    if fields.length = 5 then Text.strip (fields.getD 3 "") else ""
  version : c.version = some
    (if fields.length = 2 ∨ fields.getLastD "" = "" then "SYSTEM" else fields.getLastD "")

/-- Fields stand for one coordinate at most. -/
theorem StandFor.unique {fields : List String} {c c' : Coordinate} (h : StandFor fields c)
    (h' : StandFor fields c') : c = c' := by
  have hgroup : c.group = c'.group := Part.ext (h.group.trans h'.group.symm)
  have hartifact : c.artifact = c'.artifact := Part.ext (h.artifact.trans h'.artifact.symm)
  have hextension : c.extension = c'.extension :=
    Extension.ext (h.extension.trans h'.extension.symm)
  have hclassifier : c.classifier = c'.classifier :=
    Classifier.ext (h.classifier.trans h'.classifier.symm)
  have hversion : c.version = c'.version := h.version.trans h'.version.symm
  calc c = ⟨c.group, c.artifact, c.extension, c.classifier, c.version⟩ := rfl
    _ = c' := by rw [hgroup, hartifact, hextension, hclassifier, hversion]

/-- What is wrong with the names among the fields. -/
def nameFaults (fields : List String) : List Issue :=
  Part.faults "group_id" (fields.getD 0 "") ++ Part.faults "artifact_id" (fields.getD 1 "")

/-- The fields are handed on if there are from two to five of them, the first two and the last as
they are, and those between them if there are enough. -/
theorem fieldsOfParts?_cases (parts : List String) :
    (¬ (2 ≤ parts.length ∧ parts.length ≤ 5) ∧ fieldsOfParts? parts = none) ∨
    ((2 ≤ parts.length ∧ parts.length ≤ 5) ∧ ∃ f, fieldsOfParts? parts = some f ∧
      f.group = .text (parts.getD 0 "") ∧ f.artifact = .text (parts.getD 1 "") ∧
      f.extension.textOrEmpty = (if 4 ≤ parts.length then parts.getD 2 "" else "") ∧
      f.classifier.textOrEmpty = (if parts.length = 5 then parts.getD 3 "" else "") ∧
      f.version = .text (if parts.length = 2 ∨ parts.getLastD "" = "" then systemVersion
        else parts.getLastD "")) := by
  -- one case for each number of parts from none to six and more
  match parts with
  | [] => exact .inl ⟨by simp, rfl⟩
  | [_] => exact .inl ⟨by simp, rfl⟩
  | [_, _] => exact .inr ⟨by simp, _, rfl, rfl, rfl, rfl, rfl, rfl⟩
  | [_, _, version] =>
    refine .inr ⟨by simp, _, rfl, rfl, rfl, rfl, rfl, ?_⟩
    simp [versionOfText]
  | [_, _, _, version] =>
    refine .inr ⟨by simp, _, rfl, rfl, rfl, rfl, rfl, ?_⟩
    simp [versionOfText]
  | [_, _, _, _, version] =>
    refine .inr ⟨by simp, _, rfl, rfl, rfl, rfl, rfl, ?_⟩
    simp [versionOfText]
  | _ :: _ :: _ :: _ :: _ :: _ :: _ => exact .inl ⟨by simp, rfl⟩

/-- Fields have the shape of a coordinate exactly if there are from two to five of them and nothing
is wrong with the names. -/
theorem isShaped_iff {fields : List String} :
    IsShaped fields ↔ (2 ≤ fields.length ∧ fields.length ≤ 5) ∧ nameFaults fields = [] := by
  -- with two fields or more the names are the first two
  have hnames : 2 ≤ fields.length → ((∀ s ∈ fields.take 2, Part.Accepts s) ↔
      Part.Accepts (fields.getD 0 "") ∧ Part.Accepts (fields.getD 1 "")) := by
    intro h
    obtain ⟨group, rest, rfl⟩ := List.exists_cons_of_length_pos (Nat.lt_of_lt_of_le Nat.two_pos h)
    obtain ⟨artifact, rest, rfl⟩ := List.exists_cons_of_length_pos (Nat.le_of_succ_le_succ h)
    simp
  rw [nameFaults, List.append_eq_nil_iff, Part.faults_eq_nil_iff, Part.faults_eq_nil_iff]
  constructor
  · intro h
    exact ⟨⟨h.two_le, h.le_five⟩, (hnames h.two_le).1 h.names⟩
  · rintro ⟨⟨htwo, hfive⟩, h⟩
    exact ⟨htwo, hfive, (hnames htwo).2 h⟩

/-! ### What is read -/

variable {f : CoordinateFields} {g a v : String}

/-- Fields with texts for the names and for the version make a coordinate exactly if nothing is
wrong with the names, and otherwise the issues are what is. -/
theorem ofFields_text_cases (hgroup : f.group = .text g) (hartifact : f.artifact = .text a)
    (hversion : f.version = .text v) :
    (Part.faults "group_id" g ++ Part.faults "artifact_id" a = [] ∧ ∃ c, ofFields f = .ok c ∧
      c.group.text = Text.strip g ∧ c.artifact.text = Text.strip a ∧
      c.extension = .ofText f.extension.textOrEmpty ∧
      c.classifier = .ofText f.classifier.textOrEmpty ∧ c.version = some v) ∨
    (Part.faults "group_id" g ++ Part.faults "artifact_id" a ≠ [] ∧
      ofFields f = .error (Part.faults "group_id" g ++ Part.faults "artifact_id" a)) := by
  -- the version is never at fault, so the names decide
  rcases Part.ofField_text_cases "group_id" g with ⟨p, hp, hg⟩ | ⟨hp, hg⟩ <;>
    rcases Part.ofField_text_cases "artifact_id" a with ⟨q, hq, ha⟩ | ⟨hq, ha⟩
  · have hfields : ofFields f = .ok ⟨p, q, .ofText f.extension.textOrEmpty,
        .ofText f.classifier.textOrEmpty, some v⟩ := by
      rw [ofFields_eq_ok_iff, hgroup, hartifact, hversion]
      exact ⟨hp, hq, rfl, rfl, rfl⟩
    refine .inl ⟨by rw [hg, ha]; rfl, _, hfields, ?_, ?_, rfl, rfl, rfl⟩
    · exact (Part.ofField_text_eq_ok_iff.1 hp).2.symm
    · exact (Part.ofField_text_eq_ok_iff.1 hq).2.symm
  · refine .inr ⟨List.append_ne_nil_of_right_ne_nil _ ha, ?_⟩
    rw [hg]
    simp only [ofFields, hgroup, hartifact, hversion, hp, hq]
    rfl
  · refine .inr ⟨List.append_ne_nil_of_left_ne_nil hg _, ?_⟩
    rw [ha, List.append_nil]
    simp only [ofFields, hgroup, hartifact, hversion, hp, hq]
    rfl
  · refine .inr ⟨List.append_ne_nil_of_left_ne_nil hg _, ?_⟩
    simp only [ofFields, hgroup, hartifact, hversion, hp, hq]
    rfl

/-- A text stands for itself as an extension, without the blanks around it, unless it is blank. -/
theorem text_ofText_extension (s : String) : (Extension.ofText s).text =
    if Text.isAllBlank s = false then Text.strip s else "jar" := by
  have hblank : Text.strip s = "" ↔ Text.isAllBlank s = true := Text.strip_eq_empty_iff s
  unfold Extension.ofText
  by_cases h : Text.strip s = ""
  · rw [dif_pos h, if_neg (Bool.not_eq_false _ ▸ hblank.1 h)]
    rfl
  · rw [dif_neg h, if_pos (Bool.eq_false_iff.2 fun hall => h (hblank.2 hall))]

/-- What becomes of the fields of a text, by their number and by what is wrong with the names. -/
theorem parse_cases (t : String) :
    (¬ (2 ≤ (textFields t).length ∧ (textFields t).length ≤ 5) ∧ parse t = .error (.shape t)) ∨
    ((2 ≤ (textFields t).length ∧ (textFields t).length ≤ 5) ∧
      ((nameFaults (textFields t) = [] ∧ ∃ c, parse t = .ok c ∧ StandFor (textFields t) c) ∨
        (nameFaults (textFields t) ≠ [] ∧
          parse t = .error (.fields (nameFaults (textFields t)))))) := by
  rcases fieldsOfParts?_cases (textFields t) with ⟨hcount, hparts⟩ |
    ⟨hcount, f, hparts, hgroup, hartifact, hextension, hclassifier, hversion⟩
  · -- a wrong number of fields is a wrong shape, whatever the fields hold
    refine .inl ⟨hcount, ?_⟩
    unfold parse
    rw [show fieldsOfParts? (Text.split ':' (Text.strip t)) = none from hparts]
  · have hparse : parse t = (ofFields f).mapError .fields := by
      unfold parse
      rw [show fieldsOfParts? (Text.split ':' (Text.strip t)) = some f from hparts]
    rw [hparse]
    refine .inr ⟨hcount, ?_⟩
    rcases ofFields_text_cases hgroup hartifact hversion with
      ⟨hnone, c, hread, hg, ha, he, hc, hv⟩ | ⟨hsome, hread⟩
    · -- accepted: the shapes that leave out extension or classifier give them as empty
      rw [hread]
      refine .inl ⟨hnone, c, rfl, hg, ha, ?_, ?_, hv⟩
      · rw [he, hextension]
        by_cases hfour : 4 ≤ (textFields t).length
        · rw [if_pos hfour, text_ofText_extension]
          simp only [hfour, true_and]
        · rw [if_neg hfour, if_neg fun h => hfour h.1]
          rfl
      · rw [hc, hclassifier]
        split
        · rfl
        · decide
    · -- the number is right, so the faults are those of the names
      rw [hread]
      exact .inr ⟨hsome, rfl⟩

/-! ### Short forms -/

/-- The text with what the short forms leave out: a second colon where there is one only, and the
reserved version after a colon at the end. -/
def completed (s : String) : String :=
  let s := if s.toList.count ':' = 1 then s ++ ":" else s
  if s.toList.getLast? = some ':' then s ++ systemVersion else s

/-- The fields of a coordinate from those of a text from which nothing is left out. -/
def fieldsOfCompleted? (parts : List String) : Option CoordinateFields :=
  if parts.length < 3 ∨ 5 < parts.length then none
  else some {
    group := .text (parts.getD 0 "")
    artifact := .text (parts.getD 1 "")
    extension := .text (if 4 ≤ parts.length then parts.getD 2 "" else "jar")
    classifier := .text (if parts.length = 5 then parts.getD 3 "" else "")
    version := if parts.getLastD "" = "" then .null else .text (parts.getLastD "") }

/-- Reads a coordinate from a text after what is left out of it is filled in. -/
def parseCompleted (text : String) : Except ParseError Coordinate :=
  match fieldsOfCompleted? (Text.split ':' (completed (Text.strip text))) with
  | none => .error (.shape text)
  | some fields => (ofFields fields).mapError .fields

/-- What filling in does to the fields. -/
def completedFields (fields : List String) : List String :=
  let fields := if fields.length = 2 then fields ++ [""] else fields
  if 2 ≤ fields.length ∧ fields.getLast? = some "" then fields.dropLast ++ [systemVersion]
  else fields

theorem length_split (s : String) : (Text.split ':' s).length = s.toList.count ':' + 1 := by
  rw [Text.split, List.length_map, Text.length_splitChars]

/-- What is before and after a colon is cut on its own. -/
theorem split_append_colon (front back : String) :
    Text.split ':' (front ++ (":" ++ back)) = Text.split ':' front ++ Text.split ':' back := by
  have hchars : (front ++ (":" ++ back)).toList = front.toList ++ ':' :: back.toList := by simp
  rw [Text.split, hchars, Text.splitChars_append_separator, List.map_append]
  rfl

/-- A text ends in a colon exactly if there is something to cut and the last field is empty. -/
theorem ends_in_colon_iff (s : String) :
    2 ≤ (Text.split ':' s).length ∧ (Text.split ':' s).getLast? = some "" ↔
      ∃ front, s = front ++ ":" := by
  constructor
  · rintro ⟨htwo, hlast⟩
    rw [Text.split, List.length_map] at htwo
    rw [Text.split, List.getLast?_map, Option.map_eq_some_iff] at hlast
    obtain ⟨field, hfield, hempty⟩ := hlast
    obtain rfl : field = [] := by simpa using congrArg String.toList hempty
    obtain ⟨fields, hfields⟩ := List.getLast?_eq_some_iff.1 hfield
    have hne : fields ≠ [] := by
      rintro rfl
      rw [hfields] at htwo
      exact absurd htwo (by decide)
    -- joined again, the fields before the last one are what stands before the colon
    refine ⟨String.ofList (Text.joinChars ':' fields), String.toList_inj.1 ?_⟩
    calc s.toList = Text.joinChars ':' (Text.splitChars ':' s.toList) :=
          (Text.joinChars_splitChars ':' s.toList).symm
      _ = Text.joinChars ':' fields ++ [':'] := by rw [hfields, Text.joinChars_concat hne]
      _ = (String.ofList (Text.joinChars ':' fields) ++ ":").toList := by simp
  · rintro ⟨front, rfl⟩
    have hcut : Text.split ':' (front ++ ":") = Text.split ':' front ++ [""] :=
      split_append_colon front ""
    rw [hcut, List.length_append, length_split]
    exact ⟨by simp, by simp⟩

/-- **Filling in before cutting is filling in after it.** -/
theorem split_completed (s : String) :
    Text.split ':' (completed s) = completedFields (Text.split ':' s) := by
  -- first the colon, of which there is one exactly if there are two fields
  have hcolon : ∀ s : String, Text.split ':' (if s.toList.count ':' = 1 then s ++ ":" else s) =
      if (Text.split ':' s).length = 2 then Text.split ':' s ++ [""] else Text.split ':' s := by
    intro s
    rw [length_split]
    by_cases hone : s.toList.count ':' = 1
    · rw [if_pos hone, if_pos (congrArg (· + 1) hone)]
      exact split_append_colon s ""
    · rw [if_neg hone, if_neg fun h => hone (Nat.succ.inj h)]
  -- then the version, after a colon that was there or is so now
  have hversion : ∀ s : String,
      Text.split ':' (if s.toList.getLast? = some ':' then s ++ systemVersion else s) =
      if 2 ≤ (Text.split ':' s).length ∧ (Text.split ':' s).getLast? = some "" then
        (Text.split ':' s).dropLast ++ [systemVersion]
      else Text.split ':' s := by
    intro s
    by_cases hends : ∃ front, s = front ++ ":"
    · rw [if_pos ((ends_in_colon_iff s).2 hends)]
      obtain ⟨front, rfl⟩ := hends
      have hlast : (front ++ ":").toList.getLast? = some ':' := by simp
      have hcut : Text.split ':' (front ++ ":") = Text.split ':' front ++ [""] :=
        split_append_colon front ""
      rw [if_pos hlast, String.append_assoc, split_append_colon, hcut, List.dropLast_concat]
      rfl
    · rw [if_neg fun h => hends ((ends_in_colon_iff s).1 h), if_neg fun hlast => hends ?_]
      obtain ⟨front, hfront⟩ := List.getLast?_eq_some_iff.1 hlast
      refine ⟨String.ofList front, String.toList_inj.1 ?_⟩
      simp [hfront]
  unfold completed completedFields
  rw [hversion, hcolon]

/-- An extension or a classifier counts only as what its text stands for. -/
theorem ofFields_congr {f f' : CoordinateFields} (hgroup : f.group = f'.group)
    (hartifact : f.artifact = f'.artifact)
    (hextension : Extension.ofText f.extension.textOrEmpty =
      Extension.ofText f'.extension.textOrEmpty)
    (hclassifier : f.classifier.textOrEmpty = f'.classifier.textOrEmpty)
    (hversion : f.version = f'.version) : ofFields f = ofFields f' := by
  unfold ofFields
  rw [hgroup, hartifact, hextension, hclassifier, hversion]

/-- Fields that are filled in after cutting make the same as those that are not. -/
theorem fieldsOfCompleted?_cases (parts : List String) :
    (fieldsOfParts? parts = none ∧ fieldsOfCompleted? (completedFields parts) = none) ∨
    ∃ f f', fieldsOfParts? parts = some f ∧
      fieldsOfCompleted? (completedFields parts) = some f' ∧ ofFields f = ofFields f' := by
  have hjar : Extension.ofText "" = Extension.ofText "jar" := by decide
  -- with three fields or more, only an empty version is filled in
  have hlast : ∀ (front : List String) (version : String), 2 ≤ front.length →
      completedFields (front ++ [version]) = front ++ [versionOfText version] := by
    intro front version hfront
    have hlength : (front ++ [version]).length ≠ 2 := by simp; omega
    have htwo : 2 ≤ (front ++ [version]).length := by simp; omega
    unfold completedFields versionOfText
    simp only [if_neg hlength, htwo, true_and, List.getLast?_concat, Option.some.injEq,
      List.dropLast_concat]
    split <;> rfl
  match parts with
  | [] => exact .inl ⟨rfl, rfl⟩
  | [_] => exact .inl ⟨rfl, rfl⟩
  | [group, artifact] =>
    exact .inr ⟨_, _, rfl, rfl, ofFields_congr rfl rfl hjar rfl rfl⟩
  | [group, artifact, version] =>
    have hfields := hlast [group, artifact] version (by simp)
    refine .inr ⟨_, _, rfl, congrArg fieldsOfCompleted? hfields, ?_⟩
    exact ofFields_congr rfl rfl hjar rfl (if_neg (versionOfText_ne_empty version)).symm
  | [group, artifact, extension, version] =>
    have hfields := hlast [group, artifact, extension] version (by simp)
    refine .inr ⟨_, _, rfl, congrArg fieldsOfCompleted? hfields, ?_⟩
    exact ofFields_congr rfl rfl rfl rfl (if_neg (versionOfText_ne_empty version)).symm
  | [group, artifact, extension, classifier, version] =>
    have hfields := hlast [group, artifact, extension, classifier] version (by simp)
    refine .inr ⟨_, _, rfl, congrArg fieldsOfCompleted? hfields, ?_⟩
    exact ofFields_congr rfl rfl rfl rfl (if_neg (versionOfText_ne_empty version)).symm
  | a :: b :: c :: d :: e :: f :: rest =>
    -- nothing is added to more than five fields, and they are as many as before
    have hlength : (completedFields (a :: b :: c :: d :: e :: f :: rest)).length =
        rest.length + 6 := by
      unfold completedFields
      simp only [List.length_cons, Nat.reduceEqDiff, if_false]
      split
      · simp
      · simp
    exact .inl ⟨rfl, if_pos (.inr (by omega))⟩

/-- **Both readings are one.** -/
theorem parse_eq_parseCompleted (t : String) : parse t = parseCompleted t := by
  unfold parse parseCompleted
  rw [split_completed]
  rcases fieldsOfCompleted?_cases (Text.split ':' (Text.strip t)) with
    ⟨hnone, hnone'⟩ | ⟨f, f', hsome, hsome', hsame⟩
  · rw [hnone, hnone']
  · rw [hsome, hsome']
    exact congrArg (Except.mapError ParseError.fields) hsame

/-- **Which texts are coordinates.** A text is read as a coordinate exactly if it has from two to
five fields, of which the first two are names, and as the one for which its fields stand. Otherwise
the error says that it has another number of fields, or else what is wrong with the names. It makes
no difference whether what the short forms leave out is filled in before the text is cut. -/
theorem parse_accepts_shaped (t : String) :
    ((∃ c, parse t = .ok c) ↔ IsShaped (textFields t)) ∧
    (∀ c, parse t = .ok c ↔ IsShaped (textFields t) ∧ StandFor (textFields t) c) ∧
    (∀ e, parse t = .error e ↔
      ¬ (2 ≤ (textFields t).length ∧ (textFields t).length ≤ 5) ∧ e = .shape t ∨
      (2 ≤ (textFields t).length ∧ (textFields t).length ≤ 5) ∧
        nameFaults (textFields t) ≠ [] ∧ e = .fields (nameFaults (textFields t))) ∧
    parse t = parseCompleted t := by
  rcases parse_cases t with ⟨hcount, hread⟩ | ⟨hcount, ⟨hnone, c, hread, hc⟩ | ⟨hsome, hread⟩⟩
  · -- the number of fields is wrong: the shape is the error
    have hshape : ¬ IsShaped (textFields t) := fun h => hcount (isShaped_iff.1 h).1
    refine ⟨?_, fun c => ?_, fun e => ?_, parse_eq_parseCompleted t⟩
    · exact iff_of_false (fun ⟨c, h⟩ => nomatch hread.symm.trans h) hshape
    · exact iff_of_false (fun h => nomatch hread.symm.trans h) fun h => hshape h.1
    · rw [hread, Except.error.injEq]
      constructor
      · intro h
        exact .inl ⟨hcount, h.symm⟩
      · rintro (⟨-, h⟩ | ⟨h, -⟩)
        · exact h.symm
        · exact absurd h hcount
  · -- the number is right and the names are well formed: `c` is read
    have hshape : IsShaped (textFields t) := isShaped_iff.2 ⟨hcount, hnone⟩
    refine ⟨iff_of_true ⟨c, hread⟩ hshape, fun c' => ?_, fun e => ?_, parse_eq_parseCompleted t⟩
    · rw [hread, Except.ok.injEq]
      constructor
      · rintro rfl
        exact ⟨hshape, hc⟩
      · intro h
        exact hc.unique h.2
    · refine iff_of_false (fun h => nomatch hread.symm.trans h) ?_
      rintro (⟨h, -⟩ | ⟨-, h, -⟩)
      · exact h hcount
      · exact h hnone
  · -- the number is right and a name is not well formed: the faults of the names are the error
    have hshape : ¬ IsShaped (textFields t) := fun h => hsome (isShaped_iff.1 h).2
    refine ⟨?_, fun c => ?_, fun e => ?_, parse_eq_parseCompleted t⟩
    · exact iff_of_false (fun ⟨c, h⟩ => nomatch hread.symm.trans h) hshape
    · exact iff_of_false (fun h => nomatch hread.symm.trans h) fun h => hshape h.1
    · rw [hread, Except.error.injEq]
      constructor
      · intro h
        exact .inr ⟨hcount, hsome, h.symm⟩
      · rintro (⟨h, -⟩ | ⟨-, -, h⟩)
        · exact absurd hcount h
        · exact h.symm

end Coordinate

end Depot
