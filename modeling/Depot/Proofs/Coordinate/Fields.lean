import Depot.Coordinate.Fields
import Depot.Proofs.Outcome
/-!
# When fields make a coordinate

A coordinate is built from its fields exactly if each of them is accepted on its own, and then its
parts are what the fields stand for (`Coordinate.ofFields_eq_ok_iff`).

Readers of documents hand over texts without blanks around them, and take a blank text for a missing
one (`Text.IsTrimmed`). Of such texts, groups and artifacts are taken as they are, and are refused
only where there is no text or one that is too long; what is missing otherwise is a default.
-/

namespace Depot

/-- The text is not blank and has no blanks around it. -/
structure Text.IsTrimmed (s : String) : Prop where
  strip : Text.strip s = s
  ne_empty : s ≠ ""

theorem Text.isTrimmed_strip {s : String} (h : Text.strip s ≠ "") : IsTrimmed (Text.strip s) :=
  ⟨strip_strip s, h⟩

theorem Checked.ap_eq_ok_iff {α β : Type} {f : Checked (α → β)} {x : Checked α} {b : β} :
    Checked.ap f x = .ok b ↔ ∃ g a, f = .ok g ∧ x = .ok a ∧ g a = b := by
  cases f <;> cases x <;> simp [Checked.ap]

/-! ### Parts, extensions and classifiers -/

namespace Part

variable {field : String} {p : Part}

/-- A closed text that is seen to be a name by computing. -/
def literal (s : String)
    (h : decide (Text.strip s = s ∧ s ≠ "" ∧ s.length ≤ maxLength) = true) : Part :=
  have hs := of_decide_eq_true h
  ⟨s, hs.1, hs.2.1, hs.2.2⟩

/-- A text is a name if it is not too long, and the name is what is left without blanks. -/
theorem ofField_text_eq_ok_iff {s : String} :
    ofField field (.text s) = .ok p ↔ s.length ≤ maxLength ∧ Text.strip s = p.text := by
  have hof : ofText? s = .ok p ↔ s.length ≤ maxLength ∧ Text.strip s = p.text := by
    unfold ofText?
    split
    · -- of an empty text nothing is left, and a name is not empty
      next hempty =>
      refine iff_of_false error_ne_ok fun h => p.ne_empty ?_
      rw [← h.2, String.length_eq_zero_iff.1 hempty]
      decide
    · split
      · next hlong => exact iff_of_false error_ne_ok fun h => Nat.not_lt.2 h.1 hlong
      · next hlong =>
        split
        · next hblank => exact iff_of_false error_ne_ok fun h => p.ne_empty (h.2 ▸ hblank)
        · rw [and_iff_right (Nat.le_of_not_lt hlong)]
          exact ⟨fun h => congrArg text (Except.ok.inj h), fun h => congrArg _ (Part.ext h)⟩
  rw [← hof, ofField]
  split
  · next part hpart => rw [hpart, Except.ok.injEq, Except.ok.injEq]
  · next kind hkind =>
    rw [hkind]
    exact iff_of_false error_ne_ok error_ne_ok

/-- A name passes the check on names as it is. -/
theorem ofField_text (field : String) (p : Part) : ofField field (.text p.text) = .ok p :=
  ofField_text_eq_ok_iff.2 ⟨p.length_le, p.strip_text⟩

/-- A text without blanks around it that may be missing is a name if it is there and not too
long. -/
theorem exists_ofField_getD_iff {t : Option String} (ht : ∀ s ∈ t, Text.IsTrimmed s) :
    (∃ p, ofField field (.text (t.getD "")) = .ok p) ↔ ∃ s, t = some s ∧ s.length ≤ maxLength := by
  constructor
  · rintro ⟨p, hp⟩
    obtain ⟨hlength, hstrip⟩ := ofField_text_eq_ok_iff.1 hp
    cases t with
    | none =>
      refine absurd ?_ p.ne_empty
      rw [← hstrip]
      decide
    | some s => exact ⟨s, rfl, hlength⟩
  · rintro ⟨s, rfl, hlength⟩
    have hs := ht s rfl
    exact ⟨⟨s, hs.strip, hs.ne_empty, hlength⟩, ofField_text_eq_ok_iff.2 ⟨hlength, hs.strip⟩⟩

/-- The name is then the text. -/
theorem ofField_getD_eq_ok_iff {t : Option String} (ht : ∀ s ∈ t, Text.IsTrimmed s) :
    ofField field (.text (t.getD "")) = .ok p ↔ t = some p.text := by
  constructor
  · intro hp
    obtain ⟨s, rfl, -⟩ := (exists_ofField_getD_iff ht).1 ⟨p, hp⟩
    rw [← (ofField_text_eq_ok_iff.1 hp).2]
    exact congrArg some (ht s rfl).strip.symm
  · rintro rfl
    exact ofField_text field p

end Part

/-- A text without blanks around it is an extension as it is, and a missing one is `jar`. -/
theorem Extension.text_ofText_getD {t : Option String} (ht : ∀ s ∈ t, Text.IsTrimmed s) :
    (ofText (t.getD "")).text = t.getD Extension.jar.text := by
  cases t with
  | none =>
    show (ofText "").text = _
    decide
  | some s =>
    have hs := ht s rfl
    show (ofText s).text = s
    rw [ofText, dif_neg (by rw [hs.strip]; exact hs.ne_empty)]
    exact hs.strip

theorem Extension.ofText_getD_eq_iff {t : Option String} (ht : ∀ s ∈ t, Text.IsTrimmed s)
    {e : Extension} : ofText (t.getD "") = e ↔ e.text = t.getD Extension.jar.text := by
  have htext := text_ofText_getD ht
  exact ⟨fun h => h ▸ htext, fun h => Extension.ext (htext.trans h.symm)⟩

/-- A text without blanks around it is a classifier as it is, and a missing one is empty. -/
theorem Classifier.text_ofText_getD {t : Option String} (ht : ∀ s ∈ t, Text.IsTrimmed s) :
    (ofText (t.getD "")).text = t.getD "" := by
  cases t with
  | none =>
    show (ofText "").text = _
    decide
  | some s =>
    show Text.strip s = s
    exact (ht s rfl).strip

theorem Classifier.ofText_getD_eq_iff {t : Option String} (ht : ∀ s ∈ t, Text.IsTrimmed s)
    {c : Classifier} : ofText (t.getD "") = c ↔ c.text = t.getD "" := by
  have htext := text_ofText_getD ht
  exact ⟨fun h => h ▸ htext, fun h => Classifier.ext (htext.trans h.symm)⟩

/-! ### Coordinates -/

/-- **Fields make a coordinate** exactly if each of them is accepted, and it is made of what they
stand for. -/
theorem Coordinate.ofFields_eq_ok_iff {f : CoordinateFields} {c : Coordinate} :
    ofFields f = .ok c ↔ Part.ofField "group_id" f.group = .ok c.group ∧
      Part.ofField "artifact_id" f.artifact = .ok c.artifact ∧
      Extension.ofText f.extension.textOrEmpty = c.extension ∧
      Classifier.ofText f.classifier.textOrEmpty = c.classifier ∧
      versionOfField f.version = .ok c.version := by
  obtain ⟨group, artifact, extension, classifier, version⟩ := c
  constructor
  · intro h
    -- the checks are applied one to the other, so the last field comes off first
    obtain ⟨_, v, hbuilt, hversion, hc⟩ := Checked.ap_eq_ok_iff.1 h
    obtain ⟨_, a, hbuild, hartifact, rfl⟩ := Checked.ap_eq_ok_iff.1 hbuilt
    cases hgroup : Part.ofField "group_id" f.group with
    | error issues =>
      rw [hgroup] at hbuild
      cases hbuild
    | ok g =>
      rw [hgroup] at hbuild
      cases hbuild
      cases hc
      exact ⟨rfl, hartifact, rfl, rfl, hversion⟩
  · rintro ⟨hgroup, hartifact, rfl, rfl, hversion⟩
    simp only [ofFields, hgroup, hartifact, hversion]
    rfl

end Depot
