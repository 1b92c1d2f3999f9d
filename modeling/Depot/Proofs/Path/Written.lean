import Depot.Path
/-!
# Paths and what is written for them

Paths are passed on as texts: what is found is reported by the text of its path, and who is told the
text reads a path from it again. That is the same path, where its names are such as a path is read
with (`Path.IsClean`): none is empty or a point, and none holds a slash. Every path that is read
has such names, and so has what such paths are joined to (`isClean_follow`), so reading what was
written gives back the path (`ofText_toText`).
-/

namespace Depot

namespace Text

variable {separator : Char}

/-- No field holds a separator. -/
theorem not_mem_of_mem_splitChars {cs field : List Char} (h : field ∈ splitChars separator cs) :
    separator ∉ field := by
  induction cs generalizing field with
  | nil =>
    rw [List.mem_singleton.1 h]
    exact List.not_mem_nil
  | cons c cs ih =>
    rw [splitChars] at h
    split at h
    · rcases List.mem_cons.1 h with rfl | h
      · exact List.not_mem_nil
      · exact ih h
    · next hc =>
      cases hs : splitChars separator cs with
      | nil => exact absurd hs (splitChars_ne_nil separator cs)
      | cons first rest =>
        rw [hs] at h ih
        rcases List.mem_cons.1 h with rfl | h
        · -- the character goes to the first field, and is no separator
          intro hmem
          rcases List.mem_cons.1 hmem with rfl | hmem
          · exact hc rfl
          · exact ih List.mem_cons_self hmem
        · exact ih (List.mem_cons_of_mem first h)

/-- Fields without separators are got back from the text in which they are joined. -/
theorem splitChars_joinChars {fields : List (List Char)} (hne : fields ≠ [])
    (h : ∀ field ∈ fields, separator ∉ field) :
    splitChars separator (joinChars separator fields) = fields := by
  induction fields with
  | nil => exact absurd rfl hne
  | cons field fields ih =>
    have hfield := h field List.mem_cons_self
    cases fields with
    | nil => exact splitChars_of_not_mem hfield
    | cons next rest =>
      rw [joinChars, splitChars_append_cons hfield,
        ih (List.cons_ne_nil next rest) fun other hother => h other (List.mem_cons_of_mem _ hother)]
      exact List.cons_ne_nil next rest

/-- The same for texts. -/
theorem split_join {fields : List String} (hne : fields ≠ [])
    (h : ∀ field ∈ fields, separator ∉ field.toList) :
    split separator (join separator fields) = fields := by
  have hchars : ∀ chars ∈ fields.map String.toList, separator ∉ chars := by
    intro chars hmem
    obtain ⟨field, hfield, rfl⟩ := List.mem_map.1 hmem
    exact h field hfield
  unfold split join
  rw [String.toList_ofList, splitChars_joinChars (by simpa using hne) hchars, List.map_map]
  simp

end Text

namespace Path

/-- The name may stand in a path that was read. -/
def IsName (name : String) : Prop := isKept name = true ∧ '/' ∉ name.toList

/-- All names of the path are such as a path is read with. -/
def IsClean (p : Path) : Prop := ∀ name ∈ p.names, IsName name

theorem isClean_ofText (s : String) : (ofText s).IsClean := by
  intro name hname
  obtain ⟨hmem, hkept⟩ := List.mem_filter.1 hname
  obtain ⟨field, hfield, rfl⟩ := List.mem_map.1 hmem
  refine ⟨hkept, ?_⟩
  rw [String.toList_ofList]
  exact Text.not_mem_of_mem_splitChars hfield

theorem IsClean.join {p q : Path} (hp : p.IsClean) (hq : q.IsClean) : (p.join q).IsClean := by
  unfold Path.join
  split
  · exact hq
  · intro name hname
    rcases List.mem_append.1 hname with hname | hname
    · exact hp name hname
    · exact hq name hname

theorem IsClean.follow {p : Path} (hp : p.IsClean) (s : String) : (p.follow s).IsClean :=
  hp.join (isClean_ofText s)

/-- What follows a start leaves it as it is, unless it starts with a slash. -/
theorem startOf_text_append (start : Start) {cs : List Char} (h : cs.head? ≠ some '/') :
    startOf (start.text.toList ++ cs) = start := by
  cases cs with
  | nil => cases start <;> rfl
  | cons c cs =>
    have hc : c ≠ '/' := fun he => h (congrArg some he)
    cases start <;> simp [startOf, Start.text, hc]

/-- The slashes of a start are no names. -/
theorem filter_split_text_append (start : Start) (s : String) :
    (Text.split '/' (start.text ++ s)).filter isKept = (Text.split '/' s).filter isKept := by
  have hslash : ∀ cs, ((Text.splitChars '/' ('/' :: cs)).map String.ofList).filter isKept =
      ((Text.splitChars '/' cs).map String.ofList).filter isKept := fun cs => rfl
  unfold Text.split
  rw [String.toList_append]
  cases start with
  | relative => rfl
  | root => exact hslash _
  | doubleRoot => exact (hslash _).trans (hslash _)

/-- The text in which names are joined starts with no slash. -/
theorem head?_join_ne {names : List String} (h : ∀ name ∈ names, IsName name) :
    (Text.join '/' names).toList.head? ≠ some '/' := by
  unfold Text.join
  rw [String.toList_ofList]
  cases names with
  | nil => exact fun h => nomatch h
  | cons name names =>
    obtain ⟨hkept, hslash⟩ := h name List.mem_cons_self
    cases hchars : name.toList with
    | nil =>
      -- an empty name would not have been kept
      rw [String.toList_eq_nil_iff.1 hchars] at hkept
      cases hkept
    | cons c cs =>
      have hc : c ≠ '/' := fun he => hslash (by rw [hchars, he]; exact List.mem_cons_self)
      have hhead : (Text.joinChars '/' ((name :: names).map String.toList)).head? = some c := by
        cases names with
        | nil => simp [Text.joinChars, hchars]
        | cons next rest => simp [Text.joinChars, hchars]
      rw [hhead]
      exact fun he => hc (Option.some.inj he)

/-- **Reading what was written.** A path is read from its text. -/
theorem ofText_toText {p : Path} (h : p.IsClean) : ofText p.toText = p := by
  obtain ⟨start, names⟩ := p
  unfold toText
  split
  · next hempty =>
    obtain ⟨rfl, rfl⟩ := hempty
    decide
  · -- the slashes in front tell the start, those in between part the names
    have hstart := startOf_text_append start (head?_join_ne h)
    have hnames : (Text.split '/' (Text.join '/' names)).filter isKept = names := by
      cases names with
      | nil => decide
      | cons name names =>
        rw [Text.split_join (List.cons_ne_nil name names) fun other hother => (h other hother).2]
        exact List.filter_eq_self.2 fun other hother => (h other hother).1
    unfold ofText
    rw [String.toList_append, hstart, filter_split_text_append, hnames]

/-- A name that may stand in a path is read as a path of one name. -/
theorem ofText_of_isName {name : String} (h : IsName name) : ofText name = ⟨.relative, [name]⟩ := by
  have hclean : (⟨.relative, [name]⟩ : Path).IsClean := by
    intro other hother
    rwa [List.mem_singleton.1 hother]
  have hwritten : toText ⟨.relative, [name]⟩ = name := by
    simp [toText, Start.text, Text.join, Text.joinChars]
  have hread := ofText_toText hclean
  rwa [hwritten] at hread

end Path

end Depot
