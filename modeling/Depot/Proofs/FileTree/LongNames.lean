import Depot.Proofs.FileTree.NullCharacter
/-!
# Names and paths that are too long

A path that leads nowhere is no file, and the test for a file says so. There is one error that it
does not take for an absence, and passes on: that the path, or a name on the way, is too long
(`isFile_eq_error_iff`).

Whether it comes to that depends on the path and on what is there. A path with names that fit leads
to no name that is too long, unless a link on the way does (`locate_ne_nameTooLong`); and in a
directory that is there, a name that is too long is found to be so (`isFile_child_of_long`).
-/

namespace Depot.FileTree

variable {t : FileTree}

/-- One error is no absence. -/
theorem isAbsence_eq_false_iff {e : FileError} :
    FileError.isAbsence e = false ↔ e = .nameTooLong := by
  cases e <;> decide

/-- The test for a file fails exactly where the path is found to be too long. -/
theorem isFile_eq_error_iff {p : Path} {e : FileError} :
    t.isFile p = .error e ↔ e = .nameTooLong ∧ t.locate p = .error .nameTooLong := by
  unfold isFile test find
  cases hlocate : t.locate p with
  | ok place =>
    refine iff_of_false ?_ (fun h => nomatch h.2)
    intro h
    cases hnode : t.node? place with
    | some node =>
      simp only [hnode] at h
      cases h
    | none =>
      simp only [hnode] at h
      cases h
  | error cause =>
    -- an error that means absence is answered with `false`, any other one is passed on
    simp only [Except.error.injEq]
    cases habsence : FileError.isAbsence cause with
    | true =>
      refine iff_of_false (fun h => nomatch h) ?_
      rintro ⟨-, rfl⟩
      cases habsence
    | false =>
      obtain rfl := isAbsence_eq_false_iff.1 habsence
      rw [if_neg Bool.false_ne_true, and_iff_left rfl, Except.error.injEq]
      exact eq_comm

/-! ### Names that fit -/

/-- The name is not too long. -/
def NameFits (name : String) : Prop := (Utf8.encodeString name).length ≤ maxNameLength

/-- Neither the path nor a name in it is too long. -/
structure Fits (p : Path) : Prop where
  text : (Utf8.encodeString p.toText).length ≤ maxPathLength
  names : ∀ name ∈ p.names, NameFits name

/-- No link leads along a name that is too long. -/
def LinksFit (t : FileTree) : Prop :=
  ∀ place target, t.node? place = some (.link target) → ∀ name ∈ namesOf target, NameFits name

/-- Following names that fit finds none that is too long. -/
theorem walkAlong_ne_nameTooLong (hlinks : t.LinksFit) {aim : Aim}
    {follow : Place → List String → Except FileError Place}
    (h : ∀ here names, (∀ name ∈ names, NameFits name) → follow here names ≠ .error .nameTooLong)
    {names : List String} (hnames : ∀ name ∈ names, NameFits name) (here : Place) :
    t.walkAlong aim follow here names ≠ .error .nameTooLong := by
  -- the names that are followed are those of the path, and at a link those of its target
  induction names generalizing here with
  | nil =>
    intro h
    cases h
  | cons name rest ih =>
    have hrest : ∀ name ∈ rest, NameFits name :=
      fun other hother => hnames other (List.mem_cons_of_mem name hother)
    rw [walkAlong]
    split
    · split
      · exact ih hrest here
      · split
        · exact ih hrest here.dropLast
        · split
          · intro h
            cases h
          · split
            · next hlong => exact absurd (hnames name List.mem_cons_self) (Nat.not_le.2 hlong)
            · split
              · split
                · intro h
                  cases h
                · intro h
                  cases h
              · -- a link: the names of its target come before the rest
                next target htarget =>
                refine h _ _ fun other hother => ?_
                rcases List.mem_append.1 hother with hother | hother
                · exact hlinks _ target htarget other hother
                · exact hrest other hother
              · exact ih hrest (here ++ [name])
    · intro h
      cases h

/-- A path that fits does not lead to a name that is too long. -/
theorem locate_ne_nameTooLong (hlinks : t.LinksFit) {p : Path} (hp : Fits p) :
    t.locate p ≠ .error .nameTooLong := by
  have hwalk : ∀ links here names, (∀ name ∈ names, NameFits name) →
      t.walk .find links here names ≠ .error .nameTooLong := by
    intro links
    -- by the number of links that may still be followed
    induction links with
    | zero =>
      have hstop : ∀ (here : Place) (names : List String), (∀ name ∈ names, NameFits name) →
          (Except.error .tooManyLinks : Except FileError Place) ≠ .error .nameTooLong :=
        fun _ _ _ h => nomatch h
      exact fun here names hnames => walkAlong_ne_nameTooLong hlinks hstop hnames here
    | succ links ih => exact fun here names hnames => walkAlong_ne_nameTooLong hlinks ih hnames here
  unfold locate locateFor textError?
  split
  · next e he =>
    split at he
    · cases he
      exact fun h => nomatch h
    · rw [if_neg (Nat.not_lt.2 hp.text)] at he
      cases he
  · exact hwalk maxLinks (t.startPlace p) p.names hp.names

/-! ### Names that do not fit -/

/-- A name is kept as it is where it is too long. -/
theorem ne_of_not_nameFits {name : String} (h : ¬ NameFits name) :
    ¬ (name = "" ∨ name = ".") ∧ name ≠ ".." := by
  refine ⟨?_, ?_⟩
  · rintro (rfl | rfl)
    · exact h (by unfold NameFits; decide)
    · exact h (by unfold NameFits; decide)
  · rintro rfl
    exact h (by unfold NameFits; decide)

/-- Names that lead to a directory lead to an error with one more name that is too long. -/
theorem walkAlong_append_of_not_nameFits {place : Place} {name : String}
    (hplace : t.node? place = some .directory) (hname : ¬ NameFits name)
    {follow : Place → List String → Except FileError Place}
    (h : ∀ here names, follow here names = .ok place →
      follow here (names ++ [name]) = .error .nameTooLong)
    {names : List String} {here : Place}
    (hwalk : t.walkAlong .find follow here names = .ok place) :
    t.walkAlong .find follow here (names ++ [name]) = .error .nameTooLong := by
  have hfind : Aim.find ≠ .write := by decide
  -- the walk goes on as without the name, and the directory it ends in looks the name up
  induction names generalizing here with
  | nil =>
    cases hwalk
    -- the name is long, so it is none of the dots that are passed over
    obtain ⟨hkept, hup⟩ := ne_of_not_nameFits hname
    rw [List.nil_append, walkAlong, hplace]
    simp only
    rw [if_neg hkept, if_neg hup, if_neg (not_and_of_not_left _ hfind),
      if_pos (Nat.not_le.1 hname)]
  | cons first rest ih =>
    rw [walkAlong] at hwalk
    rw [List.cons_append, walkAlong]
    split at hwalk
    · -- each branch taken without the name is taken with it
      split at hwalk
      · next hempty => rw [if_pos hempty]; exact ih hwalk
      · next hempty =>
        rw [if_neg hempty]
        split at hwalk
        · next hup => rw [if_pos hup]; exact ih hwalk
        · next hup =>
          rw [if_neg hup, if_neg (not_and_of_not_left _ hfind)]
          rw [if_neg (not_and_of_not_left _ hfind)] at hwalk
          split at hwalk
          · cases hwalk
          · next hfits =>
            rw [if_neg hfits]
            split at hwalk
            · cases hwalk
            · rw [← List.append_assoc]
              exact h _ _ hwalk
            · exact ih hwalk
    · cases hwalk

/-- What is tested to be a directory is one at the place to which the path leads. -/
theorem exists_of_isDirectory {p : Path} (h : t.isDirectory p = .ok true) :
    ∃ place, t.locate p = .ok place ∧ t.node? place = some .directory := by
  -- at a link the rest is handed over behind its target, with the name last
  unfold isDirectory test find at h
  cases hlocate : t.locate p with
  | error e =>
    simp only [hlocate] at h
    split at h
    · cases h
    · cases h
  | ok place =>
    refine ⟨place, rfl, ?_⟩
    cases hnode : t.node? place with
    | none =>
      simp only [hlocate, hnode] at h
      cases h
    | some node =>
      simp only [hlocate, hnode] at h
      cases node with
      | directory => rfl
      | file octets => cases h
      | link target => cases h

/-- In a directory that is there, the test for a file fails for a name that is too long. -/
theorem isFile_child_of_long {p : Path} {name : String} (hp : t.isDirectory p = .ok true)
    (hname : ¬ NameFits name) (hnull : ¬ HoldsNull (p.child name)) :
    t.isFile (p.child name) = .error .nameTooLong := by
  -- on the number of links left to follow, as a walk starts anew behind each link
  have hwalk : ∀ place, t.node? place = some .directory → ∀ links here names,
      t.walk .find links here names = .ok place →
      t.walk .find links here (names ++ [name]) = .error .nameTooLong := by
    intro place hplace links
    induction links with
    | zero =>
      have hstop : ∀ (here : Place) (names : List String),
          (Except.error .tooManyLinks : Except FileError Place) = .ok place →
          (Except.error .tooManyLinks : Except FileError Place) = .error .nameTooLong :=
        fun _ _ h => nomatch h
      exact fun here names => walkAlong_append_of_not_nameFits hplace hname hstop
    | succ links ih =>
      exact fun here names => walkAlong_append_of_not_nameFits hplace hname ih
  obtain ⟨place, hlocate, hplace⟩ := exists_of_isDirectory hp
  refine isFile_eq_error_iff.2 ⟨rfl, ?_⟩
  unfold locate locateFor at hlocate ⊢
  split
  · next e he =>
    -- the text of the path itself may be too long, which is the same error
    unfold textError? at he
    split at he
    · next hholds => exact absurd hholds hnull
    · split at he
      · cases he
        rfl
      · cases he
  · -- the directory was reached by the names of the path, so its child fails at the last name
    split at hlocate
    · cases hlocate
    · exact hwalk place hplace maxLinks (t.startPlace p) p.names hlocate

end Depot.FileTree
