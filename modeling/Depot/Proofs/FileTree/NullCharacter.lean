import Depot.FileTree.Basic
/-!
# Paths that hold a null character

No name in a file tree holds a null character, so a path with one leads nowhere. The test for a
directory takes it for one of the paths at which there is nothing, but reading the file fails with
an error of its own, which no other path gives (`read_eq_nullCharacter_iff`).
-/

namespace Depot.FileTree

/-- The path holds a null character. -/
def HoldsNull (p : Path) : Prop := p.toText.toList.contains '\x00' = true

instance (p : Path) : Decidable (HoldsNull p) := inferInstanceAs (Decidable (_ = true))

/-- Following names never finds a null character. -/
theorem walkAlong_ne_nullCharacter (t : FileTree) (aim : Aim)
    {follow : Place → List String → Except FileError Place}
    (h : ∀ here names, follow here names ≠ .error .nullCharacter) (names : List String)
    (here : Place) : t.walkAlong aim follow here names ≠ .error .nullCharacter := by
  -- every other way to go wrong has an error of its own, and links are left to `follow`
  induction names generalizing here with
  | nil => exact fun h => nomatch h
  | cons name rest ih =>
    rw [walkAlong]
    split
    · split
      · exact ih here
      · split
        · exact ih here.dropLast
        · split
          · exact fun h => nomatch h
          · split
            · exact fun h => nomatch h
            · split
              · split
                · exact fun h => nomatch h
                · exact fun h => nomatch h
              · exact h _ _
              · exact ih (here ++ [name])
    · exact fun h => nomatch h

/-- Following names through links never finds a null character. -/
theorem walk_ne_nullCharacter (t : FileTree) (aim : Aim) (links : Nat) (here : Place)
    (names : List String) : t.walk aim links here names ≠ .error .nullCharacter := by
  induction links generalizing here names with
  | zero =>
    have hstop : ∀ here names, (fun (_ : Place) (_ : List String) =>
        (Except.error FileError.tooManyLinks : Except FileError Place)) here names ≠
        .error .nullCharacter := fun _ _ h => nomatch h
    exact walkAlong_ne_nullCharacter t aim hstop names here
  | succ links ih => exact walkAlong_ne_nullCharacter t aim ih names here

/-- A path leads to a null character exactly when it holds one. -/
theorem locate_eq_nullCharacter_iff (t : FileTree) (p : Path) :
    t.locate p = .error .nullCharacter ↔ HoldsNull p := by
  unfold locate locateFor textError? HoldsNull
  -- the text is looked at before the walk, and the walk finds no fault of this kind
  split
  · next e he =>
    split at he
    · next hnull =>
      cases he
      exact iff_of_true rfl hnull
    · next hnull =>
      split at he
      · cases he
        exact iff_of_false (fun h => nomatch h) hnull
      · cases he
  · next he =>
    split at he
    · cases he
    · next hnull =>
      exact iff_of_false (walk_ne_nullCharacter t .find maxLinks (t.startPlace p) p.names) hnull

/-- **Reading fails for a null character** exactly when the path holds one. -/
theorem read_eq_nullCharacter_iff (t : FileTree) (p : Path) :
    t.read p = .error .nullCharacter ↔ HoldsNull p := by
  rw [← locate_eq_nullCharacter_iff t p]
  unfold read find
  cases t.locate p with
  | error e =>
    constructor
    · intro h
      cases h
      rfl
    · intro h
      cases h
      rfl
  | ok place =>
    refine iff_of_false ?_ (fun h => nomatch h)
    cases hnode : t.node? place with
    | none => simp [hnode]
    | some node => cases node <;> simp [hnode]

/-- A path with a null character is tested without an error, and leads to no directory. -/
theorem isDirectory_of_holdsNull (t : FileTree) {p : Path} (h : HoldsNull p) :
    t.isDirectory p = .ok false := by
  have hfind : t.find p = .error .nullCharacter := by
    rw [find, (locate_eq_nullCharacter_iff t p).2 h]
  rw [isDirectory, test, hfind]
  rfl

/-- A directory cannot be read. -/
theorem read_of_isDirectory {t : FileTree} {p : Path} (h : t.isDirectory p = .ok true) :
    t.read p = .error .isDirectory := by
  unfold isDirectory test at h
  unfold read
  split at h
  · next node hfind =>
    rw [hfind]
    cases node with
    | file octets => cases h
    | directory => rfl
    | link target => rfl
  · split at h
    · cases h
    · cases h

end Depot.FileTree
