import Depot.Fragment.Merge
import Depot.Proofs.Decimal.Order
import Depot.Proofs.Depmap.Optimizing
import Depot.Proofs.FileTree.NullCharacter
import Depot.Proofs.Fragment.Grammar
/-!
# The merged map is the union of the good fragments

The files that the paths of a system name are visited one by one, directory by directory, and each
is read into a map of its own before that is merged. This module says what comes out, in terms that
mention neither the loops nor the maps of the single files: the records of all files that can be
read and are in order, in the order of the visit (`acceptedRecords`). A file of another kind
contributes nothing and stops nothing.

The step lemma is `outcome_mergeFile`: a visited file adds its records, or is noted. The run lemma
is its induction over the files (`outcome_foldlM_mergeFile`), with the relation
`FragmentRecord.Adds` carrying what has been added so far. Floors are the delicate part, because
each file is merged through the maximum of its own floors and through its text; as maxima may be
grouped at will, the result is still the first of the greatest of all floors. So reading a file into
a map of its own changes nothing (`merge_of_read`).

One kind of path breaks the rule that nothing stops the work: where a visited path holds a null
character, the work fails as a whole (`mergeAll_eq`).
-/

namespace Depot

namespace FragmentRecord

open Depmap (joinFloors)

/-- Raising a floor to the maximum of numbers is raising it to one after the other. -/
theorem joinFloors_raised (current : Option Decimal) (ds : List Decimal) :
    joinFloors current (raised none ds) = raised current ds := by
  -- one more number at a time, since it is the last one that meets the maximum so far
  have hstep : ∀ (floor : Option Decimal) (d : Decimal),
      joinFloors current (Decimal.maxOption floor d) =
        Decimal.maxOption (joinFloors current floor) d := by
    intro floor d
    cases floor with
    | none => rfl
    | some c =>
      cases current with
      | none => rfl
      | some b => exact congrArg some (Decimal.max_assoc b c d)
  have hrun : ∀ (ds : List Decimal) (floor : Option Decimal),
      joinFloors current (ds.foldl Decimal.maxOption floor) =
        ds.foldl Decimal.maxOption (joinFloors current floor) := by
    intro ds
    induction ds with
    | nil => exact fun _ => rfl
    | cons d ds ih =>
      intro floor
      rw [List.foldl_cons, List.foldl_cons, ih, hstep]
  exact hrun ds none

/-- Merging the map of some records adds those records. -/
theorem Adds.joined {m staged : Depmap} {records : List FragmentRecord}
    (h : Adds .empty records staged) : Adds m records (m.joined staged) where
  mem_mappings p := by
    show p ∈ m.mappings.union staged.mappings ↔ _
    rw [OrderedSet.mem_union, h.mem_mappings]
    exact or_congr_right (or_iff_right (OrderedSet.not_mem_empty p))
  mem_runtime q := by
    show q ∈ m.runtime.union staged.runtime ↔ _
    rw [OrderedSet.mem_union, h.mem_runtime]
    exact or_congr_right (or_iff_right (OrderedSet.not_mem_empty q))
  -- the staged map has no build requirement
  build := by
    show m.build.union staged.build = m.build
    rw [h.build]
    rfl
  -- joining with the staged floor is raising by each staged text
  runtimeFloor := by
    show joinFloors m.runtimeFloor staged.runtimeFloor = _
    rw [h.runtimeFloor]
    exact joinFloors_raised _ _
  buildFloor := by
    show joinFloors m.buildFloor staged.buildFloor = _
    rw [h.buildFloor]
    exact joinFloors_raised _ _
  frozen := rfl

/-- **Staging.** Records that can be applied may be applied to the map that holds nothing, and what
comes of that be merged: it is the same map as if they had been applied at once, even in how its
floors are written. -/
theorem merge_staged {m : Depmap} (hm : m.frozen = false) {records : List FragmentRecord}
    (h : ∀ r ∈ records, r.IsApplicable) : ∃ staged merged,
      applyAll .empty records = .ok staged ∧ m.merge staged = .ok merged ∧
        applyAll m records = .ok merged := by
  obtain ⟨staged, hstaged, hadds⟩ := applyAll_eq (m := .empty) rfl h
  obtain ⟨merged, hmerged, hdirect⟩ := applyAll_eq hm h
  -- the floors of the staged map are within the range, so they arrive as they are
  have hfloors := (reachable_of_applyAll .empty hstaged).floorsInRange
  refine ⟨staged, merged, hstaged, ?_, hmerged⟩
  rw [Depmap.merge_eq hm hfloors, hadds.joined.unique hdirect]

end FragmentRecord

namespace Fragment

open FileTree (HoldsNull)
open Depmap (maps_iff)
open FragmentRecord (Adds)

variable {t : FileTree}

/-! ### One file -/

/-- The records of a file, if it can be read and is in order. -/
def records? (t : FileTree) (p : Path) : Option (List FragmentRecord) :=
  match t.read p with
  | .ok bs =>
    match read (decode bs) p.toText with
    | .ok records => some records
    | .error _ => none
  | .error _ => none

/-- A file that is in order is loaded into a map to which its records were added. -/
theorem load_eq {bs : List UInt8} {source : String} {records : List FragmentRecord}
    (h : read (decode bs) source = .ok records) :
    ∃ staged, load bs source = .ok staged ∧ Adds .empty records staged ∧ staged.FloorsInRange := by
  obtain ⟨staged, happly, hadds⟩ := FragmentRecord.applyAll_eq (m := .empty) rfl
    (isApplicable_of_read h)
  refine ⟨staged, ?_, hadds, (FragmentRecord.reachable_of_applyAll .empty happly).floorsInRange⟩
  unfold load
  rw [h]
  show (FragmentRecord.applyAll .empty records).mapError LoadError.edit = _
  rw [happly]
  rfl

/-- **Staging changes nothing.** Merging what is read of a fragment into a map that is not published
gives the very map that applying the records to it gives. -/
theorem merge_of_read {m : Depmap} (hm : m.frozen = false) {contents source : String}
    {records : List FragmentRecord} (h : read contents source = .ok records) :
    ∃ staged merged, FragmentRecord.applyAll .empty records = .ok staged ∧
      m.merge staged = .ok merged ∧ FragmentRecord.applyAll m records = .ok merged :=
  FragmentRecord.merge_staged hm (isApplicable_of_read h)

/-- Two floors of equal value that are written in different ways. -/
def equalFloors : List FragmentRecord := [.floor "1.8" false, .floor "1.800" false]

/-- A map with a floor of the same value, written in a third way. -/
def flooredMap : Depmap := { Depmap.empty with runtimeFloor := some ⟨false, 180, -2⟩ }

theorem merge_of_read_equalFloors : flooredMap.Reachable ∧
    read "<requiresJava>1.8</requiresJava><requiresJava>1.800</requiresJava>" "" =
      .ok equalFloors ∧
    ∃ staged merged, FragmentRecord.applyAll .empty equalFloors = .ok staged ∧
      flooredMap.merge staged = .ok merged ∧
      FragmentRecord.applyAll flooredMap equalFloors = .ok merged ∧
      staged.runtimeFloor = some ⟨false, 18, -1⟩ ∧
      merged.runtimeFloor = some ⟨false, 180, -2⟩ := by
  -- the two floors are evaluated; that the results are the same map comes from the theorem
  have hread : read "<requiresJava>1.8</requiresJava><requiresJava>1.800</requiresJava>" "" =
      .ok equalFloors := eq_ok_of_toOption (by decide +kernel)
  obtain ⟨staged, merged, hstaged, hmerged, hdirect⟩ :=
    merge_of_read (m := flooredMap) rfl hread
  have hstagedFloor : (FragmentRecord.applyAll .empty equalFloors).toOption.map
      (·.runtimeFloor) = some (some ⟨false, 18, -1⟩) := by decide +kernel
  have hmergedFloor : (FragmentRecord.applyAll flooredMap equalFloors).toOption.map
      (·.runtimeFloor) = some (some ⟨false, 180, -2⟩) := by decide +kernel
  rw [hstaged] at hstagedFloor
  rw [hdirect] at hmergedFloor
  -- the map to start with is reachable by one call
  have hparse : VersionFloor.parse "1.80" = .ok ⟨false, 180, -2⟩ :=
    eq_ok_of_toOption (by decide +kernel)
  have hfloored : Depmap.empty.addFloor false "1.80" = .ok flooredMap := by
    rw [Depmap.addFloor, Depmap.edit_of_not_frozen rfl, hparse]
    rfl
  exact ⟨.addFloor .empty hfloored, hread, staged, merged, hstaged, hmerged, hdirect,
    Option.some.inj hstagedFloor, Option.some.inj hmergedFloor⟩

/-- Does the path lead to a directory, as far as the test for one says? -/
def foundDirectory (t : FileTree) (p : Path) : Bool :=
  match t.isDirectory p with
  | .ok directory => directory
  | .error _ => false

theorem foundDirectory_eq {p : Path} {directory : Bool} (h : t.isDirectory p = .ok directory) :
    foundDirectory t p = directory := by
  rw [foundDirectory, h]

/-- What is noted of a file that is passed over. -/
def notes (t : FileTree) (p : Path) : List Warning :=
  if foundDirectory t p then []
  else match records? t p with
    | some _ => []
    | none => [.fragment p]

/-- A directory is passed over in silence. -/
theorem outcome_mergeFile_of_isDirectory {p : Path} (h : t.isDirectory p = .ok true) (m : Depmap)
    (noted : List Warning) : (mergeFile t m p).outcome noted = (.ok m, noted) := by
  have htest : (Noting.ofFile (t.isDirectory p)).outcome noted = (.ok true, noted) := by
    rw [h]
    rfl
  unfold mergeFile
  rw [Working.outcome_bind_of_ok htest]
  rfl

/-- A path with a null character fails the work. -/
theorem outcome_mergeFile_of_holdsNull {p : Path} (h : HoldsNull p) (m : Depmap)
    (noted : List Warning) :
    (mergeFile t m p).outcome noted = (.error (.file .nullCharacter), noted) := by
  have htest : (Noting.ofFile (t.isDirectory p)).outcome noted = (.ok false, noted) := by
    rw [t.isDirectory_of_holdsNull h]
    rfl
  unfold mergeFile
  rw [Working.outcome_bind_of_ok htest, (t.read_eq_nullCharacter_iff p).2 h]
  rfl

/-- A file that cannot be read, or is not in order, is noted and passed over. -/
theorem outcome_mergeFile_of_records?_eq_none {p : Path} (htest : t.isDirectory p = .ok false)
    (hnull : ¬ HoldsNull p) (h : records? t p = none) (m : Depmap) (noted : List Warning) :
    (mergeFile t m p).outcome noted = (.ok m, noted ++ [.fragment p]) := by
  have hstart : (Noting.ofFile (t.isDirectory p)).outcome noted = (.ok false, noted) := by
    rw [htest]
    rfl
  unfold mergeFile
  rw [Working.outcome_bind_of_ok hstart, if_neg Bool.false_ne_true]
  cases hread : t.read p with
  | error e =>
    cases e with
    | nullCharacter => exact absurd ((t.read_eq_nullCharacter_iff p).1 hread) hnull
    | missing => rfl
    | notDirectory => rfl
    | isDirectory => rfl
    | «exists» => rfl
    | tooManyLinks => rfl
    | nameTooLong => rfl
  | ok bs =>
    cases hrecords : read (decode bs) p.toText with
    | error malformed =>
      have hload : load bs p.toText = .error (.malformed malformed) := by
        unfold load
        rw [hrecords]
        rfl
      simp only [hload]
      rfl
    | ok records =>
      -- a file that is in order has records
      unfold records? at h
      rw [hread] at h
      simp only [hrecords] at h
      cases h

/-- A file that is in order adds its records. -/
theorem outcome_mergeFile_of_records?_eq_some {m : Depmap} (hm : m.frozen = false) {p : Path}
    (htest : t.isDirectory p = .ok false) {records : List FragmentRecord}
    (h : records? t p = some records) (noted : List Warning) :
    ∃ m', (mergeFile t m p).outcome noted = (.ok m', noted) ∧ Adds m records m' := by
  have hstart : (Noting.ofFile (t.isDirectory p)).outcome noted = (.ok false, noted) := by
    rw [htest]
    rfl
  unfold records? at h
  split at h
  · next bs hread =>
    split at h
    · next found hrecords =>
      obtain rfl := Option.some.inj h
      obtain ⟨staged, hload, hadds, hfloors⟩ := load_eq hrecords
      refine ⟨m.joined staged, ?_, hadds.joined⟩
      unfold mergeFile
      rw [Working.outcome_bind_of_ok hstart, if_neg Bool.false_ne_true, hread]
      simp only [hload]
      -- the floors of the staged map are within the range, so merging it cannot fail
      rw [Depmap.merge_eq hm hfloors]
      rfl
    · cases h
  · cases h

/-- **One file.** A file whose path holds no null character adds its records, or is noted and adds
nothing. -/
theorem outcome_mergeFile {m : Depmap} (hm : m.frozen = false) {p : Path} {directory : Bool}
    (htest : t.isDirectory p = .ok directory) (hnull : ¬ HoldsNull p) (noted : List Warning) :
    ∃ m', (mergeFile t m p).outcome noted = (.ok m', noted ++ notes t p) ∧
      Adds m ((records? t p).getD []) m' := by
  unfold notes
  rw [foundDirectory_eq htest]
  cases directory with
  | true =>
    -- a directory has no records, and nothing is noted about it
    have hnone : records? t p = none := by
      rw [records?, FileTree.read_of_isDirectory htest]
    rw [hnone, if_pos rfl, List.append_nil]
    exact ⟨m, outcome_mergeFile_of_isDirectory htest m noted, .nil m⟩
  | false =>
    rw [if_neg Bool.false_ne_true]
    cases hrecords : records? t p with
    | none =>
      exact ⟨m, outcome_mergeFile_of_records?_eq_none htest hnull hrecords m noted, .nil m⟩
    | some records =>
      obtain ⟨m', hrun, hadds⟩ := outcome_mergeFile_of_records?_eq_some hm htest hrecords noted
      exact ⟨m', by rw [hrun, List.append_nil], hadds⟩

/-! ### All files -/

/-- **All files.** Files whose paths hold no null character, visited one after the other, add the
records of those that are in order. -/
theorem outcome_foldlM_mergeFile {files : List Path}
    (htests : ∀ p ∈ files, ∃ directory, t.isDirectory p = .ok directory)
    (hnull : ∀ p ∈ files, ¬ HoldsNull p) {m : Depmap} (hm : m.frozen = false)
    (noted : List Warning) :
    ∃ m', (files.foldlM (mergeFile t) m).outcome noted =
        (.ok m', noted ++ files.flatMap (notes t)) ∧
      Adds m (files.flatMap fun p => (records? t p).getD []) m' := by
  -- on the files, for every map and all that is noted before them
  induction files generalizing m noted with
  | nil => exact ⟨m, by rw [List.flatMap_nil, List.append_nil]; rfl, .nil m⟩
  | cons p files ih =>
    obtain ⟨directory, htest⟩ := htests p List.mem_cons_self
    obtain ⟨next, hstep, hfirst⟩ := outcome_mergeFile hm htest (hnull p List.mem_cons_self) noted
    obtain ⟨m', hrun, hrest⟩ := ih (fun q hq => htests q (List.mem_cons_of_mem p hq))
      (fun q hq => hnull q (List.mem_cons_of_mem p hq)) (hfirst.frozen.trans hm)
      (noted ++ notes t p)
    refine ⟨m', ?_, ?_⟩
    · rw [List.foldlM_cons, Working.outcome_bind_of_ok hstep, hrun, List.flatMap_cons,
        List.append_assoc]
    · rw [List.flatMap_cons]
      exact hfirst.append hrest

/-- The first path with a null character fails the work. -/
theorem outcome_foldlM_mergeFile_of_holdsNull {files : List Path}
    (htests : ∀ p ∈ files, ∃ directory, t.isDirectory p = .ok directory)
    (hnull : ∃ p ∈ files, HoldsNull p) {m : Depmap} (hm : m.frozen = false)
    (noted : List Warning) :
    ∃ more, (files.foldlM (mergeFile t) m).outcome noted =
      (.error (.file .nullCharacter), more) := by
  induction files generalizing m noted with
  | nil =>
    obtain ⟨p, hp, -⟩ := hnull
    exact nomatch hp
  | cons p files ih =>
    rw [List.foldlM_cons]
    by_cases hp : HoldsNull p
    · exact ⟨noted, Working.outcome_bind_of_error (outcome_mergeFile_of_holdsNull hp m noted) _⟩
    · -- the files before the first such path are merged in vain
      have hrest : ∃ q ∈ files, HoldsNull q := by
        obtain ⟨q, hq, hnull⟩ := hnull
        rcases List.mem_cons.1 hq with rfl | hq
        · exact absurd hnull hp
        · exact ⟨q, hq, hnull⟩
      obtain ⟨directory, htest⟩ := htests p List.mem_cons_self
      obtain ⟨next, hstep, hfirst⟩ := outcome_mergeFile hm htest hp noted
      rw [Working.outcome_bind_of_ok hstep]
      exact ih (fun q hq => htests q (List.mem_cons_of_mem p hq)) hrest (hfirst.frozen.trans hm) _

/-! ### The merged map -/

/-- What is visited for a path: the entries of a directory in the order of their names, or the path
itself. -/
def candidates (t : FileTree) (p : Path) : List Path :=
  if foundDirectory t p then (t.entries p).map p.child else [p]

/-- The files that are visited for the paths of a system, in order: of a directory, its entries that
are no directories. -/
def visited (t : FileTree) (root : Path) (paths : List String) : List Path :=
  (paths.flatMap fun s => candidates t (root.follow s)).filter fun p => !foundDirectory t p

/-- A path with a null character is no directory, so it is visited as a file. -/
theorem mem_visited_of_holdsNull {root : Path} {paths : List String} {p : Path}
    (hp : p ∈ paths.flatMap fun s => candidates t (root.follow s)) (hnull : HoldsNull p) :
    p ∈ visited t root paths := by
  have hfound := foundDirectory_eq (t.isDirectory_of_holdsNull hnull)
  exact List.mem_filter.2 ⟨hp, by rw [hfound]; rfl⟩

/-- The records of the files that are visited, can be read and are in order. -/
def acceptedRecords (t : FileTree) (root : Path) (paths : List String) : List FragmentRecord :=
  (visited t root paths).flatMap fun p => (records? t p).getD []

/-- The tests for directories that the visit asks for do not fail. -/
structure TestsSucceed (t : FileTree) (root : Path) (paths : List String) : Prop where
  ofPaths : ∀ s ∈ paths, ∃ directory, t.isDirectory (root.follow s) = .ok directory
  ofEntries : ∀ s ∈ paths, t.isDirectory (root.follow s) = .ok true →
    ∀ name ∈ t.entries (root.follow s), ∃ directory,
      t.isDirectory ((root.follow s).child name) = .ok directory

/-- Every path that is visited passes its test. -/
theorem TestsSucceed.candidates {root : Path} {paths : List String}
    (h : TestsSucceed t root paths) :
    ∀ p ∈ paths.flatMap fun s => candidates t (root.follow s), ∃ directory,
      t.isDirectory p = .ok directory := by
  intro p hp
  obtain ⟨s, hs, hp⟩ := List.mem_flatMap.1 hp
  obtain ⟨directory, htest⟩ := h.ofPaths s hs
  unfold Fragment.candidates at hp
  rw [foundDirectory_eq htest] at hp
  cases directory with
  | true =>
    obtain ⟨name, hname, rfl⟩ := List.mem_map.1 hp
    exact h.ofEntries s hs htest name hname
  | false =>
    obtain rfl := List.mem_singleton.1 hp
    exact ⟨false, htest⟩

/-- Merging a path is merging what is visited for it. -/
theorem mergePath_eq {p : Path} {directory : Bool} (h : t.isDirectory p = .ok directory)
    (m : Depmap) : mergePath t m p = (candidates t p).foldlM (mergeFile t) m := by
  unfold mergePath candidates
  rw [h, foundDirectory_eq h]
  cases directory with
  | true =>
    rw [if_pos rfl, List.foldlM_map]
    rfl
  | false =>
    rw [if_neg Bool.false_ne_true, List.foldlM_cons]
    simp only [List.foldlM_nil, bind_pure]
    rfl

/-- Merging paths one after the other is merging all that is visited. -/
theorem foldlM_mergePath_eq {root : Path} {paths : List String}
    (h : ∀ s ∈ paths, ∃ directory, t.isDirectory (root.follow s) = .ok directory) (m : Depmap) :
    paths.foldlM (fun m s => mergePath t m (root.follow s)) m =
      (paths.flatMap fun s => candidates t (root.follow s)).foldlM (mergeFile t) m := by
  induction paths generalizing m with
  | nil => rfl
  | cons s paths ih =>
    obtain ⟨directory, htest⟩ := h s List.mem_cons_self
    rw [List.foldlM_cons, List.flatMap_cons, List.foldlM_append, mergePath_eq htest]
    refine congrArg _ (funext fun next => ?_)
    exact ih (fun other hother => h other (List.mem_cons_of_mem s hother)) next

/-- Only files that are no directories have a say. -/
theorem flatMap_filter_of_nil {α : Type} (files : List Path) {f : Path → List α}
    (h : ∀ p ∈ files, foundDirectory t p = true → f p = []) :
    (files.filter fun p => !foundDirectory t p).flatMap f = files.flatMap f := by
  induction files with
  | nil => rfl
  | cons p files ih =>
    have hrest := ih fun q hq => h q (List.mem_cons_of_mem p hq)
    rw [List.filter_cons, List.flatMap_cons]
    cases hp : foundDirectory t p with
    | true =>
      rw [h p List.mem_cons_self hp, List.nil_append]
      exact hrest
    | false =>
      exact congrArg (f p ++ ·) hrest

section Merged

variable {root : Path} {paths : List String} (htests : TestsSucceed t root paths)
  (noted : List Warning)
include htests

/-- Where no visited path holds a null character, the records of the good files are added to the
empty map, which is then reduced to what it does not map itself, and published. -/
theorem outcome_mergeAll (hnull : ∀ p ∈ visited t root paths, ¬ HoldsNull p) :
    ∃ m, (mergeAll t root paths).outcome noted =
        (.ok { m with
          runtime := m.runtime.filter fun r => !m.maps r.identity
          build := m.build.filter fun r => !m.maps r.identity
          frozen := true }, noted ++ (visited t root paths).flatMap (notes t)) ∧
      Adds .empty (acceptedRecords t root paths) m := by
  have hcandidates := htests.candidates
  obtain ⟨m, hrun, hadds⟩ := outcome_foldlM_mergeFile hcandidates
    (fun p hp h => hnull p (mem_visited_of_holdsNull hp h) h) (m := .empty) rfl noted
  -- the directories among what is visited are not noted, and have no records
  have hnotes := flatMap_filter_of_nil (t := t)
    (paths.flatMap fun s => candidates t (root.follow s)) (f := notes t) fun p _ hp => if_pos hp
  have hrecords := flatMap_filter_of_nil (t := t)
    (paths.flatMap fun s => candidates t (root.follow s))
    (f := fun p => (records? t p).getD []) fun p hmem hp => by
      obtain ⟨directory, htest⟩ := hcandidates p hmem
      rw [foundDirectory_eq htest] at hp
      rw [records?, FileTree.read_of_isDirectory (htest.trans (congrArg _ hp))]
      rfl
  refine ⟨m, ?_, ?_⟩
  · unfold mergeAll
    rw [foldlM_mergePath_eq htests.ofPaths, Working.outcome_bind_of_ok hrun, Depmap.optimize,
      Depmap.edit_of_not_frozen (hadds.frozen.trans rfl), ← hnotes]
    rfl
  · rw [← hrecords] at hadds
    exact hadds

/-- Where a visited path holds a null character, the work fails. -/
theorem outcome_mergeAll_of_holdsNull (hnull : ∃ p ∈ visited t root paths, HoldsNull p) :
    ((mergeAll t root paths).outcome noted).1 = .error (.file .nullCharacter) := by
  obtain ⟨p, hp, h⟩ := hnull
  obtain ⟨more, hrun⟩ := outcome_foldlM_mergeFile_of_holdsNull htests.candidates
    ⟨p, (List.mem_filter.1 hp).1, h⟩ (m := .empty) rfl noted
  unfold mergeAll
  rw [foldlM_mergePath_eq htests.ofPaths, Working.outcome_bind_of_error hrun]

end Merged

/-- **The merged map.** Where the tests for directories do not fail, the work fails exactly if a
visited path holds a null character. Otherwise it publishes a map, and notes each visited file that
cannot be read or is not in order. The map holds the union of what the other files say: it maps the
pairs of their mappings, requires at run time what they require and do not map, requires nothing at
build time, and its floors are the first of the greatest floors of their kind. -/
theorem mergeAll_eq {root : Path} {paths : List String} (htests : TestsSucceed t root paths)
    (noted : List Warning) :
    (((mergeAll t root paths).outcome noted).1 = .error (.file .nullCharacter) ↔
      ∃ p ∈ visited t root paths, HoldsNull p) ∧
    ((∀ p ∈ visited t root paths, ¬ HoldsNull p) → ∃ m,
      (mergeAll t root paths).outcome noted =
        (.ok m, noted ++ (visited t root paths).flatMap (notes t)) ∧
      m.frozen = true ∧
      (∀ p, p ∈ m.mappings ↔ ∃ source targets target,
        .mapping source targets ∈ acceptedRecords t root paths ∧ target ∈ targets ∧
          p = (source.identity, target.identity)) ∧
      (∀ r, r ∈ m.runtime ↔
        (∃ c, .requirement c ∈ acceptedRecords t root paths ∧ r = c.requirement) ∧
          ¬ ∃ target, (r.identity, target) ∈ m.mappings) ∧
      m.build = .empty ∧
      Decimal.IsFirstGreatest ((acceptedRecords t root paths).flatMap (FragmentRecord.floors false))
        m.runtimeFloor ∧
      Decimal.IsFirstGreatest ((acceptedRecords t root paths).flatMap (FragmentRecord.floors true))
        m.buildFloor) := by
  refine ⟨⟨fun herror => ?_, outcome_mergeAll_of_holdsNull htests noted⟩, fun hnull => ?_⟩
  · -- without such a path the work does not fail
    refine Classical.byContradiction fun hnone => ?_
    obtain ⟨m, hrun, -⟩ := outcome_mergeAll htests noted fun p hp h => hnone ⟨p, hp, h⟩
    rw [hrun] at herror
    cases herror
  · obtain ⟨m, hrun, hadds⟩ := outcome_mergeAll htests noted hnull
    have hmappings : ∀ p, p ∈ m.mappings ↔ ∃ source targets target,
        .mapping source targets ∈ acceptedRecords t root paths ∧ target ∈ targets ∧
          p = (source.identity, target.identity) := by
      intro p
      rw [hadds.mem_mappings, FragmentRecord.mem_flatMap_pairs]
      exact or_iff_right (OrderedSet.not_mem_empty p)
    refine ⟨_, hrun, rfl, hmappings, fun r => ?_, ?_, ?_, ?_⟩
    · -- what is required is reduced by the mappings of the whole map, once all files are in
      show r ∈ m.runtime.filter _ ↔ _ ∧ ¬ ∃ target, (r.identity, target) ∈ m.mappings
      rw [OrderedSet.mem_filter, hadds.mem_runtime, FragmentRecord.mem_flatMap_requirements,
        Bool.not_eq_true', ← Bool.not_eq_true, maps_iff]
      exact and_congr_left' (or_iff_right (OrderedSet.not_mem_empty r))
    · show m.build.filter _ = _
      rw [hadds.build]
      rfl
    · show Decimal.IsFirstGreatest _ m.runtimeFloor
      rw [hadds.runtimeFloor]
      exact Decimal.isFirstGreatest_foldl _
    · show Decimal.IsFirstGreatest _ m.buildFloor
      rw [hadds.buildFloor]
      exact Decimal.isFirstGreatest_foldl _

/-- A tree with a directory that holds a fragment with a floor, a file that is no fragment, and
another directory. -/
def sampleTree : FileTree where
  nodes := [(["d"], .directory),
    (["d", "a"], .file (Utf8.encodeString "<requiresJava>8</requiresJava>")),
    (["d", "b"], .file (Utf8.encodeString "<")), (["d", "c"], .directory)]
  workingPlace := []

theorem mergeAll_eq_sampleTree :
    TestsSucceed sampleTree .root ["d", "e"] ∧
    acceptedRecords sampleTree .root ["d", "e"] = [.floor "8" false] ∧
    (∃ m, (mergeAll sampleTree .root ["d", "e"]).outcome [] =
        (.ok m, [.fragment ⟨.root, ["d", "b"]⟩, .fragment ⟨.root, ["e"]⟩]) ∧
      m.frozen = true ∧ Decimal.IsFirstGreatest [⟨false, 8, 0⟩] m.runtimeFloor ∧
      Decimal.IsFirstGreatest [] m.buildFloor) ∧
    TestsSucceed sampleTree .root ["\x00"] ∧
    ((mergeAll sampleTree .root ["\x00"]).outcome []).1 = .error (.file .nullCharacter) := by
  -- the kinds of the paths that are given
  have hd : sampleTree.isDirectory ⟨.root, ["d"]⟩ = .ok true := rfl
  have he : sampleTree.isDirectory ⟨.root, ["e"]⟩ = .ok false := rfl
  have hnull : sampleTree.isDirectory ⟨.root, ["\x00"]⟩ = .ok false := rfl
  have hentries : sampleTree.entries ⟨.root, ["d"]⟩ = ["a", "b", "c"] := by
    have hlocate : sampleTree.locate ⟨.root, ["d"]⟩ = .ok ["d"] := rfl
    unfold FileTree.entries
    rw [hlocate]
    exact List.mergeSort_of_pairwise (by decide)
  -- every test that the walk makes succeeds
  have htests : TestsSucceed sampleTree .root ["d", "e"] := by
    constructor
    · rintro s (_ | ⟨_, _ | ⟨_, hs⟩⟩)
      · exact ⟨true, hd⟩
      · exact ⟨false, he⟩
      · cases hs
    · rintro s (_ | ⟨_, _ | ⟨_, hs⟩⟩) h name hname
      · have hall : ∀ name ∈ ["a", "b", "c"], ∃ directory,
            sampleTree.isDirectory ⟨.root, ["d", name]⟩ = .ok directory := by
          rintro name (_ | ⟨_, _ | ⟨_, _ | ⟨_, hs⟩⟩⟩)
          · exact ⟨false, rfl⟩
          · exact ⟨false, rfl⟩
          · exact ⟨true, rfl⟩
          · cases hs
        exact hall name (hentries ▸ hname)
      · cases he.symm.trans h
      · cases hs
  -- `d` stands for the files in it, of which `c` is a directory again
  have hvisited : visited sampleTree .root ["d", "e"] =
      [⟨.root, ["d", "a"]⟩, ⟨.root, ["d", "b"]⟩, ⟨.root, ["e"]⟩] := by
    have hcandidates : candidates sampleTree ⟨.root, ["d"]⟩ =
        [⟨.root, ["d", "a"]⟩, ⟨.root, ["d", "b"]⟩, ⟨.root, ["d", "c"]⟩] := by
      rw [candidates, foundDirectory_eq hd, if_pos rfl, hentries]
      rfl
    have hall : ["d", "e"].flatMap (fun s => candidates sampleTree (Path.root.follow s)) =
        candidates sampleTree ⟨.root, ["d"]⟩ ++ [⟨.root, ["e"]⟩] := rfl
    rw [visited, hall, hcandidates]
    rfl
  have hnotes : (visited sampleTree .root ["d", "e"]).flatMap (notes sampleTree) =
      [.fragment ⟨.root, ["d", "b"]⟩, .fragment ⟨.root, ["e"]⟩] := by
    rw [hvisited]
    decide +kernel
  have haccepted : acceptedRecords sampleTree .root ["d", "e"] = [.floor "8" false] := by
    rw [acceptedRecords, hvisited]
    decide +kernel
  have hfloors : [FragmentRecord.floor "8" false].flatMap (FragmentRecord.floors false) =
        [(⟨false, 8, 0⟩ : Decimal)] ∧
      [FragmentRecord.floor "8" false].flatMap (FragmentRecord.floors true) = [] := by
    decide +kernel
  -- a path with U+0000 passes the test, since it is found to be no directory
  have htestsNull : TestsSucceed sampleTree .root ["\x00"] := by
    constructor
    · rintro s (_ | ⟨_, hs⟩)
      · exact ⟨false, hnull⟩
      · cases hs
    · rintro s (_ | ⟨_, hs⟩) h
      · cases hnull.symm.trans h
      · cases hs
  -- so the first list of paths is merged, and the second one fails when its file is read
  obtain ⟨m, hrun, hfrozen, -, -, -, hruntime, hbuild⟩ :=
    (mergeAll_eq htests []).2 (by
      rw [hvisited]
      decide)
  have hholds : HoldsNull ⟨.root, ["\x00"]⟩ := by decide
  have hfails := (mergeAll_eq htestsNull []).1.2
    ⟨_, mem_visited_of_holdsNull (List.mem_singleton_self _) hholds, hholds⟩
  rw [hnotes] at hrun
  rw [haccepted] at hruntime hbuild
  rw [hfloors.1] at hruntime
  rw [hfloors.2] at hbuild
  exact ⟨htests, haccepted, ⟨m, hrun, hfrozen, hruntime, hbuild⟩, htestsNull, hfails⟩

end Fragment

end Depot
