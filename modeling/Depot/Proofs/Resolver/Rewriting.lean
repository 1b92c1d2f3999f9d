import Depot.Proofs.Depmap.Listing
import Depot.Proofs.Repository.Supply
import Depot.Proofs.Resolver.DefaultChain
import Depot.Proofs.Resolver.InstalledPath
/-!
# What rewriting hides

A depmap node asks its delegate for what a coordinate is mapped to before it asks for the coordinate
itself. The map keeps targets without version and with the extension `jar`, so each of them is
restored for the request first (`Coordinate.restored`), and a restored target may be another one, or
the request. `Depmap.candidates_eq` tells the list: the restored targets, in the order of the keys
of the targets, and the request, unless it is there already.

So the request is always asked for, unless the search ends before that. With an answer there is one;
but the search also ends where the delegate fails, as it does for an installed file whose name is
too long, although nothing is there. `Repository.TargetFails` says that this comes of a target, and
`Repository.resolve_depmap_of_delegate` that nothing else can hide what the delegate has.
-/

namespace Depot

/-- A target as it is asked for: with the extension and the version of the request, and its
classifier where the target has none. -/
def Coordinate.restored (target c : Coordinate) : Coordinate where
  group := target.group
  artifact := target.artifact
  extension := c.extension
  classifier := if target.classifier.text = "" then c.classifier else target.classifier
  version := c.version

namespace Depmap

open Coordinate (KeyLt)

/-! ### Candidates -/

/-- The targets to which a coordinate is mapped, in the order of their keys. -/
def targets (m? : Option Depmap) (c : Coordinate) : List Coordinate :=
  match m? with
  | some m => (m.lookup c).toList.map Identity.toCoordinate
  | none => []

/-- The targets as they are asked for, in the same order. -/
def restoredTargets (m? : Option Depmap) (c : Coordinate) : List Coordinate :=
  (targets m? c).map fun target => target.restored c

variable {m? : Option Depmap} {c : Coordinate}

/-- **The candidates** are the restored targets, and the request after them unless it is one. -/
theorem candidates_eq (m? : Option Depmap) (c : Coordinate) : candidates m? c =
    restoredTargets m? c ++ if c ∈ restoredTargets m? c then [] else [c] := by
  have hunless : ∀ mapped : List Coordinate, (if mapped.contains c then mapped else mapped ++ [c]) =
      mapped ++ if c ∈ mapped then [] else [c] := by
    intro mapped
    by_cases hself : c ∈ mapped
    · rw [if_pos (List.contains_iff_mem.2 hself), if_pos hself, List.append_nil]
    · rw [if_neg fun h => hself (List.contains_iff_mem.1 h), if_neg hself]
  cases m? with
  | none => exact hunless []
  | some m =>
    have hmapped : ((m.lookup c).toList.map fun i => i.candidateFor c) =
        restoredTargets (some m) c := by
      rw [restoredTargets, targets, List.map_map]
      rfl
    rw [← hmapped]
    exact hunless _

/-- The request is a candidate. -/
theorem self_mem_candidates (m? : Option Depmap) (c : Coordinate) : c ∈ candidates m? c :=
  mem_candidates.2 (.inl rfl)

/-- Every candidate has the extension and the version of the request. -/
theorem kept_of_mem_candidates {d : Coordinate} (h : d ∈ candidates m? c) :
    d.extension = c.extension ∧ d.version = c.version := by
  rcases mem_candidates.1 h with rfl | ⟨m, -, i, -, rfl⟩
  · exact ⟨rfl, rfl⟩
  · exact ⟨rfl, rfl⟩

/-- The targets are strictly in order. -/
theorem pairwise_targets (m? : Option Depmap) (c : Coordinate) : (targets m? c).Pairwise KeyLt := by
  cases m? with
  | none => exact .nil
  | some m => exact List.pairwise_map.2 ((OrderedSet.sorted _).imp Identity.rank_lt_iff.1)

theorem mem_targets_iff {target : Coordinate} : target ∈ targets m? c ↔
    ∃ m, m? = some m ∧ ∃ i, (c.identity, i) ∈ m.mappings ∧ i.toCoordinate = target := by
  cases m? with
  | none => exact iff_of_false List.not_mem_nil fun ⟨_, h, _⟩ => nomatch h
  | some m =>
    simp only [Option.some.injEq, exists_eq_left', ← mem_lookup]
    exact List.mem_map

/-- Of a map that comes about, they are what its table has for the coordinate, sorted. -/
theorem targets_history (h : History) (c : Coordinate) :
    targets (some h.map) c = Coordinate.sorted (h.table.lookup c) := by
  show (h.map.lookup c).toList.map Identity.toCoordinate = _
  rw [h.map_eq_toDepmap]
  exact h.invariant.lookup_toDepmap c

/-- Without a map, or without targets in it, the request is the only candidate. -/
theorem candidates_of_lookup (h : ∀ m, m? = some m → m.lookup c = .empty) :
    candidates m? c = [c] := by
  have hnone : restoredTargets m? c = [] := by
    cases m? with
    | none => rfl
    | some m =>
      rw [restoredTargets, targets, h m rfl]
      rfl
  rw [candidates_eq, hnone, if_neg List.not_mem_nil, List.nil_append]

end Depmap

namespace Repository

variable {ε : Type} {access : Access (Except ε)} {position : List Nat} {frame : Frame}
  {source : MapSource} {delegate : Repository} {c : Coordinate} {m? : Option Depmap}

/-! ### The search -/

/-- A target fails: the delegate fails for it as it is asked for, and has nothing for those before
it. -/
def TargetFails (access : Access (Except ε)) (position : List Nat) (delegate : Repository)
    (m? : Option Depmap) (c : Coordinate) (e : ε) : Prop :=
  ∃ before d after, Depmap.restoredTargets m? c = before ++ d :: after ∧
    (∀ earlier ∈ before, delegate.resolve access (0 :: position) earlier = .ok none) ∧
    delegate.resolve access (0 :: position) d = .error e

/-- The answer of a depmap node is the first answer to a candidate, with the node's namespace. -/
theorem resolve_depmap_eq (hadmits : frame.admits c = true) (hmap : access.map source = .ok m?) :
    (depmap frame source delegate).resolve access position c =
      (firstAnswer (delegate.resolve access (0 :: position)) (Depmap.candidates m? c)).map
        (Option.map frame.mark) := by
  rw [resolve, framed, if_pos hadmits, hmap]
  rfl

/-- Where the delegate has an answer to the request, the node does not answer that there is none. -/
theorem resolve_depmap_ne_none (hadmits : frame.admits c = true)
    (hmap : access.map source = .ok m?) {a : Artifact}
    (hdelegate : delegate.resolve access (0 :: position) c = .ok (some a)) :
    (depmap frame source delegate).resolve access position c ≠ .ok none := by
  rw [resolve_depmap_eq hadmits hmap]
  intro h
  obtain ⟨answer, hanswer, hnone⟩ := map_eq_ok_iff.1 h
  obtain rfl : answer = none := Option.map_eq_none_iff.1 hnone
  -- the request is asked for after all candidates before it
  cases hdelegate.symm.trans (firstAnswer_eq_none_iff.1 hanswer c (Depmap.self_mem_candidates m? c))

/-- There the search fails exactly if a target does. -/
theorem resolve_depmap_eq_error_iff (hadmits : frame.admits c = true)
    (hmap : access.map source = .ok m?) {a : Artifact}
    (hdelegate : delegate.resolve access (0 :: position) c = .ok (some a)) {e : ε} :
    (depmap frame source delegate).resolve access position c = .error e ↔
      TargetFails access position delegate m? c e := by
  have hfails : TargetFails access position delegate m? c e ↔
      firstAnswer (delegate.resolve access (0 :: position)) (Depmap.restoredTargets m? c) =
        .error e := (firstAnswer_eq_iff (by simp)).symm
  rw [hfails, resolve_depmap_eq hadmits hmap, Depmap.candidates_eq, firstAnswer_append]
  -- first the targets, and then the request
  rcases firstAnswer (delegate.resolve access (0 :: position)) (Depmap.restoredTargets m? c) with
    e' | (_ | b)
  · exact Iff.rfl
  · refine iff_of_false (fun h => ?_) fun h => nomatch h
    split at h
    · cases h
    · change (firstAnswer (delegate.resolve access (0 :: position)) [c]).map _ = _ at h
      rw [firstAnswer_singleton, hdelegate] at h
      cases h
  · exact iff_of_false (fun h => nomatch h) fun h => nomatch h

/-- A target fails for a file, if the delegate has its maps and metadata. -/
theorem Supplied.exists_comesTo_of_targetFails (h : delegate.Supplied access (0 :: position))
    {e : ε} (hfails : TargetFails access position delegate m? c e) :
    ∃ d ∈ Depmap.restoredTargets m? c, ∃ before p after,
      delegate.probes access (0 :: position) d = before ++ .ok p :: after ∧
      (∀ entry ∈ before, Probe.FindsNothing access entry) ∧ p.ComesTo access e := by
  obtain ⟨before, d, after, hlist, -, herror⟩ := hfails
  refine ⟨d, ?_, h.resolve_eq_error_iff.1 herror⟩
  rw [hlist]
  exact List.mem_append_right before List.mem_cons_self

/-- **What rewriting hides.** A depmap node that admits a request has an answer to it if its
delegate has one, exactly if no target fails, and otherwise it fails as the first target does that
fails; it never answers that there is no artifact. Over a delegate that has its maps and metadata, a
target fails only for a file for which the test fails, so nothing is hidden where no test does.

Where nothing is mapped, or there is no map, the answer is that of the delegate, with the namespace
filled in. The candidates always include the request, and each has its extension and version. They
are the restored targets, one for each of the targets, which are strictly in the order of their
keys, and after them the request, exactly if it is not one of them. -/
theorem resolve_depmap_of_delegate (hadmits : frame.admits c = true)
    (hmap : access.map source = .ok m?) :
    (∀ a, delegate.resolve access (0 :: position) c = .ok (some a) →
      ((∃ b, (depmap frame source delegate).resolve access position c = .ok (some b)) ↔
        ∀ e, ¬ TargetFails access position delegate m? c e) ∧
      ((∃ b, (depmap frame source delegate).resolve access position c = .ok (some b)) ∨
        ∃ e, (depmap frame source delegate).resolve access position c = .error e) ∧
      (∀ e, (depmap frame source delegate).resolve access position c = .error e ↔
        TargetFails access position delegate m? c e) ∧
      (delegate.Supplied access (0 :: position) → (∀ q e, access.isFile q ≠ .error e) →
        ∃ b, (depmap frame source delegate).resolve access position c = .ok (some b))) ∧
    ((∀ m, m? = some m → m.lookup c = .empty) →
      (depmap frame source delegate).resolve access position c =
        (delegate.resolve access (0 :: position) c).map (Option.map frame.mark)) ∧
    c ∈ Depmap.candidates m? c ∧
    (∀ d ∈ Depmap.candidates m? c, d.extension = c.extension ∧ d.version = c.version) ∧
    Depmap.candidates m? c = ((Depmap.targets m? c).map fun target => target.restored c) ++
      (if c ∈ (Depmap.targets m? c).map (fun target => target.restored c) then [] else [c]) ∧
    (Depmap.targets m? c).Pairwise Coordinate.KeyLt ∧
    (∀ target, target ∈ Depmap.targets m? c ↔
      ∃ m, m? = some m ∧ ∃ i, (c.identity, i) ∈ m.mappings ∧ i.toCoordinate = target) ∧
    ∀ h : Depmap.History, m? = some h.map →
      Depmap.targets m? c = Coordinate.sorted (h.table.lookup c) := by
  refine ⟨fun a hdelegate => ?_, fun hlookup => ?_, Depmap.self_mem_candidates m? c,
    fun d => Depmap.kept_of_mem_candidates, Depmap.candidates_eq m? c, Depmap.pairwise_targets m? c,
    fun target => Depmap.mem_targets_iff, fun h hm => hm ▸ Depmap.targets_history h c⟩
  · -- the delegate answers the request, so only a target that is tried before it can fail
    have hnone := resolve_depmap_ne_none hadmits hmap hdelegate
    have herror := fun e => resolve_depmap_eq_error_iff (e := e) hadmits hmap hdelegate
    rcases hnode : (depmap frame source delegate).resolve access position c with e | (_ | b)
    · rw [hnode] at herror
      have hfails : TargetFails access position delegate m? c e := (herror e).1 rfl
      refine ⟨iff_of_false (fun ⟨_, h⟩ => nomatch h) fun h => h e hfails, .inr ⟨e, rfl⟩, herror,
        fun hsupplied htests => ?_⟩
      -- the target has failed for a file for which no test fails
      obtain ⟨d, -, before, p, after, -, -, root, _, file, _, -, -, -, htest⟩ :=
        hsupplied.exists_comesTo_of_targetFails hfails
      exact absurd htest (htests _ e)
    · exact absurd hnode hnone
    · rw [hnode] at herror
      refine ⟨iff_of_true ⟨b, rfl⟩ fun e h => ?_, .inl ⟨b, rfl⟩, herror, fun _ _ => ⟨b, rfl⟩⟩
      cases (herror e).2 h
  · -- with no target, the request is the only candidate
    rw [resolve_depmap_eq hadmits hmap, Depmap.candidates_of_lookup hlookup, firstAnswer_singleton]

open Chain (fileName longVersion)

/-- The artifact of the installed file. -/
def mappedRequest : Coordinate := Chain.sampleRequest systemVersion

/-- The same one with a classifier that does not fit into a name. -/
def longTarget : Identity := { mappedRequest.identity with classifier := .ofText longVersion }

/-- A map from the one to the other. -/
def longMap : Depmap :=
  { Depmap.empty with mappings := .ofList [(mappedRequest.identity, longTarget)], frozen := true }

/-- The installed files, with a map or without. -/
def accessWith (m? : Option Depmap) : Access (Except Failure) :=
  { Chain.sampleFiles.access with map := fun _ => .ok m? }

theorem isFile_accessWith (m? : Option Depmap) (q : Path) :
    (accessWith m?).isFile q = Chain.sampleFiles.access.isFile q := rfl

/-- A delegate over the installed files. -/
def installedDelegate : Repository := .jpp {} ⟨.root, ["j"]⟩

/-- The file name of the target is the one that stands for the same text as a version. -/
theorem relativePath_restored {i : Identity} {text : String} (hgroup : i.group.text = "JPP")
    (hartifact : i.artifact.text = "b") (hclassifier : i.classifier.text = text) (hne : text ≠ "") :
    Layout.relativePath (i.toCoordinate.restored mappedRequest) false =
      Path.ofText (fileName text) := by
  have hkept : (i.toCoordinate.restored mappedRequest).classifier.text = text := by
    rw [← hclassifier]
    exact congrArg Classifier.text (if_neg fun hempty => hne (hclassifier.symm.trans hempty))
  have hbase : Layout.base (i.toCoordinate.restored mappedRequest) = "b" :=
    (if_pos hgroup).trans hartifact
  unfold Layout.relativePath fileName
  rw [hkept, hbase, if_neg hne]
  simp only [Bool.false_eq_true, if_false, String.append_empty]
  rfl

theorem text_longTarget : longTarget.classifier.text = longVersion := by
  have hplain : ∀ char ∈ longVersion.toList, Text.isBlank char = false := by
    intro char hchar
    unfold longVersion at hchar
    rw [String.toList_ofList] at hchar
    rw [List.eq_of_mem_replicate hchar]
    decide +kernel
  show Text.strip longVersion = longVersion
  rw [Text.strip, Text.stripChars_eq_self hplain, String.ofList_toList]

theorem restoredTargets_longMap : Depmap.restoredTargets (some longMap) mappedRequest =
    [longTarget.toCoordinate.restored mappedRequest] := by
  have hlookup : ∀ i : Identity, (OrderedSet.ofList ([(mappedRequest.identity, i)].filterMap
      fun p => if p.1 = mappedRequest.identity then some p.2 else none)).toList = [i] := by
    intro i
    simp only [List.filterMap_cons, if_true, List.filterMap_nil]
    rfl
  show ((longMap.lookup mappedRequest).toList.map _).map _ = _
  rw [show (longMap.lookup mappedRequest).toList = [longTarget] from hlookup longTarget]
  rfl

/-- Where the name of its file is too long, the test for it fails. -/
theorem resolve_installedDelegate {m? : Option Depmap} {d : Coordinate}
    (hversion : d.version = some systemVersion)
    (hpath : Layout.relativePath d false = ⟨.relative, [fileName longVersion]⟩) :
    installedDelegate.resolve (accessWith m?) [0] d = .error (.file .nameTooLong) := by
  -- for the reserved version there is one file only
  have hfiles : Layout.files d = [(⟨.relative, [fileName longVersion]⟩, systemVersion)] := by
    unfold Layout.files
    simp only [hversion, or_true, if_true, hpath]
  have hjoin : ∀ name,
      Path.join ⟨.root, ["j"]⟩ ⟨.relative, [name]⟩ = Path.child ⟨.root, ["j"]⟩ name := fun _ => rfl
  have htest : (accessWith m?).isFile
      (Path.join ⟨.root, ["j"]⟩ ⟨.relative, [fileName longVersion]⟩) =
      .error (.file .nameTooLong) := by
    rw [hjoin, isFile_accessWith, FileTree.access_isFile_eq_error_iff]
    exact ⟨rfl, Chain.isFile_fileName_longVersion⟩
  have hleaf : (Leaf.jpp ⟨.root, ["j"]⟩).find (accessWith m?) d = .error (.file .nameTooLong) :=
    find_jpp_eq_error_iff.2 ⟨[], _, [], hfiles, List.forall_mem_nil _, htest⟩
  rw [installedDelegate, resolve]
  show framed {} d ((Leaf.jpp ⟨.root, ["j"]⟩).find _ d) = _
  rw [framed, if_pos (show Frame.admits {} d = true from rfl), hleaf]
  rfl

/-- The target is asked for, and the test for its file fails. -/
theorem targetFails_longTarget : TargetFails (accessWith (some longMap)) [] installedDelegate
    (some longMap) mappedRequest (.file .nameTooLong) := by
  have hne : longVersion ≠ "" := by
    refine Chain.ne_of_length_toList_ne ?_
    unfold longVersion
    rw [String.toList_ofList, List.length_replicate]
    decide +kernel
  have hpath := relativePath_restored rfl rfl text_longTarget hne
  rw [Path.ofText_of_isName Chain.isName_fileName_longVersion] at hpath
  exact ⟨[], _, [], restoredTargets_longMap, List.forall_mem_nil _,
    resolve_installedDelegate rfl hpath⟩

theorem resolve_depmap_of_delegate_longTarget :
    (∃ a, installedDelegate.resolve (accessWith (some longMap)) [0] mappedRequest = .ok (some a)) ∧
    (depmap {} ⟨.root, [], none⟩ installedDelegate).resolve (accessWith (some longMap)) []
      mappedRequest = .error (.file .nameTooLong) ∧
    (depmap {} ⟨.root, [], none⟩ installedDelegate).resolve (accessWith none) [] mappedRequest =
      (installedDelegate.resolve (accessWith none) [0] mappedRequest).map
        (Option.map (Frame.mark {})) := by
  have hanswer : installedDelegate.resolve (accessWith (some longMap)) [0] mappedRequest =
      .ok (some ⟨mappedRequest, "/j/b.jar", systemVersion, "/j", ""⟩) :=
    eq_ok_of_toOption (by decide +kernel)
  obtain ⟨hmapped, -⟩ := @resolve_depmap_of_delegate _ (accessWith (some longMap)) [] {}
    ⟨.root, [], none⟩ installedDelegate mappedRequest _ rfl rfl
  obtain ⟨-, hunmapped, -⟩ := @resolve_depmap_of_delegate _ (accessWith none) [] {}
    ⟨.root, [], none⟩ installedDelegate mappedRequest _ rfl rfl
  obtain ⟨-, -, herror, -⟩ := hmapped _ hanswer
  exact ⟨⟨_, hanswer⟩, (herror _).2 targetFails_longTarget, hunmapped fun m h => nomatch h⟩

end Repository

end Depot
