import Depot.Proofs.FileTree.LongNames
import Depot.Proofs.Fragment.Merging
import Depot.Proofs.Metadata.Loading
import Depot.Proofs.Path.Written
import Depot.Proofs.Repository.Supply
import Depot.Proofs.Service.History
/-!
# Answers of the chain that is built in

Over files that can be read (`Chain.Readable`), the chain that is built in has its map and its
metadata, whatever is in the documents: one that is not in order is passed over. So the chain
answers a request, also with the answer that nothing is installed, unless its search comes to the
one error that a test for a file passes on: that the file's path, or a name on the way, is too long.

The version, the extension and the classifier of a request may be of any length, and all become part
of the name of a file. So there are such requests in every system in which the directory of the
group is there (`FileTree.isFile_child_of_long`). `Chain.answer_default` says exactly when this
happens, and that it does not where all names that the request leads to are short enough.
-/

namespace Depot

open FileTree (Fits HoldsNull)

namespace Chain

variable {t : FileTree} {settings : Settings}

/-- The paths of the metadata of a system. -/
def metadataPaths (settings : Settings) : List Path :=
  settings.metadataPaths.map (Path.ofText settings.resolverRoot).follow

/-- The files of the system can be read: there is a place at which it lies, no test fails that the
visit of its fragments and its metadata asks for, and there is no file among them that cannot even
be passed over. -/
structure Readable (t : FileTree) (settings : Settings) : Prop where
  fragments : ∃ place, settings.lookupSource.place t = .ok place ∧
    Fragment.TestsSucceed t (FileTree.pathOf place) settings.depmapPaths ∧
    ∀ p ∈ Fragment.visited t (FileTree.pathOf place) settings.depmapPaths, ¬ HoldsNull p
  metadata : Metadata.TestsSucceed t (metadataPaths settings)
  documents : ∀ p ∈ Metadata.visited t (metadataPaths settings), ∀ e, ¬ Metadata.Stops t p e

/-- The map of the system is merged from fragments that can be read. -/
theorem Readable.exists_merged (h : Readable t settings) :
    ∃ map, settings.lookupSource.merged t = .ok map := by
  obtain ⟨place, hplace, htests, hnull⟩ := h.fragments
  obtain ⟨m, hmerge, -⟩ := Fragment.outcome_mergeAll htests [] hnull
  unfold MapSource.merged
  rw [hplace]
  exact ⟨_, congrArg Prod.fst hmerge⟩

/-- Its metadata are loaded from the documents that can be read. -/
theorem Readable.exists_loaded (h : Readable t settings) :
    ∃ found, (Metadata.loadAll t (metadataPaths settings)).value = .ok found :=
  ⟨_, congrArg Prod.fst (Metadata.outcome_loadAll h.metadata [] h.documents)⟩

/-- So the chain that is built in has what it asks for. -/
theorem Readable.supplied (h : Readable t settings) :
    (Chain.default settings).Supplied t.access [] where
  maps source hsource := by
    cases List.mem_singleton.1 hsource
    obtain ⟨map, hmap⟩ := h.exists_merged
    exact ⟨some map, congrArg (some <$> ·) hmap⟩
  metadata leaf hleaf := by
    cases List.mem_singleton.1 hleaf
    exact h.exists_loaded

end Chain

/-- Whatever test fails, it is for a path that is too long. -/
theorem FileTree.access_isFile_eq_error_iff {t : FileTree} {p : Path} {e : Failure} :
    t.access.isFile p = .error e ↔ e = .file .nameTooLong ∧ t.isFile p = .error .nameTooLong := by
  show (Noting.ofFile (t.isFile p)).value = _ ↔ _
  cases htest : t.isFile p with
  | ok found => exact iff_of_false (fun h => nomatch h) (fun h => nomatch h.2)
  | error cause =>
    obtain ⟨rfl, -⟩ := FileTree.isFile_eq_error_iff.1 htest
    exact ⟨fun h => ⟨(Except.error.inj h).symm, rfl⟩, fun h => by rw [h.1]; rfl⟩

/-- A probe fails only for a file with a path that is too long. -/
theorem Probe.ComesTo.isFile_eq {t : FileTree} {p : Probe} {e : Failure}
    (h : p.ComesTo t.access e) : e = .file .nameTooLong ∧ ∃ root file, p.leaf = .jpp root ∧
      file ∈ Layout.files p.coordinate ∧ t.isFile (root.join file.1) = .error .nameTooLong := by
  obtain ⟨root, before, file, after, hleaf, hfiles, -, hfile⟩ := h
  obtain ⟨he, htest⟩ := FileTree.access_isFile_eq_error_iff.1 hfile
  refine ⟨he, root, file, hleaf, ?_, htest⟩
  rw [hfiles]
  exact List.mem_append_right before List.mem_cons_self

namespace Chain

variable {t : FileTree} {settings : Settings}

/-- What the chain that is built in answers is made of what it resolves over the files. -/
theorem outcome_answer_default {tree : ServedTree} {memory : Memory}
    (htree : tree.repository = Chain.default settings)
    (hmemory : memory.Sound t tree.repository.sources tree.loader (some tree)) (c : Coordinate) :
    ((tree.answer c).outcome memory).1 =
      Resolution.ofArtifact c <$> (tree.repository.resolve t.access [] c) := by
  -- there is one source only, so all sources with its place are that one
  have hagree : MapSource.Agree t tree.repository.sources := by
    rw [htree]
    intro a ha b hb _
    cases List.mem_singleton.1 ha
    cases List.mem_singleton.1 hb
    rfl
  obtain ⟨after, hrun, -⟩ := ServedTree.yields_answer hagree (fun _ h => h) c memory hmemory
  rw [hrun]

/-- **Answers of the chain that is built in**, over files that can be read. A request fails exactly
if the search comes, before anything is found, to a file with a path that is too long, and with that
error only. An answer is one to the request, and it says that nothing is installed exactly if no
probe of the chain finds an artifact. Where the paths of all files that the request leads to fit,
and no link leads along a name that is too long, there is an answer. -/
theorem answer_default {tree : ServedTree} {memory : Memory}
    (hdocument : documentPath? settings = none)
    (hbuild : Chain.build t settings = .ok tree.repository) (hreadable : Readable t settings)
    (hmemory : memory.Sound t tree.repository.sources tree.loader (some tree)) (c : Coordinate) :
    (∀ e, ((tree.answer c).outcome memory).1 = .error e ↔ e = .file .nameTooLong ∧
      ∃ before p after, tree.repository.probes t.access [] c = before ++ .ok p :: after ∧
        (∀ entry ∈ before, Probe.FindsNothing t.access entry) ∧ p.ComesTo t.access e) ∧
    (∀ r, ((tree.answer c).outcome memory).1 = .ok r → r.coordinate = c ∧
      (r.found = false ↔ ∀ entry ∈ tree.repository.probes t.access [] c,
        Probe.FindsNothing t.access entry)) ∧
    (t.LinksFit → (∀ p root file, .ok p ∈ tree.repository.probes t.access [] c →
        p.leaf = .jpp root → file ∈ Layout.files p.coordinate → Fits (root.join file.1)) →
      ∃ r, ((tree.answer c).outcome memory).1 = .ok r) := by
  have htree : tree.repository = Chain.default settings := by
    unfold build at hbuild
    rw [hdocument] at hbuild
    exact (Except.ok.inj hbuild).symm
  have hsupplied : tree.repository.Supplied t.access [] := htree ▸ hreadable.supplied
  have hanswer := outcome_answer_default htree hmemory c
  have herror : ∀ e, ((tree.answer c).outcome memory).1 = .error e ↔
      tree.repository.resolve t.access [] c = .error e := by
    intro e
    rw [hanswer, map_eq_pure_bind]
    exact bind_eq_error_iff fun found h => nomatch h
  refine ⟨fun e => ?_, fun r hr => ?_, fun hlinks hfits => ?_⟩
  · -- the answer is an error exactly where the resolution is one
    rw [herror, hsupplied.resolve_eq_error_iff]
    refine ⟨?_, And.right⟩
    rintro ⟨before, p, after, hlist, hbefore, hcomes⟩
    exact ⟨hcomes.isFile_eq.1, before, p, after, hlist, hbefore, hcomes⟩
  · -- otherwise it is for the request, with what the resolution found
    rw [hanswer] at hr
    rw [← Repository.resolve_eq_none_iff]
    cases hresolve : tree.repository.resolve t.access [] c with
    | error e =>
      rw [hresolve] at hr
      cases hr
    | ok found =>
      rw [hresolve] at hr
      cases hr
      cases found with
      | none => exact ⟨rfl, iff_of_true rfl rfl⟩
      | some a => exact ⟨rfl, iff_of_false (fun h => nomatch h) (fun h => nomatch h)⟩
  · cases houtcome : ((tree.answer c).outcome memory).1 with
    | ok r => exact ⟨r, rfl⟩
    | error e =>
      -- a failure would be for a path that does not fit
      obtain ⟨before, p, after, hlist, -, hcomes⟩ :=
        hsupplied.resolve_eq_error_iff.1 ((herror e).1 houtcome)
      obtain ⟨-, root, file, hleaf, hfile, htest⟩ := hcomes.isFile_eq
      have hp : .ok p ∈ tree.repository.probes t.access [] c := by
        rw [hlist]
        exact List.mem_append_right before List.mem_cons_self
      exact absurd (FileTree.isFile_eq_error_iff.1 htest).2
        (FileTree.locate_ne_nameTooLong hlinks (hfits p root file hp hleaf hfile))

/-- Settings under which the installed files lie in a directory, and there is nothing else. -/
def sampleSettings : Settings := { depmapPaths := [], metadataPaths := [], javaRoot := "j" }

/-- Files of which one is installed. -/
def sampleFiles : FileTree where
  nodes := [(["j"], .directory), (["j", "b.jar"], .file [])]
  workingPlace := []

/-- The chain of these settings. -/
def sampleTree : ServedTree := ⟨Chain.default sampleSettings, ⟨0⟩, 0⟩

/-- The request for the installed file in some version. -/
def sampleRequest (version : String) : Coordinate where
  group := ⟨"JPP", by decide, by decide, by decide⟩
  artifact := ⟨"b", by decide, by decide, by decide⟩
  extension := .jar
  classifier := .none
  version := some version

/-- The name of the file that stands for a version, as it is put together. -/
def fileName (version : String) : String := "b" ++ ("-" ++ version) ++ "" ++ "." ++ "jar"

/-- The nodes on the way of the probes. -/
def sampleWay : List Passage :=
  [{ frame := {} }, { frame := {}, anchor := some .root }, { frame := {} }]

/-- The search comes to the file for a version that is too long, and the test for it fails. -/
theorem exists_comesTo_fileName {version : String}
    (hversion : ¬ (version = "" ∨ version = systemVersion))
    (hname : Path.IsName (fileName version))
    (htest : sampleFiles.isFile (Path.child ⟨.root, ["j"]⟩ (fileName version)) =
      .error .nameTooLong) :
    ∃ before p after, sampleTree.repository.probes sampleFiles.access [] (sampleRequest version) =
        before ++ .ok p :: after ∧
      (∀ entry ∈ before, Probe.FindsNothing sampleFiles.access entry) ∧
      p.ComesTo sampleFiles.access (.file .nameTooLong) := by
  -- the file that is asked for first has the version in its name
  have hfile : Layout.relativePath (sampleRequest version) true = ⟨.relative, [fileName version]⟩ :=
    Path.ofText_of_isName hname
  have hfiles : Layout.files (sampleRequest version) =
      [(⟨.relative, [fileName version]⟩, version),
        (Layout.relativePath (sampleRequest version) false, systemVersion)] := by
    show (if version = "" ∨ version = systemVersion then _ else _) = _
    rw [if_neg hversion, hfile]
  have hnothing : Metadata.resolve [] (sampleRequest version) = none := ite_self _
  refine ⟨[.ok ⟨.metadata [0, 0] [], sampleRequest version, sampleWay⟩],
    ⟨.jpp ⟨.root, ["j"]⟩, sampleRequest version, sampleWay⟩, [], rfl, ?_,
    ⟨.root, ["j"]⟩, [], _, _, rfl, hfiles, List.forall_mem_nil _, ?_⟩
  · -- no metadata is given, so the first probe finds nothing
    rintro entry (_ | ⟨_, h⟩)
    · exact ⟨_, rfl, congrArg Except.ok hnothing⟩
    · cases h
  · exact FileTree.access_isFile_eq_error_iff.2 ⟨rfl, htest⟩

/-- A version that does not fit into a name: each of its characters has four octets. -/
def longVersion : String := String.ofList (List.replicate 64 '𝕩')

theorem toList_fileName_longVersion : (fileName longVersion).toList =
    "b-".toList ++ List.replicate 64 '𝕩' ++ ".jar".toList := by
  have hshort : "b-".toList = "b".toList ++ "-".toList ∧
      ".jar".toList = ".".toList ++ "jar".toList := ⟨rfl, rfl⟩
  unfold fileName longVersion
  rw [hshort.1, hshort.2]
  simp only [String.toList_append, String.toList_ofList, List.append_assoc]
  rfl

/-- Texts with different numbers of characters are different. -/
theorem ne_of_length_toList_ne {s t : String} (h : s.toList.length ≠ t.toList.length) : s ≠ t := by
  rintro rfl
  exact h rfl

theorem isName_fileName_longVersion : Path.IsName (fileName longVersion) := by
  have hchars := toList_fileName_longVersion
  refine ⟨?_, ?_⟩
  · unfold Path.isKept
    rw [Bool.and_eq_true, bne_iff_ne, bne_iff_ne]
    refine ⟨ne_of_length_toList_ne ?_, ne_of_length_toList_ne ?_⟩
    · rw [hchars]
      decide +kernel
    · rw [hchars]
      decide +kernel
  · rw [hchars]
    decide +kernel

theorem not_nameFits_fileName_longVersion : ¬ FileTree.NameFits (fileName longVersion) := by
  unfold FileTree.NameFits Utf8.encodeString
  rw [toList_fileName_longVersion]
  decide +kernel

/-- In the directory of the installed files, the test for the file of this name fails. -/
theorem isFile_fileName_longVersion :
    sampleFiles.isFile (Path.child ⟨.root, ["j"]⟩ (fileName longVersion)) =
      .error .nameTooLong := by
  have htext : (Path.child ⟨.root, ["j"]⟩ (fileName longVersion)).toText.toList =
      "/".toList ++ ("j".toList ++ '/' :: (fileName longVersion).toList) := by
    rw [Path.toText, if_neg (by decide), String.toList_append, Text.join,
      String.toList_ofList]
    rfl
  have hnull : ¬ HoldsNull (Path.child ⟨.root, ["j"]⟩ (fileName longVersion)) := by
    unfold HoldsNull
    rw [htext, toList_fileName_longVersion]
    decide +kernel
  exact FileTree.isFile_child_of_long rfl not_nameFits_fileName_longVersion hnull

theorem answer_default_sampleTree :
    Readable sampleFiles sampleSettings ∧
    Memory.Sound sampleFiles sampleTree.repository.sources sampleTree.loader (some sampleTree)
      { files := sampleFiles } ∧
    ((sampleTree.answer (sampleRequest longVersion)).outcome { files := sampleFiles }).1 =
      .error (.file .nameTooLong) ∧
    ∃ r, ((sampleTree.answer (sampleRequest "1")).outcome { files := sampleFiles }).1 = .ok r ∧
      r.coordinate = sampleRequest "1" ∧ r.found = true := by
  have hreadable : Readable sampleFiles sampleSettings :=
    ⟨⟨[], rfl, ⟨List.forall_mem_nil _, List.forall_mem_nil _⟩, List.forall_mem_nil _⟩,
      ⟨List.forall_mem_nil _, List.forall_mem_nil _⟩, List.forall_mem_nil _⟩
  have hsound : Memory.Sound sampleFiles sampleTree.repository.sources sampleTree.loader
      (some sampleTree) { files := sampleFiles } :=
    ⟨rfl, fun i d h => absurd h (by simp), fun i m d h => absurd h (by simp)⟩
  have hanswer := answer_default rfl rfl hreadable hsound
  -- the request has a version of its own
  have hversion : ¬ (longVersion = "" ∨ longVersion = systemVersion) := by
    refine not_or.2 ⟨ne_of_length_toList_ne ?_, ne_of_length_toList_ne ?_⟩
    · unfold longVersion
      rw [String.toList_ofList]
      decide +kernel
    · unfold longVersion
      rw [String.toList_ofList]
      decide +kernel
  -- the name of its file does not fit into the tree, so the call fails
  have hfails := ((hanswer (sampleRequest longVersion)).1 (.file .nameTooLong)).2
    ⟨rfl, exists_comesTo_fileName hversion isName_fileName_longVersion
      isFile_fileName_longVersion⟩
  -- a request with a short version is answered
  obtain ⟨r, hr, hfound⟩ : ∃ r, ((sampleTree.answer (sampleRequest "1")).outcome
      { files := sampleFiles }).1 = .ok r ∧ r.found = true := by
    have hreturns : ((sampleTree.answer (sampleRequest "1")).outcome
        { files := sampleFiles }).1.toOption.map (·.found) = some true := by
      decide +kernel
    cases houtcome : ((sampleTree.answer (sampleRequest "1")).outcome
        { files := sampleFiles }).1 with
    | error e =>
      rw [houtcome] at hreturns
      cases hreturns
    | ok r =>
      rw [houtcome] at hreturns
      exact ⟨r, rfl, Option.some.inj hreturns⟩
  exact ⟨hreadable, hsound, hfails, r, hr, ((hanswer (sampleRequest "1")).2.1 r hr).1, hfound⟩

end Chain

end Depot
