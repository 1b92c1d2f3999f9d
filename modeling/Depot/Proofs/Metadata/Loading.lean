import Depot.Metadata.Load
import Depot.Proofs.FileTree.NullCharacter
import Depot.Proofs.Outcome
/-!
# One bad metadata file and the others

The files that some paths stand for are all found before the first is read (`Metadata.visited`), and
read one by one. A file that holds no document in order is noted and passed over, so what is loaded
are the documents of the others, in the order of the visit.

The step lemma is `outcome_loadFile`, for one file, and the run lemma its induction over the files
(`Noting.outcome_mapM`). What they say holds of all files but two kinds (`Metadata.Stops`): a file
whose path holds a null character, and one whose document declares an encoding that cannot be read.
These are not passed over. The first of them fails the work as a whole, whatever the other files
hold, and nothing else does (`loadAll_eq`).
-/

namespace Depot

/-! ### Documents in encodings that cannot be read -/

namespace Xml.Document

/-- The declaration of a document names an encoding that cannot be read. -/
def DeclaresUnreadable (bs : List UInt8) (refusal : Refusal) : Prop :=
  ∃ charset octets d rest label, Charset.detect bs = (charset, octets) ∧
    Declaration.split (charset.decode octets) = .ok (some d, rest) ∧ d.encoding = some label ∧
    charset.declared label = .error refusal ∧ refusal.isMarkup = false

/-- What is wrong with the body of a document is always its markup. -/
theorem mapError_body_ne {opening : Opening} {refusal : Refusal}
    (hencoding : refusal.isMarkup = false) :
    (body opening).mapError Refusal.markup ≠ .error refusal := by
  intro h
  cases hread : body opening with
  | ok root =>
    rw [hread] at h
    cases h
  | error fault =>
    rw [hread] at h
    cases h
    cases hencoding

/-- The same, told of the octets after the marks of the encoding that is found first. -/
theorem declaresUnreadable_iff {bs octets : List UInt8} {charset : Charset} {refusal : Refusal}
    (hdetect : Charset.detect bs = (charset, octets)) (hencoding : refusal.isMarkup = false) :
    DeclaresUnreadable bs refusal ↔ ∃ d rest label,
      Declaration.split (charset.decode octets) = .ok (some d, rest) ∧
        d.encoding = some label ∧ charset.declared label = .error refusal := by
  constructor
  · rintro ⟨charset', octets', d, rest, label, hdetect', hsplit, hlabel, hrefused, -⟩
    cases hdetect.symm.trans hdetect'
    exact ⟨d, rest, label, hsplit, hlabel, hrefused⟩
  · rintro ⟨d, rest, label, hsplit, hlabel, hrefused⟩
    exact ⟨charset, octets, d, rest, label, hdetect, hsplit, hlabel, hrefused, hencoding⟩

/-- Opening a document fails for its encoding exactly if it declares one that cannot be read. -/
theorem openingOfOctets_eq_error_iff {bs : List UInt8} {refusal : Refusal}
    (hencoding : refusal.isMarkup = false) :
    openingOfOctets bs = .error refusal ↔ DeclaresUnreadable bs refusal := by
  rcases hdetect : Charset.detect bs with ⟨charset, octets⟩
  rw [declaresUnreadable_iff hdetect hencoding]
  unfold openingOfOctets
  rw [hdetect]
  dsimp only
  cases hsplit : Declaration.split (charset.decode octets) with
  | error fault =>
    -- a declaration that is not in order is a fault of the markup
    refine iff_of_false (fun h => ?_) ?_
    · cases h
      cases hencoding
    · rintro ⟨d, rest, label, hdeclaration, -⟩
      cases hdeclaration
  | ok split =>
    obtain ⟨d?, rest⟩ := split
    cases d? with
    | none =>
      refine iff_of_false (fun h => ?_) ?_
      · cases h
      · rintro ⟨d, rest, label, hdeclaration, -⟩
        cases hdeclaration
    | some d =>
      -- what is declared is then all that can be wrong
      have hdeclares : (∃ d' rest' label, (Except.ok (some d, rest) : Except Fault _) =
          .ok (some d', rest') ∧ d'.encoding = some label ∧
            charset.declared label = .error refusal) ↔
          ∃ label, d.encoding = some label ∧ charset.declared label = .error refusal := by
        constructor
        · rintro ⟨_, _, label, ⟨rfl, rfl⟩, hlabel, hrefused⟩
          exact ⟨label, hlabel, hrefused⟩
        · rintro ⟨label, hlabel, hrefused⟩
          exact ⟨d, rest, label, rfl, hlabel, hrefused⟩
      have hread : (Except.ok (some d, rest) : Except Fault _).mapError Refusal.markup =
          pure (some d, rest) := rfl
      rw [hdeclares, hread, pure_bind]
      dsimp only
      cases hlabel : d.encoding with
      | none =>
        refine iff_of_false (fun h => ?_) ?_
        · cases h
        · rintro ⟨label, hlabel', -⟩
          cases hlabel'
      | some label =>
        simp only [Option.some.injEq, exists_eq_left']
        refine bind_eq_error_iff fun next h => ?_
        cases h

/-- A document is refused for its encoding exactly if it declares one that cannot be read. -/
theorem parse_octets_eq_error_iff {bs : List UInt8} {refusal : Refusal}
    (hencoding : refusal.isMarkup = false) :
    parse (.octets bs) = .error refusal ↔ DeclaresUnreadable bs refusal := by
  have hparse : parse (.octets bs) =
      openingOfOctets bs >>= fun opening => (body opening).mapError .markup := rfl
  rw [hparse, bind_eq_error_iff fun _ => mapError_body_ne hencoding,
    openingOfOctets_eq_error_iff hencoding]

end Xml.Document

/-! ### Work on lists -/

namespace Noting

variable {α β : Type} {f : α → Noting β} {g : α → β} {notes : α → List Warning}

/-- Where the work on each member of a list comes to a value, that on the list comes to their list,
and what is noted is noted in order. -/
theorem outcome_mapM {as : List α}
    (h : ∀ a ∈ as, ∀ noted, (f a).outcome noted = (.ok (g a), noted ++ notes a))
    (noted : List Warning) :
    (as.mapM f).outcome noted = (.ok (as.map g), noted ++ as.flatMap notes) := by
  -- on the list, for all that is noted before it
  induction as generalizing noted with
  | nil =>
    rw [List.mapM_nil, List.flatMap_nil, List.append_nil]
    rfl
  | cons a as ih =>
    have hrest := ih (fun b hb => h b (List.mem_cons_of_mem a hb)) (noted ++ notes a)
    rw [List.mapM_cons, Working.outcome_bind_of_ok (h a List.mem_cons_self noted),
      Working.outcome_bind_of_ok hrest, List.map_cons, List.flatMap_cons, List.append_assoc]
    rfl

/-- The first member on which the work fails fails that on the list. -/
theorem outcome_mapM_of_error {before after : List α} {a : α} {e : Failure}
    (hbefore : ∀ b ∈ before, ∀ noted, (f b).outcome noted = (.ok (g b), noted ++ notes b))
    (ha : ∀ noted, (f a).outcome noted = (.error e, noted)) (noted : List Warning) :
    ((before ++ a :: after).mapM f).outcome noted =
      (.error e, noted ++ before.flatMap notes) := by
  rw [List.mapM_append, Working.outcome_bind_of_ok (outcome_mapM hbefore noted), List.mapM_cons]
  exact Working.outcome_bind_of_error (Working.outcome_bind_of_error (ha _) _) _

end Noting

/-- The entries of a directory are in the order of their names. -/
theorem FileTree.pairwise_entries (t : FileTree) (p : Path) :
    (t.entries p).Pairwise (· ≤ ·) := by
  unfold entries
  split
  · have htrans : ∀ a b c : String, decide (a ≤ b) = true → decide (b ≤ c) = true →
        decide (a ≤ c) = true := by
      simp only [decide_eq_true_eq]
      exact fun a b c => String.le_trans
    have htotal : ∀ a b : String, (decide (a ≤ b) || decide (b ≤ a)) = true := by
      simp only [Bool.or_eq_true, decide_eq_true_eq]
      exact String.le_total
    exact (List.pairwise_mergeSort htrans htotal _).imp of_decide_eq_true
  · exact List.Pairwise.nil

namespace Metadata

open FileTree (HoldsNull)
open Xml.Document (DeclaresUnreadable)

variable {t : FileTree} {p : Path}

/-! ### One file -/

/-- The document in the octets of a file, unless they are compressed and corrupt. -/
def contents? (bs : List UInt8) : Option (List UInt8) :=
  if Gzip.isCompressed bs then Gzip.decompress? bs else some bs

/-- The document in a file, if the file can be read and the document is in order. -/
def document? (t : FileTree) (p : Path) : Option Metadata :=
  match t.read p with
  | .ok bs => (ofFile bs p.toText).toOption
  | .error _ => none

/-- What there is in a file that cannot be passed over. -/
inductive Stops (t : FileTree) (p : Path) : Failure → Prop
  | nullCharacter (h : HoldsNull p) : Stops t p (.file .nullCharacter)
  | encoding {bs contents : List UInt8} {refusal : Xml.Refusal} (hread : t.read p = .ok bs)
      (hcontents : contents? bs = some contents) (h : DeclaresUnreadable contents refusal) :
      Stops t p (.encoding refusal)

/-- What is noted of a file: that it is passed over, if it is. -/
def notes (t : FileTree) (p : Path) : List Warning :=
  match document? t p with
  | some _ => []
  | none => [.metadata p]

/-- What is wrong with an artifact is not the document around it. -/
theorem readArtifact_ne_document {e : Xml.Element} {refusal : Xml.Refusal} :
    readArtifact e ≠ .error (.document refusal) := by
  unfold readArtifact
  -- no path, or an identity that is no coordinate: neither is a failure of the document
  cases childText? e "path" with
  | none =>
    intro h
    cases h
  | some path =>
    intro h
    cases hidentities : (identities e).mapM readIdentity with
    | ok found =>
      simp only [hidentities] at h
      cases h
    | error cause =>
      simp only [hidentities] at h
      cases h
      obtain ⟨identity, -, hidentity⟩ := exists_of_mapM_eq_error hidentities
      unfold readIdentity at hidentity
      cases hfields : Coordinate.ofFields _ with
      | ok c =>
        rw [hfields] at hidentity
        cases hidentity
      | error issues =>
        rw [hfields] at hidentity
        cases hidentity

/-- Nor is it where the registrations of a document cannot be read. -/
theorem readRegistry_ne_document {root : Xml.Element} {refusal : Xml.Refusal} :
    readRegistry root ≠ .error (.document refusal) := by
  intro h
  unfold readRegistry at h
  cases hentries : (artifactElements root).mapM readArtifact with
  | ok entries =>
    rw [hentries] at h
    cases h
  | error cause =>
    rw [hentries] at h
    cases h
    obtain ⟨e, -, he⟩ := exists_of_mapM_eq_error hentries
    exact readArtifact_ne_document he

/-- A file that can be uncompressed is read as the document in it. -/
theorem ofFile_of_contents?_eq_some {bs contents : List UInt8} (h : contents? bs = some contents)
    (name : String) : ofFile bs name = ofDocument (.octets contents) name := by
  unfold contents? at h
  unfold ofFile
  by_cases hcompressed : Gzip.isCompressed bs
  · rw [if_pos hcompressed] at h ⊢
    rw [h]
  · rw [if_neg hcompressed] at h ⊢
    rw [Option.some.inj h]

/-- A file that cannot be uncompressed is refused for that. -/
theorem ofFile_of_contents?_eq_none {bs : List UInt8} (h : contents? bs = none) (name : String) :
    ofFile bs name = .error ⟨.corruptStream, name⟩ := by
  unfold contents? at h
  unfold ofFile
  by_cases hcompressed : Gzip.isCompressed bs
  · rw [if_pos hcompressed] at h ⊢
    rw [h]
  · rw [if_neg hcompressed] at h
    cases h

/-- A file is refused for the encoding of its document exactly if that declares one that cannot be
read. -/
theorem ofFile_eq_document_iff {bs : List UInt8} {name : String} {refusal : Xml.Refusal}
    (hencoding : refusal.isMarkup = false) :
    ofFile bs name = .error ⟨.document refusal, name⟩ ↔
      ∃ contents, contents? bs = some contents ∧ DeclaresUnreadable contents refusal := by
  -- without contents there is no text that could declare an encoding
  cases hcontents : contents? bs with
  | none =>
    rw [ofFile_of_contents?_eq_none hcontents]
    refine iff_of_false (fun h => ?_) ?_
    · cases h
    · rintro ⟨_, h, -⟩
      cases h
  | some contents =>
    simp only [Option.some.injEq, exists_eq_left']
    rw [ofFile_of_contents?_eq_some hcontents, ← Xml.Document.parse_octets_eq_error_iff hencoding]
    unfold ofDocument
    cases Xml.Document.parse (.octets contents) with
    | error other => simp
    | ok root =>
      -- once there is a document, only its artifacts can be refused
      refine iff_of_false (fun h => ?_) (fun h => ?_)
      · simp only at h
        cases hregistry : readRegistry root with
        | ok registry =>
          rw [hregistry] at h
          cases h
        | error cause =>
          rw [hregistry] at h
          cases h
          exact readRegistry_ne_document hregistry
      · cases h

/-- Whatever is wrong with a file is told under the name of the file. -/
theorem name_of_ofFile_eq_error {bs : List UInt8} {name : String} {m : Malformed}
    (h : ofFile bs name = .error m) : m.name = name := by
  cases hcontents : contents? bs with
  | none =>
    rw [ofFile_of_contents?_eq_none hcontents] at h
    cases h
    rfl
  | some contents =>
    rw [ofFile_of_contents?_eq_some hcontents] at h
    unfold ofDocument at h
    split at h
    · cases h
      rfl
    · split at h
      · cases h
        rfl
      · cases h

/-- A file that cannot be passed over fails the work. -/
theorem outcome_loadFile_of_stops {e : Failure} (h : Stops t p e) (noted : List Warning) :
    (loadFile t p).outcome noted = (.error e, noted) := by
  cases h with
  | nullCharacter h =>
    unfold loadFile
    rw [(t.read_eq_nullCharacter_iff p).2 h]
    rfl
  | encoding hread hcontents h =>
    obtain ⟨charset, octets, d, rest, label, -, -, -, -, hencoding⟩ := id h
    have hfile : ofFile _ p.toText = .error ⟨.document _, p.toText⟩ :=
      (ofFile_eq_document_iff hencoding).2 ⟨_, hcontents, h⟩
    unfold loadFile
    simp only [hread, hfile, hencoding]
    rfl

/-- **One file.** A file that can be passed over yields its document, or is noted and yields
none. -/
theorem outcome_loadFile (h : ∀ e, ¬ Stops t p e) (noted : List Warning) :
    (loadFile t p).outcome noted = (.ok (document? t p), noted ++ notes t p) := by
  unfold loadFile notes document?
  -- a file that cannot be read is noted; the error that nothing catches is ruled out
  cases hread : t.read p with
  | error e =>
    cases e with
    | nullCharacter => exact absurd (.nullCharacter ((t.read_eq_nullCharacter_iff p).1 hread)) (h _)
    | missing => rfl
    | notDirectory => rfl
    | isDirectory => rfl
    | «exists» => rfl
    | tooManyLinks => rfl
    | nameTooLong => rfl
  | ok bs =>
    simp only
    cases hfile : ofFile bs p.toText with
    | ok m =>
      simp only [Except.toOption, List.append_nil]
      rfl
    | error m =>
      obtain ⟨cause, name⟩ := m
      obtain rfl : name = p.toText := name_of_ofFile_eq_error hfile
      cases cause with
      | noPath => rfl
      | invalidIdentity issues => rfl
      | corruptStream => rfl
      | document refusal =>
        cases hmarkup : refusal.isMarkup with
        | true =>
          simp only [hmarkup]
          rfl
        | false =>
          -- the encoding is refused, so the file is one that stops the work
          obtain ⟨contents, hcontents, hdeclares⟩ := (ofFile_eq_document_iff hmarkup).1 hfile
          exact absurd (.encoding hread hcontents hdeclares) (h _)

/-! ### What is visited -/

/-- Did a test succeed, and with the answer that it holds? -/
def holds : Except FileError Bool → Bool
  | .ok answer => answer
  | .error _ => false

/-- The files that a path stands for: of a directory, its entries that are files, in the order of
their names, or the path itself. -/
def filesAt (t : FileTree) (p : Path) : List Path :=
  if holds (t.isDirectory p) then ((t.entries p).map p.child).filter fun q => holds (t.isFile q)
  else [p]

/-- The files that are visited for some paths, in order. -/
def visited (t : FileTree) (paths : List Path) : List Path := paths.flatMap (filesAt t)

/-- The tests that the visit of some paths asks for do not fail. -/
structure TestsSucceed (t : FileTree) (paths : List Path) : Prop where
  ofPaths : ∀ p ∈ paths, ∃ directory, t.isDirectory p = .ok directory
  ofEntries : ∀ p ∈ paths, t.isDirectory p = .ok true → ∀ name ∈ t.entries p,
    ∃ file, t.isFile (p.child name) = .ok file

/-- The files among entries are those that are tested to be files. -/
theorem outcome_filesAmong {names : List String}
    (h : ∀ name ∈ names, ∃ file, t.isFile (p.child name) = .ok file) (noted : List Warning) :
    (filesAmong t p names).outcome noted =
      (.ok ((names.map p.child).filter fun q => holds (t.isFile q)), noted) := by
  induction names with
  | nil => rfl
  | cons name names ih =>
    obtain ⟨file, hfile⟩ := h name List.mem_cons_self
    have hrest := ih fun other hother => h other (List.mem_cons_of_mem name hother)
    rw [filesAmong, List.map_cons, List.filter_cons, hfile]
    cases file with
    | true => exact Working.outcome_bind_of_ok hrest _
    | false => exact hrest

/-- Finding the files that a path stands for fails for no test, and notes nothing. -/
theorem outcome_filesOf {paths : List Path} (htests : TestsSucceed t paths) (hp : p ∈ paths)
    (noted : List Warning) : (filesOf t p).outcome noted = (.ok (filesAt t p), noted) := by
  obtain ⟨directory, hdirectory⟩ := htests.ofPaths p hp
  have htest : (Noting.ofFile (t.isDirectory p)).outcome noted = (.ok directory, noted) := by
    rw [hdirectory]
    rfl
  unfold filesOf filesAt
  rw [Working.outcome_bind_of_ok htest, hdirectory]
  cases directory with
  | true => exact outcome_filesAmong (htests.ofEntries p hp hdirectory) noted
  | false => rfl

/-- Loading is reading what is visited. -/
theorem outcome_loadAll_eq {paths : List Path} (htests : TestsSucceed t paths)
    (noted : List Warning) : (loadAll t paths).outcome noted =
      ((visited t paths).mapM (loadFile t) >>= fun sources =>
        pure (sources.filterMap id) : Noting (List Metadata)).outcome noted := by
  have hfiles : (paths.mapM (filesOf t)).outcome noted = (.ok (paths.map (filesAt t)), noted) := by
    have hstep : ∀ p ∈ paths, ∀ noted,
        (filesOf t p).outcome noted = (.ok (filesAt t p), noted ++ (fun _ => []) p) := by
      intro p hp noted
      rw [outcome_filesOf htests hp, List.append_nil]
    have hrun := Noting.outcome_mapM hstep noted
    rwa [List.flatMap_eq_nil_iff.2 fun _ _ => rfl, List.append_nil] at hrun
  unfold loadAll visited
  rw [Working.outcome_bind_of_ok hfiles, List.flatMap_def]

section Loaded

variable {paths : List Path} (htests : TestsSucceed t paths) (noted : List Warning)
include htests

/-- Where all files can be passed over, the documents of the visit are loaded. -/
theorem outcome_loadAll (h : ∀ p ∈ visited t paths, ∀ e, ¬ Stops t p e) :
    (loadAll t paths).outcome noted = (.ok ((visited t paths).filterMap (document? t)),
      noted ++ (visited t paths).flatMap (notes t)) := by
  have hrun := Noting.outcome_mapM (fun p hp => outcome_loadFile (h p hp)) noted
  rw [outcome_loadAll_eq htests, Working.outcome_bind_of_ok hrun]
  show (Except.ok _, _) = _
  rw [List.filterMap_map]
  rfl

/-- The first file that cannot be passed over fails the work. -/
theorem outcome_loadAll_of_stops {before after : List Path} {e : Failure}
    (hvisited : visited t paths = before ++ p :: after)
    (hbefore : ∀ q ∈ before, ∀ e', ¬ Stops t q e') (h : Stops t p e) :
    (loadAll t paths).outcome noted = (.error e, noted ++ before.flatMap (notes t)) := by
  rw [outcome_loadAll_eq htests, hvisited]
  refine Working.outcome_bind_of_error ?_ _
  exact Noting.outcome_mapM_of_error (fun q hq => outcome_loadFile (hbefore q hq))
    (outcome_loadFile_of_stops h) noted

end Loaded

/-- A list with a file that cannot be passed over has a first such file. -/
theorem exists_first_stops {files : List Path} (h : ∃ p ∈ files, ∃ e, Stops t p e) :
    ∃ before p after e, files = before ++ p :: after ∧ (∀ q ∈ before, ∀ e', ¬ Stops t q e') ∧
      Stops t p e := by
  -- the test need not be decided by a program, only the first success is asked for
  classical
  have hfind : (files.find? fun p => decide (∃ e, Stops t p e)).isSome = true := by
    obtain ⟨p, hp, hstops⟩ := h
    exact List.find?_isSome.2 ⟨p, hp, decide_eq_true hstops⟩
  obtain ⟨p, hp⟩ := Option.isSome_iff_exists.1 hfind
  obtain ⟨hstops, before, after, rfl, hbefore⟩ := List.find?_eq_some_iff_append.1 hp
  obtain ⟨e, he⟩ := of_decide_eq_true hstops
  refine ⟨before, p, after, e, rfl, fun q hq e' hq' => ?_, he⟩
  have hnot := hbefore q hq
  rw [decide_eq_true ⟨e', hq'⟩] at hnot
  cases hnot

/-- **The metadata of a system.** Where no test fails, the work fails exactly if a visited file
cannot be passed over, and then for the first of these. Otherwise it yields the documents of the
visited files that can be read and are in order, in the order of the visit, and notes each of the
others once. -/
theorem loadAll_eq {paths : List Path} (htests : TestsSucceed t paths) (noted : List Warning) :
    (∀ e, ((loadAll t paths).outcome noted).1 = .error e ↔
      ∃ before p after, visited t paths = before ++ p :: after ∧
        (∀ q ∈ before, ∀ e', ¬ Stops t q e') ∧ Stops t p e) ∧
    ((∀ p ∈ visited t paths, ∀ e, ¬ Stops t p e) →
      (loadAll t paths).outcome noted = (.ok ((visited t paths).filterMap (document? t)),
        noted ++ (visited t paths).flatMap (notes t))) ∧
    ∀ p ∈ paths, (t.entries p).Pairwise (· ≤ ·) := by
  refine ⟨fun e => ⟨fun herror => ?_, ?_⟩, outcome_loadAll htests noted,
    fun p _ => t.pairwise_entries p⟩
  · -- without a file that stops the work there would be no error
    have hstops : ∃ p ∈ visited t paths, ∃ e, Stops t p e := by
      refine Classical.byContradiction fun hnone => ?_
      rw [outcome_loadAll htests noted fun p hp e h => hnone ⟨p, hp, e, h⟩] at herror
      cases herror
    obtain ⟨before, p, after, e', hvisited, hbefore, h⟩ := exists_first_stops hstops
    rw [outcome_loadAll_of_stops htests noted hvisited hbefore h] at herror
    cases herror
    exact ⟨before, p, after, hvisited, hbefore, h⟩
  · rintro ⟨before, p, after, hvisited, hbefore, h⟩
    rw [outcome_loadAll_of_stops htests noted hvisited hbefore h]

/-- A tree with a directory that holds a document without artifacts, a file that is no document, a
document in an encoding that is not known, and another directory. -/
def sampleTree : FileTree where
  nodes := [(["d"], .directory), (["d", "a"], .file (Utf8.encodeString "<m/>")),
    (["d", "b"], .file (Utf8.encodeString "<")), (["d", "c"], .directory),
    (["x"], .file (Utf8.encodeString "<?xml version='1.0' encoding='x'?><m/>"))]
  workingPlace := []

theorem loadAll_eq_sampleTree :
    TestsSucceed sampleTree [⟨.root, ["d"]⟩, ⟨.root, ["e"]⟩] ∧
    (∃ m : Metadata, m.name = "/d/a" ∧
      (loadAll sampleTree [⟨.root, ["d"]⟩, ⟨.root, ["e"]⟩]).outcome [] =
        (.ok [m], [.metadata ⟨.root, ["d", "b"]⟩, .metadata ⟨.root, ["e"]⟩])) ∧
    TestsSucceed sampleTree [⟨.root, ["x"]⟩, ⟨.root, ["\x00"]⟩] ∧
    ((loadAll sampleTree [⟨.root, ["x"]⟩, ⟨.root, ["\x00"]⟩]).outcome []).1 =
      .error (.encoding .unknownEncoding) := by
  -- the kinds of the paths that are given
  have hd : sampleTree.isDirectory ⟨.root, ["d"]⟩ = .ok true := rfl
  have hentries : sampleTree.entries ⟨.root, ["d"]⟩ = ["a", "b", "c"] := by
    have hlocate : sampleTree.locate ⟨.root, ["d"]⟩ = .ok ["d"] := rfl
    unfold FileTree.entries
    rw [hlocate]
    exact List.mergeSort_of_pairwise (by decide)
  -- every test that the walk makes succeeds
  have htests : TestsSucceed sampleTree [⟨.root, ["d"]⟩, ⟨.root, ["e"]⟩] := by
    constructor
    · rintro p (_ | ⟨_, _ | ⟨_, hp⟩⟩)
      · exact ⟨true, hd⟩
      · exact ⟨false, rfl⟩
      · cases hp
    · rintro p (_ | ⟨_, _ | ⟨_, hp⟩⟩) h name hname
      · rw [hentries] at hname
        rcases hname with _ | ⟨_, _ | ⟨_, _ | ⟨_, hs⟩⟩⟩
        · exact ⟨true, rfl⟩
        · exact ⟨true, rfl⟩
        · exact ⟨false, rfl⟩
        · cases hs
      · cases h
      · cases hp
  -- `d` stands for the two files in it, and `e` for itself
  have hvisited : visited sampleTree [⟨.root, ["d"]⟩, ⟨.root, ["e"]⟩] =
      [⟨.root, ["d", "a"]⟩, ⟨.root, ["d", "b"]⟩, ⟨.root, ["e"]⟩] := by
    have hat : filesAt sampleTree ⟨.root, ["d"]⟩ =
        [⟨.root, ["d", "a"]⟩, ⟨.root, ["d", "b"]⟩] := by
      rw [filesAt, hd, hentries]
      rfl
    rw [visited, List.flatMap_cons, hat]
    rfl
  have hdocuments : (document? sampleTree ⟨.root, ["d", "a"]⟩).map (·.name) = some "/d/a" ∧
      document? sampleTree ⟨.root, ["d", "b"]⟩ = none ∧
      document? sampleTree ⟨.root, ["e"]⟩ = none := by
    simp only [← Option.isNone_iff_eq_none]
    decide +kernel
  obtain ⟨hnamed, hb, he⟩ := hdocuments
  obtain ⟨m, ha, hname⟩ := Option.map_eq_some_iff.1 hnamed
  -- no file on this way declares an encoding, or holds U+0000 in its path
  have hpass : ∀ p ∈ visited sampleTree [⟨.root, ["d"]⟩, ⟨.root, ["e"]⟩], ∀ e,
      ¬ Stops sampleTree p e := by
    have hdeclares : ∀ text ∈ ["<m/>", "<"], ∀ refusal,
        ¬ DeclaresUnreadable (Utf8.encodeString text) refusal := by
      rintro text (_ | ⟨_, _ | ⟨_, htext⟩⟩) refusal ⟨_, _, _, _, _, hdetect, hsplit, -⟩
      · cases hdetect
        cases hsplit
      · cases hdetect
        cases hsplit
      · cases htext
    rw [hvisited]
    rintro p (_ | ⟨_, _ | ⟨_, _ | ⟨_, hp⟩⟩⟩) e (hnull | ⟨hread, hcontents, h⟩)
    · exact absurd hnull (by decide)
    · cases hread
      cases hcontents
      exact hdeclares "<m/>" (by decide) _ h
    · exact absurd hnull (by decide)
    · cases hread
      cases hcontents
      exact hdeclares "<" (by decide) _ h
    · exact absurd hnull (by decide)
    · cases hread
    · cases hp
    · cases hp
  -- the file `x` declares an encoding that is not known
  have hx : DeclaresUnreadable (Utf8.encodeString "<?xml version='1.0' encoding='x'?><m/>")
      .unknownEncoding := by
    have hsplit : Xml.Declaration.split (Xml.Charset.utf8.decode
        (Utf8.encodeString "<?xml version='1.0' encoding='x'?><m/>")) =
          .ok (some ⟨some "x", false⟩, "<m/>".toList) := by rfl
    exact ⟨.utf8, _, _, _, "x", rfl, hsplit, rfl, by rfl, rfl⟩
  have htestsX : TestsSucceed sampleTree [⟨.root, ["x"]⟩, ⟨.root, ["\x00"]⟩] := by
    constructor
    · rintro p (_ | ⟨_, _ | ⟨_, hp⟩⟩)
      · exact ⟨false, rfl⟩
      · exact ⟨false, rfl⟩
      · cases hp
    · rintro p (_ | ⟨_, _ | ⟨_, hp⟩⟩) h
      · cases h
      · cases h
      · cases hp
  -- so the paths of the first list are loaded, and those of the second stop at `x`
  have hfails := ((loadAll_eq htestsX []).1 (.encoding .unknownEncoding)).2
    ⟨[], _, _, rfl, List.forall_mem_nil _, .encoding rfl rfl hx⟩
  have hloads := (loadAll_eq htests []).2.1 hpass
  rw [hvisited] at hloads
  simp only [List.filterMap_cons, List.filterMap_nil, List.flatMap_cons, List.flatMap_nil, notes,
    ha, hb, he] at hloads
  exact ⟨htests, ⟨m, hname, hloads⟩, htestsX, hfails⟩

end Metadata

end Depot
