import Depot.Proofs.Outcome
import Depot.Proofs.Path.Cleaning
import Depot.Proofs.Repository.Anchoring
import Depot.Proofs.Service.Remembering
/-!
# Where installed files are looked for

The path of an installed file is put together from fields that are free texts, and then joined to
the root. So it need not be below the root: a field may hold `..` between slashes, and a text that
starts with a slash is an absolute path, for which the root does not count. The latter is also what
comes of the group `JPP/`, whose directory has no name.

`Repository.isBelow_iff_of_resolve_jpp` says of every answer when its path is below the root. It
always is for coordinates that lead down (`Coordinate.LeadsDown`): the directory that the group
stands for is relative and without `..`, and no other field has a slash.
-/

namespace Depot

namespace Path

/-- What does not start with a slash has no part in where a text starts. -/
theorem startOf_append {cs ds : List Char} (h : ds.head? ≠ some '/') :
    startOf (cs ++ ds) = startOf cs := by
  cases ds with
  | nil => rw [List.append_nil]
  | cons d ds =>
    have hd : d ≠ '/' := fun he => h (congrArg some he)
    -- the three characters that are looked at, one by one
    rcases cs with _ | ⟨a, _ | ⟨b, _ | ⟨e, cs⟩⟩⟩
    · simp [startOf, hd]
    · by_cases ha : a = '/' <;> simp [startOf, ha, hd]
    · by_cases ha : a = '/' <;> by_cases hb : b = '/' <;> simp [startOf, ha, hb, hd]
    · by_cases ha : a = '/' <;> by_cases hb : b = '/' <;> by_cases he : e = '/' <;>
        simp [startOf, ha, hb, he]

/-- A name at the end of a text is the last name of its path, if it stands alone or after a
slash. -/
theorem ofText_append_name {directory name : String}
    (hdirectory : directory = "" ∨ ∃ s, directory = s ++ "/") (hname : IsName name) :
    ofText (directory ++ name) =
      ⟨(ofText directory).start, (ofText directory).names ++ [name]⟩ := by
  have hstart : startOf (directory ++ name).toList = startOf directory.toList := by
    rw [String.toList_append]
    exact startOf_append fun h => hname.2 (List.mem_of_mem_head? h)
  have hlast : (Text.split '/' name).filter isKept = [name] := by
    have hread := ofText_of_isName hname
    exact congrArg Path.names hread
  unfold ofText
  rw [hstart, mk.injEq]
  refine ⟨rfl, ?_⟩
  rcases hdirectory with rfl | ⟨s, rfl⟩
  · rw [String.empty_append, hlast]
    rfl
  · have hsplit : ∀ t : String,
        Text.split '/' (s ++ "/" ++ t) = Text.split '/' s ++ Text.split '/' t := by
      intro t
      unfold Text.split
      rw [← List.map_append, ← Text.splitChars_append_separator]
      simp
    -- the slash at the end of the directory leaves an empty field, which is dropped
    have hempty := hsplit ""
    rw [String.append_empty] at hempty
    have hnone : (Text.split '/' "").filter isKept = [] := by decide
    rw [hsplit, hempty, List.filter_append, hlast, List.filter_append, hnone, List.append_nil]

end Path

namespace Layout

variable {c : Coordinate} {versioned : Bool}

/-- What the group puts before the name of a file: its directory, with a slash after it. -/
def directory (c : Coordinate) : String :=
  if c.group.text = rootGroup then ""
  else match dropStart? (rootGroup ++ "/") c.group.text with
    | some directory => directory ++ "/"
    | none => c.group.text ++ "/"

/-- What the other fields put after the directory. -/
def fileName (c : Coordinate) (versioned : Bool) : String :=
  c.artifact.text ++ (if versioned then "-" ++ versionText c else "") ++
    (if c.classifier.text = "" then "" else "-" ++ c.classifier.text) ++ "." ++ c.extension.text

theorem base_eq (c : Coordinate) : base c = directory c ++ c.artifact.text := by
  unfold base directory
  split
  · exact String.empty_append.symm
  · cases dropStart? (rootGroup ++ "/") c.group.text <;> rfl

theorem relativePath_eq (c : Coordinate) (versioned : Bool) :
    relativePath c versioned = Path.ofText (directory c ++ fileName c versioned) := by
  simp only [relativePath, fileName, base_eq, String.append_assoc]

theorem directory_cases (c : Coordinate) : directory c = "" ∨ ∃ s, directory c = s ++ "/" := by
  unfold directory
  split
  · exact .inl rfl
  · split
    · exact .inr ⟨_, rfl⟩
    · exact .inr ⟨_, rfl⟩

end Layout

/-- The fields of the coordinate lead down from any root: the directory that the group stands for is
relative and without `..`, and no other field has a slash. -/
structure Coordinate.LeadsDown (c : Coordinate) : Prop where
  relative : (Path.ofText (Layout.directory c)).isAbsolute = false
  no_up : ".." ∉ (Path.ofText (Layout.directory c)).names
  no_slash : ∀ field ∈ [c.artifact.text, Layout.versionText c, c.classifier.text, c.extension.text],
    '/' ∉ field.toList

namespace Coordinate.LeadsDown

variable {c : Coordinate} {versioned : Bool}

/-- There are an artifact, a point and an extension in the name of a file. -/
theorem length_fileName (c : Coordinate) (versioned : Bool) :
    3 ≤ (Layout.fileName c versioned).length := by
  have hpos : ∀ s : String, s ≠ "" → 0 < s.length := fun s hs => by
    rw [← String.length_toList]
    exact List.length_pos_of_ne_nil fun h => hs (String.toList_eq_nil_iff.1 h)
  have hartifact := hpos _ c.artifact.ne_empty
  have hextension := hpos _ c.extension.ne_empty
  simp only [Layout.fileName, String.length_append]
  have hpoint : ".".length = 1 := rfl
  omega

/-- The file has one name under its directory. -/
theorem isName_fileName (h : c.LeadsDown) : Path.IsName (Layout.fileName c versioned) := by
  -- three characters are too many for `.` and `..`
  have hlength := length_fileName c versioned
  obtain ⟨hartifact, hversion, hclassifier, hextension⟩ :
      '/' ∉ c.artifact.text.toList ∧ '/' ∉ (Layout.versionText c).toList ∧
        '/' ∉ c.classifier.text.toList ∧ '/' ∉ c.extension.text.toList := by
    simpa using h.no_slash
  refine ⟨?_, ?_⟩
  · unfold Path.isKept
    rw [Bool.and_eq_true, bne_iff_ne, bne_iff_ne]
    constructor <;> (intro he; rw [he] at hlength; exact absurd hlength (by decide))
  · unfold Layout.fileName
    cases versioned <;> by_cases hc : c.classifier.text = "" <;>
      simp [hc, hartifact, hversion, hclassifier, hextension]

/-- The path of the file is relative and without `..`. -/
theorem relativePath (h : c.LeadsDown) (versioned : Bool) :
    (Layout.relativePath c versioned).isAbsolute = false ∧
    ".." ∉ (Layout.relativePath c versioned).names ∧
    (Layout.relativePath c versioned).names ≠ [] := by
  rw [Layout.relativePath_eq, Path.ofText_append_name (Layout.directory_cases c) h.isName_fileName]
  refine ⟨h.relative, fun hup => ?_, List.append_ne_nil_of_right_ne_nil _ (List.cons_ne_nil _ _)⟩
  rcases List.mem_append.1 hup with hup | hup
  · exact h.no_up hup
  · have hlength := length_fileName c versioned
    rw [← List.mem_singleton.1 hup] at hlength
    exact absurd hlength (by decide)

end Coordinate.LeadsDown

namespace Repository

/-- **Below the root.** A repository of installed files answers with the path of a file that was
tested to be there. A file whose own path is relative is below the root exactly if its path comes
back to it; one whose path is absolute is looked for there, whatever the root is. If the coordinate
leads down, the path is below the root. -/
theorem isBelow_iff_of_resolve_jpp {ε : Type} {access : Access (Except ε)} {position : List Nat}
    {frame : Frame} {root : String} {c : Coordinate} {a : Artifact}
    (h : (jpp frame (Path.ofText root)).resolve access position c = .ok (some a)) :
    ∃ file ∈ Layout.files c, access.isFile ((Path.ofText root).join file.1) = .ok true ∧
      Path.ofText a.path = (Path.ofText root).join file.1 ∧
      ((Path.ofText a.path).IsBelow (Path.ofText root) ↔
        if file.1.isAbsolute then file.1.IsBelow (Path.ofText root)
        else file.1.ComesBackTo (Path.ofText root)) ∧
      (c.LeadsDown → (Path.ofText a.path).IsBelow (Path.ofText root)) := by
  obtain ⟨before, p, after, found, hprobes, -, hfound, rfl⟩ := resolve_eq_some_iff.1 h
  have hprobe : .ok p ∈ (jpp frame (Path.ofText root)).probes access position c := by
    rw [hprobes]
    exact List.mem_append_right before List.mem_cons_self
  -- there is one probe, and nothing in its way has an anchor
  obtain rfl : p = ⟨.jpp (Path.ofText root), c, [{ frame }]⟩ := by
    rw [probes] at hprobe
    split at hprobe
    · exact Except.ok.inj (List.mem_singleton.1 hprobe)
    · cases hprobe
  have hanchors : ∀ n ∈ [({ frame } : Passage)], ∀ anchor ∈ n.anchor, anchor.IsClean := by
    intro n hn anchor hanchor
    rw [List.mem_singleton.1 hn] at hanchor
    cases hanchor
  obtain ⟨file, hfile, htest, hpath⟩ :=
    Probe.path_of_jpp rfl (Path.isClean_ofText root) hanchors hfound
  change Path.ofText _ = (Path.ofText root).join file.1 at hpath
  refine ⟨file, hfile, htest, hpath, ?_⟩
  rw [hpath]
  refine ⟨?_, fun hdown => ?_⟩
  · -- an absolute file name stands for itself, a relative one is joined to the root
    split
    · next habsolute => rw [Path.join_of_isAbsolute habsolute]
    · next hrelative => exact Path.isBelow_join_iff (Bool.eq_false_iff.2 hrelative)
  · -- a request that leads down has no `..` in its file name
    obtain ⟨versioned, hversioned⟩ := Layout.exists_of_mem_files hfile
    obtain ⟨hrelative, hup, hne⟩ := hdown.relativePath versioned
    rw [← hversioned] at hrelative hup hne
    exact (Path.isBelow_join_iff hrelative).2 (Path.comesBackTo_of_not_mem hup hne)

/-- Files of which one is below a root and one is beside it. -/
def filesAround : FileTree where
  nodes := [(["w"], .directory), (["w", "a.jar"], .file []), (["w", "java"], .directory),
    (["w", "java", "b.jar"], .file [])]
  workingPlace := []

/-- A request for an artifact of the root group, by the file without version. -/
def requestAtRoot (artifact : String) (hstrip : Text.strip artifact = artifact)
    (hne : artifact ≠ "") (hlength : artifact.length ≤ 200) : Coordinate where
  group := ⟨Layout.rootGroup, by decide, by decide, by decide⟩
  artifact := ⟨artifact, hstrip, hne, hlength⟩
  extension := .jar
  classifier := .none
  version := some systemVersion

theorem isBelow_iff_of_resolve_jpp_filesAround :
    let below := requestAtRoot "b" (by decide) (by decide) (by decide)
    let beside := requestAtRoot "../a" (by decide) (by decide) (by decide)
    Coordinate.parse "JPP:../a:SYSTEM" = .ok beside ∧
    (jpp {} (Path.ofText "/w/java")).resolve filesAround.access [] beside =
      .ok (some ⟨beside, "/w/java/../a.jar", systemVersion, "/w/java", ""⟩) ∧
    ¬ (Path.ofText "/w/java/../a.jar").IsBelow (Path.ofText "/w/java") ∧
    (∃ file ∈ Layout.files beside, ¬ file.1.ComesBackTo (Path.ofText "/w/java")) ∧
    (jpp {} (Path.ofText "/w/java")).resolve filesAround.access [] below =
      .ok (some ⟨below, "/w/java/b.jar", systemVersion, "/w/java", ""⟩) ∧
    (Path.ofText "/w/java/b.jar").IsBelow (Path.ofText "/w/java") := by
  intro below beside
  -- both answers are evaluated; where their files lie is read off the theorem
  have hbeside : (jpp {} (Path.ofText "/w/java")).resolve filesAround.access [] beside =
      .ok (some ⟨beside, "/w/java/../a.jar", systemVersion, "/w/java", ""⟩) :=
    eq_ok_of_toOption (by decide +kernel)
  have hbelow : (jpp {} (Path.ofText "/w/java")).resolve filesAround.access [] below =
      .ok (some ⟨below, "/w/java/b.jar", systemVersion, "/w/java", ""⟩) :=
    eq_ok_of_toOption (by decide +kernel)
  have hnot : ¬ (Path.ofText "/w/java/../a.jar").IsBelow (Path.ofText "/w/java") := by decide
  have hdown : below.LeadsDown := ⟨by decide, by decide, by decide⟩
  obtain ⟨_, -, -, -, -, hin⟩ := isBelow_iff_of_resolve_jpp hbelow
  obtain ⟨file, hfile, -, -, hiff, -⟩ := isBelow_iff_of_resolve_jpp hbeside
  refine ⟨eq_ok_of_toOption (by decide +kernel), hbeside, hnot, ⟨file, hfile, fun hback => ?_⟩,
    hbelow, hin hdown⟩
  obtain rfl : file = (Path.ofText "../a.jar", systemVersion) := List.mem_singleton.1 hfile
  exact hnot (hiff.2 hback)

end Repository

end Depot
