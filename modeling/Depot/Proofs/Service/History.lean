import Depot.Proofs.Service.Process
import Depot.Proofs.Service.Remembering
/-!
# Answers and the calls before them

The tools of a process share what it remembers: the tree of the settings, the maps of the loader and
the metadata of the leaves. This module asks whether that can be seen, over files that do not
change: is a call answered as it would be if it was the only one?

The step lemma is `call_eq`: in a process that keeps the invariant `Process.Sound`, a call is
answered as if everything was read anew (`Settings.freshAnswer`), and the process keeps the
invariant. The run lemma is its induction over the calls (`answers_eq`), and since a process that
was just started keeps the invariant, no answer depends on the calls before (`answers_start`).

**Where it can be seen.** A loader tells maps apart by their places alone. A configuration document
may give a depmap node other fragments than those of lookups, or of another node, at the same place;
then the first call decides which map all others get (`answers_start_ne`). So `answers_start` asks
that the sources with one place merge the same map. Without a document there is only one source, so
nothing need be asked.
-/

namespace Depot

/-! ### Answers that are read anew -/

/-- Where the map of lookups comes from. -/
def Settings.lookupSource (settings : Settings) : MapSource :=
  ⟨Path.ofText settings.resolverRoot, settings.depmapPaths, settings.loadTimeout⟩

/-- Where the maps of a system come from: that of lookups, and those of its tree. -/
def Settings.mapSources (settings : Settings) (t : FileTree) : List MapSource :=
  settings.lookupSource :: match Chain.build t settings with
    | .ok repository => repository.sources
    | .error _ => []

/-- What a request to resolve is answered if everything is read anew. -/
def Settings.freshResolution (settings : Settings) (t : FileTree) (s : String) :
    Except ToolError Resolution := do
  let c ← (Coordinate.parse s).mapError .coordinate
  let repository ← (Chain.build t settings).mapError .chain
  (Resolution.ofArtifact c <$> repository.resolve t.access [] c).mapError .failure

/-- What a lookup is answered if everything is read anew. -/
def Settings.freshLookup (settings : Settings) (t : FileTree) (s : String) :
    Except ToolError MappingLookup := do
  let c ← (Coordinate.parse s).mapError .coordinate
  let map ← (settings.lookupSource.merged t).mapError .failure
  return ⟨c, (map.lookup c).toList⟩

/-- What a call is answered if everything is read anew. -/
def Settings.freshAnswer (settings : Settings) (t : FileTree) : Call → Except ToolError Answer
  | .resolve s => Answer.resolution <$> settings.freshResolution t s
  | .lookup s => Answer.targets <$> settings.freshLookup t s

namespace Process

variable {t : FileTree} {settings : Settings}

/-- **The invariant of a process** over fixed files: its tree, once that is built, is the one that
the settings describe, and what it remembers is what would be read. -/
structure Sound (t : FileTree) (settings : Settings) (p : Process) : Prop where
  settings_eq : p.tools.settings = settings
  tree : ∀ tree ∈ p.tools.tree,
    Chain.build t settings = .ok tree.repository ∧ tree.loader = p.tools.loader
  memory : p.memory.Sound t (settings.mapSources t) p.tools.loader p.tools.tree

/-- A process that was just started keeps the invariant. -/
theorem sound_start (t : FileTree) (settings : Settings) : (start t settings).Sound t settings where
  settings_eq := rfl
  tree := fun _ h => nomatch h
  memory := {
    files := rfl
    maps := fun _ _ h => nomatch h
    metadata := fun _ _ _ h => nomatch h }

/-- The coordinate that a text names is the same in every process. -/
theorem run_coordinateOf (p : Process) (s : String) :
    p.run (Tools.coordinateOf s) = ((Coordinate.parse s).mapError .coordinate, p) := by
  unfold Tools.coordinateOf
  cases Coordinate.parse s <;> rfl

/-- The invariant after the tree of the settings is built. -/
theorem Sound.build {p : Process} (h : p.Sound t settings) (hnone : p.tools.tree = none)
    {repository : Repository} (hbuild : Chain.build t settings = .ok repository) :
    Sound t settings
      ⟨{ p.tools with tree := some ⟨repository, p.tools.loader, p.memory.trees⟩ },
        { p.memory with trees := p.memory.trees + 1 }⟩ := by
  -- no tree was there before, so nothing is remembered for its leaves
  have hempty : ∀ number position, p.memory.metadata.get? (number, position) = none := by
    intro number position
    cases hfound : p.memory.metadata.get? (number, position) with
    | none => rfl
    | some found =>
      obtain ⟨tree, hsome, -⟩ := h.memory.metadata number position found hfound
      rw [hnone] at hsome
      cases hsome
  refine ⟨h.settings_eq, fun tree hsome => ?_, h.memory.files, h.memory.maps, ?_⟩
  · cases hsome
    exact ⟨hbuild, rfl⟩
  · intro number position found hfound
    cases (hempty number position).symm.trans hfound

/-- The tree of the settings is built at first use, and kept. -/
theorem run_repositories {p : Process} (h : p.Sound t settings) :
    match Chain.build t settings with
    | .error e => p.run Tools.repositories = (.error (.chain e), p)
    | .ok repository => ∃ tree q, p.run Tools.repositories = (.ok tree, q) ∧ q.Sound t settings ∧
      q.tools.tree = some tree ∧ tree.repository = repository := by
  have hget : p.run (get : Tools.Answering Tools) = (.ok p.tools, p) := rfl
  unfold Tools.repositories
  rw [run_bind_of_ok hget]
  cases htree : p.tools.tree with
  | some tree =>
    -- an earlier call has built the tree
    obtain ⟨hbuild, -⟩ := h.tree tree htree
    rw [hbuild]
    exact ⟨tree, p, rfl, h, htree, rfl⟩
  | none =>
    -- it is built now, from files that no call changes
    have hmemory : p.run (Tools.serve get) = (.ok p.memory, p) := run_serve rfl
    dsimp only
    rw [run_bind_of_ok hmemory, h.memory.files, h.settings_eq]
    cases hbuild : Chain.build t settings with
    | error e => rfl
    | ok repository =>
      have hnew : (ServedTree.new repository p.tools.loader).outcome p.memory =
          (.ok ⟨repository, p.tools.loader, p.memory.trees⟩,
            { p.memory with trees := p.memory.trees + 1 }) := rfl
      have hbuilt : p.run (MonadExcept.ofExcept ((Except.ok repository).mapError .chain)) =
          (.ok repository, p) := rfl
      refine ⟨⟨repository, p.tools.loader, p.memory.trees⟩,
        ⟨{ p.tools with tree := some ⟨repository, p.tools.loader, p.memory.trees⟩ },
          { p.memory with trees := p.memory.trees + 1 }⟩, ?_, h.build htree hbuild, rfl, rfl⟩
      rw [run_bind_of_ok hbuilt, run_bind_of_ok (run_serve hnew), ← h.settings_eq]
      rfl

/-- Resolving is answered as if everything was read anew. -/
theorem run_resolveArtifact {p : Process} (h : p.Sound t settings)
    (hagree : MapSource.Agree t (settings.mapSources t)) (s : String) :
    ∃ q, p.run (Tools.resolveArtifact s) = (settings.freshResolution t s, q) ∧
      q.Sound t settings := by
  have hcoordinate := run_coordinateOf p s
  have hrepositories := run_repositories h
  -- the two steps that may fail, reading the coordinate and building the tree, then the answer
  unfold Tools.resolveArtifact Settings.freshResolution
  cases hparse : (Coordinate.parse s).mapError ToolError.coordinate with
  | error e =>
    rw [hparse] at hcoordinate
    exact ⟨p, run_bind_of_error hcoordinate _, h⟩
  | ok c =>
    rw [hparse] at hcoordinate
    rw [run_bind_of_ok hcoordinate]
    cases hbuild : Chain.build t settings with
    | error e =>
      rw [hbuild] at hrepositories
      exact ⟨p, run_bind_of_error hrepositories _, h⟩
    | ok repository =>
      rw [hbuild] at hrepositories
      obtain ⟨tree, q, hrun, hq, htree, rfl⟩ := hrepositories
      obtain ⟨-, hloader⟩ := hq.tree tree htree
      -- the sources of the tree are among those that agree
      have hsources : ∀ source ∈ tree.repository.sources, source ∈ settings.mapSources t := by
        intro source hsource
        unfold Settings.mapSources
        rw [hbuild]
        exact List.mem_cons_of_mem _ hsource
      have hmemory := hq.memory
      rw [htree, ← hloader] at hmemory
      obtain ⟨after, hanswer, hafter⟩ := tree.yields_answer hagree hsources c q.memory hmemory
      refine ⟨⟨q.tools, after⟩, ?_, hq.settings_eq, hq.tree, ?_⟩
      · rw [run_bind_of_ok hrun, run_serve hanswer]
        rfl
      · show after.Sound t _ q.tools.loader q.tools.tree
        rw [htree, ← hloader]
        exact hafter

/-- A lookup is answered as if everything was read anew. -/
theorem run_lookupMapping {p : Process} (h : p.Sound t settings)
    (hagree : MapSource.Agree t (settings.mapSources t)) (s : String) :
    ∃ q, p.run (Tools.lookupMapping s) = (settings.freshLookup t s, q) ∧ q.Sound t settings := by
  have hcoordinate := run_coordinateOf p s
  unfold Tools.lookupMapping Settings.freshLookup
  cases hparse : (Coordinate.parse s).mapError ToolError.coordinate with
  | error e =>
    rw [hparse] at hcoordinate
    exact ⟨p, run_bind_of_error hcoordinate _, h⟩
  | ok c =>
    -- the map comes from the source of the lookup, merged now or remembered
    have hget : p.run (get : Tools.Answering Tools) = (.ok p.tools, p) := rfl
    obtain ⟨after, hload, hafter⟩ := Loader.yields_loadMap hagree
      (List.mem_cons_self : settings.lookupSource ∈ settings.mapSources t) p.memory h.memory
    rw [hparse] at hcoordinate
    rw [run_bind_of_ok hcoordinate, run_bind_of_ok hget, h.settings_eq]
    refine ⟨⟨p.tools, after⟩, ?_, h.settings_eq, h.tree, hafter⟩
    have hserve := run_serve hload
    cases hmerged : settings.lookupSource.merged t with
    | error e =>
      rw [hmerged] at hserve
      exact run_bind_of_error hserve _
    | ok map =>
      rw [hmerged] at hserve
      exact (run_bind_of_ok hserve _).trans rfl

/-- **A call.** Whatever was called before, a call is answered as if everything was read anew, and
it keeps the invariant. -/
theorem call_eq {p : Process} (h : p.Sound t settings)
    (hagree : MapSource.Agree t (settings.mapSources t)) (c : Call) :
    (p.call c).1 = settings.freshAnswer t c ∧ (p.call c).2.Sound t settings := by
  cases c with
  | resolve s =>
    obtain ⟨q, hrun, hq⟩ := run_resolveArtifact h hagree s
    unfold call Call.work
    rw [run_map, hrun]
    exact ⟨rfl, hq⟩
  | lookup s =>
    obtain ⟨q, hrun, hq⟩ := run_lookupMapping h hagree s
    unfold call Call.work
    rw [run_map, hrun]
    exact ⟨rfl, hq⟩

/-- **A run.** All calls are answered as if everything was read anew. -/
theorem answers_eq {p : Process} (h : p.Sound t settings)
    (hagree : MapSource.Agree t (settings.mapSources t)) (calls : List Call) :
    p.answers calls = calls.map (settings.freshAnswer t) := by
  induction calls generalizing p with
  | nil => rfl
  | cons c calls ih =>
    obtain ⟨hanswer, hnext⟩ := call_eq h hagree c
    rw [answers, hanswer, ih hnext, List.map_cons]

/-- Without a configuration document the tree has the source of lookups as its only one. -/
theorem agree_of_documentPath?_eq_none (h : Chain.documentPath? settings = none) :
    MapSource.Agree t (settings.mapSources t) := by
  -- the default chain reads one source, which is that of the lookup
  have hall : ∀ source ∈ settings.mapSources t, source = settings.lookupSource := by
    intro source hsource
    unfold Settings.mapSources Chain.build at hsource
    rw [h] at hsource
    rcases List.mem_cons.1 hsource with hlookup | hsource
    · exact hlookup
    · have hdefault : source ∈ [settings.lookupSource] := by
        simpa [Chain.default, Repository.sources, Repository.sourcesOfAll,
          Settings.lookupSource] using hsource
      exact List.mem_singleton.1 hdefault
  intro a ha b hb _
  rw [hall a ha, hall b hb]

/-- **Answers do not depend on the calls before**, where the system has no configuration document,
or all sources of maps with one place merge the same map: in a process that was just started, each
of some calls is answered as it is when it is the only one. -/
theorem answers_start {t : FileTree} {settings : Settings}
    (h : Chain.documentPath? settings = none ∨ MapSource.Agree t (settings.mapSources t))
    (calls : List Call) :
    (start t settings).answers calls = calls.map fun c => ((start t settings).call c).1 := by
  have hagree := h.elim agree_of_documentPath?_eq_none id
  have hsound := sound_start t settings
  rw [answers_eq hsound hagree]
  exact List.map_congr_left fun c _ => (call_eq hsound hagree c).1.symm

/-- The identities that an answer tells. -/
def targetsOf : Except ToolError Answer → List Identity
  | .ok (.targets found) => found.targets
  | _ => []

/-- Files with a configuration document, whose one depmap node reads a fragment. -/
def sampleFiles : FileTree where
  nodes := [
    (["c"], .file (["<r>", "<repository>", "<id>system</id>", "<type>depmap</type>",
      "<configuration>", "<path>f</path>", "<repository>j</repository>", "</configuration>",
      "</repository>", "<repository>", "<id>j</id>", "<type>jpp</type>", "<properties>",
      "<root>j</root>", "</properties>", "</repository>", "</r>"].flatMap Utf8.encodeString)),
    (["f"], .file (["<dependency>", "<maven>", "<groupId>g</groupId>",
      "<artifactId>a</artifactId>", "</maven>", "<jpp>", "<groupId>x</groupId>",
      "<artifactId>y</artifactId>", "</jpp>", "</dependency>"].flatMap Utf8.encodeString))]
  workingPlace := []

/-- Settings that name the document, and have other paths for lookups. -/
def sampleSettings (paths : List String) : Settings where
  depmapPaths := paths
  repositoryConfig := some "c"

theorem answers_start_sampleFiles :
    MapSource.Agree sampleFiles ((sampleSettings ["./f"]).mapSources sampleFiles) ∧
    (start sampleFiles (sampleSettings ["./f"])).answers [.resolve "g:a:1", .lookup "g:a"] =
      [.resolve "g:a:1", .lookup "g:a"].map fun c =>
        ((start sampleFiles (sampleSettings ["./f"])).call c).1 := by
  -- the two sources spell one path in two ways
  have hsources : (sampleSettings ["./f"]).mapSources sampleFiles =
      [⟨.root, ["./f"], none⟩, ⟨.root, ["f"], none⟩] := by
    decide +kernel
  have hagree : MapSource.Agree sampleFiles ((sampleSettings ["./f"]).mapSources sampleFiles) := by
    intro a ha b hb _
    rw [hsources] at ha hb
    have hall : ∀ source ∈ [(⟨.root, ["./f"], none⟩ : MapSource), ⟨.root, ["f"], none⟩],
        source.root = .root ∧ source.paths.map Path.ofText = [⟨.relative, ["f"]⟩] := by
      decide
    obtain ⟨hroot, hpaths⟩ := hall a ha
    obtain ⟨hroot', hpaths'⟩ := hall b hb
    exact MapSource.merged_congr (hroot.trans hroot'.symm) (hpaths.trans hpaths'.symm)
  exact ⟨hagree, answers_start (.inr hagree) _⟩

theorem answers_start_ne :
    (start sampleFiles (sampleSettings [])).answers [.resolve "g:a:1", .lookup "g:a"] ≠
      [.resolve "g:a:1", .lookup "g:a"].map fun c =>
        ((start sampleFiles (sampleSettings [])).call c).1 := by
  intro h
  -- the lookup is answered from the map that was merged for the tree
  have hafter : targetsOf (((start sampleFiles (sampleSettings [])).call (.resolve "g:a:1")).2.call
      (.lookup "g:a")).1 ≠ [] := by
    decide +kernel
  have hfresh :
      targetsOf ((start sampleFiles (sampleSettings [])).call (.lookup "g:a")).1 = [] := by
    decide +kernel
  simp only [answers, List.map_cons, List.cons.injEq] at h
  rw [h.2.1] at hafter
  exact hafter hfresh

end Process

end Depot
