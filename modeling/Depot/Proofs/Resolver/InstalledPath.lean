import Depot.Proofs.Coordinate.Fields
import Depot.Proofs.Outcome
import Depot.Proofs.Repository.Anchoring
import Depot.Proofs.Repository.Unfolding
import Depot.Proofs.Service.Remembering
import Depot.Resolver.Chain
/-!
# The path of an installed artifact

Whichever tree the settings describe, the roots of its leaves over installed files and the anchors
of its compound nodes are taken from the root of the system (`Chain.builtUnder_of_build`). If that
is absolute, so are the paths that the leaves test, no node anchors them, and the path in an answer
is the path of the file that was found.

If it is relative, the leaves test paths that start with it, and take them for relative paths all
the same, so each anchor on the way puts the root of the system before the path once more. The path
in the answer is then the path of the file that was found only if there is nothing in the anchors,
and in general nothing need be where it leads. `Chain.path_of_installed` says both.
-/

namespace Depot

/-- A tree that is configured takes its roots and anchors from the root of its configurator. -/
theorem Configurator.Unfolds.builtUnder {k : Configurator} {namespaceName id : String}
    {r : Repository} (h : k.Unfolds namespaceName id r) : r.BuiltUnder k.root := by
  induction h with
  | @node id d condition body trees r _ _ _ hlength _ hnode ih =>
    -- the trees below were configured with the same root
    have hall : ∀ tree ∈ trees, tree.BuiltUnder k.root := by
      intro tree htree
      obtain ⟨other, hmem⟩ := exists_reference_of_mem hlength htree
      exact ih other tree hmem
    cases hnode with
    | compound =>
      refine .compound (fun anchor hanchor => ?_) hall
      obtain ⟨text, -, rfl⟩ := Option.map_eq_some_iff.1 hanchor
      exact ⟨text, rfl⟩
    | metadata => exact .metadata
    | jpp => exact .jpp _
    | depmap => exact .depmap (hall _ (List.mem_singleton_self _))

namespace Chain

variable {t : FileTree} {settings : Settings} {r : Repository}

/-- The chain that is built in takes its roots and anchors from the root of the system. -/
theorem builtUnder_default (settings : Settings) :
    (default settings).BuiltUnder (Path.ofText settings.resolverRoot) := by
  refine .depmap (.compound ?_ ?_)
  · rintro anchor ⟨⟩
    exact ⟨"", (Path.follow_empty _).symm⟩
  · rintro child (_ | ⟨_, _ | ⟨_, hchild⟩⟩)
    · exact .metadata
    · exact .jpp settings.javaRoot
    · cases hchild

/-- The tree of a system takes its roots and anchors from the root of the system. -/
theorem builtUnder_of_build (h : build t settings = .ok r) :
    r.BuiltUnder (Path.ofText settings.resolverRoot) := by
  unfold build at h
  -- the default chain, or one that is configured by a file
  split at h
  · cases h
    exact builtUnder_default settings
  · split at h
    · next bs _ =>
      unfold ofDocument at h
      cases hread : (Definition.ofDocument (.octets bs)).mapError ChainError.definition with
      | error cause =>
        rw [hread] at h
        cases h
      | ok definitions =>
        rw [hread] at h
        change (Configurator.configure _ settings.repositoryId).mapError _ = _ at h
        cases hbuild : Configurator.configure _ settings.repositoryId with
        | error cause =>
          rw [hbuild] at h
          cases h
        | ok built =>
          rw [hbuild] at h
          cases h
          exact (Configurator.unfolds_of_build hbuild).builtUnder
    · cases h

/-- **The path of an installed artifact.** An answer of a tree that the settings describe comes from
a probe. If that asks a leaf over installed files, the leaf has tested the path of a file under its
root to lead to one. The path in the answer is that path as the nodes on the way anchor it: the same
one exactly if it is absolute, or there is nothing in any anchor on the way. So where the root of
the system is absolute, the path in the answer is the path that was tested, and leads to a file. -/
theorem path_of_installed (hbuild : build t settings = .ok r) {ε : Type}
    {access : Access (Except ε)} {c : Coordinate} {a : Artifact}
    (hanswer : r.resolve access [] c = .ok (some a)) :
    ∃ before p after found, r.probes access [] c = before ++ .ok p :: after ∧
      (∀ entry ∈ before, Probe.FindsNothing access entry) ∧ p.find access = .ok (some found) ∧
      a = p.finish found ∧ ∀ root, p.leaf = .jpp root → ∃ file ∈ Layout.files p.coordinate,
        access.isFile (root.join file.1) = .ok true ∧
        Path.ofText a.path = Passage.anchorAlong p.way (root.join file.1) ∧
        (Path.ofText a.path = root.join file.1 ↔ (root.join file.1).isAbsolute = true ∨
          ∀ n ∈ p.way, ∀ anchor ∈ n.anchor, anchor = ⟨.relative, []⟩) ∧
        ((Path.ofText settings.resolverRoot).isAbsolute = true →
          Path.ofText a.path = root.join file.1 ∧
            access.isFile (Path.ofText a.path) = .ok true) := by
  obtain ⟨before, p, after, found, hprobes, hbefore, hfound, rfl⟩ :=
    Repository.resolve_eq_some_iff.1 hanswer
  refine ⟨before, p, after, found, hprobes, hbefore, hfound, rfl, fun root hleaf => ?_⟩
  -- the probe that answered is one of the tree, and the tree keeps its root
  have hmem : .ok p ∈ r.probes access [] c := by
    rw [hprobes]
    exact List.mem_append_right before List.mem_cons_self
  have hbuilt : p.BuiltUnder (Path.ofText settings.resolverRoot) :=
    (builtUnder_of_build hbuild).probe hmem
  obtain ⟨hroot, hanchors⟩ := hbuilt.isClean (Path.isClean_ofText settings.resolverRoot)
  obtain ⟨file, hfile, htest, hpath⟩ := p.path_of_jpp hleaf (hroot root hleaf) hanchors hfound
  refine ⟨file, hfile, htest, hpath, ?_, fun habsolute => ?_⟩
  · -- the path is the joined one unless some anchor on the way changes it
    rw [hpath]
    exact Passage.anchorAlong_eq_self_iff
  · -- the root of the leaf starts where the root of the system does, and so does the file
    have hfull : (root.join file.1).isAbsolute = true := by
      obtain ⟨s, rfl⟩ := hbuilt.leaf root hleaf
      exact Path.isAbsolute_join (Path.isAbsolute_join habsolute)
    rw [hpath, Passage.anchorAlong_of_isAbsolute hfull]
    exact ⟨rfl, htest⟩

/-- Files of which one is installed, in a directory of the working directory. -/
def installedFiles : FileTree where
  nodes := [(["w", "r"], .directory), (["w", "r", "j"], .directory),
    (["w", "r", "j", "c.jar"], .file [])]
  workingPlace := ["w"]

/-- Settings under which this file is installed, with the root of the system written either way. -/
def settingsAt (root : String) : Settings :=
  { resolverRoot := root, depmapPaths := [], metadataPaths := [], javaRoot := "j" }

/-- The request for the installed file. -/
def installedRequest : Coordinate where
  group := .literal Layout.rootGroup rfl
  artifact := .literal "c" rfl
  extension := .jar
  classifier := .none
  version := none

/-- The answer, with a path and the root of a leaf. -/
def installedArtifact (path source : String) : Artifact :=
  ⟨installedRequest, path, systemVersion, source, ""⟩

/-- The nodes on the way of its probe. -/
def installedWay (root : String) : List Passage :=
  [{ frame := {} }, { frame := {}, anchor := some (Path.ofText root) }, { frame := {} }]

theorem path_of_installed_settingsAt :
    (Chain.default (settingsAt "/w/r")).resolve installedFiles.access [] installedRequest =
      .ok (some (installedArtifact "/w/r/j/c.jar" "/w/r/j")) ∧
    installedFiles.access.isFile (Path.ofText "/w/r/j/c.jar") = .ok true ∧
    (Chain.default (settingsAt "r")).resolve installedFiles.access [] installedRequest =
      .ok (some (installedArtifact "r/r/j/c.jar" "r/j")) ∧
    installedFiles.access.isFile (Path.ofText "r/r/j/c.jar") = .ok false ∧
    ∃ file ∈ Layout.files installedRequest,
      installedFiles.access.isFile (Path.join ⟨.relative, ["r", "j"]⟩ file.1) = .ok true ∧
      Path.ofText "r/r/j/c.jar" ≠ Path.join ⟨.relative, ["r", "j"]⟩ file.1 := by
  -- the first probe asks for metadata, and there are none
  have hsecond : ∀ {m p q : Probe} {before after : List (Except Failure Probe)} {found : Artifact},
      m.find installedFiles.access = .ok none → [.ok m, .ok q] = before ++ .ok p :: after →
      p.find installedFiles.access = .ok (some found) → p = q := by
    rintro m p q (_ | ⟨_, _ | ⟨_, before⟩⟩) after found hm hlist hfound
    · cases hlist
      cases hm.symm.trans hfound
    · cases hlist
      rfl
    · cases before <;> cases hlist
  have habsolute : (Chain.default (settingsAt "/w/r")).resolve installedFiles.access []
      installedRequest = .ok (some (installedArtifact "/w/r/j/c.jar" "/w/r/j")) :=
    eq_ok_of_toOption (by decide +kernel)
  have hrelative : (Chain.default (settingsAt "r")).resolve installedFiles.access []
      installedRequest = .ok (some (installedArtifact "r/r/j/c.jar" "r/j")) :=
    eq_ok_of_toOption (by decide +kernel)
  have hbuild : ∀ root,
      build installedFiles (settingsAt root) = .ok (Chain.default (settingsAt root)) := fun _ => rfl
  obtain ⟨_, p, _, found, hprobes, -, hfound, -, hpath⟩ :=
    path_of_installed (hbuild "/w/r") habsolute
  obtain ⟨_, p', _, found', hprobes', -, hfound', -, hpath'⟩ :=
    path_of_installed (hbuild "r") hrelative
  have hp : p = ⟨.jpp ⟨.root, ["w", "r", "j"]⟩, installedRequest, installedWay "/w/r"⟩ :=
    hsecond (m := ⟨.metadata [0, 0] [], installedRequest, installedWay "/w/r"⟩) rfl hprobes hfound
  have hp' : p' = ⟨.jpp ⟨.relative, ["r", "j"]⟩, installedRequest, installedWay "r"⟩ :=
    hsecond (m := ⟨.metadata [0, 0] [], installedRequest, installedWay "r"⟩) rfl hprobes' hfound'
  subst hp hp'
  obtain ⟨_, -, -, -, -, hfile⟩ := hpath _ rfl
  obtain ⟨file, hmem, htest, -, hsame, -⟩ := hpath' _ rfl
  refine ⟨habsolute, (hfile rfl).2, hrelative, rfl, file, hmem, htest, fun h => ?_⟩
  rcases hsame.1 h with habs | hempty
  · rw [← h] at habs
    exact absurd habs (by decide)
  · -- the anchor is the root of the system, and there is a name in it
    have hroot := hempty { frame := {}, anchor := some (Path.ofText "r") }
      (List.mem_cons_of_mem _ List.mem_cons_self) _ rfl
    exact absurd hroot (by decide)

end Chain

end Depot
