import Depot.Proofs.Repository.Lineage
/-!
# The namespace of an answer

Namespaces are settled twice. When a tree is built, a namespace that is given for it goes to all of
its nodes, and only without one does each node have what its definition declares. When a request is
answered, each node on the way fills in its namespace where the answer has none yet.

One node takes the first of two names that is not empty (`Passage.pass_namespaceName`), so a way
takes the first of what the leaf reports and the names of all of its nodes
(`Probe.finish_namespaceName`). Of a tree that is built these names are known
(`Configurator.Lineage.namespaces`), and `firstGiven_lineage` puts both together:
`Configurator.namespace_of_answer` says that what the documents record comes first, then what was
given for the tree, and then what the definitions declare, from the leaf outwards.
-/

namespace Depot

/-- The first of some names that is not empty; empty if all of them are. -/
def firstGiven (names : List String) : String := (names.find? (· != "")).getD ""

theorem firstGiven_cons (name : String) (names : List String) :
    firstGiven (name :: names) = if name = "" then firstGiven names else name := by
  unfold firstGiven
  by_cases h : name = "" <;> simp [h]

/-! ### Filling in -/

theorem anchored_namespaceName (anchor : Option Path) (a : Artifact) :
    (anchored anchor a).namespaceName = a.namespaceName := by
  unfold anchored
  split
  · split <;> rfl
  · rfl

/-- A node fills in its namespace where there is none. -/
theorem Passage.pass_namespaceName (n : Passage) (a : Artifact) : (n.pass a).namespaceName =
    if a.namespaceName = "" then n.frame.namespaceName else a.namespaceName := by
  unfold pass Frame.mark
  rw [anchored_namespaceName]
  by_cases hnone : a.namespaceName = ""
  · by_cases hempty : n.frame.namespaceName = ""
    · rw [if_neg fun h => h.1 hempty, if_pos hnone, hempty, anchored_namespaceName, hnone]
    · rw [if_pos ⟨hempty, hnone⟩, if_pos hnone]
  · rw [if_neg fun h => hnone h.2, if_neg hnone, anchored_namespaceName]

/-- **Along a way** the first namespace stays: that of the leaf, or that of the first node with
one. -/
theorem Probe.finish_namespaceName (p : Probe) (a : Artifact) : (p.finish a).namespaceName =
    firstGiven (a.namespaceName :: p.way.map fun n => n.frame.namespaceName) := by
  unfold Probe.finish
  -- on the nodes of the way, from the leaf outwards
  induction p.way generalizing a with
  | nil =>
    show a.namespaceName = _
    rw [List.map_nil, firstGiven_cons]
    split
    · next hempty => exact hempty
    · rfl
  | cons n way ih =>
    rw [List.foldl_cons, ih, n.pass_namespaceName, List.map_cons, firstGiven_cons]
    by_cases hnone : a.namespaceName = ""
    · rw [if_pos hnone, firstGiven_cons a.namespaceName, if_pos hnone, firstGiven_cons]
    · rw [if_neg hnone, if_neg hnone, firstGiven_cons, if_neg hnone]

namespace Configurator

variable {k : Configurator} {id namespaceName : String}

/-- What the nodes of a chain fill in: what was given for the tree, or else the first that one of
the definitions declares. -/
theorem Lineage.firstGiven_namespaces {leaf : Leaf} {ds : List Definition} {way : List Passage}
    (h : k.Lineage namespaceName leaf id ds way) :
    firstGiven (way.map fun n => n.frame.namespaceName) =
      firstGiven (namespaceName :: ds.map declaredNamespace) := by
  rw [h.namespaces, firstGiven_cons]
  by_cases hgiven : namespaceName = ""
  · simp only [if_pos hgiven]
  · -- all nodes have the same one, and there is one at least
    obtain ⟨d, ds, hds⟩ := List.exists_cons_of_ne_nil h.ne_nil
    rw [hds, List.map_cons, firstGiven_cons, if_neg hgiven, if_neg hgiven, if_neg hgiven]

/-- **The namespace of an answer** of a tree that is built. The answer comes from a leaf, along a
chain of definitions that leads out from it. Its namespace is the first that is not empty of these:
what the documents of the leaf record for the artifact, if it has any; what was given when the tree
was built; and what the definitions declare, from that of the leaf outwards. If all of them are
empty it has none. -/
theorem namespace_of_answer {r : Repository} (hbuild : k.configure id namespaceName = .ok r)
    {ε : Type} {access : Access (Except ε)} {c : Coordinate} {a : Artifact}
    (hanswer : r.resolve access [] c = .ok (some a)) :
    ∃ p found recorded, r.AnswersFrom access c a p found recorded ∧
      (∃ ds, k.Lineage namespaceName p.leaf id ds p.way) ∧
      ∀ ds, k.Lineage namespaceName p.leaf id ds p.way → a.namespaceName =
        firstGiven ((recorded.map Location.namespaceName).getD "" :: namespaceName ::
          ds.map declaredNamespace) := by
  obtain ⟨p, found, recorded, hfrom⟩ := Repository.exists_answersFrom hanswer
  refine ⟨p, found, recorded, hfrom,
    (unfolds_of_build hbuild).exists_lineage hfrom.mem_probes, fun ds hds => ?_⟩
  calc a.namespaceName
      = firstGiven (found.namespaceName :: p.way.map fun n => n.frame.namespaceName) := by
        rw [hfrom.finish, p.finish_namespaceName]
    _ = firstGiven (found.namespaceName :: namespaceName :: ds.map declaredNamespace) := by
        rw [firstGiven_cons, hds.firstGiven_namespaces, ← firstGiven_cons]
    _ = _ := by rw [hfrom.namespaceName]

theorem namespace_of_answer_nested : ∃ r a leaf recorded ds way,
    nestedConfigurator.configure "outer" = .ok r ∧
    r.resolve (nestedAccess ⟨"a.jar", ""⟩) [] nestedCoordinate = .ok (some a) ∧
    leaf.Records (nestedAccess ⟨"a.jar", ""⟩) a.coordinate recorded ∧
    nestedConfigurator.Lineage "" leaf "outer" ds way ∧ a.namespaceName = "near" ∧
    firstGiven ((recorded.map Location.namespaceName).getD "" :: "" :: ds.map declaredNamespace) =
      "near" := by
  have hrun : ((nestedConfigurator.configure "outer").toOption.bind fun r =>
      (r.resolve (nestedAccess ⟨"a.jar", ""⟩) [] nestedCoordinate).toOption) =
      some (some ⟨nestedCoordinate, "/usr/a.jar", "SYSTEM", "m", "near"⟩) := by decide +kernel
  obtain ⟨r, hr, ha⟩ := Option.bind_eq_some_iff.1 hrun
  have hbuild := eq_ok_of_toOption hr
  have hanswer := eq_ok_of_toOption ha
  obtain ⟨p, _, recorded, hfrom, ⟨ds, hds⟩, hnamespace⟩ := namespace_of_answer hbuild hanswer
  exact ⟨r, _, p.leaf, recorded, ds, p.way, hbuild, hanswer, hfrom.records, hds, rfl,
    (hnamespace ds hds).symm⟩

end Configurator

end Depot
