import Depot.Proofs.Repository.Lineage
import Depot.Proofs.Resolver.InstalledPath
/-!
# The path of a recorded artifact

A document may record a relative path, and then the compound nodes around the leaf say where it
starts. Each of them looks at the path as it comes to it, which may have been anchored before.

Where all anchors are absolute, the first one on the way makes the path absolute, and nodes keep
absolute paths. So what a way does to a path is what its innermost anchor does
(`Passage.path_passAlong`). This holds of every part of the way from the leaf on, which tells the
one node that changes the path, if there is one (`Passage.anchorsOnce`).

The anchors of a tree that is built are those of its definitions, and the anchor of the chain that
is built in is the root of the system. `recorded_path_anchored_once` says what this means for both.
-/

namespace Depot

namespace Path

/-- What starts with a slash is absolute. -/
theorem startOf_cons_slash (cs : List Char) : startOf ('/' :: cs) ≠ .relative := by
  unfold startOf
  split <;> simp_all

/-- Written and read, an absolute path is absolute, whatever its names are. -/
theorem isAbsolute_ofText_toText {p : Path} (h : p.isAbsolute = true) :
    (ofText p.toText).isAbsolute = true := by
  obtain ⟨start, names⟩ := p
  have hne : start ≠ .relative := bne_iff_ne.1 h
  -- every start but the relative one begins with a slash
  obtain ⟨cs, hcs⟩ : ∃ cs, start.text.toList = '/' :: cs := by
    cases start with
    | relative => exact absurd rfl hne
    | root => exact ⟨[], rfl⟩
    | doubleRoot => exact ⟨['/'], rfl⟩
  have htext : (toText ⟨start, names⟩).toList = '/' :: (cs ++ (Text.join '/' names).toList) := by
    rw [toText, if_neg fun hempty => hne hempty.1, String.toList_append, hcs, List.cons_append]
  refine bne_iff_ne.2 ?_
  rw [ofText, htext]
  exact startOf_cons_slash _

end Path

/-- Whether and how a path is anchored is seen from the path alone. -/
theorem anchored_path (anchor : Option Path) (a : Artifact) : (anchored anchor a).path =
    match anchor with
    | some anchor =>
      if (Path.ofText a.path).isAbsolute then a.path else (anchor.follow a.path).toText
    | none => a.path := by
  cases anchor with
  | none => rfl
  | some anchor => exact apply_ite Artifact.path _ a _

theorem anchored_path_of_isAbsolute (anchor : Option Path) {a : Artifact}
    (h : (Path.ofText a.path).isAbsolute = true) : (anchored anchor a).path = a.path := by
  rw [anchored_path]
  cases anchor with
  | none => rfl
  | some anchor => exact if_pos h

theorem anchored_path_of_relative (anchor : Path) {a : Artifact}
    (h : (Path.ofText a.path).isAbsolute = false) :
    (anchored (some anchor) a).path = (anchor.follow a.path).toText := by
  rw [anchored_path]
  exact if_neg (Bool.eq_false_iff.1 h)

/-- What an absolute anchor makes of any path is absolute. -/
theorem isAbsolute_anchored {anchor : Path} (h : anchor.isAbsolute = true) (a : Artifact) :
    (Path.ofText (anchored (some anchor) a).path).isAbsolute = true := by
  cases ha : (Path.ofText a.path).isAbsolute with
  | true => rwa [anchored_path_of_isAbsolute _ ha]
  | false =>
    rw [anchored_path_of_relative anchor ha]
    exact Path.isAbsolute_ofText_toText (Path.isAbsolute_join h)

namespace Passage

/-- An answer as it comes out of some nodes. -/
def passAlong (way : List Passage) (a : Artifact) : Artifact := way.foldl (fun a n => n.pass a) a

/-- The anchor of the first node that has one. -/
def innermostAnchor (way : List Passage) : Option Path := way.findSome? fun n => n.anchor

/-- All anchors of the nodes are absolute. -/
def AllAbsolute (way : List Passage) : Prop :=
  ∀ n ∈ way, ∀ anchor ∈ n.anchor, anchor.isAbsolute = true

variable {way : List Passage}

theorem pass_path (n : Passage) (a : Artifact) : (n.pass a).path = (anchored n.anchor a).path :=
  n.frame.mark_path _

theorem passAlong_concat (way : List Passage) (n : Passage) (a : Artifact) :
    passAlong (way ++ [n]) a = n.pass (passAlong way a) := by
  rw [passAlong, List.foldl_append]
  rfl

theorem innermostAnchor_concat (way : List Passage) (n : Passage) :
    innermostAnchor (way ++ [n]) = (innermostAnchor way).or n.anchor := by
  rw [innermostAnchor, List.findSome?_append, List.findSome?_singleton]
  rfl

theorem innermostAnchor_eq_none_iff : innermostAnchor way = none ↔ ∀ n ∈ way, n.anchor = none :=
  List.findSome?_eq_none_iff

/-- **Along a way** with absolute anchors, only the innermost of them counts. -/
theorem path_passAlong (h : AllAbsolute way) (a : Artifact) :
    (passAlong way a).path = (anchored (innermostAnchor way) a).path := by
  -- on the nodes of the way, from the leaf outwards
  induction way generalizing a with
  | nil => rfl
  | cons n way ih =>
    obtain ⟨hn, hway⟩ := List.forall_mem_cons.1 h
    have hrest : (passAlong (n :: way) a).path = (anchored (innermostAnchor way) (n.pass a)).path :=
      ih hway (n.pass a)
    rw [hrest]
    cases hanchor : n.anchor with
    | none =>
      have hkept : (n.pass a).path = a.path := by rw [pass_path, hanchor]; rfl
      have hinner : innermostAnchor (n :: way) = innermostAnchor way := by
        rw [innermostAnchor, List.findSome?_cons, hanchor]
        rfl
      rw [hinner, anchored_path, anchored_path, hkept]
    | some anchor =>
      have hchanged : (n.pass a).path = (anchored (some anchor) a).path := by
        rw [pass_path, hanchor]
      have hinner : innermostAnchor (n :: way) = some anchor := by
        rw [innermostAnchor, List.findSome?_cons, hanchor]
      -- the path is absolute now, so the other nodes keep it
      rw [hinner, ← hchanged]
      refine anchored_path_of_isAbsolute _ ?_
      rw [hchanged]
      exact isAbsolute_anchored (hn anchor hanchor) a

/-- **The path in an answer is anchored once.** An absolute path is kept. A relative one is joined
with the anchor, if there is one, and is kept otherwise. There is one node at most that changes
it: the first with an anchor, and only if the path is relative. -/
structure AnchorsOnce (way : List Passage) (anchor? : Option Path) (found answer : Artifact) :
    Prop where
  absolute : (Path.ofText found.path).isAbsolute = true → answer.path = found.path
  relative : (Path.ofText found.path).isAbsolute = false → ∀ anchor, anchor? = some anchor →
    answer.path = (anchor.follow found.path).toText
  unanchored : anchor? = none → answer.path = found.path
  once : ∀ inner n outer, way = inner ++ n :: outer →
    ((n.pass (passAlong inner found)).path ≠ (passAlong inner found).path ↔
      (Path.ofText found.path).isAbsolute = false ∧ (∀ other ∈ inner, other.anchor = none) ∧
        n.anchor ≠ none)

theorem anchorsOnce (h : AllAbsolute way) (found : Artifact) :
    AnchorsOnce way (innermostAnchor way) found (passAlong way found) where
  absolute habsolute := by rw [path_passAlong h, anchored_path_of_isAbsolute _ habsolute]
  relative hrelative anchor hanchor := by
    rw [path_passAlong h, hanchor, anchored_path_of_relative anchor hrelative]
  unanchored hnone := by
    rw [path_passAlong h, hnone]
    rfl
  -- a repository around changes the path only if it is the first with an anchor
  once inner n outer hway := by
    subst hway
    have hinner : AllAbsolute inner := fun m hm => h m (List.mem_append_left _ hm)
    have hn : AllAbsolute (inner ++ [n]) := by
      intro m hm
      refine h m ?_
      rw [List.append_cons]
      exact List.mem_append_left _ hm
    rw [← passAlong_concat, path_passAlong hn, path_passAlong hinner, innermostAnchor_concat,
      ← innermostAnchor_eq_none_iff]
    -- an anchor further inside has made the path absolute already
    cases hfirst : innermostAnchor inner with
    | some anchor => exact iff_of_false (fun hne => hne rfl) fun hall => nomatch hall.2.1
    | none =>
      rw [Option.none_or]
      cases hanchor : n.anchor with
      | none => exact iff_of_false (fun hne => hne rfl) fun hall => hall.2.2 rfl
      | some anchor =>
        cases hpath : (Path.ofText found.path).isAbsolute with
        | true =>
          refine iff_of_false (fun hne => hne ?_) fun hall => nomatch hall.1
          rw [anchored_path_of_isAbsolute _ hpath]
          rfl
        | false =>
          -- the path is absolute afterwards, and was not before
          refine iff_of_true (fun hsame => ?_) ⟨rfl, rfl, Option.some_ne_none anchor⟩
          have habsolute : (Path.ofText (anchored (some anchor) found).path).isAbsolute = true :=
            isAbsolute_anchored (hn n (by simp) anchor hanchor) found
          rw [hsame] at habsolute
          cases hpath.symm.trans habsolute

end Passage

/-- In a tree whose anchors are taken from an absolute base they are absolute. -/
theorem Probe.BuiltUnder.allAbsolute {base : Path} {p : Probe} (h : p.BuiltUnder base)
    (hbase : base.isAbsolute = true) : Passage.AllAbsolute p.way := by
  intro n hn anchor hanchor
  obtain ⟨s, rfl⟩ := h.way n hn anchor hanchor
  exact Path.isAbsolute_join hbase

/-- The innermost anchor on a way is that of the innermost definition that has one. -/
theorem Configurator.Lineage.innermostAnchor_eq {k : Configurator} {namespaceName id : String}
    {leaf : Leaf} {ds : List Definition} {way : List Passage}
    (h : k.Lineage namespaceName leaf id ds way) :
    Passage.innermostAnchor way = ds.findSome? k.anchorOf := by
  have hanchors : ((way.map fun n => n.anchor).findSome? fun anchor => anchor) =
      (ds.map k.anchorOf).findSome? fun anchor => anchor := by rw [h.anchors]
  rwa [List.findSome?_map, List.findSome?_map] at hanchors

variable {ε : Type} {access : Access (Except ε)} {c : Coordinate}

/-- **Under an absolute base** the path in an answer is anchored once, by the innermost anchor on
the way. -/
theorem Repository.AnswersFrom.anchorsOnce {base : Path} (hbase : base.isAbsolute = true)
    {r : Repository} (hbuilt : r.BuiltUnder base) {a found : Artifact} {p : Probe}
    {recorded : Option Location} (h : r.AnswersFrom access c a p found recorded) :
    Passage.AnchorsOnce p.way (Passage.innermostAnchor p.way) found a := by
  rw [h.finish]
  exact Passage.anchorsOnce ((hbuilt.probe h.mem_probes).allAbsolute hbase) found

/-- On every way out of the chain that is built in is the root of the system, and no other
anchor. -/
theorem Chain.innermostAnchor_eq {settings : Settings} {p : Probe}
    (h : .ok p ∈ (default settings).probes access [] c) :
    Passage.innermostAnchor p.way = some (Path.ofText settings.resolverRoot) := by
  cases Repository.makes_of_mem_probes h with
  | depmap _ _ _ hinner =>
    cases Repository.makes_of_mem_probes hinner with
    | @compound _ _ _ number child leaf _ hchild hleaf =>
      -- neither of the two leaves has an anchor of its own
      have hway : leaf.way = [{ frame := {} }] := by
        match number, hchild with
        | 0, rfl =>
          cases Repository.makes_of_mem_probes hleaf with
          | metadata => rfl
        | 1, rfl =>
          cases Repository.makes_of_mem_probes hleaf with
          | jpp => rfl
      rw [Probe.within, Probe.within, hway]
      rfl

/-- **A recorded path is anchored once.** Where a leaf with documents answers, what the answer says
of the path depends on what was recorded: an absolute path is kept as it is. A relative one is
joined with the prefix of the innermost compound repository around the leaf that has one, which
starts at the root of the configurator, and stays as it is without such a repository; in the chain
that is built in it is joined with the root of the system. No other node on the way changes it. All
this needs the root to be absolute. -/
theorem recorded_path_anchored_once :
    (∀ {k : Configurator} {id namespaceName : String} {r : Repository},
      k.root.isAbsolute = true → k.configure id namespaceName = .ok r →
      ∀ {ε : Type} {access : Access (Except ε)} {c : Coordinate} {a : Artifact},
      r.resolve access [] c = .ok (some a) →
      ∃ p found recorded, r.AnswersFrom access c a p found recorded ∧
        (∃ ds, k.Lineage namespaceName p.leaf id ds p.way) ∧
        ∀ ds, k.Lineage namespaceName p.leaf id ds p.way →
          Passage.AnchorsOnce p.way (ds.findSome? k.anchorOf) found a) ∧
    ∀ {settings : Settings}, (Path.ofText settings.resolverRoot).isAbsolute = true →
      ∀ {ε : Type} {access : Access (Except ε)} {c : Coordinate} {a : Artifact},
      (Chain.default settings).resolve access [] c = .ok (some a) →
      ∃ p found recorded, (Chain.default settings).AnswersFrom access c a p found recorded ∧
        Passage.AnchorsOnce p.way (some (Path.ofText settings.resolverRoot)) found a := by
  constructor
  · -- the innermost anchor of the way is the first one along the lineage
    intro k id namespaceName r hroot hbuild ε access c a hanswer
    have hunfolds := Configurator.unfolds_of_build hbuild
    obtain ⟨p, found, recorded, hfrom⟩ := Repository.exists_answersFrom hanswer
    refine ⟨p, found, recorded, hfrom, hunfolds.exists_lineage hfrom.mem_probes, fun ds hds => ?_⟩
    rw [← hds.innermostAnchor_eq]
    exact hfrom.anchorsOnce hroot hunfolds.builtUnder
  · -- in the default chain the compound is the only node with an anchor
    intro settings hroot ε access c a hanswer
    obtain ⟨p, found, recorded, hfrom⟩ := Repository.exists_answersFrom hanswer
    refine ⟨p, found, recorded, hfrom, ?_⟩
    rw [← Chain.innermostAnchor_eq hfrom.mem_probes]
    exact hfrom.anchorsOnce hroot (Chain.builtUnder_default settings)

open Configurator in
theorem recorded_path_anchored_once_nested :
    (∃ r a leaf way found ds, nestedConfigurator.configure "outer" = .ok r ∧
      r.resolve (nestedAccess ⟨"a.jar", ""⟩) [] nestedCoordinate = .ok (some a) ∧
      a.path = "/usr/a.jar" ∧
      nestedConfigurator.Lineage "" leaf "outer" ds way ∧
      Passage.AnchorsOnce way (ds.findSome? nestedConfigurator.anchorOf) found a) ∧
    ∃ a way found, (Chain.default (Chain.settingsAt "/w/r")).resolve (nestedAccess ⟨"a.jar", ""⟩) []
        nestedCoordinate = .ok (some a) ∧ a.path = "/w/r/a.jar" ∧
      Passage.AnchorsOnce way (some (Path.ofText "/w/r")) found a := by
  -- one run through the configured tree and one through the default chain
  have hrun : ((nestedConfigurator.configure "outer").toOption.bind fun r =>
      (r.resolve (nestedAccess ⟨"a.jar", ""⟩) [] nestedCoordinate).toOption) =
      some (some ⟨nestedCoordinate, "/usr/a.jar", "SYSTEM", "m", "near"⟩) := by decide +kernel
  obtain ⟨r, hr, ha⟩ := Option.bind_eq_some_iff.1 hrun
  have hbuild := eq_ok_of_toOption hr
  have hanswer := eq_ok_of_toOption ha
  have hdefault : (Chain.default (Chain.settingsAt "/w/r")).resolve (nestedAccess ⟨"a.jar", ""⟩) []
      nestedCoordinate = .ok (some ⟨nestedCoordinate, "/w/r/a.jar", "SYSTEM", "m", ""⟩) :=
    eq_ok_of_toOption (by decide +kernel)
  obtain ⟨hconfigured, hchain⟩ := recorded_path_anchored_once
  obtain ⟨p, found, recorded, hfrom, ⟨ds, hds⟩, honce⟩ := hconfigured rfl hbuild hanswer
  obtain ⟨q, other, -, -, honce'⟩ :=
    @hchain (Chain.settingsAt "/w/r") (by decide +kernel) _ _ _ _ hdefault
  exact ⟨⟨r, _, p.leaf, p.way, found, ds, hbuild, hanswer, rfl, hds, honce ds hds⟩,
    _, q.way, other, hdefault, rfl, honce'⟩

end Depot
