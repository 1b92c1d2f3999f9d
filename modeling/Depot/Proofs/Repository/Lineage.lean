import Depot.Failure
import Depot.Proofs.Metadata.Compatibility
import Depot.Proofs.Repository.Anchoring
import Depot.Proofs.Repository.Unfolding
/-!
# From which definitions an answer comes

A probe says which leaf it asks and what the nodes on its way do to an answer, but not where these
nodes come from. In a tree that is built, each of them is the node of a definition
(`Configurator.passageOf`), and each of these definitions but the last is referred to by the next.
`Configurator.Lineage` is that chain, from the definition of the leaf out to that of the identifier
for which the tree was built. Every probe of such a tree has one (`Unfolds.exists_lineage`), and
what the nodes of a chain have can be told from its definitions alone (`Lineage.namespaces`,
`Lineage.anchors`).

At the start of the chain is the leaf. What it reports is what the first of its documents records
that registers the coordinate; a leaf over installed files has no documents (`Leaf.Records`).
`Repository.AnswersFrom` ties an answer to its probe and to what was recorded there.
-/

namespace Depot

/-! ### What leaves record -/

section

variable {ε : Type} {access : Access (Except ε)} {c : Coordinate} {found : Artifact}

/-- What the documents of a leaf record under a coordinate: what the first of them does that
registers it. A leaf over installed files has no documents. -/
inductive Leaf.Records (access : Access (Except ε)) (c : Coordinate) : Leaf → Option Location → Prop
  | metadata {position : List Nat} {paths : List Path} {sources : List Metadata} {m : Metadata}
      {location : Location} (hsources : access.metadata position paths = .ok sources)
      (hfirst : IsFirst (Metadata.Registers · c) sources m)
      (hlocation : m.registry.location? c = some location) :
      Records access c (.metadata position paths) (some location)
  | jpp {root : Path} : Records access c (.jpp root) none

/-- What a source reports is what it records. -/
theorem Metadata.exists_location_of_lookup {m : Metadata} (h : m.lookup c = some found) :
    ∃ location, m.registry.location? c = some location ∧ found.coordinate = c ∧
      found.path = location.path ∧ found.namespaceName = location.namespaceName := by
  obtain ⟨location, hlocation, rfl⟩ := Option.map_eq_some_iff.1 h
  exact ⟨location, hlocation, rfl, rfl, rfl⟩

/-- **What a leaf reports is what it records** under the coordinate that it reports. Without
documents there is no namespace. -/
theorem Leaf.exists_records_of_find {leaf : Leaf} (h : leaf.find access c = .ok (some found)) :
    ∃ recorded, leaf.Records access found.coordinate recorded ∧
      found.namespaceName = (recorded.map Location.namespaceName).getD "" ∧
      ∀ location ∈ recorded, found.path = location.path := by
  cases leaf with
  | metadata position paths =>
    change (access.metadata position paths >>= fun sources =>
      pure (Metadata.resolve sources c)) = _ at h
    cases hsources : access.metadata position paths with
    | error e =>
      rw [hsources] at h
      cases h
    | ok sources =>
      rw [hsources] at h
      -- the coordinate that is reported is the requested one, or that with the reserved version
      obtain ⟨d, m, hfirst, hlookup⟩ : ∃ d m, IsFirst (Metadata.Registers · d) sources m ∧
          m.lookup d = some found := by
        rcases Metadata.resolve_eq_some_iff.1 (Except.ok.inj h) with ⟨m, hm⟩ | ⟨-, m, hm⟩
        · exact ⟨_, m, hm⟩
        · exact ⟨_, m, hm⟩
      obtain ⟨location, hlocation, rfl, hpath, hnamespace⟩ :=
        Metadata.exists_location_of_lookup hlookup
      refine ⟨some location, .metadata hsources hfirst hlocation, hnamespace, ?_⟩
      rintro _ ⟨⟩
      exact hpath
  | jpp root =>
    obtain ⟨file, -, -, rfl⟩ := exists_of_find_jpp h
    exact ⟨none, .jpp, rfl, fun _ hnone => nomatch hnone⟩

/-- **Where an answer comes from**: a probe before which nothing is found, what it finds in its
leaf, and what the documents of the leaf record for it. -/
structure Repository.AnswersFrom (access : Access (Except ε)) (r : Repository) (c : Coordinate)
    (answer : Artifact) (p : Probe) (found : Artifact) (recorded : Option Location) : Prop where
  first : ∃ before after, r.probes access [] c = before ++ .ok p :: after ∧
    ∀ entry ∈ before, Probe.FindsNothing access entry
  finds : p.find access = .ok (some found)
  finish : answer = p.finish found
  records : p.leaf.Records access answer.coordinate recorded
  namespaceName : found.namespaceName = (recorded.map Location.namespaceName).getD ""
  path : ∀ location ∈ recorded, found.path = location.path

/-- Every answer comes from somewhere. -/
theorem Repository.exists_answersFrom {r : Repository} {a : Artifact}
    (h : r.resolve access [] c = .ok (some a)) :
    ∃ p found recorded, r.AnswersFrom access c a p found recorded := by
  obtain ⟨before, p, after, found, hprobes, hbefore, hfound, rfl⟩ := resolve_eq_some_iff.1 h
  obtain ⟨recorded, hrecorded, hnamespace, hpath⟩ := Leaf.exists_records_of_find hfound
  rw [← (p.passedOnAs found).coordinate] at hrecorded
  exact ⟨p, found, recorded, ⟨before, after, hprobes, hbefore⟩, hfound, rfl, hrecorded, hnamespace,
    hpath⟩

theorem Repository.AnswersFrom.mem_probes {r : Repository} {a : Artifact} {p : Probe}
    {recorded : Option Location} (h : r.AnswersFrom access c a p found recorded) :
    .ok p ∈ r.probes access [] c := by
  obtain ⟨before, after, hprobes, -⟩ := h.first
  rw [hprobes]
  exact List.mem_append_right before List.mem_cons_self

end

namespace Configurator

variable {k : Configurator} {namespaceName : String}

/-! ### The chain of definitions -/

/-- Where the node of a definition anchors relative paths; only compound repositories do. -/
def anchorOf (k : Configurator) (d : Definition) : Option Path :=
  if d.type = "compound" then (property? d "prefix").map k.root.follow else none

/-- The same in terms of what the type requires. -/
theorem anchorOf_of_hasBody {d : Definition} {body : Definition.Body} (h : d.HasBody body) :
    k.anchorOf d = match body with
      | .compound _ => (property? d "prefix").map k.root.follow
      | _ => none := by
  cases h with
  | compound htype => exact if_pos htype
  | metadata htype => exact if_neg (by rw [htype]; decide)
  | jpp htype => exact if_neg (by rw [htype]; decide)
  | depmap htype => exact if_neg (by rw [htype]; decide)

/-- The node of a definition as answers see it. -/
def passageOf (k : Configurator) (d : Definition) (namespaceName : String) (condition : Condition) :
    Passage where
  frame := k.frameOf d namespaceName condition
  anchor := k.anchorOf d

/-- The node of the definition is the leaf. -/
inductive IsLeafOf (k : Configurator) (d : Definition) : Leaf → Prop
  | metadata {position : List Nat} {paths : List String} (hbody : d.HasBody (.metadata paths)) :
      IsLeafOf k d (.metadata position (paths.map k.root.follow))
  | jpp {root : String} (hbody : d.HasBody (.jpp root)) : IsLeafOf k d (.jpp (k.root.follow root))

/-- **The chain of definitions** from a leaf out to an identifier, and the nodes that they have. -/
inductive Lineage (k : Configurator) (namespaceName : String) (leaf : Leaf) :
    String → List Definition → List Passage → Prop
  | leaf {id : String} {d : Definition} {condition : Condition} (hd : k.Defines id d)
      (hfilter : d.HasFilter condition) (hleaf : k.IsLeafOf d leaf) :
      Lineage k namespaceName leaf id [d] [k.passageOf d namespaceName condition]
  | outer {id other : String} {d : Definition} {condition : Condition} {ds : List Definition}
      {way : List Passage} (h : Lineage k namespaceName leaf other ds way) (hd : k.Defines id d)
      (hfilter : d.HasFilter condition) (hrefers : d.RefersTo other) :
      Lineage k namespaceName leaf id (ds ++ [d]) (way ++ [k.passageOf d namespaceName condition])

variable {leaf : Leaf} {id : String} {ds : List Definition} {way : List Passage}

theorem Lineage.ne_nil (h : k.Lineage namespaceName leaf id ds way) : ds ≠ [] := by
  cases h with
  | leaf => exact List.cons_ne_nil _ _
  | outer => exact List.append_ne_nil_of_right_ne_nil _ (List.cons_ne_nil _ _)

/-- The nodes on the way are those of the definitions, one by one. -/
theorem Lineage.map_eq (h : k.Lineage namespaceName leaf id ds way) {α : Type} {f : Passage → α}
    {g : Definition → α} (hfg : ∀ d condition, f (k.passageOf d namespaceName condition) = g d) :
    way.map f = ds.map g := by
  induction h with
  | leaf => exact congrArg (fun a => [a]) (hfg _ _)
  | outer _ _ _ _ ih =>
    rw [List.map_append, List.map_append, ih]
    exact congrArg (fun a => List.map g _ ++ [a]) (hfg _ _)

/-- The namespace that a definition declares; empty if it declares none. -/
def declaredNamespace (d : Definition) : String :=
  (Dictionary.get? d.properties "namespace").getD ""

/-- The nodes have the namespaces that their definitions declare, unless one is given for all. -/
theorem Lineage.namespaces (h : k.Lineage namespaceName leaf id ds way) :
    (way.map fun n => n.frame.namespaceName) =
      ds.map fun d => if namespaceName = "" then declaredNamespace d else namespaceName :=
  h.map_eq fun _ _ => rfl

/-- The nodes have the anchors of their definitions. -/
theorem Lineage.anchors (h : k.Lineage namespaceName leaf id ds way) :
    (way.map fun n => n.anchor) = ds.map k.anchorOf :=
  h.map_eq fun _ _ => rfl

/-! ### Every probe has one -/

variable {ε : Type} {access : Access (Except ε)}

/-- **Every probe of a tree that is built** has come out along a chain of definitions. -/
theorem Unfolds.exists_lineage {r : Repository} (h : k.Unfolds namespaceName id r)
    {position : List Nat} {c : Coordinate} {p : Probe}
    (hp : .ok p ∈ r.probes access position c) :
    ∃ ds, k.Lineage namespaceName p.leaf id ds p.way := by
  -- along the unfolding: the definition of the leaf comes first, each one around it behind
  induction h generalizing position c p with
  | @node id d condition body trees r hd hfilter hbody hlength _ hnode ih =>
    -- in a node around others, the probe comes from one of them
    have houter : ∀ {tree : Repository} {position' : List Nat} {c' : Coordinate} {inner : Probe},
        tree ∈ trees → .ok inner ∈ tree.probes access position' c' →
        ∃ ds, k.Lineage namespaceName inner.leaf id ds
          (inner.within (k.passageOf d namespaceName condition)).way := by
      intro tree position' c' inner htree hinner
      obtain ⟨other, hmem⟩ := exists_reference_of_mem hlength htree
      obtain ⟨ds, hds⟩ := ih other tree hmem hinner
      have hrefers : d.RefersTo other := hbody.refersTo_iff.2 (List.of_mem_zip hmem).1
      exact ⟨ds ++ [d], hds.outer hd hfilter hrefers⟩
    have hpassage : ∀ {anchor : Option Path}, k.anchorOf d = anchor →
        ⟨k.frameOf d namespaceName condition, anchor⟩ = k.passageOf d namespaceName condition :=
      fun h => congrArg (Passage.mk _) h.symm
    cases hnode with
    | metadata =>
      cases Repository.makes_of_mem_probes hp with
      | metadata =>
        rw [hpassage (anchorOf_of_hasBody hbody)]
        exact ⟨[d], .leaf hd hfilter (.metadata hbody)⟩
    | jpp =>
      cases Repository.makes_of_mem_probes hp with
      | jpp =>
        rw [hpassage (anchorOf_of_hasBody hbody)]
        exact ⟨[d], .leaf hd hfilter (.jpp hbody)⟩
    | depmap =>
      cases Repository.makes_of_mem_probes hp with
      | depmap _ _ _ hinner =>
        rw [hpassage (anchorOf_of_hasBody hbody)]
        exact houter (List.mem_singleton_self _) hinner
    | compound =>
      cases Repository.makes_of_mem_probes hp with
      | compound _ hchild hinner =>
        rw [hpassage (anchorOf_of_hasBody hbody)]
        exact houter (List.mem_of_getElem? hchild) hinner

/-- A configuration of elements that hold a text each. -/
def configurationOf (parts : List (String × String)) : Xml.Placed where
  element :=
    { name := ⟨none, "configuration"⟩
      content := parts.foldr (fun part => .element ⟨none, part.1⟩ (.ofChars part.2.toList)) .nil }
  tail := []

/-- The configuration of a compound repository around one other. -/
def configurationAround (id : String) : Xml.Placed where
  element :=
    { name := ⟨none, "configuration"⟩
      content := .element ⟨none, "repositories"⟩
        (.element ⟨none, "repository"⟩ (.ofChars id.toList) .nil) .nil }
  tail := []

/-- Two compound repositories, the inner one behind a depmap repository and around a leaf. -/
def nestedConfigurator : Configurator where
  root := .root
  definitions :=
    [{ id := "outer", type := "compound", configuration := some (configurationAround "mapped")
       properties := [("namespace", "far"), ("prefix", "opt")] },
      { id := "mapped", type := "depmap"
        configuration := some (configurationOf [("path", "maps"), ("repository", "inner")]) },
      { id := "inner", type := "compound", configuration := some (configurationAround "leaf")
        properties := [("namespace", "near"), ("prefix", "usr")] },
      { id := "leaf", type := "metadata", configuration := some (configurationOf [("path", "m")]) }]

/-- The artifact that is recorded there. -/
def nestedCoordinate : Coordinate where
  group := .literal "recorded" rfl
  artifact := .literal "leaf" rfl
  extension := .jar
  classifier := .none
  version := some systemVersion

/-- One document that records it, and no maps. -/
def nestedAccess (location : Location) : Access (Except Failure) where
  isFile _ := .ok false
  metadata _ _ := .ok [⟨"m", [(nestedCoordinate, location)]⟩]
  map _ := .ok none

end Configurator

end Depot
