import Depot.Repository.Configure
import Mathlib.Data.List.Forall2
/-!
# What definitions must have, and to what they refer

Every type of repository requires something of its definition: a list of children, paths, a root, or
paths and a delegate. The predicates here say what that is in terms of the elements and properties
of a definition, without reading it: `Definition.HasBody` for what the type requires,
`Definition.HasFilter` for the filter, and `Definition.IsWellFormed` for both. `Definition.RefersTo`
says to which identifiers a definition refers; it may, even if something else is wrong with it.

The readers of definitions are compared with these predicates in both directions, one lemma a
reader, each with the two ways in which it may end. They add up to `Configurator.buildNode_cases`:
what is built has what its type requires, over the trees of the identifiers to which it refers; and
where nothing is built, the definition lacks what the error says (`Definition.Lacks`), or one of the
identifiers to which it refers is at fault.
-/

namespace Depot

open Xml (Element)

namespace Definition

/-- A reference is an element with text alone. -/
def IsReference (e : Element) : Prop := e.tag = "repository" ∧ e.children = []

variable (d : Definition)

/-- The condition of the filter; without a filter it always holds. -/
def HasFilter (condition : Condition) : Prop :=
  match d.filter with
  | none => condition = .always
  | some filter => Condition.ofElement filter.element = .ok condition

/-- The paths in the configuration: there are some, and none is blank. -/
def HasPaths (paths : List String) : Prop :=
  paths = ((Configurator.parts d).filter fun e => e.tag == "path").map textOf ∧
    paths ≠ [] ∧ "" ∉ paths

/-- The root among the properties. -/
def HasRoot (root : String) : Prop := Dictionary.get? d.properties "root" = some root ∧ root ≠ ""

/-- The one element of the configuration that names a repository, and the name in it. -/
def HasDelegate (id : String) : Prop :=
  ∃ e, ((Configurator.parts d).filter fun e => e.tag == "repository") = [e] ∧ e.children = [] ∧
    textOf e = id ∧ id ≠ ""

/-- The configuration is a list of repositories and nothing else. -/
def HasList (list : Element) : Prop := Configurator.parts d = [list] ∧ list.tag = "repositories"

/-- What the types require. -/
inductive Body where
  | compound (children : List String)
  | metadata (paths : List String)
  | jpp (root : String)
  | depmap (paths : List String) (delegate : String)

/-- The identifiers in what a type requires, in document order. -/
def Body.references : Body → List String
  | .compound children => children
  | .depmap _ delegate => [delegate]
  | _ => []

/-- The type is known, and the definition has what it requires. -/
inductive HasBody : Body → Prop
  | compound {list : Element} (htype : d.type = "compound") (hlist : d.HasList list)
      (hchildren : ∀ e ∈ list.children, IsReference e) :
      HasBody (.compound (list.children.map textOf))
  | metadata {paths : List String} (htype : d.type = "metadata") (hpaths : d.HasPaths paths) :
      HasBody (.metadata paths)
  | jpp {root : String} (htype : d.type = "jpp") (hroot : d.HasRoot root) : HasBody (.jpp root)
  | depmap {paths : List String} {id : String} (htype : d.type = "depmap")
      (hpaths : d.HasPaths paths) (hdelegate : d.HasDelegate id) : HasBody (.depmap paths id)

/-- The filter is absent or a condition, and the type is known and has what it requires. -/
structure IsWellFormed : Prop where
  filter : ∃ condition, d.HasFilter condition
  body : ∃ body, d.HasBody body

/-- Compound repositories refer to their children, and depmap repositories to their delegates. -/
inductive RefersTo : String → Prop
  | child {list e : Element} (htype : d.type = "compound") (hlist : d.HasList list)
      (he : e ∈ list.children) (hreference : IsReference e) : RefersTo (textOf e)
  | delegate {id : String} (htype : d.type = "depmap") (hdelegate : d.HasDelegate id) : RefersTo id

/-- What a definition lacks by itself, whatever becomes of those to which it refers. -/
inductive Lacks : ConfigureError → Prop
  | type (h : d.type ∉ Configurator.types) : Lacks (.unknownType d.id d.type)
  | filter {filter : Xml.Placed} {cause : Condition.Malformed} (hfilter : d.filter = some filter)
      (h : Condition.ofElement filter.element = .error cause) : Lacks (.filter cause)
  | list (htype : d.type = "compound") (h : ∀ list, ¬ d.HasList list) :
      Lacks .repositoriesRequired
  | child {list e : Element} (htype : d.type = "compound") (hlist : d.HasList list)
      (he : e ∈ list.children) (h : ¬ IsReference e) : Lacks .childNotText
  | paths (htype : d.type = "metadata" ∨ d.type = "depmap") (h : ∀ paths, ¬ d.HasPaths paths) :
      Lacks (.pathsRequired d.id d.type)
  | root (htype : d.type = "jpp") (h : ∀ root, ¬ d.HasRoot root) : Lacks (.rootRequired d.id)
  | delegate (htype : d.type = "depmap") (h : ∀ id, ¬ d.HasDelegate id) :
      Lacks (.delegateRequired d.id)

variable {d}

theorem HasList.unique {a b : Element} (ha : d.HasList a) (hb : d.HasList b) : a = b :=
  List.singleton_inj.1 (ha.1.symm.trans hb.1)

theorem HasDelegate.unique {a b : String} (ha : d.HasDelegate a) (hb : d.HasDelegate b) :
    a = b := by
  obtain ⟨e, he, -, rfl, -⟩ := ha
  obtain ⟨f, hf, -, rfl, -⟩ := hb
  rw [List.singleton_inj.1 (he.symm.trans hf)]

theorem HasFilter.unique {a b : Condition} (ha : d.HasFilter a) (hb : d.HasFilter b) : a = b := by
  unfold HasFilter at ha hb
  split at ha
  · next hd =>
    rw [hd] at hb
    exact ha.trans hb.symm
  · next hd =>
    rw [hd] at hb
    exact Except.ok.inj (ha.symm.trans hb)

/-- A definition has one body at most. -/
theorem HasBody.unique {a b : Body} (ha : d.HasBody a) (hb : d.HasBody b) : a = b := by
  -- the type of the definition says of which kind both are
  cases ha with
  | compound htype hlist =>
    cases hb with
    | compound _ hlist' => rw [hlist.unique hlist']
    | _ => simp_all
  | metadata htype hpaths =>
    cases hb with
    | metadata _ hpaths' => rw [hpaths.1, hpaths'.1]
    | _ => simp_all
  | jpp htype hroot =>
    cases hb with
    | jpp _ hroot' => rw [Option.some.inj (hroot.1.symm.trans hroot'.1)]
    | _ => simp_all
  | depmap htype hpaths hdelegate =>
    cases hb with
    | depmap _ hpaths' hdelegate' => rw [hpaths.1, hpaths'.1, hdelegate.unique hdelegate']
    | _ => simp_all

/-- A definition with a body refers to the identifiers in it, and to no others. -/
theorem HasBody.refersTo_iff {body : Body} (h : d.HasBody body) {id : String} :
    d.RefersTo id ↔ id ∈ body.references := by
  constructor
  · intro hid
    -- whatever refers to `id` fixes the type, and with it the body
    cases hid with
    | child htype hlist he _ =>
      cases h with
      | compound _ hlist' =>
        rw [hlist'.unique hlist]
        exact List.mem_map_of_mem he
      | _ => simp_all
    | delegate htype hdelegate =>
      cases h with
      | depmap _ _ hdelegate' => exact List.mem_singleton.2 (hdelegate.unique hdelegate')
      | _ => simp_all
  · intro hid
    cases h with
    | compound htype hlist hchildren =>
      obtain ⟨e, he, rfl⟩ := List.mem_map.1 hid
      exact .child htype hlist he (hchildren e he)
    | metadata => exact (nomatch hid)
    | jpp => exact (nomatch hid)
    | depmap htype _ hdelegate =>
      rw [List.mem_singleton.1 hid]
      exact .delegate htype hdelegate

/-- What a definition lacks keeps it from being well-formed. -/
theorem Lacks.not_isWellFormed {e : ConfigureError} (h : d.Lacks e) : ¬ d.IsWellFormed := by
  rintro ⟨⟨condition, hcondition⟩, body, hbody⟩
  -- each lack is denied by the body that the type asks for
  cases h with
  | type h => cases hbody <;> simp_all [Configurator.types]
  | filter hfilter h =>
    unfold HasFilter at hcondition
    rw [hfilter] at hcondition
    cases hcondition.symm.trans h
  | list htype h =>
    cases hbody with
    | compound _ hlist => exact h _ hlist
    | _ => simp_all
  | child htype hlist he h =>
    cases hbody with
    | compound _ hlist' hchildren => exact h (hchildren _ (hlist'.unique hlist ▸ he))
    | _ => simp_all
  | paths htype h =>
    cases hbody with
    | metadata _ hpaths => exact h _ hpaths
    | depmap _ hpaths _ => exact h _ hpaths
    | _ => simp_all
  | root htype h =>
    cases hbody with
    | jpp _ hroot => exact h _ hroot
    | _ => simp_all
  | delegate htype h =>
    cases hbody with
    | depmap _ _ hdelegate => exact h _ hdelegate
    | _ => simp_all

end Definition

namespace Configurator

open Definition (HasBody HasFilter HasList HasPaths HasRoot HasDelegate IsReference Lacks RefersTo)

variable {d : Definition}

/-! ### Readers -/

/-- The filter is read, or the error says why not. -/
theorem filterOf_cases (d : Definition) :
    (∃ condition, filterOf d = .ok condition ∧ d.HasFilter condition) ∨
      ∃ e, filterOf d = .error e ∧ d.Lacks e := by
  unfold filterOf HasFilter
  cases hfilter : d.filter with
  | none => exact .inl ⟨.always, rfl, rfl⟩
  | some filter =>
    cases hread : Condition.ofElement filter.element with
    | error cause => exact .inr ⟨.filter cause, by simp only [hread]; rfl, .filter hfilter hread⟩
    | ok condition => exact .inl ⟨condition, by simp only [hread]; rfl, hread⟩

/-- The paths are read, or there are none to be read. -/
theorem paths_cases (d : Definition) :
    (∃ ps, paths d = .ok ps ∧ d.HasPaths ps) ∨
      (paths d = .error (.pathsRequired d.id d.type) ∧ ∀ ps, ¬ d.HasPaths ps) := by
  unfold paths
  simp only []
  split
  · next h =>
    refine .inr ⟨rfl, fun ps hps => ?_⟩
    rw [← hps.1, Bool.or_eq_true, List.isEmpty_iff, List.contains_iff_mem] at h
    exact h.elim hps.2.1 hps.2.2
  · next h =>
    refine .inl ⟨_, rfl, rfl, ?_⟩
    rw [Bool.or_eq_true, List.isEmpty_iff, List.contains_iff_mem, not_or] at h
    exact h

/-- The root is read, or there is none to be read. -/
theorem root_cases (d : Definition) :
    (∃ root, property? d "root" = some root ∧ d.HasRoot root) ∨
      (property? d "root" = none ∧ ∀ root, ¬ d.HasRoot root) := by
  unfold property?
  cases hroot : Dictionary.get? d.properties "root" with
  | none => exact .inr ⟨rfl, fun root h => nomatch hroot.symm.trans h.1⟩
  | some root =>
    by_cases hempty : root = ""
    · refine .inr ⟨if_pos hempty, fun other h => h.2 ?_⟩
      rw [← Option.some.inj (hroot.symm.trans h.1), hempty]
    · exact .inl ⟨root, if_neg hempty, hroot, hempty⟩

theorem reference?_eq_some_iff {e : Element} {id : String} :
    reference? e = some id ↔ e.children = [] ∧ Definition.textOf e = id := by
  unfold reference?
  rw [Option.ite_none_right_eq_some, List.isEmpty_iff, Option.some.injEq]

/-- The delegate is read, or there is none to be read. -/
theorem delegateReference_cases (d : Definition) :
    (∃ id, delegateReference d = .ok id ∧ d.HasDelegate id) ∨
      (delegateReference d = .error (.delegateRequired d.id) ∧ ∀ id, ¬ d.HasDelegate id) := by
  unfold delegateReference
  split
  · next e he =>
    -- what another element would have to be, this one is
    have honly : ∀ {id : String}, d.HasDelegate id → reference? e = some id ∧ id ≠ "" := by
      rintro id ⟨f, hf, hchildren, htext, hid⟩
      obtain rfl := List.singleton_inj.1 (he.symm.trans hf)
      exact ⟨reference?_eq_some_iff.2 ⟨hchildren, htext⟩, hid⟩
    split
    · next id hreference =>
      obtain ⟨hchildren, htext⟩ := reference?_eq_some_iff.1 hreference
      split
      · next hempty =>
        refine .inr ⟨rfl, fun other hother => (honly hother).2 ?_⟩
        rw [← Option.some.inj (hreference.symm.trans (honly hother).1), hempty]
      · next hid => exact .inl ⟨id, rfl, e, he, hchildren, htext, hid⟩
    · next hreference =>
      exact .inr ⟨rfl, fun id h => nomatch hreference.symm.trans (honly h).1⟩
  · next hmany =>
    exact .inr ⟨rfl, fun id ⟨e, he, _⟩ => hmany e he⟩

/-- What is read of an element in a list of children. -/
def childReference? (e : Element) : Option String :=
  if e.tag = "repository" then reference? e else none

/-- The list of children is read, or there is none to be read. -/
theorem childReferences_cases (d : Definition) :
    (∃ list, childReferences d = .ok (list.children.map childReference?) ∧ d.HasList list) ∨
      (childReferences d = .error .repositoriesRequired ∧ ∀ list, ¬ d.HasList list) := by
  unfold childReferences
  split
  · next e he =>
    split
    · next htag => exact .inl ⟨e, rfl, he, htag⟩
    · next htag =>
      refine .inr ⟨rfl, fun list hlist => htag ?_⟩
      rw [List.singleton_inj.1 (he.symm.trans hlist.1)]
      exact hlist.2
  · next hmany => exact .inr ⟨rfl, fun list hlist => hmany list hlist.1⟩

theorem childReference?_eq_some_iff {e : Element} {id : String} :
    childReference? e = some id ↔ IsReference e ∧ Definition.textOf e = id := by
  unfold childReference? IsReference
  rw [Option.ite_none_right_eq_some, reference?_eq_some_iff, and_assoc]

/-! ### Building the children -/

/-- The children are built from references, each from its own, in order, or one of them is no
reference or cannot be built. -/
theorem buildAll_cases (build : String → Except ConfigureError Repository) (es : List Element) :
    (∃ children, buildAll build (es.map childReference?) = .ok children ∧
      (∀ e ∈ es, IsReference e) ∧
      List.Forall₂ (fun id child => build id = .ok child) (es.map Definition.textOf) children) ∨
    ∃ cause, buildAll build (es.map childReference?) = .error cause ∧
      ((cause = .childNotText ∧ ∃ e ∈ es, ¬ IsReference e) ∨
        ∃ e ∈ es, IsReference e ∧ build (Definition.textOf e) = .error cause) := by
  induction es with
  | nil => exact .inl ⟨[], rfl, fun e he => (nomatch he), .nil⟩
  | cons e es ih =>
    rw [List.map_cons, List.map_cons]
    -- the first element is no reference, or it names a repository, which is built or fails
    cases he : childReference? e with
    | none =>
      refine .inr ⟨.childNotText, rfl, .inl ⟨rfl, e, List.mem_cons_self, fun hreference => ?_⟩⟩
      cases he.symm.trans (childReference?_eq_some_iff.2 ⟨hreference, rfl⟩)
    | some id =>
      obtain ⟨hreference, rfl⟩ := childReference?_eq_some_iff.1 he
      rw [buildAll]
      cases hchild : build (Definition.textOf e) with
      | error cause => exact .inr ⟨cause, rfl, .inr ⟨e, List.mem_cons_self, hreference, hchild⟩⟩
      | ok child =>
        -- the first child is built, so the others decide
        rcases ih with ⟨children, hrest, hall, hbuilt⟩ | ⟨cause, hrest, hfault⟩
        · refine .inl ⟨child :: children, ?_, List.forall_mem_cons.2 ⟨hreference, hall⟩,
            .cons hchild hbuilt⟩
          rw [hrest]
          rfl
        · refine .inr ⟨cause, by rw [hrest]; rfl, ?_⟩
          rcases hfault with ⟨hcause, f, hf, hnot⟩ | ⟨f, hf, hfound⟩
          · exact .inl ⟨hcause, f, List.mem_cons_of_mem e hf, hnot⟩
          · exact .inr ⟨f, List.mem_cons_of_mem e hf, hfound⟩

/-! ### Building a node -/

variable {k : Configurator} {frame : Frame}

/-- The node of a definition over the trees of the identifiers in its body, in order. -/
inductive Assembles (k : Configurator) (d : Definition) (frame : Frame) :
    Definition.Body → List Repository → Repository → Prop
  | compound {ids : List String} {children : List Repository} :
      Assembles k d frame (.compound ids) children
        (.compound frame ((property? d "prefix").map k.root.follow) children)
  | metadata {paths : List String} :
      Assembles k d frame (.metadata paths) [] (.metadata frame (paths.map k.root.follow))
  | jpp {root : String} : Assembles k d frame (.jpp root) [] (.jpp frame (k.root.follow root))
  | depmap {paths : List String} {id : String} {delegate : Repository} :
      Assembles k d frame (.depmap paths id) [delegate]
        (.depmap frame ⟨((property? d "root").map k.root.follow).getD k.root, paths,
          k.loadTimeout⟩ delegate)

theorem Assembles.unique {body : Definition.Body} {trees : List Repository} {r s : Repository}
    (hr : k.Assembles d frame body trees r) (hs : k.Assembles d frame body trees s) : r = s := by
  cases hr <;> cases hs <;> rfl

/-- **Building a node.** A node that is built is assembled from what its type requires, and from the
trees of the identifiers in it, each from its own, in order. Where none is built, the definition
lacks what the error says, or it refers to an identifier from which nothing can be built. -/
theorem buildNode_cases (k : Configurator) (build : String → Except ConfigureError Repository)
    (frame : Frame) (htype : d.type ∈ types) :
    (∃ r body trees, k.buildNode build d frame = .ok r ∧ d.HasBody body ∧
      List.Forall₂ (fun id tree => build id = .ok tree) body.references trees ∧
      k.Assembles d frame body trees r) ∨
    ∃ e, k.buildNode build d frame = .error e ∧
      (d.Lacks e ∨ ∃ id, d.RefersTo id ∧ build id = .error e) := by
  unfold buildNode
  -- by the type: what the node needs itself, and then the trees that it refers to
  split
  · next htype =>
    rcases childReferences_cases d with ⟨list, hread, hlist⟩ | ⟨hread, hnone⟩
    · rw [hread]
      show (∃ r body trees, (buildAll build _ >>= _) = .ok r ∧ _) ∨
        ∃ e, (buildAll build _ >>= _) = .error e ∧ _
      rcases buildAll_cases build list.children with ⟨children, hbuild, hall, hbuilt⟩ |
        ⟨cause, hbuild, hfault⟩
      · rw [hbuild]
        exact .inl ⟨_, _, children, rfl, .compound htype hlist hall, hbuilt, .compound⟩
      · rw [hbuild]
        refine .inr ⟨cause, rfl, ?_⟩
        -- the child is no reference, or its own tree fails
        rcases hfault with ⟨rfl, f, hf, hnot⟩ | ⟨f, hf, hreference, hfound⟩
        · exact .inl (.child htype hlist hf hnot)
        · exact .inr ⟨_, .child htype hlist hf hreference, hfound⟩
    · rw [hread]
      exact .inr ⟨_, rfl, .inl (.list htype hnone)⟩
  · next htype =>
    rcases paths_cases d with ⟨paths, hread, hpaths⟩ | ⟨hread, hnone⟩
    · rw [hread]
      exact .inl ⟨_, _, [], rfl, .metadata htype hpaths, .nil, .metadata⟩
    · rw [hread]
      exact .inr ⟨_, rfl, .inl (.paths (.inl htype) hnone)⟩
  · next htype =>
    rcases root_cases d with ⟨root, hread, hroot⟩ | ⟨hread, hnone⟩
    · rw [hread]
      exact .inl ⟨_, _, [], rfl, .jpp htype hroot, .nil, .jpp⟩
    · rw [hread]
      exact .inr ⟨_, rfl, .inl (.root htype hnone)⟩
  · next htype =>
    rcases paths_cases d with ⟨paths, hread, hpaths⟩ | ⟨hread, hnone⟩
    · rcases delegateReference_cases d with ⟨id, hreadId, hdelegate⟩ | ⟨hreadId, hnone⟩
      · rw [hread, hreadId]
        show (∃ r body trees, (build id >>= _) = .ok r ∧ _) ∨ ∃ e, (build id >>= _) = .error e ∧ _
        cases hbuild : build id with
        | ok delegate =>
          exact .inl ⟨_, _, [delegate], rfl, .depmap htype hpaths hdelegate, .cons hbuild .nil,
            .depmap⟩
        | error cause => exact .inr ⟨cause, rfl, .inr ⟨id, .delegate htype hdelegate, hbuild⟩⟩
      · rw [hread, hreadId]
        exact .inr ⟨_, rfl, .inl (.delegate htype hnone)⟩
    · rw [hread]
      exact .inr ⟨_, rfl, .inl (.paths (.inr htype) hnone)⟩
  · next hcompound hmetadata hjpp hdepmap =>
    -- no other type is known
    exact absurd htype (by simpa [types] using ⟨hcompound, hmetadata, hjpp, hdepmap⟩)

end Configurator

end Depot
