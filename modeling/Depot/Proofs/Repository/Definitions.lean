import Depot.Proofs.Dictionary
import Depot.Proofs.Outcome
import Depot.Proofs.Repository.Unfolding
import Mathlib.Data.List.Duplicate
import Mathlib.Data.List.Forall2
/-!
# The definitions of a document

`Describes` says which element describes which definition, without reading anything. Elements are
told by their local names. The element has each of its parts once, and among them an identifier and
a type that are not blank; the properties are what the children of one part set, of which the last
of each name counts (`Sets`); configuration and filter are kept as they are.

Whether an element describes anything is a matter of its own parts (`IsInOrder`,
`exists_describes_iff`). Whether a document does is not: the identifiers of its elements must differ
as well. Two accumulators watch over that, one along the parts of an element, which compares names,
and one along the elements, which compares the texts of identifiers. `readParts_cases` and
`readAll_cases` are the inductions along them, each with all that may come of it. So a document is
read exactly if all its elements are in order and no identifier comes twice, and then as the
definitions that its elements describe (`reads_all_definitions_or_none`).

Because no identifier comes twice, it makes no difference whether definitions are looked for in
order, or kept in a table where a later one takes the place of an earlier one
(`get?_table`): each identifier leads to its own definition.
-/

namespace Depot.Definition

open Xml (Element Placed)

/-! ### The rules -/

/-- The element has a part of the name; what follows the part belongs to it. -/
def HasPart (e : Element) (name : String) (part : Placed) : Prop :=
  part ∈ e.content.placed ∧ part.element.tag = name

/-- The element has a part of the name with the text, which is what stands before any element in it,
and is not blank. -/
def HasText (e : Element) (name s : String) : Prop :=
  ∃ part ∈ e.children, part.tag = name ∧ Text.strip part.leadingText = s ∧ s ≠ ""

/-- The elements set the properties: each of them by its name, to its text. The last one of a name
counts, and names stand where they come first. -/
structure Sets (es : List Element) (properties : Dictionary String) : Prop where
  names : Dictionary.names properties = (es.map Element.tag).eraseDups
  values : ∀ name s, Dictionary.get? properties name = some s ↔
    ∃ e, IsLast (·.tag = name) es e ∧ Text.strip e.leadingText = s

/-- The elements in the properties of an element. -/
def settings (e : Element) : List Element := (e.childrenNamed "properties").flatMap Element.children

/-- The element describes the definition. -/
structure Describes (e : Element) (d : Definition) : Prop where
  tag : e.tag = "repository"
  once : (e.children.map Element.tag).Nodup
  id : HasText e "id" d.id
  type : HasText e "type" d.type
  properties : Sets (settings e) d.properties
  configuration : ∀ part, d.configuration = some part ↔ HasPart e "configuration" part
  filter : ∀ part, d.filter = some part ↔ HasPart e "filter" part

/-- The element is in order: it is a repository, it has no two parts of one name, and its identifier
and its type are not blank. -/
structure IsInOrder (e : Element) : Prop where
  tag : e.tag = "repository"
  once : (e.children.map Element.tag).Nodup
  id : ∃ s, HasText e "id" s
  type : ∃ s, HasText e "type" s

/-- What may be wrong with an element by itself. -/
inductive Flaw (e : Element) : Malformed → Prop
  | tag (h : e.tag ≠ "repository") : Flaw e (.unexpectedElement e.tag)
  | part {name : String} (h : List.Duplicate name (e.children.map Element.tag)) :
      Flaw e (.repeatedPart name)
  | text (h : (∀ s, ¬ HasText e "id" s) ∨ ∀ s, ¬ HasText e "type" s) : Flaw e .incomplete

/-- The identifiers in elements, in order. -/
def identifiers (es : List Element) : List String :=
  es.flatMap fun e => (e.childrenNamed "id").map fun part => Text.strip part.leadingText

/-- What may be wrong with the elements of a document: one of them is not in order, or an identifier
comes twice. -/
inductive ListFlaw (es : List Element) : Malformed → Prop
  | element {e : Element} {m : Malformed} (he : e ∈ es) (h : Flaw e m) : ListFlaw es m
  | identifier {id : String} (h : List.Duplicate id (identifiers es)) :
      ListFlaw es (.duplicateId id)

variable {e : Element} {d : Definition}

/-! ### Parts -/

theorem map_element_placed (k : Xml.Content) : k.placed.map Placed.element = k.children := by
  induction k with
  | nil => rfl
  | char c rest ih => exact ih
  | element n k rest _ ih => exact congrArg (Element.mk n k :: ·) ih

/-- Of a name that comes once there is one child at most. -/
theorem childrenNamed_eq_singleton (honce : (e.children.map Element.tag).Nodup) {child : Element}
    (hchild : child ∈ e.children) : e.childrenNamed child.tag = [child] := by
  obtain ⟨before, after, hsplit⟩ := List.append_of_mem hchild
  rw [hsplit, List.map_append, List.map_cons, List.nodup_middle, List.nodup_cons,
    List.mem_append, not_or] at honce
  -- on neither side of it does the tag occur again
  have hother : ∀ es : List Element, child.tag ∉ es.map Element.tag →
      (es.filter fun other => other.tag == child.tag) = [] := by
    intro es hes
    rw [List.filter_eq_nil_iff]
    intro other hmem htag
    exact hes (List.mem_map.2 ⟨other, hmem, beq_iff_eq.1 htag⟩)
  rw [Element.childrenNamed, hsplit, List.filter_append, List.filter_cons, hother _ honce.1.1,
    hother _ honce.1.2, if_pos (beq_self_eq_true _), List.nil_append]

/-- An element has one text at most under a name that comes once. -/
theorem HasText.map_childrenNamed (honce : (e.children.map Element.tag).Nodup) {name s : String}
    (h : HasText e name s) :
    ((e.childrenNamed name).map fun part => Text.strip part.leadingText) = [s] := by
  obtain ⟨part, hpart, rfl, rfl, -⟩ := h
  rw [childrenNamed_eq_singleton honce hpart]
  rfl

theorem HasText.unique (honce : (e.children.map Element.tag).Nodup) {name s t : String}
    (hs : HasText e name s) (ht : HasText e name t) : s = t :=
  List.singleton_inj.1 ((hs.map_childrenNamed honce).symm.trans (ht.map_childrenNamed honce))

/-- What stands on both sides comes twice. -/
theorem duplicate_append {α : Type} {a : α} {as bs : List α} (has : a ∈ as) (hbs : a ∈ bs) :
    List.Duplicate a (as ++ bs) := by
  rw [List.duplicate_iff_sublist]
  exact (List.singleton_sublist.2 has).append (List.singleton_sublist.2 hbs)

/-- The parts with their names. -/
def named (ps : List Placed) : Dictionary Placed := ps.map fun part => (part.element.tag, part)

theorem names_named (ps : List Placed) :
    Dictionary.names (named ps) = ps.map fun part => part.element.tag := by
  rw [named, Dictionary.names, List.map_map]
  rfl

theorem names_named_placed (e : Element) :
    Dictionary.names (named e.content.placed) = e.children.map Element.tag := by
  rw [names_named, Element.children, ← map_element_placed, List.map_map]
  rfl

/-- **Along the parts.** Given the parts before, no two of which have one name, either all names
differ, and the parts are taken up as they are, or a name comes twice. -/
theorem readParts_cases {parts : Dictionary Placed} (hparts : (Dictionary.names parts).Nodup)
    (ps : List Placed) :
    (readParts parts ps = .ok (parts ++ named ps) ∧
      (Dictionary.names parts ++ Dictionary.names (named ps)).Nodup) ∨
    ∃ name, readParts parts ps = .error (.repeatedPart name) ∧
      List.Duplicate name (Dictionary.names parts ++ Dictionary.names (named ps)) := by
  -- on the parts still to read, for every table of parts with one entry for each tag
  induction ps generalizing parts with
  | nil =>
    rw [readParts, named, List.map_nil, List.append_nil]
    refine .inl ⟨rfl, ?_⟩
    rwa [Dictionary.names_nil, List.append_nil]
  | cons part ps ih =>
    rw [readParts]
    by_cases htaken : Dictionary.has parts part.element.tag = true
    · rw [if_pos htaken]
      refine .inr ⟨_, rfl, duplicate_append (Dictionary.has_iff.1 htaken) ?_⟩
      exact List.mem_cons_self
    · rw [if_neg htaken]
      -- the part is one of those before for the rest
      have hnew : (Dictionary.names (parts ++ [(part.element.tag, part)])).Nodup := by
        rw [Dictionary.names, List.map_append]
        refine hparts.append (List.nodup_singleton _) (List.disjoint_singleton.2 ?_)
        exact fun h => htaken (Dictionary.has_iff.2 h)
      have hlist : parts ++ [(part.element.tag, part)] ++ named ps = parts ++ named (part :: ps) :=
        List.append_assoc _ _ _
      have hnames : Dictionary.names (parts ++ [(part.element.tag, part)]) ++
          Dictionary.names (named ps) =
            Dictionary.names parts ++ Dictionary.names (named (part :: ps)) := by
        rw [Dictionary.names, List.map_append, List.append_assoc]
        rfl
      have h := ih hnew
      rwa [hnames, hlist] at h

/-! ### Elements -/

theorem get?_named (honce : (e.children.map Element.tag).Nodup) {name : String} {part : Placed} :
    Dictionary.get? (named e.content.placed) name = some part ↔ HasPart e name part := by
  rw [← names_named_placed] at honce
  rw [← Dictionary.mem_iff_get? honce, named, List.mem_map]
  constructor
  · rintro ⟨_, hpart, heq⟩
    obtain ⟨rfl, rfl⟩ := Prod.mk.inj heq
    exact ⟨hpart, rfl⟩
  · rintro ⟨hpart, rfl⟩
    exact ⟨part, hpart, rfl⟩

/-- What has a part has it among its children. -/
theorem HasPart.mem_children {name : String} {part : Placed} (h : HasPart e name part) :
    part.element ∈ e.children := by
  rw [Element.children, ← map_element_placed]
  exact List.mem_map_of_mem h.1

theorem exists_hasPart {child : Element} (h : child ∈ e.children) :
    ∃ part, HasPart e child.tag part ∧ part.element = child := by
  rw [Element.children, ← map_element_placed] at h
  obtain ⟨part, hpart, rfl⟩ := List.mem_map.1 h
  exact ⟨part, ⟨hpart, rfl⟩, rfl⟩

/-- The text of a part is what is read of it, if that is not empty. -/
theorem hasText_iff (honce : (e.children.map Element.tag).Nodup) {name s : String} :
    HasText e name s ↔ partText (named e.content.placed) name = s ∧ s ≠ "" := by
  unfold partText
  constructor
  · rintro ⟨child, hchild, rfl, rfl, hne⟩
    obtain ⟨part, hpart, rfl⟩ := exists_hasPart hchild
    rw [(get?_named honce).2 hpart]
    exact ⟨rfl, hne⟩
  · rintro ⟨hs, hne⟩
    cases hpart : Dictionary.get? (named e.content.placed) name with
    | none =>
      rw [hpart] at hs
      exact absurd hs.symm hne
    | some part =>
      rw [hpart] at hs
      have h := (get?_named honce).1 hpart
      exact ⟨part.element, h.mem_children, h.2, hs, hne⟩

/-- The properties of an element are those that are read of its part. -/
theorem properties_eq (honce : (e.children.map Element.tag).Nodup) :
    (match Dictionary.get? (named e.content.placed) "properties" with
      | some part => readProperties part.element
      | none => []) = Dictionary.ofMembers Element.tag textOf (settings e) := by
  cases hpart : Dictionary.get? (named e.content.placed) "properties" with
  | none =>
    -- where there is no such part, there is no child of that name
    have hnone : e.childrenNamed "properties" = [] := by
      rw [Element.childrenNamed, List.filter_eq_nil_iff]
      intro child hchild htag
      obtain ⟨part, h, rfl⟩ := exists_hasPart hchild
      rw [beq_iff_eq.1 htag, ← get?_named honce, hpart] at h
      cases h
    rw [settings, hnone]
    rfl
  | some part =>
    obtain ⟨hmem, htag⟩ := (get?_named honce).1 hpart
    have hone := childrenNamed_eq_singleton honce (HasPart.mem_children ⟨hmem, htag⟩)
    rw [htag] at hone
    rw [settings, hone, List.flatMap_singleton]
    rfl

theorem sets_ofMembers (es : List Element) :
    Sets es (Dictionary.ofMembers Element.tag textOf es) where
  names := Dictionary.names_ofMembers es
  values _ _ := Dictionary.get?_ofMembers_eq_some_iff

/-- Elements set one dictionary of properties only. -/
theorem Sets.eq_ofMembers {es : List Element} {properties : Dictionary String}
    (h : Sets es properties) : properties = Dictionary.ofMembers Element.tag textOf es := by
  have hread := sets_ofMembers es
  refine (Dictionary.ext_get? (hread.names.trans h.names.symm)
    (Dictionary.nodup_names_ofMembers es) fun name => Option.ext fun s => ?_).symm
  rw [hread.values, h.values]

/-- An element describes one definition at most. -/
theorem Describes.unique {d' : Definition} (h : Describes e d) (h' : Describes e d') : d = d' := by
  have hid : d.id = d'.id := h.id.unique h.once h'.id
  have htype : d.type = d'.type := h.type.unique h.once h'.type
  have hproperties : d.properties = d'.properties :=
    h.properties.eq_ofMembers.trans h'.properties.eq_ofMembers.symm
  have hconfiguration : d.configuration = d'.configuration :=
    Option.ext fun part => (h.configuration part).trans (h'.configuration part).symm
  have hfilter : d.filter = d'.filter :=
    Option.ext fun part => (h.filter part).trans (h'.filter part).symm
  calc d = ⟨d.id, d.type, d.properties, d.configuration, d.filter⟩ := rfl
    _ = d' := by rw [hid, htype, hproperties, hconfiguration, hfilter]

theorem Describes.isInOrder (h : Describes e d) : IsInOrder e :=
  ⟨h.tag, h.once, ⟨_, h.id⟩, ⟨_, h.type⟩⟩

theorem Flaw.not_isInOrder {m : Malformed} (h : Flaw e m) : ¬ IsInOrder e := by
  intro horder
  cases h with
  | tag h => exact h horder.tag
  | part h => exact h.not_nodup horder.once
  | text h =>
    obtain ⟨id, hid⟩ := horder.id
    obtain ⟨type, htype⟩ := horder.type
    exact h.elim (fun h => h id hid) fun h => h type htype

/-- **An element** is read as the definition that it describes, or the error tells a flaw of it. -/
theorem read_cases (e : Element) :
    (∃ d, read e = .ok d ∧ Describes e d) ∨ ∃ m, read e = .error m ∧ Flaw e m := by
  unfold read
  by_cases htag : e.tag = "repository"
  · rw [if_neg (not_not_intro htag)]
    rcases @readParts_cases [] List.nodup_nil e.content.placed with
      ⟨hparts, honce⟩ | ⟨name, hparts, htwice⟩
    · -- no part is given twice, so each can be looked up by its tag
      rw [hparts]
      replace honce : (e.children.map Element.tag).Nodup := names_named_placed e ▸ honce
      have hid : ∀ {s}, HasText e "id" s ↔ _ := hasText_iff honce
      have htype : ∀ {s}, HasText e "type" s ↔ _ := hasText_iff honce
      by_cases hblank : partText (named e.content.placed) "id" = "" ∨
          partText (named e.content.placed) "type" = ""
      · -- the identifier or the type is blank
        refine .inr ⟨.incomplete, if_pos hblank, .text (hblank.imp ?_ ?_)⟩
        · exact fun h s hs => (hid.1 hs).2 ((hid.1 hs).1.symm.trans h)
        · exact fun h s hs => (htype.1 hs).2 ((htype.1 hs).1.symm.trans h)
      · -- both are there, and the definition is described
        obtain ⟨hidne, htypene⟩ := not_or.1 hblank
        refine .inl ⟨_, if_neg hblank, htag, honce, hid.2 ⟨rfl, hidne⟩, htype.2 ⟨rfl, htypene⟩, ?_,
          fun part => get?_named honce, fun part => get?_named honce⟩
        have hsets := sets_ofMembers (settings e)
        rw [← properties_eq honce] at hsets
        exact hsets
    · rw [hparts]
      exact .inr ⟨_, rfl, .part (names_named_placed e ▸ htwice)⟩
  · rw [if_pos htag]
    exact .inr ⟨_, rfl, .tag htag⟩

/-- **Which elements describe something.** Those that are in order. -/
theorem exists_describes_iff : (∃ d, Describes e d) ↔ IsInOrder e := by
  constructor
  · rintro ⟨d, h⟩
    exact h.isInOrder
  · intro horder
    rcases read_cases e with ⟨d, -, hdescribes⟩ | ⟨m, -, hflaw⟩
    · exact ⟨d, hdescribes⟩
    · exact absurd horder hflaw.not_isInOrder

/-! ### Documents -/

theorem identifiers_eq {es : List Element} {ds : List Definition}
    (h : List.Forall₂ Describes es ds) : identifiers es = ds.map Definition.id := by
  induction h with
  | nil => rfl
  | cons hd _ ih =>
    rw [identifiers, List.flatMap_cons, hd.id.map_childrenNamed hd.once]
    exact congrArg _ ih

/-- One element, then the others: its identifier is taken for them. -/
theorem readAll_cons (hread : read e = .ok d) (taken : List String) (es : List Element) :
    readAll taken (e :: es) =
      if taken.contains d.id then .error (.duplicateId d.id)
      else (readAll (d.id :: taken) es).map (d :: ·) := by
  rw [readAll, hread]
  show (if taken.contains d.id = true then _ else _) = _
  split
  · rfl
  · cases readAll (d.id :: taken) es <;> rfl

/-- **Along the elements.** Given the identifiers before, none of which comes twice, either each
element describes a definition and all identifiers differ, or one of the elements has a flaw, or an
identifier comes twice. -/
theorem readAll_cases {taken : List String} (htaken : taken.Nodup) (es : List Element) :
    (∃ ds, readAll taken es = .ok ds ∧ List.Forall₂ Describes es ds ∧
      (taken ++ identifiers es).Nodup) ∨
    ∃ m, readAll taken es = .error m ∧ ((∃ e ∈ es, Flaw e m) ∨
      ∃ id, m = .duplicateId id ∧ List.Duplicate id (taken ++ identifiers es)) := by
  -- on the elements still to read, for all identifiers already taken
  induction es generalizing taken with
  | nil =>
    refine .inl ⟨[], rfl, .nil, ?_⟩
    rwa [identifiers, List.flatMap_nil, List.append_nil]
  | cons e es ih =>
    rcases read_cases e with ⟨d, hread, hd⟩ | ⟨m, hread, hflaw⟩
    · have hhead : identifiers (e :: es) = d.id :: identifiers es := by
        rw [identifiers, List.flatMap_cons, hd.id.map_childrenNamed hd.once]
        rfl
      -- for the others it makes no difference where among the taken ones an identifier stands
      have hperm : (taken ++ identifiers (e :: es)).Perm (d.id :: taken ++ identifiers es) :=
        hhead ▸ List.perm_middle
      rw [readAll_cons hread]
      by_cases hcontains : taken.contains d.id = true
      · rw [if_pos hcontains]
        refine .inr ⟨_, rfl, .inr ⟨d.id, rfl, ?_⟩⟩
        exact duplicate_append (List.contains_iff_mem.1 hcontains) (hhead ▸ List.mem_cons_self)
      · rw [if_neg hcontains]
        have hnew : (d.id :: taken).Nodup :=
          List.nodup_cons.2 ⟨fun h => hcontains (List.contains_iff_mem.2 h), htaken⟩
        rcases ih hnew with ⟨ds, hds, hdescribes, honce⟩ | ⟨m, hm, hflaw⟩
        · rw [hds]
          exact .inl ⟨d :: ds, rfl, .cons hd hdescribes, hperm.nodup_iff.2 honce⟩
        · rw [hm]
          refine .inr ⟨m, rfl, hflaw.imp ?_ ?_⟩
          · exact fun ⟨e, he, h⟩ => ⟨e, List.mem_cons_of_mem _ he, h⟩
          · rintro ⟨id, rfl, htwice⟩
            refine ⟨id, rfl, ?_⟩
            rw [List.duplicate_iff_two_le_count] at htwice ⊢
            rwa [hperm.count_eq]
    · rw [readAll, hread]
      exact .inr ⟨m, rfl, .inl ⟨e, List.mem_cons_self, hflaw⟩⟩

/-- **A document** is read as the definitions that its elements describe, or the error tells a flaw
of it. -/
theorem ofDocument_cases {source : Xml.Source} {root : Element}
    (hroot : Xml.Document.parse source = .ok root) :
    (∃ ds, ofDocument source = .ok ds ∧ List.Forall₂ Describes root.children ds ∧
      (ds.map Definition.id).Nodup) ∨
    ∃ m, ofDocument source = .error m ∧ ListFlaw root.children m := by
  unfold ofDocument
  rw [hroot]
  rcases readAll_cases List.nodup_nil root.children with
    ⟨ds, hds, hdescribes, honce⟩ | ⟨m, hm, ⟨e, he, hflaw⟩ | ⟨id, rfl, htwice⟩⟩
  · exact .inl ⟨ds, hds, hdescribes, identifiers_eq hdescribes ▸ honce⟩
  · exact .inr ⟨m, hm, .element he hflaw⟩
  · exact .inr ⟨_, hm, .identifier htwice⟩

/-- With a flaw, the elements are not all in order with different identifiers. -/
theorem ListFlaw.not_and {es : List Element} {m : Malformed} (h : ListFlaw es m)
    (horder : ∀ e ∈ es, IsInOrder e) (honce : (identifiers es).Nodup) : False := by
  cases h with
  | element he h => exact h.not_isInOrder (horder _ he)
  | identifier h => exact h.not_nodup honce

/-! ### Tables -/

/-- Definitions under their identifiers. One that comes later takes the place of one with the same
identifier. -/
def table (ds : List Definition) : Dictionary Definition :=
  Dictionary.ofMembers Definition.id (fun d => d) ds

/-- Where all identifiers differ, it makes no difference whether definitions are looked for in order
or in a table. -/
theorem get?_table {k : Configurator} (hids : (k.definitions.map Definition.id).Nodup)
    (id : String) :
    Dictionary.get? (table k.definitions) id = withId? k.definitions id := by
  refine Option.ext fun d => ?_
  rw [Configurator.withId?_eq_some_iff hids, table,
    Dictionary.get?_ofMembers_eq_some_iff_of_nodup hids]
  simp only [exists_eq_right_right]
  rfl

/-- **Definitions are read all or nothing.** A document is read exactly if each of its elements is
in order and no identifier comes twice. It is read as the definitions that its elements describe,
one for each in the order of the document, and as nothing else. Otherwise the error tells what is
wrong with one of the elements, or which identifier comes twice. So with what was read each
identifier leads to its own definition, also where definitions of one identifier would take each
other's place. -/
theorem reads_all_definitions_or_none {source : Xml.Source} {root : Element}
    (hroot : Xml.Document.parse source = .ok root) :
    ((∃ ds, ofDocument source = .ok ds) ↔
      (∀ e ∈ root.children, IsInOrder e) ∧ (identifiers root.children).Nodup) ∧
    (∀ ds, ofDocument source = .ok ds ↔
      List.Forall₂ Describes root.children ds ∧ (ds.map Definition.id).Nodup) ∧
    (∀ m, ofDocument source = .error m → ListFlaw root.children m) ∧
    ∀ k : Configurator, ofDocument source = .ok k.definitions →
      (∀ d ∈ k.definitions, withId? k.definitions d.id = some d) ∧
      ∀ id, Dictionary.get? (table k.definitions) id = withId? k.definitions id := by
  -- elements that are described are in order
  have horder : ∀ {ds}, List.Forall₂ Describes root.children ds →
      ∀ e ∈ root.children, IsInOrder e := by
    intro ds h e he
    obtain ⟨d, hd⟩ := exists_forall₂_iff.1 ⟨ds, h⟩ e he
    exact hd.isInOrder
  have hdescribed : ∀ ds, ofDocument source = .ok ds ↔
      List.Forall₂ Describes root.children ds ∧ (ds.map Definition.id).Nodup := by
    intro ds
    rcases ofDocument_cases hroot with ⟨ds', hds', hdescribes, honce⟩ | ⟨m, hm, hflaw⟩
    · rw [hds', Except.ok.injEq]
      refine ⟨fun h => h ▸ ⟨hdescribes, honce⟩, fun h => ?_⟩
      -- each element describes one definition, so the lists are the same
      exact List.right_unique_forall₂' (fun _ _ _ h h' => h.unique h') hdescribes h.1
    · rw [hm]
      refine iff_of_false error_ne_ok fun ⟨h, honce⟩ => ?_
      exact hflaw.not_and (horder h) (identifiers_eq h ▸ honce)
  -- either all is described, or there is a flaw; each statement picks its side
  refine ⟨?_, hdescribed, fun m hm => ?_, fun k hk => ?_⟩
  · constructor
    · rintro ⟨ds, hds⟩
      obtain ⟨h, honce⟩ := (hdescribed ds).1 hds
      exact ⟨horder h, identifiers_eq h ▸ honce⟩
    · rintro ⟨horder, honce⟩
      rcases ofDocument_cases hroot with ⟨ds, hds, -⟩ | ⟨m, -, hflaw⟩
      · exact ⟨ds, hds⟩
      · exact (hflaw.not_and horder honce).elim
  · rcases ofDocument_cases hroot with ⟨ds, hds, -⟩ | ⟨m', hm', hflaw⟩
    · exact nomatch hds.symm.trans hm
    · obtain rfl := Except.error.inj (hm'.symm.trans hm)
      exact hflaw
  · have hids := ((hdescribed _).1 hk).2
    refine ⟨fun d hd => ?_, get?_table hids⟩
    exact (Configurator.withId?_eq_some_iff hids).2 ⟨hd, rfl⟩

/-- What is read is a document. -/
theorem exists_root_of_ofDocument {source : Xml.Source} {ds : List Definition}
    (h : ofDocument source = .ok ds) : ∃ root, Xml.Document.parse source = .ok root := by
  unfold ofDocument at h
  split at h
  · cases h
  · next root hroot => exact ⟨root, hroot⟩

/-- Two definitions. The first one has its identifier in a namespace, and a property twice. -/
def sampleDocument : String :=
  "<r xmlns:n='n'><repository><n:id> a\t</n:id><type>jpp</type><properties><p>x</p>" ++
  "<n:p> y </n:p></properties></repository><repository><id>b</id><type>jpp</type></repository></r>"

theorem reads_all_definitions_or_none_sampleDocument : ∃ root,
    Xml.Document.parse (.text sampleDocument) = .ok root ∧
      (∀ e ∈ root.children, IsInOrder e) ∧ identifiers root.children = ["a", "b"] ∧
      ∃ k : Configurator, ofDocument (.text sampleDocument) = .ok k.definitions ∧
        List.Forall₂ Describes root.children k.definitions ∧
        (withId? k.definitions "a").map (·.properties) = some [("p", "y")] ∧
        Dictionary.get? (table k.definitions) "a" = withId? k.definitions "a" := by
  have hread : (ofDocument (.text sampleDocument)).toOption.map
      (fun ds => (ds.map (·.id), (withId? ds "a").map (·.properties))) =
        some (["a", "b"], some [("p", "y")]) := by decide +kernel
  obtain ⟨ds, hds, hpair⟩ := Option.map_eq_some_iff.1 hread
  obtain ⟨hids, hproperties⟩ := Prod.mk.inj hpair
  replace hds := eq_ok_of_toOption hds
  obtain ⟨root, hroot⟩ := exists_root_of_ofDocument hds
  obtain ⟨hiff, hdescribed, -, hlookup⟩ := reads_all_definitions_or_none hroot
  obtain ⟨horder, -⟩ := hiff.1 ⟨ds, hds⟩
  have hall := ((hdescribed ds).1 hds).1
  exact ⟨root, hroot, horder, (identifiers_eq hall).trans hids, ⟨ds, .root, [], none⟩, hds, hall,
    hproperties, (hlookup ⟨ds, .root, [], none⟩ hds).2 "a"⟩

end Depot.Definition
