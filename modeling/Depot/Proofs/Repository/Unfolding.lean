import Depot.Proofs.Repository.Shape
import Mathlib.Data.List.Nodup
import Mathlib.Logic.Relation
/-!
# Configuring a repository unfolds its references

Definitions refer to one another in any way. From an identifier on, their references are followed,
and what has been followed down to an identifier is its way. `Configurator.descend` is this descent
without any bound: its only guard is that no identifier comes twice on a way, so each step leaves
fewer definitions that are not on it (`Configurator.left_lt`), and that is why it ends.
`Configurator.build` bounds the length of the ways instead, and never meets the bound
(`build_eq_descend`).

One step of the descent is opened once, and all that may come of it told (`comesTo_descend`). What
comes of the whole is said in terms of the graph of references (`Configurator.Refers`). A tree that
comes of it is the unfolding of the graph (`Configurator.Unfolds`): the node of a definition over
the unfoldings of the identifiers to which it refers, in document order. That takes no descent: it
holds of everything that is built, under any bound (`unfolds_of_build`). An error that comes of it
tells a fault of something that can be reached (`Configurator.Fault`). A graph that has an unfolding
has no fault. So `configure_eq_ok_iff_unfolds` has both directions: a tree is built exactly if all
definitions that can be reached are there and well-formed, and no references lead back to where they
started.

Identifiers that are shared but not on one way with themselves are no fault; they are unfolded each
time.
-/

namespace Depot.Configurator

open Definition (HasBody IsWellFormed Lacks RefersTo)
open Relation (ReflTransGen TransGen)

variable (k : Configurator) (namespaceName : String)

/-! ### The descent ends -/

/-- The number of definitions that are not on a way. -/
def left (way : List String) : Nat := (k.definitions.filter fun d => !way.contains d.id).length

variable {k} in
/-- A step to a definition that is not on the way leaves fewer of them. -/
theorem left_lt {way : List String} {id : String} {d : Definition} (hway : ¬ way.contains id = true)
    (hd : Definition.withId? k.definitions id = some d) : k.left (way ++ [id]) < k.left way := by
  have hid : d.id = id := by simpa using List.find?_some hd
  have hmem : d ∈ k.definitions := List.mem_of_find?_eq_some hd
  unfold left
  -- the definitions that are left after the step are left before it, without `d`
  have hsplit : (k.definitions.filter fun d => !(way ++ [id]).contains d.id) =
      (k.definitions.filter fun d => !way.contains d.id).filter fun d => d.id != id := by
    rw [List.filter_filter]
    refine List.filter_congr fun e _ => ?_
    simp only [List.contains_eq_mem, List.mem_append, List.mem_singleton]
    grind
  rw [hsplit, List.length_filter_lt_length_iff_exists]
  refine ⟨d, List.mem_filter.2 ⟨hmem, ?_⟩, ?_⟩
  · simpa [hid] using hway
  · simp [hid]

/-- Builds the tree of an identifier, to which the identifiers of `way` lead, without a bound. -/
def descend (way : List String) (id : String) : Except ConfigureError Repository :=
  if _ : way.contains id then .error (.cycle (way ++ [id]))
  else match _ : Definition.withId? k.definitions id with
    | none => .error (.undefined id)
    | some d =>
      if types.contains d.type then do
        let filter ← filterOf d
        k.buildNode (fun other => descend (way ++ [id]) other) d (k.frameOf d namespaceName filter)
      else .error (.unknownType id d.type)
termination_by k.left way
decreasing_by exact left_lt ‹_› ‹_›

/-- One step of the descent. -/
theorem descend_eq (way : List String) (id : String) : k.descend namespaceName way id =
    if way.contains id then .error (.cycle (way ++ [id]))
    else match Definition.withId? k.definitions id with
      | none => .error (.undefined id)
      | some d =>
        if types.contains d.type then
          filterOf d >>= fun filter => k.buildNode (k.descend namespaceName (way ++ [id])) d
            (k.frameOf d namespaceName filter)
        else .error (.unknownType id d.type) := by
  rw [descend]
  by_cases hway : way.contains id = true
  · rw [dif_pos hway, if_pos hway]
  · rw [dif_neg hway, if_neg hway]
    cases Definition.withId? k.definitions id <;> rfl

/-- As long as the bound exceeds the number of definitions that are not on the way, it is not met.
-/
theorem build_eq_descend {fuel : Nat} {way : List String} (h : k.left way < fuel) (id : String) :
    k.build namespaceName fuel way id = k.descend namespaceName way id := by
  -- the bound exceeds the identifiers that are left, and those get fewer along the way
  induction fuel generalizing way id with
  | zero => exact absurd h (Nat.not_lt_zero _)
  | succ fuel ih =>
    rw [build, descend_eq]
    by_cases hway : way.contains id = true
    · rw [if_pos hway, if_pos hway]
    · rw [if_neg hway, if_neg hway]
      cases hd : Definition.withId? k.definitions id with
      | none => rfl
      | some d =>
        have hbuild : k.build namespaceName fuel (way ++ [id]) =
            k.descend namespaceName (way ++ [id]) :=
          funext (ih (Nat.lt_of_lt_of_le (left_lt hway hd) (Nat.le_of_lt_succ h)))
        simp only [hbuild]

theorem configure_eq_descend (id : String) :
    k.configure id namespaceName = k.descend namespaceName [] id :=
  k.build_eq_descend namespaceName (Nat.lt_succ_of_le (List.length_filter_le _ _)) id

/-! ### The graph of references -/

/-- The definition is listed under the identifier. -/
def Defines (id : String) (d : Definition) : Prop := d ∈ k.definitions ∧ d.id = id

/-- The definition of the first identifier refers to the second one. -/
def Refers (id other : String) : Prop := ∃ d, k.Defines id d ∧ d.RefersTo other

/-- References lead from the first identifier to the second one, in any number of steps. -/
def Reaches : String → String → Prop := ReflTransGen k.Refers

/-- The tree is the unfolding of the graph of references from an identifier on. -/
inductive Unfolds : String → Repository → Prop
  | node {id : String} {d : Definition} {condition : Condition} {body : Definition.Body}
      {trees : List Repository} {r : Repository} (hd : k.Defines id d)
      (hfilter : d.HasFilter condition) (hbody : d.HasBody body)
      (hlength : body.references.length = trees.length)
      (htrees : ∀ other tree, (other, tree) ∈ body.references.zip trees → Unfolds other tree)
      (hnode : k.Assembles d (k.frameOf d namespaceName condition) body trees r) : Unfolds id r

/-- What may be wrong from an identifier on: references lead back to an identifier, or to one that
is not defined, or to a definition that lacks something. -/
inductive Fault (id : String) : ConfigureError → Prop
  | cycle {way : List String} {other : String} (hreach : k.Reaches id other)
      (hcycle : TransGen k.Refers other other) : Fault id (.cycle (way ++ [other]))
  | undefined {other : String} (hreach : k.Reaches id other) (h : ∀ d, ¬ k.Defines other d) :
      Fault id (.undefined other)
  | definition {other : String} {d : Definition} {e : ConfigureError}
      (hreach : k.Reaches id other) (hd : k.Defines other d) (h : d.Lacks e) : Fault id e

section

variable {k} {namespaceName}

/-- What is listed under an identifier has it. -/
theorem defines_of_withId? {id : String} {d : Definition}
    (h : Definition.withId? k.definitions id = some d) : k.Defines id d :=
  ⟨List.mem_of_find?_eq_some h, by simpa using List.find?_some h⟩

/-- Each tree in a node has an identifier to which the node refers. -/
theorem exists_reference_of_mem {ids : List String} {trees : List Repository}
    (hlength : ids.length = trees.length) {tree : Repository} (h : tree ∈ trees) :
    ∃ id, (id, tree) ∈ ids.zip trees := by
  rw [← List.map_snd_zip (Nat.le_of_eq hlength.symm)] at h
  obtain ⟨⟨id, _⟩, hmem, rfl⟩ := List.mem_map.1 h
  exact ⟨id, hmem⟩

/-- **What is built is the unfolding**, under any bound. -/
theorem unfolds_of_build {fuel : Nat} {way : List String} {id : String} {r : Repository}
    (h : k.build namespaceName fuel way id = .ok r) : k.Unfolds namespaceName id r := by
  induction fuel generalizing way id r with
  | zero => cases h
  | succ fuel ih =>
    rw [build] at h
    split at h
    · cases h
    · split at h
      · cases h
      · next d hfound =>
        split at h
        · next htype =>
          rcases filterOf_cases d with ⟨condition, hread, hfilter⟩ | ⟨e, hread, -⟩
          · rw [hread] at h
            change k.buildNode _ d _ = .ok r at h
            rcases k.buildNode_cases (k.build namespaceName fuel (way ++ [id]))
              (k.frameOf d namespaceName condition) (List.contains_iff_mem.1 htype) with
              ⟨built, body, trees, hbuild, hbody, htrees, hnode⟩ | ⟨e, hbuild, -⟩
            · cases hbuild.symm.trans h
              -- the trees in the node are built under a smaller bound
              refine .node (defines_of_withId? hfound) hfilter hbody htrees.length_eq
                (fun other tree hmem => ?_) hnode
              exact ih ((List.forall₂_iff_zip.1 htrees).2 hmem)
            · cases hbuild.symm.trans h
          · rw [hread] at h
            cases h
        · cases h

variable (hids : (k.definitions.map Definition.id).Nodup)
include hids

theorem Defines.unique {id : String} {d d' : Definition} (hd : k.Defines id d)
    (hd' : k.Defines id d') : d = d' :=
  List.inj_on_of_nodup_map hids hd.1 hd'.1 (hd.2.trans hd'.2.symm)

theorem withId?_eq_some_iff {id : String} {d : Definition} :
    Definition.withId? k.definitions id = some d ↔ k.Defines id d := by
  refine ⟨defines_of_withId?, fun hd => ?_⟩
  cases h : Definition.withId? k.definitions id with
  | none => exact absurd hd.2 (by simpa using List.find?_eq_none.1 h d hd.1)
  | some other => rw [(defines_of_withId? h).unique hids hd]

/-! ### What comes of the descent -/

variable (k namespaceName) in
/-- What the descent to an identifier, to which a way leads, comes to: the node of its definition
over what comes of the identifiers to which that refers, or an error, for which there are four
causes. -/
inductive ComesTo (way : List String) (id : String) : Except ConfigureError Repository → Prop
  | node {d : Definition} {condition : Condition} {body : Definition.Body}
      {trees : List Repository} {r : Repository} (hleft : k.left (way ++ [id]) < k.left way)
      (hd : k.Defines id d) (hfilter : d.HasFilter condition) (hbody : d.HasBody body)
      (htrees : List.Forall₂ (fun other tree =>
        k.descend namespaceName (way ++ [id]) other = .ok tree) body.references trees)
      (hnode : k.Assembles d (k.frameOf d namespaceName condition) body trees r) :
      ComesTo way id (.ok r)
  | cycle (hway : id ∈ way) : ComesTo way id (.error (.cycle (way ++ [id])))
  | undefined (h : ∀ d, ¬ k.Defines id d) : ComesTo way id (.error (.undefined id))
  | lack {d : Definition} {e : ConfigureError} (hd : k.Defines id d) (h : d.Lacks e) :
      ComesTo way id (.error e)
  | below {other : String} {e : ConfigureError} (hleft : k.left (way ++ [id]) < k.left way)
      (hrefers : k.Refers id other)
      (h : k.descend namespaceName (way ++ [id]) other = .error e) : ComesTo way id (.error e)

variable (namespaceName) in
/-- One step of the descent, with all that may come of it. -/
theorem comesTo_descend (way : List String) (id : String) :
    k.ComesTo namespaceName way id (k.descend namespaceName way id) := by
  rw [descend_eq]
  -- the checks in their order: the way, the definition, its type, its filter and its body
  split
  · next hway => exact .cycle (List.contains_iff_mem.1 hway)
  · next hway =>
    cases hfound : Definition.withId? k.definitions id with
    | none =>
      refine .undefined fun d hd => ?_
      cases hfound.symm.trans ((withId?_eq_some_iff hids).2 hd)
    | some d =>
      have hd : k.Defines id d := (withId?_eq_some_iff hids).1 hfound
      -- below the node there is one identifier less
      have hleft := left_lt hway hfound
      simp only
      split
      · next htype =>
        rcases filterOf_cases d with ⟨condition, hread, hfilter⟩ | ⟨e, hread, hlacks⟩
        · rw [hread]
          show k.ComesTo namespaceName way id (k.buildNode _ d _)
          rcases k.buildNode_cases (k.descend namespaceName (way ++ [id]))
            (k.frameOf d namespaceName condition) (List.contains_iff_mem.1 htype) with
            ⟨r, body, trees, hbuild, hbody, htrees, hnode⟩ | ⟨e, hbuild, hfault⟩
          · rw [hbuild]
            exact .node hleft hd hfilter hbody htrees hnode
          · rw [hbuild]
            -- a part is missing here, or a tree that is referred to fails
            rcases hfault with hlacks | ⟨other, hrefers, herror⟩
            · exact .lack hd hlacks
            · exact .below hleft ⟨d, hd, hrefers⟩ herror
        · rw [hread]
          exact .lack hd hlacks
      · next htype =>
        obtain ⟨hmem, rfl⟩ := hd
        exact .lack ⟨hmem, rfl⟩ (.type (by simpa using htype))

/-- **What is not built is at fault.** The error tells a fault of something to which references lead
from where the descent has started. -/
theorem fault_of_descend {start : String} {way : List String} {id : String} {e : ConfigureError}
    (hstart : k.Reaches start id) (hway : ∀ other ∈ way, TransGen k.Refers other id)
    (h : k.descend namespaceName way id = .error e) : k.Fault start e := by
  induction hn : k.left way using Nat.strongRecOn generalizing way id with
  | ind n ih =>
    subst hn
    have hstep := comesTo_descend namespaceName hids way id
    rw [h] at hstep
    cases hstep with
    | cycle hmem => exact .cycle hstart (hway id hmem)
    | undefined hnone => exact .undefined hstart hnone
    | lack hd hlacks => exact .definition hstart hd hlacks
    | @below other _ hleft hrefers herror =>
      -- one step further down, everything on the way leads to the next identifier
      refine ih _ hleft (hstart.tail hrefers) (fun w hw => ?_) herror rfl
      rcases List.mem_append.1 hw with hw | hw
      · exact (hway w hw).tail hrefers
      · rw [List.mem_singleton.1 hw]
        exact .single hrefers

/-! ### What has an unfolding -/

omit hids in
/-- Where a tree is unfolded, the definition is there and well-formed. -/
theorem Unfolds.exists_isWellFormed {id : String} {r : Repository}
    (h : k.Unfolds namespaceName id r) : ∃ d, k.Defines id d ∧ d.IsWellFormed := by
  cases h with
  | node hd hfilter hbody => exact ⟨_, hd, ⟨_, hfilter⟩, _, hbody⟩

omit hids in
/-- Each identifier in a body has its tree. -/
theorem exists_mem_zip {ids : List String} {trees : List Repository}
    (hlength : ids.length = trees.length) {id : String} (hid : id ∈ ids) :
    ∃ tree, (id, tree) ∈ ids.zip trees := by
  rw [← List.map_fst_zip (Nat.le_of_eq hlength)] at hid
  obtain ⟨⟨_, tree⟩, hmem, rfl⟩ := List.mem_map.1 hid
  exact ⟨tree, hmem⟩

/-- What a definition refers to is unfolded along with it. -/
theorem Unfolds.exists_of_refers {id other : String} {r : Repository}
    (h : k.Unfolds namespaceName id r) (hrefers : k.Refers id other) :
    ∃ tree, k.Unfolds namespaceName other tree := by
  obtain ⟨d, hd, hrefers⟩ := hrefers
  cases h with
  | node hd' _ hbody hlength htrees _ =>
    obtain rfl := hd.unique hids hd'
    obtain ⟨tree, hmem⟩ := exists_mem_zip hlength (hbody.refersTo_iff.1 hrefers)
    exact ⟨tree, htrees other tree hmem⟩

theorem Unfolds.exists_of_reaches {id other : String} {r : Repository}
    (h : k.Unfolds namespaceName id r) (hreach : k.Reaches id other) :
    ∃ tree, k.Unfolds namespaceName other tree := by
  induction hreach with
  | refl => exact ⟨r, h⟩
  | tail _ hrefers ih =>
    obtain ⟨tree, htree⟩ := ih
    exact htree.exists_of_refers hids hrefers

/-- From where a tree is unfolded, references go on for finitely many steps only. -/
theorem Unfolds.acc {id : String} {r : Repository} (h : k.Unfolds namespaceName id r) :
    Acc (Function.swap k.Refers) id := by
  -- the unfolding is a finite tree, and each reference leads to one of its branches
  induction h with
  | node hd _ hbody hlength _ _ ih =>
    refine Acc.intro _ fun other ⟨d, hd', hrefers⟩ => ?_
    obtain rfl := hd'.unique hids hd
    obtain ⟨tree, hmem⟩ := exists_mem_zip hlength (hbody.refersTo_iff.1 hrefers)
    exact ih other tree hmem

omit hids in
/-- Where references go on for finitely many steps only, they do not lead back. -/
theorem not_transGen_of_acc {id : String} (h : Acc (Function.swap k.Refers) id) :
    ¬ TransGen k.Refers id id := by
  induction h with
  | intro id _ ih =>
    intro hcycle
    -- the same cycle, started one step later
    obtain ⟨next, hrefers, hback⟩ := TransGen.head'_iff.1 hcycle
    exact ih next hrefers (TransGen.tail' hback hrefers)

omit hids in
/-- Trees are the same if they are the same place by place. -/
theorem eq_of_mem_zip {P : String → Repository → Prop} {ids : List String}
    {trees others : List Repository} (hlength : ids.length = trees.length)
    (hlength' : ids.length = others.length)
    (h : ∀ id tree, (id, tree) ∈ ids.zip trees → ∀ {other}, P id other → tree = other)
    (h' : ∀ id other, (id, other) ∈ ids.zip others → P id other) : trees = others := by
  induction ids generalizing trees others with
  | nil =>
    rw [List.length_eq_zero_iff.1 hlength.symm, List.length_eq_zero_iff.1 hlength'.symm]
  | cons id ids ih =>
    obtain ⟨tree, trees, rfl⟩ := List.exists_cons_of_length_eq_add_one hlength.symm
    obtain ⟨other, others, rfl⟩ := List.exists_cons_of_length_eq_add_one hlength'.symm
    have hhead : tree = other :=
      h id tree List.mem_cons_self (h' id other List.mem_cons_self)
    have htail : trees = others := ih (Nat.succ.inj hlength) (Nat.succ.inj hlength')
      (fun id tree hmem => h id tree (List.mem_cons_of_mem _ hmem))
      (fun id other hmem => h' id other (List.mem_cons_of_mem _ hmem))
    rw [hhead, htail]

/-- The graph has one unfolding at most. -/
theorem Unfolds.unique {id : String} {r s : Repository} (hr : k.Unfolds namespaceName id r)
    (hs : k.Unfolds namespaceName id s) : r = s := by
  induction hr generalizing s with
  | node hd hfilter hbody hlength _ hnode ih =>
    cases hs with
    | node hd' hfilter' hbody' hlength' htrees' hnode' =>
      obtain rfl := hd.unique hids hd'
      obtain rfl := hfilter.unique hfilter'
      obtain rfl := hbody.unique hbody'
      obtain rfl := eq_of_mem_zip hlength hlength' ih htrees'
      exact hnode.unique hnode'

end

variable {k} in
/-- With a fault, not everything that can be reached is well-formed and free of cycles. -/
theorem Fault.not_and {id : String} {e : ConfigureError}
    (hids : (k.definitions.map Definition.id).Nodup) (h : k.Fault id e)
    (hdefined : ∀ other, k.Reaches id other → ∃ d, k.Defines other d ∧ d.IsWellFormed)
    (hacyclic : ∀ other, k.Reaches id other → ¬ TransGen k.Refers other other) : False := by
  cases h with
  | cycle hreach hcycle => exact hacyclic _ hreach hcycle
  | undefined hreach hnone =>
    obtain ⟨d, hd, -⟩ := hdefined _ hreach
    exact hnone d hd
  | definition hreach hd hlacks =>
    obtain ⟨d, hd', hwell⟩ := hdefined _ hreach
    obtain rfl := hd.unique hids hd'
    exact hlacks.not_isWellFormed hwell

/-- **Configuring a repository always ends, and succeeds exactly where it should.** The bound on the
length of ways is never met, so this is the descent without a bound, which ends because each step
leaves fewer definitions that are not on the way. A tree comes of it exactly if every definition
that can be reached is there and well-formed, and no references among them lead back to where they
started. That tree is the unfolding of the graph of references, the only one. Otherwise the error
tells what is at fault: a cycle, an identifier without definition, or what a definition lacks, and
that is a malformed condition only where the filter of the definition is one. -/
theorem configure_eq_ok_iff_unfolds (k : Configurator)
    (hids : (k.definitions.map Definition.id).Nodup) (id namespaceName : String) :
    k.configure id namespaceName = k.descend namespaceName [] id ∧
    ((∃ r, k.configure id namespaceName = .ok r) ↔
      (∀ other, k.Reaches id other → ∃ d, k.Defines other d ∧ d.IsWellFormed) ∧
        ∀ other, k.Reaches id other → ¬ TransGen k.Refers other other) ∧
    (∀ r, k.configure id namespaceName = .ok r ↔ k.Unfolds namespaceName id r) ∧
    ∀ e, k.configure id namespaceName = .error e → k.Fault id e := by
  -- the bound of the program plays no part
  have hdescend := k.configure_eq_descend namespaceName id
  have hunfolds : ∀ {r}, k.configure id namespaceName = .ok r → k.Unfolds namespaceName id r :=
    fun h => unfolds_of_build h
  have hfault : ∀ {e}, k.configure id namespaceName = .error e → k.Fault id e :=
    fun h => fault_of_descend hids .refl (fun _ hmem => absurd hmem List.not_mem_nil)
      (hdescend.symm.trans h)
  have hsound : ∀ {r}, k.Unfolds namespaceName id r →
      (∀ other, k.Reaches id other → ∃ d, k.Defines other d ∧ d.IsWellFormed) ∧
        ∀ other, k.Reaches id other → ¬ TransGen k.Refers other other := by
    refine fun h => ⟨fun other hreach => ?_, fun other hreach => ?_⟩
    · obtain ⟨tree, htree⟩ := h.exists_of_reaches hids hreach
      exact htree.exists_isWellFormed
    · obtain ⟨tree, htree⟩ := h.exists_of_reaches hids hreach
      exact not_transGen_of_acc (htree.acc hids)
  -- without a fault there is no error, so a tree is left
  have hcomplete : (∀ other, k.Reaches id other → ∃ d, k.Defines other d ∧ d.IsWellFormed) →
      (∀ other, k.Reaches id other → ¬ TransGen k.Refers other other) →
      ∃ r, k.configure id namespaceName = .ok r := by
    intro hdefined hacyclic
    cases h : k.configure id namespaceName with
    | error e => exact ((hfault h).not_and hids hdefined hacyclic).elim
    | ok r => exact ⟨r, rfl⟩
  refine ⟨hdescend, ⟨fun ⟨r, h⟩ => hsound (hunfolds h), fun h => hcomplete h.1 h.2⟩,
    fun r => ⟨hunfolds, fun h => ?_⟩, fun e => hfault⟩
  -- one tree at most unfolds, so it is the one that is built
  obtain ⟨hdefined, hacyclic⟩ := hsound h
  obtain ⟨s, hs⟩ := hcomplete hdefined hacyclic
  rw [hs, (hunfolds hs).unique hids h]

/-- An element that holds elements of one name, each with a text. -/
private def listing (tag inner : String) (texts : List String) : Xml.Element where
  name := ⟨none, tag⟩
  content := texts.foldr (fun text => .element ⟨none, inner⟩ (.ofChars text.toList)) .nil

/-- A compound of repositories, or a depmap whose delegate is the only one. -/
private def referring (id type : String) (others : List String) : Definition where
  id := id
  type := type
  configuration :=
    let repositories := listing "repositories" "repository" others
    let content : Xml.Content :=
      if type = "compound" then .element repositories.name repositories.content .nil
      else .element ⟨none, "path"⟩ (.ofChars ['p']) repositories.content
    some ⟨⟨⟨none, "configuration"⟩, content⟩, []⟩

/-- Definitions of which two share a third one, and of which two others refer to each other. -/
def sampleConfigurator : Configurator where
  root := .root
  definitions :=
    [referring "a" "compound" ["b", "c"], referring "b" "depmap" ["c"],
      { id := "c", type := "jpp", properties := [("root", "j")] },
      referring "d" "depmap" ["e"], referring "e" "compound" ["c", "d"]]

theorem configure_eq_ok_iff_unfolds_sampleConfigurator :
    (sampleConfigurator.definitions.map Definition.id).Nodup ∧
    (∃ r, sampleConfigurator.configure "a" = .ok r ∧ sampleConfigurator.Unfolds "" "a" r) ∧
    (∀ other, sampleConfigurator.Reaches "a" other →
      ¬ TransGen sampleConfigurator.Refers other other) ∧
    sampleConfigurator.configure "d" = .error (.cycle ["d", "e", "d"]) ∧
    sampleConfigurator.Fault "d" (.cycle ["d", "e", "d"]) := by
  have hids : (sampleConfigurator.definitions.map Definition.id).Nodup := by decide +kernel
  have hfound : ∀ {x : Except ConfigureError Repository}, x.toBool = true → ∃ r, x = .ok r := by
    rintro (e | r) h
    · exact nomatch h
    · exact ⟨r, rfl⟩
  have hfailed : ∀ {x : Except ConfigureError Repository} {e : ConfigureError},
      x.map (fun _ => ()) = .error e → x = .error e := by
    rintro (e | r) _ h
    · exact congrArg _ (Except.error.inj h)
    · exact nomatch h
  -- one configuration is evaluated for each outcome, and the theorem explains both
  obtain ⟨r, hr⟩ : ∃ r, sampleConfigurator.configure "a" = .ok r :=
    hfound (by decide +kernel)
  have herror : sampleConfigurator.configure "d" = .error (.cycle ["d", "e", "d"]) :=
    hfailed (by decide +kernel)
  obtain ⟨-, hiff, hunfolds, -⟩ :=
    configure_eq_ok_iff_unfolds sampleConfigurator hids "a" ""
  obtain ⟨-, -, -, hfault⟩ := configure_eq_ok_iff_unfolds sampleConfigurator hids "d" ""
  exact ⟨hids, ⟨r, hr, (hunfolds r).1 hr⟩, (hiff.1 ⟨r, hr⟩).2, herror, hfault _ herror⟩

end Depot.Configurator
