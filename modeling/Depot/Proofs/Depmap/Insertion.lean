import Depot.Depmap.Document
import Depot.Proofs.Depmap.Semilattice
import Depot.Proofs.Depmap.Table
/-!
# The order of insertion does not matter

What is added to a map is joined to what it amounts to (`Addition.apply_eq_ok`), one addition after
the other, and what is joined may come in any order. So the same additions in another order lead to
an equivalent map (`Addition.equiv_of_perm`).

Equivalent maps have one text but for the floors (`Depmap.Equiv.alikeBut`): before them and after
them the same is written, and in their places stand floors of the same kind and value, which may be
spelled in different ways.

`merge_semilattice` says all of this for maps that come about, together with the laws of merging.
-/

namespace Depot

/-! ### Additions -/

/-- What can be added to a map in one step. -/
inductive Addition where
  | mapping (source target : Coordinate)
  | runtime (c : Coordinate)
  | build (c : Coordinate)
  | floor (buildTime : Bool) (version : String)
  deriving DecidableEq

namespace Addition

open Depmap (Content EditError)

/-- Adds to a map. -/
def apply (m : Depmap) : Addition → Except EditError Depmap
  | mapping source target => m.addMapping source target
  | runtime c => m.addRuntime c
  | build c => m.addBuild c
  | floor buildTime version => m.addFloor buildTime version

/-- Adds to a map, one step after the other. -/
def applyAll (m : Depmap) (as : List Addition) : Except EditError Depmap := as.foldlM apply m

/-- A floor that is added can be read. -/
def IsValid : Addition → Prop
  | floor _ version => ∃ d, VersionFloor.parse version = .ok d
  | _ => True

/-- What is added amounts to. -/
def content : Addition → Content
  | mapping source target => (.single (source.identity, target.identity), ⊥, ⊥, ⊥, ⊥)
  | runtime c => (⊥, .single c.requirement, ⊥, ⊥, ⊥)
  | build c => (⊥, ⊥, .single c.requirement, ⊥, ⊥)
  | floor buildTime version =>
    match VersionFloor.parse version with
    | .error _ => ⊥
    | .ok d => if buildTime then (⊥, ⊥, ⊥, ⊥, d.value) else (⊥, ⊥, ⊥, d.value, ⊥)

/-- **Adding is joining.** -/
theorem apply_eq_ok {m : Depmap} (hm : m.frozen = false) {a : Addition} (ha : a.IsValid) :
    ∃ m', a.apply m = .ok m' ∧ m'.frozen = false ∧ m'.content = m.content ⊔ a.content := by
  cases a with
  | mapping source target =>
    refine ⟨{ m with mappings := m.mappings.insert (source.identity, target.identity) }, ?_, hm, ?_⟩
    · rw [apply, Depmap.addMapping, Depmap.edit_of_not_frozen hm]
    · simp only [Depmap.content, content, Prod.mk_sup_mk, sup_bot_eq, OrderedSet.insert_eq_sup]
  | runtime c =>
    refine ⟨{ m with runtime := m.runtime.insert c.requirement }, ?_, hm, ?_⟩
    · rw [apply, Depmap.addRuntime, Depmap.edit_of_not_frozen hm]
    · simp only [Depmap.content, content, Prod.mk_sup_mk, sup_bot_eq, OrderedSet.insert_eq_sup]
  | build c =>
    refine ⟨{ m with build := m.build.insert c.requirement }, ?_, hm, ?_⟩
    · rw [apply, Depmap.addBuild, Depmap.edit_of_not_frozen hm]
    · simp only [Depmap.content, content, Prod.mk_sup_mk, sup_bot_eq, OrderedSet.insert_eq_sup]
  | floor buildTime version =>
    -- a floor alone could be refused, and a valid one is not
    obtain ⟨d, hd⟩ := ha
    refine ⟨m.raiseFloor buildTime d, ?_, ?_, ?_⟩
    · exact Depmap.addFloor_of_ok hm buildTime hd
    · cases buildTime <;> exact hm
    · cases buildTime <;>
        simp [Depmap.content, content, Depmap.raiseFloor, hd, Prod.mk_sup_mk,
          Decimal.optionValue_maxOption]

/-- Additions one after the other are joined one after the other. -/
theorem applyAll_eq_ok {as : List Addition} (has : ∀ a ∈ as, a.IsValid) {m : Depmap}
    (hm : m.frozen = false) : ∃ m', applyAll m as = .ok m' ∧
      m'.content = as.foldl (fun content a => content ⊔ a.content) m.content := by
  induction as generalizing m with
  | nil => exact ⟨m, rfl, rfl⟩
  | cons a as ih =>
    -- the first addition, and then the others on what it leaves
    obtain ⟨next, hnext, hopen, hcontent⟩ := apply_eq_ok hm (has a List.mem_cons_self)
    obtain ⟨m', hm', hcontent'⟩ := ih (fun b hb => has b (List.mem_cons_of_mem _ hb)) hopen
    refine ⟨m', ?_, ?_⟩
    · rw [applyAll, List.foldlM_cons, hnext]
      exact hm'
    · rw [hcontent', hcontent, List.foldl_cons]

/-- **The order of insertion does not matter** for what a map amounts to. -/
theorem equiv_of_perm {as bs : List Addition} (hperm : as.Perm bs) (has : ∀ a ∈ as, a.IsValid)
    {m : Depmap} (hm : m.frozen = false) :
    ∃ x y, applyAll m as = .ok x ∧ applyAll m bs = .ok y ∧ x.Equiv y := by
  obtain ⟨x, hx, hxcontent⟩ := applyAll_eq_ok has hm
  obtain ⟨y, hy, hycontent⟩ := applyAll_eq_ok (fun b hb => has b (hperm.mem_iff.2 hb)) hm
  refine ⟨x, y, hx, hy, Depmap.equiv_iff.2 ?_⟩
  rw [hxcontent, hycontent]
  exact hperm.foldl_eq' (fun a _ b _ content => sup_right_comm content a.content b.content) _

end Addition

/-! ### Texts -/

namespace Xml.Markup

theorem writeLines_append (level : Nat) (items others : List Markup) :
    writeLines level (items ++ others) = writeLines level items ++ writeLines level others := by
  induction items with
  | nil => simp [writeLines]
  | cons item items ih => simp [writeLines, ih]

/-- What is written before and after some of the elements in a document does not depend on these, as
long as there are any elements. -/
theorem exists_document_eq (comment tag : String) (front back : List Markup) :
    ∃ before after : List Char, ∀ items : List Markup, front ++ items ++ back ≠ [] →
      document comment (.group tag (front ++ items ++ back)) =
        before ++ writeLines 1 items ++ after := by
  refine ⟨declaration ++ "\n<!-- ".toList ++ comment.toList ++ " -->".toList ++
      '\n' :: (startTag tag ++ ['\n'] ++ writeLines 1 front),
    writeLines 1 back ++ indent 0 ++ endTag tag ++ ['\n'], fun items hitems => ?_⟩
  have hgroup : (group tag (front ++ items ++ back)).write 0 = startTag tag ++ ['\n'] ++
      writeLines 1 (front ++ items ++ back) ++ indent 0 ++ endTag tag := by
    obtain ⟨item, rest, hcons⟩ := List.exists_cons_of_ne_nil hitems
    rw [hcons, write]
  rw [document, hgroup, writeLines_append, writeLines_append]
  simp only [List.append_assoc, List.cons_append]

end Xml.Markup

namespace Depmap

open Xml (Markup)

variable {x y : Depmap} (options : DocumentOptions)

/-- The elements of the floors that are written. -/
def writtenFloors (m : Depmap) : List Markup :=
  if options.skipRequires then []
  else floorMarkup "requiresJava" m.runtimeFloor ++
    (if options.writeBuild then floorMarkup "requiresJavaDevel" m.buildFloor else [])

/-- The elements that are written after the floors. -/
def writtenRest (m : Depmap) : List Markup :=
  m.mappings.toList.map mappingMarkup ++
    if options.skipRequires then []
    else (m.writtenRequirements options).toList.map fun r => r.toCoordinate.toMarkup "autoRequires"

/-- One element is the other, but for the spelling of its number. -/
inductive Respelled : Markup → Markup → Prop
  | text (tag : String) {d e : Decimal} (h : d.value = e.value) :
    Respelled (.text tag d.toText) (.text tag e.toText)

/-- The texts of two maps are alike before their floors and after them, and the floors are one
another's but for the spelling. -/
def AlikeBut (x y : Depmap) : Prop :=
  List.Forall₂ Respelled (x.writtenFloors options) (y.writtenFloors options) ∧
    ∃ before after : List Char,
      (x.toDocument options).toList =
        before ++ Markup.writeLines 1 (x.writtenFloors options) ++ after ∧
      (y.toDocument options).toList =
        before ++ Markup.writeLines 1 (y.writtenFloors options) ++ after

theorem forall₂_floorMarkup (tag : String) {d e : Option Decimal}
    (h : d.map Decimal.value = e.map Decimal.value) :
    List.Forall₂ Respelled (floorMarkup tag d) (floorMarkup tag e) := by
  cases d with
  | none =>
    obtain rfl : e = none := Option.map_eq_none_iff.1 h.symm
    exact .nil
  | some d =>
    obtain ⟨e, rfl, he⟩ := Option.map_eq_some_iff.1 h.symm
    exact .cons (.text tag he.symm) .nil

theorem Equiv.forall₂_writtenFloors (h : x.Equiv y) :
    List.Forall₂ Respelled (x.writtenFloors options) (y.writtenFloors options) := by
  unfold writtenFloors
  cases options.skipRequires with
  | true => exact .nil
  | false =>
    refine List.rel_append (forall₂_floorMarkup _ h.runtimeFloor) ?_
    cases options.writeBuild with
    | true => exact forall₂_floorMarkup _ h.buildFloor
    | false => exact .nil

theorem Equiv.writtenRest_eq (h : x.Equiv y) : x.writtenRest options = y.writtenRest options := by
  rw [writtenRest, writtenRest, writtenRequirements, writtenRequirements, h.mappings, h.runtime,
    h.build]

/-- The elements that are written before the floors. -/
def writtenFront : List Markup := if options.skipProvides then [.text "skipProvides" ""] else []

theorem toMarkup_eq (m : Depmap) : m.toMarkup options = .group "dependencyMap"
    (writtenFront options ++ m.writtenFloors options ++ m.writtenRest options) := by
  rw [toMarkup, writtenFloors, writtenRest, writtenFront, ← List.append_assoc]

/-- **Equivalent maps have one text**, but for the spelling of the floors. -/
theorem Equiv.alikeBut (h : x.Equiv y) : x.AlikeBut options y := by
  have hfloors := h.forall₂_writtenFloors options
  refine ⟨hfloors, ?_⟩
  rw [toDocument, toDocument, toMarkup_eq, toMarkup_eq, h.writtenRest_eq, String.toList_ofList,
    String.toList_ofList]
  obtain ⟨before, after, hdocument⟩ := Markup.exists_document_eq
    "This depmap file was generated by mcp-local-artifact-resolver" "dependencyMap"
    (writtenFront options) (y.writtenRest options)
  -- an element without any content is written as an empty tag, which has no place for floors
  cases hx : x.writtenFloors options with
  | nil =>
    -- without floors, the texts are the same
    rw [hx] at hfloors
    rw [List.forall₂_nil_left_iff.1 hfloors]
    have hplain : ∀ text : List Char, text = text ++ Markup.writeLines 1 [] ++ [] := fun text => by
      simp [Markup.writeLines]
    exact ⟨_, [], hplain _, hplain _⟩
  | cons floor floors =>
    rw [← hx]
    have hy : y.writtenFloors options ≠ [] := by
      intro hy
      rw [hy, List.forall₂_nil_right_iff] at hfloors
      rw [hfloors] at hx
      cases hx
    exact ⟨before, after, hdocument _ (by simp [hx]), hdocument _ (by simp [hy])⟩

/-- **Merging is a semilattice, and the order of insertion does not matter.** Merging a map into one
that is not published never fails, and what a coordinate finds after it is what it finds in either
map. Up to the spelling of floors it does not matter which map is merged into which, how merges are
grouped, whether a map is merged with itself, or with the empty one. And the same additions in
another order lead to an equivalent map, with one text but for the spelling of the floors. -/
theorem merge_semilattice {a b c : Depmap} (ha : a.Reachable) (hb : b.Reachable)
    (hc : c.Reachable) (hopen : a.frozen = false) {as bs : List Addition}
    (has : ∀ x ∈ as, x.IsValid) (hperm : as.Perm bs) :
    (∃ ab, a.merge b = .ok ab ∧ ∀ q, ab.lookup q = (a.lookup q).union (b.lookup q)) ∧
    (b.frozen = false → ∃ ab ba, a.merge b = .ok ab ∧ b.merge a = .ok ba ∧ ab.Equiv ba) ∧
    (b.frozen = false → ∃ x y, (a.merge b >>= fun ab => ab.merge c) = .ok x ∧
      (b.merge c >>= fun bc => a.merge bc) = .ok y ∧ x.Equiv y) ∧
    (∃ x, a.merge a = .ok x ∧ x.Equiv a) ∧
    (∃ x, a.merge .empty = .ok x ∧ x.Equiv a) ∧
    (∃ x, Depmap.empty.merge b = .ok x ∧ x.Equiv b) ∧
    ∃ x y, Addition.applyAll a as = .ok x ∧ Addition.applyAll a bs = .ok y ∧ x.Equiv y ∧
      ∀ options, x.AlikeBut options y := by
  obtain ⟨ab, hab, habopen, habcontent⟩ := merge_eq_ok hopen hb
  refine ⟨⟨a.joined b, merge_eq hopen hb.floorsInRange, lookup_joined a b⟩, fun hbopen => ?_,
    fun hbopen => ?_, ?_, ?_, ?_, ?_⟩
  · -- either map into the other
    obtain ⟨ba, hba, -, hbacontent⟩ := merge_eq_ok hbopen ha
    refine ⟨ab, ba, hab, hba, equiv_iff.2 ?_⟩
    rw [habcontent, hbacontent, sup_comm]
  · -- three maps, from the left and from the right
    obtain ⟨x, hx, -, hxcontent⟩ := merge_eq_ok habopen hc
    obtain ⟨bc, hbc, -, hbccontent⟩ := merge_eq_ok hbopen hc
    obtain ⟨y, hy, -, hycontent⟩ := merge_eq_ok hopen (hb.merge hc hbc)
    refine ⟨x, y, ?_, ?_, equiv_iff.2 ?_⟩
    · rw [hab]
      exact hx
    · rw [hbc]
      exact hy
    · rw [hxcontent, hycontent, habcontent, hbccontent, sup_assoc]
  · -- a map into itself, the empty map into a map, and a map into the empty one
    obtain ⟨x, hx, -, hcontent⟩ := merge_eq_ok hopen ha
    exact ⟨x, hx, equiv_iff.2 (by rw [hcontent, sup_idem])⟩
  · obtain ⟨x, hx, -, hcontent⟩ := merge_eq_ok hopen .empty
    exact ⟨x, hx, equiv_iff.2 (by rw [hcontent, content_empty, sup_bot_eq])⟩
  · obtain ⟨x, hx, -, hcontent⟩ := merge_eq_ok (m := .empty) rfl hb
    exact ⟨x, hx, equiv_iff.2 (by rw [hcontent, content_empty, bot_sup_eq])⟩
  · obtain ⟨x, y, hx, hy, hequiv⟩ := Addition.equiv_of_perm hperm has hopen
    exact ⟨x, y, hx, hy, hequiv, fun options => hequiv.alikeBut options⟩

/-- A map with a floor, and one with the same floor in another spelling. -/
def sampleHistories : History × History :=
  (History.empty.addFloor false "1.8", (History.empty.addBuild default).addFloor false "1.80")

/-- The same number in two spellings, and a mapping between them. -/
def sampleAdditions : List Addition :=
  [.floor true "11", .mapping default default, .floor true "11.0"]

theorem merge_semilattice_sampleHistories :
    (∃ ab ba, sampleHistories.1.map.merge sampleHistories.2.map = .ok ab ∧
      sampleHistories.2.map.merge sampleHistories.1.map = .ok ba ∧ ab.Equiv ba ∧
      ab.runtimeFloor = some ⟨false, 18, -1⟩ ∧ ba.runtimeFloor = some ⟨false, 180, -2⟩) ∧
    ∃ x y, Addition.applyAll sampleHistories.1.map sampleAdditions = .ok x ∧
      Addition.applyAll sampleHistories.1.map sampleAdditions.reverse = .ok y ∧ x.Equiv y ∧
      (∀ options, x.AlikeBut options y) ∧
      x.buildFloor = some ⟨false, 11, 0⟩ ∧ y.buildFloor = some ⟨false, 110, -1⟩ := by
  -- one addition of the sample has no floor, the two others spell the same one
  have hvalid : ∀ a ∈ sampleAdditions, a.IsValid := by
    have helevens : VersionFloor.parse "11" = .ok ⟨false, 11, 0⟩ ∧
        VersionFloor.parse "11.0" = .ok ⟨false, 110, -1⟩ := by
      decide +kernel
    intro a ha
    simp only [sampleAdditions, List.mem_cons, List.not_mem_nil, or_false] at ha
    rcases ha with rfl | rfl | rfl
    · exact ⟨_, helevens.1⟩
    · trivial
    · exact ⟨_, helevens.2⟩
  obtain ⟨-, hcomm, -, -, -, -, x, y, hx, hy, hequiv, halike⟩ :=
    merge_semilattice (c := .empty) sampleHistories.1.reachable_map sampleHistories.2.reachable_map
      .empty (by decide +kernel) hvalid (List.reverse_perm sampleAdditions).symm
  obtain ⟨ab, ba, hab, hba, habba⟩ := hcomm (by decide +kernel)
  -- the floors are read off the evaluated results
  have hfloor : ∀ {result : Except EditError Depmap} {m : Depmap} {d : Option Decimal}
      (floor : Depmap → Option Decimal), result = .ok m → result.map floor = .ok d →
      floor m = d := by
    rintro _ m d floor rfl h
    exact Except.ok.inj h
  exact ⟨⟨ab, ba, hab, hba, habba, hfloor runtimeFloor hab (by decide +kernel),
    hfloor runtimeFloor hba (by decide +kernel)⟩, x, y, hx, hy, hequiv, halike,
    hfloor buildFloor hx (by decide +kernel), hfloor buildFloor hy (by decide +kernel)⟩

end Depmap

end Depot
