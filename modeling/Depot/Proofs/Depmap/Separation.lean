import Depot.Proofs.Depmap.Heap
import Mathlib.Data.List.GetD
/-!
# Maps that share nothing

What keeps the operations on one map from changing another one is that no two maps refer to one cell
(`Heap.Separated`). A program for one map changes its object and cells to which it refers, and may
set up new ones (`Heap.Touches`). So all other maps stay what they were (`Touches.table_eq`), and as
long as it leaves the cells of its own map apart (`Heap.Proper`), all maps still share nothing
(`Touches.separated`).

What single changes make of a map is told by the table to which it amounts afterwards
(`Heap.Turns`). A set that is written to is that of one collection only, since the cells of a map
are apart.
-/

namespace Depot

/-- Writing what is there changes nothing. -/
theorem set_getD_self {α : Type} (as : List α) (n : Nat) (a : α) : as.set n (as.getD n a) = as := by
  rcases Nat.lt_or_ge n as.length with hn | hn
  · rw [List.getD_eq_getElem _ _ hn, List.set_getElem_self]
  · exact List.set_eq_of_length_le hn

namespace Depmap

namespace Object

variable (o : Object) (b : Bool) (n : Nat)

theorem required_setRequired_self : (o.setRequired b n).required b = n := by
  cases b <;> rfl

theorem required_setRequired_not : (o.setRequired b n).required (!b) = o.required (!b) := by
  cases b <;> rfl

theorem entries_setRequired : (o.setRequired b n).entries = o.entries := by
  cases b <;> rfl

/-- The cells of a map, from what it requires at either time on. -/
theorem cells_perm : o.cells.Perm (o.required b :: o.required (!b) :: o.entries.map (·.2)) := by
  cases b with
  | false => exact .refl _
  | true => exact .swap _ _ _

end Object

namespace Table

/-- What is required, at build time or at run time. -/
def required (t : Table) (b : Bool) : List Coordinate := if b then t.build else t.runtime

/-- The table with something else required. -/
def setRequired (t : Table) (b : Bool) (cs : List Coordinate) : Table :=
  if b then { t with build := cs } else { t with runtime := cs }

end Table

namespace Heap

variable {h h' h'' : Heap} {i j n : Nat}

/-! ### Cells and objects -/

theorem cell_setCell_self (hn : n < h.cells.length) (cs : List Coordinate) :
    (h.setCell n cs).cell n = cs := by
  simp [cell, setCell, List.getD_eq_getElem?_getD, hn]

theorem cell_setCell_of_ne {k : Nat} (hne : k ≠ n) (cs : List Coordinate) :
    (h.setCell k cs).cell n = h.cell n := by
  simp [cell, setCell, List.getD_eq_getElem?_getD, List.getElem?_set_ne hne]

theorem cell_addCell_of_lt (hn : n < h.cells.length) (cs : List Coordinate) :
    (h.addCell cs).cell n = h.cell n := by
  simp [cell, addCell, List.getD_eq_getElem?_getD, List.getElem?_append_left hn]

theorem cell_addCell_length (h : Heap) (cs : List Coordinate) :
    (h.addCell cs).cell h.cells.length = cs := by
  simp [cell, addCell, List.getD_eq_getElem?_getD]

theorem object_setObject_self (hi : i < h.objects.length) (o : Object) :
    (h.setObject i o).object i = o := by
  simp [object, setObject, List.getD_eq_getElem?_getD, hi]

theorem object_setObject_of_ne (hne : i ≠ j) (o : Object) :
    (h.setObject i o).object j = h.object j := by
  simp [object, setObject, List.getD_eq_getElem?_getD, List.getElem?_set_ne hne]

@[simp] theorem length_setCell (h : Heap) (n : Nat) (cs : List Coordinate) :
    (h.setCell n cs).cells.length = h.cells.length := List.length_set

@[simp] theorem length_addCell (h : Heap) (cs : List Coordinate) :
    (h.addCell cs).cells.length = h.cells.length + 1 := List.length_append

@[simp] theorem length_setObject (h : Heap) (i : Nat) (o : Object) :
    (h.setObject i o).objects.length = h.objects.length := List.length_set

theorem setCell_cell (h : Heap) (n : Nat) : h.setCell n (h.cell n) = h := by
  rw [setCell, cell, set_getD_self]

theorem setObject_object (h : Heap) (i : Nat) : h.setObject i (h.object i) = h := by
  rw [setObject, object, set_getD_self]

/-! ### What a map touches -/

/-- The sets of a map are in cells that are there, and no two of them in one. -/
structure Proper (h : Heap) (i : Nat) : Prop where
  lt : ∀ n ∈ (h.object i).cells, n < h.cells.length
  nodup : (h.object i).cells.Nodup

/-- From one memory to the other, one map was changed: its object, its cells, and what was set up
for it. -/
structure Touches (i : Nat) (h h' : Heap) : Prop where
  count : h'.objects.length = h.objects.length
  object : ∀ j, j ≠ i → h'.object j = h.object j
  length : h.cells.length ≤ h'.cells.length
  cell : ∀ n < h.cells.length, n ∉ (h.object i).cells → h'.cell n = h.cell n
  /-- The map only refers to cells that it had, and to new ones. -/
  own : ∀ n ∈ (h'.object i).cells, n ∈ (h.object i).cells ∨ h.cells.length ≤ n

/-- The sets of all maps are apart, within a map and between maps. -/
structure Separated (h : Heap) : Prop where
  proper : ∀ i < h.objects.length, h.Proper i
  disjoint : ∀ i < h.objects.length, ∀ j < h.objects.length, i ≠ j →
    (h.object i).cells.Disjoint (h.object j).cells

namespace Touches

theorem refl (i : Nat) (h : Heap) : Touches i h h where
  count := rfl
  object _ _ := rfl
  length := Nat.le_refl _
  cell _ _ _ := rfl
  own _ hn := .inl hn

theorem trans (hfirst : Touches i h h') (hsecond : Touches i h' h'') : Touches i h h'' where
  count := hsecond.count.trans hfirst.count
  object j hj := (hsecond.object j hj).trans (hfirst.object j hj)
  length := hfirst.length.trans hsecond.length
  cell n hn hforeign := by
    -- a cell that was there and did not belong to the map does not belong to it later either
    have hlater : n ∉ (h'.object i).cells := by
      intro hmem
      rcases hfirst.own n hmem with hmem | hle
      · exact hforeign hmem
      · exact Nat.not_le_of_lt hn hle
    rw [hsecond.cell n (Nat.lt_of_lt_of_le hn hfirst.length) hlater, hfirst.cell n hn hforeign]
  own n hn := by
    rcases hsecond.own n hn with hn | hle
    · exact hfirst.own n hn
    · exact .inr (hfirst.length.trans hle)

end Touches

/-- A map amounts to the same table where its object and its cells are the same. -/
theorem table_congr (hobject : h'.object j = h.object j)
    (hcell : ∀ n ∈ (h.object j).cells, h'.cell n = h.cell n) : h'.table j = h.table j := by
  have htargets : h'.targets (h.object j).entries = h.targets (h.object j).entries := by
    refine List.map_congr_left fun e he => Prod.ext rfl (hcell e.2 ?_)
    exact List.mem_cons_of_mem _ (List.mem_cons_of_mem _ (List.mem_map_of_mem he))
  have hruntime := hcell _ List.mem_cons_self
  have hbuild := hcell _ (List.mem_cons_of_mem _ List.mem_cons_self)
  rw [table, table, hobject, tableOf, htargets, hruntime, hbuild]
  rfl

namespace Touches

variable (ht : Touches i h h') (hs : h.Separated) (hi : i < h.objects.length)
include ht hs hi

/-- **Other maps stay what they were.** -/
theorem table_eq (hj : j < h.objects.length) (hne : j ≠ i) : h'.table j = h.table j := by
  refine table_congr (ht.object j hne) fun n hn => ?_
  exact ht.cell n ((hs.proper j hj).lt n hn) (hs.disjoint j hj i hi hne hn)

/-- **Maps still share nothing**, if the sets of the map that was changed are apart. -/
theorem separated (hproper : h'.Proper i) : h'.Separated := by
  -- what the map has got since then was not there before, so no other map refers to it
  have hforeign : ∀ j < h.objects.length, j ≠ i →
      (h'.object i).cells.Disjoint (h'.object j).cells := by
    intro j hj hne n hn hmem
    rw [ht.object j hne] at hmem
    rcases ht.own n hn with hn | hle
    · exact hs.disjoint i hi j hj (Ne.symm hne) hn hmem
    · exact Nat.not_le_of_lt ((hs.proper j hj).lt n hmem) hle
  constructor
  · intro j hj
    rw [ht.count] at hj
    by_cases hne : j = i
    · exact hne ▸ hproper
    · have hold := hs.proper j hj
      constructor
      · intro n hn
        rw [ht.object j hne] at hn
        exact Nat.lt_of_lt_of_le (hold.lt n hn) ht.length
      · rw [ht.object j hne]
        exact hold.nodup
  · -- of two different maps one at most is `i`, which `hforeign` sets apart
    intro j hj k hk hne
    rw [ht.count] at hj hk
    by_cases hji : j = i
    · subst hji
      exact hforeign k hk (Ne.symm hne)
    · by_cases hki : k = i
      · subst hki
        exact (hforeign j hj hji).symm
      · rw [ht.object j hji, ht.object k hki]
        exact hs.disjoint j hj k hk hne

end Touches

/-! ### Single changes -/

section

variable (hp : h.Proper i)
include hp

theorem Proper.required_lt (b : Bool) : (h.object i).required b < h.cells.length :=
  hp.lt _ (((h.object i).cells_perm b).mem_iff.2 List.mem_cons_self)

theorem Proper.entry_lt {e : Coordinate × Nat} (he : e ∈ (h.object i).entries) :
    e.2 < h.cells.length :=
  hp.lt _ (List.mem_cons_of_mem _ (List.mem_cons_of_mem _ (List.mem_map_of_mem he)))

/-- What is required has a cell of its own, and so has the rest. -/
theorem Proper.nodup_required (b : Bool) :
    (h.object i).required b ∉ (h.object i).required (!b) :: (h.object i).entries.map (·.2) ∧
      ((h.object i).required (!b) :: (h.object i).entries.map (·.2)).Nodup :=
  List.nodup_cons.1 (((h.object i).cells_perm b).nodup_iff.1 hp.nodup)

theorem Proper.required_not_mem (b : Bool) :
    (h.object i).required b ∉ (h.object i).entries.map (·.2) :=
  fun hmem => (hp.nodup_required b).1 (List.mem_cons_of_mem _ hmem)

theorem Proper.nodup_entries : ((h.object i).entries.map (·.2)).Nodup :=
  (List.nodup_cons.1 (hp.nodup_required false).2).2

theorem Proper.setCell (n : Nat) (cs : List Coordinate) : (h.setCell n cs).Proper i := by
  refine ⟨fun k hk => ?_, hp.nodup⟩
  rw [length_setCell]
  exact hp.lt k hk

end

/-- Entries have the same targets where none of their cells was written to. -/
theorem targets_setCell_of_not_mem {entries : List (Coordinate × Nat)}
    (hn : n ∉ entries.map (·.2)) (cs : List Coordinate) :
    (h.setCell n cs).targets entries = h.targets entries := by
  refine List.map_congr_left fun e he => Prod.ext rfl (cell_setCell_of_ne ?_ cs)
  exact (ne_of_mem_of_not_mem (List.mem_map_of_mem he) hn).symm

theorem targets_addCell {entries : List (Coordinate × Nat)}
    (hlt : ∀ e ∈ entries, e.2 < h.cells.length) (cs : List Coordinate) :
    (h.addCell cs).targets entries = h.targets entries :=
  List.map_congr_left fun e he => Prod.ext rfl (cell_addCell_of_lt (hlt e he) cs)

/-- Adding to the set of the first entry of a source is adding to the targets of the source. -/
theorem targets_setCell_of_find? {entries : List (Coordinate × Nat)} {source : Coordinate}
    {e : Coordinate × Nat} (hfind : entries.find? (fun e => e.1 == source) = some e)
    (hnodup : (entries.map (·.2)).Nodup) (hlt : e.2 < h.cells.length) (added : List Coordinate) :
    (h.setCell e.2 (added ∪ h.cell e.2)).targets entries =
      (h.targets entries).extend source added := by
  induction entries with
  | nil => cases hfind
  | cons first entries ih =>
    obtain ⟨hfirst, hentries⟩ := List.nodup_cons.1 hnodup
    show (first.1, (h.setCell _ _).cell first.2) :: (h.setCell _ _).targets entries =
      if first.1 = source then _ else (first.1, h.cell first.2) :: _
    by_cases hsource : first.1 = source
    · -- this is the entry, and no other one refers to its cell
      have hhead : (first.1 == source) = true := beq_iff_eq.2 hsource
      rw [List.find?_cons, hhead] at hfind
      cases hfind
      rw [if_pos hsource, cell_setCell_self hlt, targets_setCell_of_not_mem hfirst]
      rfl
    · rw [List.find?_cons_of_neg (by simpa using hsource)] at hfind
      have hne : e.2 ≠ first.2 :=
        ne_of_mem_of_not_mem (List.mem_map_of_mem (List.mem_of_find?_eq_some hfind)) hfirst
      rw [if_neg hsource, cell_setCell_of_ne hne, ih hfind hentries]
      rfl

/-- From one memory to the other, one map alone was changed, and now amounts to a table. -/
structure Turns (i : Nat) (h h' : Heap) (t : Table) : Prop where
  touches : Touches i h h'
  proper : h'.Proper i
  table : h'.table i = t

theorem Turns.refl (hp : h.Proper i) : Turns i h h (h.table i) := ⟨.refl i h, hp, rfl⟩

theorem Turns.trans {t u : Table} (hfirst : Turns i h h' t) (hsecond : Turns i h' h'' u) :
    Turns i h h'' u :=
  ⟨hfirst.touches.trans hsecond.touches, hsecond.proper, hsecond.table⟩

theorem Turns.length_eq {t : Table} (hturns : Turns i h h' t) :
    h'.objects.length = h.objects.length := hturns.touches.count

theorem touches_setCell (hn : n ∈ (h.object i).cells) (cs : List Coordinate) :
    Touches i h (h.setCell n cs) where
  count := rfl
  object _ _ := rfl
  length := (length_setCell h n cs).ge
  cell _ _ hk := cell_setCell_of_ne (ne_of_mem_of_not_mem hn hk) cs
  own _ hk := .inl hk

theorem required_table (h : Heap) (i : Nat) (b : Bool) :
    (h.table i).required b = h.cell ((h.object i).required b) := by
  cases b <;> rfl

theorem turns_setRequired (hp : h.Proper i) (b : Bool) (cs : List Coordinate) :
    Turns i h (h.setCell ((h.object i).required b) cs) ((h.table i).setRequired b cs) where
  touches := touches_setCell (((h.object i).cells_perm b).mem_iff.2 List.mem_cons_self) cs
  proper := hp.setCell _ cs
  table := by
    have hself := cell_setCell_self (hp.required_lt b) cs
    have hother : (h.setCell ((h.object i).required b) cs).cell ((h.object i).required (!b)) =
        h.cell ((h.object i).required (!b)) := by
      refine cell_setCell_of_ne (fun heq => (hp.nodup_required b).1 ?_) cs
      rw [heq]
      exact List.mem_cons_self
    show tableOf (h.setCell _ cs) (h.object i) = _
    rw [tableOf, targets_setCell_of_not_mem (hp.required_not_mem b)]
    -- the one collection is what was written, and the other one is as it was
    cases b with
    | false => exact congrArg₂ (fun runtime build => Table.mk _ runtime build _ _ _) hself hother
    | true => exact congrArg₂ (fun build runtime => Table.mk _ runtime build _ _ _) hself hother

theorem turns_setTargets (hp : h.Proper i) {source : Coordinate} {e : Coordinate × Nat}
    (hfind : (h.object i).entries.find? (fun e => e.1 == source) = some e)
    (added : List Coordinate) : Turns i h (h.setCell e.2 (added ∪ h.cell e.2))
      { h.table i with entries := (h.table i).entries.extend source added } := by
  have he := List.mem_of_find?_eq_some hfind
  have hcell : e.2 ∈ (h.object i).entries.map (·.2) := List.mem_map_of_mem he
  -- the two lists of requirements have cells of their own
  have hrequired : ∀ b, (h.setCell e.2 (added ∪ h.cell e.2)).cell ((h.object i).required b) =
      h.cell ((h.object i).required b) :=
    fun b => cell_setCell_of_ne (ne_of_mem_of_not_mem hcell (hp.required_not_mem b)) _
  refine ⟨touches_setCell (List.mem_cons_of_mem _ (List.mem_cons_of_mem _ hcell)) _,
    hp.setCell _ _, ?_⟩
  show tableOf (h.setCell _ _) (h.object i) = _
  rw [tableOf, targets_setCell_of_find? hfind hp.nodup_entries (hp.entry_lt he)]
  exact congrArg₂ (fun runtime build => Table.mk _ runtime build _ _ _) (hrequired false)
    (hrequired true)

/-- Another object may take the place of that of a map, if it refers to its cells. -/
theorem turns_setObject (hp : h.Proper i) (hi : i < h.objects.length) {o : Object}
    (hcells : o.cells = (h.object i).cells) : Turns i h (h.setObject i o) (h.tableOf o) := by
  have hobject := object_setObject_self hi o
  -- no cell is written, and the object refers to the cells it had
  have htouches : Touches i h (h.setObject i o) := by
    refine ⟨length_setObject h i o, fun j hj => object_setObject_of_ne (Ne.symm hj) o,
      Nat.le_refl _, fun _ _ _ => rfl, ?_⟩
    intro k hk
    rw [hobject, hcells] at hk
    exact .inl hk
  have hproper : (h.setObject i o).Proper i := by
    constructor
    · intro k hk
      rw [hobject, hcells] at hk
      exact hp.lt k hk
    · rw [hobject, hcells]
      exact hp.nodup
  refine ⟨htouches, hproper, ?_⟩
  rw [table, hobject]
  rfl

/-- It may also refer to a cell that is new. -/
theorem turns_addCell (hp : h.Proper i) (hi : i < h.objects.length) (cs : List Coordinate)
    {o : Object} (hown : ∀ n ∈ o.cells, n ∈ (h.object i).cells ∨ n = h.cells.length)
    (hnodup : o.cells.Nodup) :
    Turns i h ((h.addCell cs).setObject i o) ((h.addCell cs).tableOf o) := by
  have hobject : ((h.addCell cs).setObject i o).object i = o := object_setObject_self hi o
  have hlength : ((h.addCell cs).setObject i o).cells.length = h.cells.length + 1 :=
    length_addCell h cs
  -- the cells that were there keep what they hold
  have htouches : Touches i h ((h.addCell cs).setObject i o) := by
    refine ⟨length_setObject _ i o, fun j hj => object_setObject_of_ne (Ne.symm hj) o,
      hlength ▸ Nat.le_succ _, fun k hk _ => cell_addCell_of_lt hk cs, ?_⟩
    intro k hk
    rw [hobject] at hk
    exact (hown k hk).imp_right fun heq => heq.ge
  -- the cells of `o` are old ones of the object or the new one
  have hproper : ((h.addCell cs).setObject i o).Proper i := by
    constructor
    · intro k hk
      rw [hobject] at hk
      rcases hown k hk with hk | rfl
      · exact hlength ▸ Nat.lt_succ_of_lt (hp.lt k hk)
      · exact hlength ▸ Nat.lt_succ_self _
    · rw [hobject]
      exact hnodup
  refine ⟨htouches, hproper, ?_⟩
  rw [table, hobject]
  rfl

/-- A new source has its own cell. -/
theorem turns_addEntry (hp : h.Proper i) (hi : i < h.objects.length) (source : Coordinate) :
    Turns i h ((h.addCell []).setObject i ((h.object i).addEntry source h.cells.length))
      { h.table i with entries := (h.table i).entries ++ [(source, [])] } := by
  have hcells : ((h.object i).addEntry source h.cells.length).cells =
      (h.object i).cells ++ [h.cells.length] := by
    simp [Object.cells, Object.addEntry]
  -- the number of the new cell is not in use
  have hfresh : h.cells.length ∉ (h.object i).cells := by
    intro hmem
    exact Nat.lt_irrefl _ (hp.lt _ hmem)
  have hturns := turns_addCell hp hi [] (o := (h.object i).addEntry source h.cells.length)
    (fun n hn => by simpa [hcells] using hn)
    (hcells ▸ hp.nodup.append (List.nodup_singleton _) (List.disjoint_singleton.2 hfresh))
  -- the targets are what they were, and none for the new source
  have hentries : (h.addCell []).targets ((h.object i).entries ++ [(source, h.cells.length)]) =
      h.targets (h.object i).entries ++ [(source, [])] := by
    have hold : (h.addCell []).targets (h.object i).entries = h.targets (h.object i).entries :=
      targets_addCell (fun e he => hp.entry_lt he) []
    rw [targets, List.map_append, ← targets, hold]
    exact congrArg (fun cs => _ ++ [(source, cs)]) (cell_addCell_length h [])
  have hrequired : ∀ b, (h.addCell []).cell ((h.object i).required b) =
      h.cell ((h.object i).required b) :=
    fun b => cell_addCell_of_lt (hp.required_lt b) []
  refine ⟨hturns.touches, hturns.proper, hturns.table.trans ?_⟩
  show Table.mk ((h.addCell []).targets ((h.object i).entries ++ _)) _ _ _ _ _ = _
  rw [hentries]
  exact congrArg₂ (fun runtime build => Table.mk _ runtime build _ _ _) (hrequired false)
    (hrequired true)

end Heap

end Depmap

end Depot
