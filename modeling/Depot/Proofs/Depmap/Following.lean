import Depot.Proofs.Depmap.Separation
/-!
# Steps in memory

A step on a map in memory is followed on its table. Work that ends well and turns the map into
another one, and leaves all that belongs to others alone, makes the table of that (`Heap.Makes`). A
step follows the one on the table (`Heap.Follows`) if it makes what that comes to, and, where that
fails, fails with the same error and leaves the memory as it was. Publishing is looked at first, so
it does not matter what a step would do to a published map (`follows_check`).
-/

namespace Depot.Depmap

/-- A source that is not there is set up at the end. -/
theorem Entries.extend_of_not_mem {es : Entries} {source : Coordinate}
    (h : source ∉ es.map (·.1)) (added : List Coordinate) :
    es.extend source added = es ++ [(source, added ∪ [])] := by
  induction es with
  | nil => rfl
  | cons e es ih =>
    obtain ⟨hne, hes⟩ := not_or.1 (mt List.mem_cons.2 h)
    rw [extend, if_neg (Ne.symm hne), ih hes, List.cons_append]

/-- It may as well be set up without targets before. -/
theorem Entries.extend_append_nil {es : Entries} {source : Coordinate}
    (h : source ∉ es.map (·.1)) (added : List Coordinate) :
    Entries.extend source added (es ++ [(source, [])]) = es.extend source added := by
  rw [extend_of_not_mem h]
  induction es with
  | nil => exact if_pos rfl
  | cons e es ih =>
    obtain ⟨hne, hes⟩ := not_or.1 (mt List.mem_cons.2 h)
    rw [List.cons_append, extend, if_neg (Ne.symm hne), ih hes, List.cons_append]

namespace Heap

variable {h h' : Heap} {i : Nat}

/-! ### Work that makes a table -/

/-- The work ends well, changes one map alone, and turns it into a table. -/
def Makes (work : Working Heap Unit) (i : Nat) (h : Heap) (t : Table) : Prop :=
  ∃ h', work.outcome h = (.ok (), h') ∧ Turns i h h' t

/-- The work does what a step on a table comes to. Where that fails, so does the work, and leaves
the memory as it was. -/
def Follows (work : Working Heap Unit) (i : Nat) (h : Heap) : Except EditError Table → Prop
  | .ok t => Makes work i h t
  | .error e => work.outcome h = (.error (.edit e), h)

theorem Turns.makes {work : Working Heap Unit} {t : Table} (hturns : Turns i h h' t)
    (hwork : work.outcome h = (.ok (), h')) : Makes work i h t := ⟨h', hwork, hturns⟩

theorem Makes.bind {first : Working Heap Unit} {rest : Unit → Working Heap Unit} {t u : Table}
    (hfirst : Makes first i h t) (hrest : ∀ h', Turns i h h' t → Makes (rest ()) i h' u) :
    Makes (first >>= rest) i h u := by
  obtain ⟨h', hdone, hturns⟩ := hfirst
  obtain ⟨h'', hdone', hturns'⟩ := hrest h' hturns
  exact ⟨h'', (Working.outcome_bind_of_ok hdone rest).trans hdone', hturns.trans hturns'⟩

/-- Work is followed by what comes of it alone. -/
theorem Follows.congr {work other : Working Heap Unit} {result : Except EditError Table}
    (hother : Follows other i h result) (hsame : work.outcome h = other.outcome h) :
    Follows work i h result := by
  unfold Follows Makes at hother ⊢
  rwa [hsame]

theorem outcome_check (h : Heap) (i : Nat) : (check i).outcome h =
    if (h.object i).frozen then (.error (.edit .frozen), h) else (.ok (), h) := by
  show Working.outcome (if (h.object i).frozen then throw (.edit .frozen) else pure ()) h = _
  split <;> rfl

/-- **Publishing is looked at first.** -/
theorem follows_check {rest : Unit → Working Heap Unit} {change : Table → Except EditError Table}
    (hrest : (h.object i).frozen = false → Follows (rest ()) i h (change (h.table i))) :
    Follows (check i >>= rest) i h ((h.table i).edit change) := by
  have hfrozen : (h.table i).frozen = (h.object i).frozen := rfl
  have hcheck := outcome_check h i
  rw [Table.edit, hfrozen]
  cases hpublished : (h.object i).frozen with
  | true =>
    rw [hpublished] at hcheck
    exact Working.outcome_bind_of_error hcheck rest
  | false =>
    rw [hpublished] at hcheck
    exact (hrest hpublished).congr (Working.outcome_bind_of_ok hcheck rest)

/-! ### Adding to sets -/

theorem outcome_get_bind {α : Type} (h : Heap) (work : Heap → Working Heap α) :
    (get >>= work).outcome h = (work h).outcome h := rfl

theorem outcome_targetsCell_of_find? {source : Coordinate} {e : Coordinate × Nat}
    (hfind : (h.object i).entries.find? (fun e => e.1 == source) = some e) :
    (targetsCell i source).outcome h = (.ok e.2, h) := by
  rw [targetsCell, outcome_get_bind, hfind]
  rfl

theorem outcome_targetsCell_of_find?_eq_none {source : Coordinate}
    (hfind : (h.object i).entries.find? (fun e => e.1 == source) = none) :
    (targetsCell i source).outcome h = (.ok h.cells.length,
      (h.addCell []).setObject i ((h.object i).addEntry source h.cells.length)) := by
  rw [targetsCell, outcome_get_bind, hfind]
  rfl

/-- Adding targets adds them to the entry of the source. -/
theorem makes_extend (hp : h.Proper i) (hi : i < h.objects.length) (source : Coordinate)
    (added : List Coordinate) : Makes (extend i source added) i h
      { h.table i with entries := (h.table i).entries.extend source added } := by
  cases hfind : (h.object i).entries.find? (fun e => e.1 == source) with
  | some e =>
    refine (turns_setTargets hp hfind added).makes ?_
    exact Working.outcome_bind_of_ok (outcome_targetsCell_of_find? hfind) _
  | none =>
    -- first the entry is set up without targets, and then it is found
    have hnew : source ∉ (h.object i).entries.map (·.1) := by
      intro hmem
      obtain ⟨e, he, rfl⟩ := List.mem_map.1 hmem
      exact absurd (beq_self_eq_true e.1) (List.find?_eq_none.1 hfind e he)
    have hinstall := turns_addEntry hp hi source
    have hobject : ((h.addCell []).setObject i
        ((h.object i).addEntry source h.cells.length)).object i =
          (h.object i).addEntry source h.cells.length := object_setObject_self hi _
    have hfound : ((h.object i).addEntry source h.cells.length).entries.find?
        (fun e => e.1 == source) = some (source, h.cells.length) := by
      rw [Object.addEntry, List.find?_append, hfind]
      simp
    have hadd := turns_setTargets hinstall.proper (hobject.symm ▸ hfound) added
    rw [hinstall.table, Entries.extend_append_nil] at hadd
    · refine (hinstall.trans hadd).makes ?_
      exact Working.outcome_bind_of_ok (outcome_targetsCell_of_find?_eq_none hfind) _
    · show source ∉ (h.targets (h.object i).entries).map (·.1)
      rwa [targets, List.map_map]

theorem follows_addMapping (hp : h.Proper i) (hi : i < h.objects.length)
    (source target : Coordinate) :
    Follows (addMapping i source target) i h ((h.table i).addMapping source target) := by
  refine follows_check fun _ => ?_
  exact makes_extend hp hi _ [target.withoutVersionAndExtension]

theorem follows_addRequired (hp : h.Proper i) (b : Bool) (c : Coordinate) :
    Follows (addRequired i b c) i h ((h.table i).edit fun t =>
      .ok (t.setRequired b ((t.required b).insert c.withoutVersion))) := by
  refine follows_check fun _ => ?_
  rw [required_table]
  exact (turns_setRequired hp b _).makes rfl

theorem Makes.get {work : Heap → Working Heap Unit} {t : Table} (hmakes : Makes (work h) i h t) :
    Makes (get >>= work) i h t := hmakes

/-! ### Floors and publishing -/

theorem follows_addFloor (hp : h.Proper i) (hi : i < h.objects.length) (buildTime : Bool)
    (version : String) :
    Follows (addFloor i buildTime version) i h ((h.table i).addFloor buildTime version) := by
  refine follows_check fun _ => ?_
  cases VersionFloor.parse version with
  | error refusal => rfl
  | ok d =>
    have hcells : ((h.object i).raiseFloor buildTime d).cells = (h.object i).cells := by
      cases buildTime <;> rfl
    have htable : h.tableOf ((h.object i).raiseFloor buildTime d) =
        (h.table i).raiseFloor buildTime d := by
      cases buildTime <;> rfl
    exact (htable ▸ turns_setObject hp hi hcells).makes rfl

theorem outcome_mergeFloor_of_none {j : Nat} {buildTime : Bool}
    (hfloor : (h.object j).floor buildTime = none) :
    (mergeFloor i j buildTime).outcome h = (.ok (), h) := by
  rw [mergeFloor, outcome_get_bind, hfloor]
  rfl

theorem outcome_mergeFloor_of_some {j : Nat} {buildTime : Bool} {d : Decimal}
    (hfloor : (h.object j).floor buildTime = some d) :
    (mergeFloor i j buildTime).outcome h = (addFloor i buildTime d.toText).outcome h := by
  rw [mergeFloor, outcome_get_bind, hfloor]

theorem follows_mergeFloor (hp : h.Proper i) (hi : i < h.objects.length) (j : Nat)
    (buildTime : Bool) : Follows (mergeFloor i j buildTime) i h
      ((h.table i).mergeFloor buildTime ((h.object j).floor buildTime)) := by
  cases hfloor : (h.object j).floor buildTime with
  | none => exact (Turns.refl hp).makes (outcome_mergeFloor_of_none hfloor)
  | some d =>
    exact (follows_addFloor hp hi buildTime d.toText).congr (outcome_mergeFloor_of_some hfloor)

theorem makes_freeze (hp : h.Proper i) (hi : i < h.objects.length) :
    Makes (freeze i) i h (h.table i).freeze :=
  (turns_setObject hp hi (o := { h.object i with frozen := true }) rfl).makes rfl

/-! ### Dropping what is mapped -/

theorem maps_object (h : Heap) (i : Nat) (c : Coordinate) :
    (h.object i).maps c = (h.table i).maps c := by
  show _ = (h.targets (h.object i).entries).any _
  rw [targets, List.any_map]
  rfl

/-- What is mapped is dropped from a set as it is from the table. -/
theorem unmapped_eq (h : Heap) (i n : Nat) :
    h.unmapped i n = (h.cell n).filter fun c => !(h.table i).maps c := by
  simp only [unmapped, maps_object]

/-- What is required anew is in a cell of its own, in place of the one before. -/
theorem makes_renewRequired (hp : h.Proper i) (hi : i < h.objects.length) (b : Bool) :
    Makes (renewRequired i b) i h ((h.table i).setRequired b
      (((h.table i).required b).filter fun c => !(h.table i).maps c)) := by
  -- the list gets a new cell, and its old one is given up
  have hcells := ((h.object i).setRequired b h.cells.length).cells_perm b
  rw [Object.required_setRequired_self, Object.required_setRequired_not,
    Object.entries_setRequired] at hcells
  have hold : ∀ n ∈ (h.object i).required (!b) :: (h.object i).entries.map (·.2),
      n ∈ (h.object i).cells := by
    intro n hn
    exact ((h.object i).cells_perm b).mem_iff.2 (List.mem_cons_of_mem _ hn)
  -- so the map refers to cells that it had and to the new one
  have hown : ∀ n ∈ ((h.object i).setRequired b h.cells.length).cells,
      n ∈ (h.object i).cells ∨ n = h.cells.length := by
    intro n hn
    rcases List.mem_cons.1 (hcells.mem_iff.1 hn) with rfl | hn
    · exact .inr rfl
    · exact .inl (hold n hn)
  have hnodup : ((h.object i).setRequired b h.cells.length).cells.Nodup := by
    refine hcells.nodup_iff.2 (List.nodup_cons.2 ⟨fun hmem => ?_, (hp.nodup_required b).2⟩)
    exact Nat.lt_irrefl _ (hp.lt _ (hold _ hmem))
  have hturns := turns_addCell hp hi (h.unmapped i ((h.object i).required b)) hown hnodup
  refine Turns.makes ⟨hturns.touches, hturns.proper, hturns.table.trans ?_⟩ rfl
  -- in the table one list is renewed, the other one and the targets stay
  have hself := cell_addCell_length h (h.unmapped i ((h.object i).required b))
  rw [unmapped_eq, ← required_table] at hself ⊢
  have hother := cell_addCell_of_lt (hp.required_lt (!b))
    (((h.table i).required b).filter fun c => !(h.table i).maps c)
  rw [tableOf, Object.entries_setRequired, targets_addCell (fun e he => hp.entry_lt he)]
  cases b with
  | false => exact congrArg₂ (fun runtime build => Table.mk _ runtime build _ _ _) hself hother
  | true => exact congrArg₂ (fun build runtime => Table.mk _ runtime build _ _ _) hself hother

theorem follows_optimize (hp : h.Proper i) (hi : i < h.objects.length) :
    Follows (optimize i) i h (h.table i).optimize := by
  refine follows_check fun _ => ?_
  refine (makes_renewRequired hp hi false).bind fun h' hturns => ?_
  have hrest := makes_renewRequired hturns.proper (hturns.length_eq ▸ hi) true
  rwa [hturns.table] at hrest

end Heap

/-! ### Setting up a map

It is the last one then, and has two cells of its own. -/

namespace Operation

variable {h : Heap} {j n : Nat}

theorem after_create (h : Heap) : create.after h = ⟨h.cells ++ [[]] ++ [[]],
    h.objects ++ [⟨[], h.cells.length, (h.cells ++ [[]]).length, none, none, false⟩]⟩ := rfl

theorem length_create (h : Heap) :
    (create.after h).objects.length = h.objects.length + 1 := List.length_append

theorem object_create_of_lt (hj : j < h.objects.length) :
    (create.after h).object j = h.object j := List.getD_append _ _ _ _ hj

theorem object_create_length (h : Heap) : (create.after h).object h.objects.length =
    ⟨[], h.cells.length, h.cells.length + 1, none, none, false⟩ := by
  rw [Heap.object, after_create, List.getD_append_right _ _ _ _ (Nat.le_refl _), Nat.sub_self,
    List.length_append]
  rfl

theorem cell_create_of_lt (hn : n < h.cells.length) : (create.after h).cell n = h.cell n := by
  rw [Heap.cell, after_create, List.append_assoc, List.getD_append _ _ _ _ hn]
  rfl

theorem cell_create_of_le (hn : h.cells.length ≤ n) : (create.after h).cell n = [] := by
  rw [Heap.cell, after_create, List.append_assoc, List.getD_append_right _ _ _ _ hn]
  -- the two new cells are empty, and there is none after them
  rcases n - h.cells.length with _ | _ | _ <;> rfl

theorem table_create_length (h : Heap) : (create.after h).table h.objects.length = .empty := by
  rw [Heap.table, object_create_length, Heap.tableOf, cell_create_of_le (Nat.le_refl _),
    cell_create_of_le (Nat.le_succ _)]
  rfl

theorem table_create_of_lt (hs : h.Separated) (hj : j < h.objects.length) :
    (create.after h).table j = h.table j := by
  refine Heap.table_congr (object_create_of_lt hj) fun n hn => cell_create_of_lt ?_
  exact (hs.proper j hj).lt n hn

theorem separated_create (hs : h.Separated) : (create.after h).Separated := by
  have hlength : (create.after h).cells.length = h.cells.length + 2 := by
    simp [after_create]
  -- the maps that were there refer to cells that were there, and the new one to the new ones
  have hold : ∀ j < h.objects.length, ∀ n ∈ ((create.after h).object j).cells,
      n < h.cells.length := by
    intro j hj n hn
    rw [object_create_of_lt hj] at hn
    exact (hs.proper j hj).lt n hn
  have hcells : ((create.after h).object h.objects.length).cells =
      [h.cells.length, h.cells.length + 1] := by
    rw [object_create_length]
    rfl
  have hnew : ∀ n ∈ ((create.after h).object h.objects.length).cells,
      h.cells.length ≤ n ∧ n < h.cells.length + 2 := by
    intro n hn
    rw [hcells] at hn
    rcases List.mem_pair.1 hn with rfl | rfl <;> omega
  have hcases : ∀ j < (create.after h).objects.length,
      j < h.objects.length ∨ j = h.objects.length := by
    intro j hj
    rw [length_create] at hj
    omega
  constructor
  · -- every map refers to cells of the heap, and to none twice
    intro j hj
    rcases hcases j hj with hj | rfl
    · refine ⟨fun n hn => ?_, ?_⟩
      · have hlt := hold j hj n hn
        omega
      · rw [object_create_of_lt hj]
        exact (hs.proper j hj).nodup
    · refine ⟨fun n hn => hlength ▸ (hnew n hn).2, ?_⟩
      rw [hcells]
      simp
  · -- two maps share no cell: for two old ones as before, for an old one and the new one by number
    intro i hi j hj hne n hni hnj
    rcases hcases i hi with hi | rfl
    · rcases hcases j hj with hj | rfl
      · rw [object_create_of_lt hi] at hni
        rw [object_create_of_lt hj] at hnj
        exact hs.disjoint i hi j hj hne hni hnj
      · exact Nat.not_le_of_lt (hold i hi n hni) (hnew n hnj).1
    · rcases hcases j hj with hj | rfl
      · exact Nat.not_le_of_lt (hold j hj n hnj) (hnew n hni).1
      · exact hne rfl

end Operation

end Depot.Depmap
