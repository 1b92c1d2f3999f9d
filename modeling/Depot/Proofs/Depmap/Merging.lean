import Depot.Proofs.Depmap.Following
import Depot.Proofs.Outcome
/-!
# Merging in memory

Merging changes a map several times before it comes to the floors, and there it goes through the
texts of the floors, which might be refused. So it follows merging of tables only because that
never fails: the floors of a map that has come about are read back from their texts
(`Table.exists_merge_eq_ok`). It also reads one map while it changes another. If these are two, what
is read is not what is changed (`makes_merge`); if they are the same, nothing changes at all
(`outcome_merge_self`).
-/

namespace Depot

theorem Decimal.maxOption_self (d : Decimal) : maxOption (some d) d = some d :=
  congrArg some (ite_self d)

namespace Depmap

/-! ### Tables -/

/-- Adding an entry that is there changes nothing. -/
theorem Entries.extend_self {es : Entries} (hsources : (es.map (·.1)).Nodup)
    {e : Coordinate × List Coordinate} (he : e ∈ es) : es.extend e.1 e.2 = es := by
  induction es with
  | nil => cases he
  | cons first es ih =>
    obtain ⟨hfirst, hsources⟩ := List.nodup_cons.1 hsources
    rw [extend]
    rcases List.mem_cons.1 he with rfl | he
    · rw [if_pos rfl, List.Subset.union_eq_right (List.Subset.refl _)]
    · have hne : first.1 ≠ e.1 := (ne_of_mem_of_not_mem (List.mem_map_of_mem he) hfirst).symm
      rw [if_neg hne, ih hsources he]

theorem Entries.extendAll_self {es : Entries} (hsources : (es.map (·.1)).Nodup) :
    es.extendAll es = es := by
  -- more generally for any part of the entries, since the fold runs over a shrinking list
  have hall : ∀ others : Entries, others ⊆ es → es.extendAll others = es := by
    intro others
    induction others with
    | nil => exact fun _ => rfl
    | cons e others ih =>
      intro hsub
      obtain ⟨he, hrest⟩ := List.cons_subset.1 hsub
      rw [extendAll, List.foldl_cons, extend_self hsources he]
      exact ih hrest
  exact hall es (List.Subset.refl es)

/-- A table that is merged into itself stays what it is. -/
theorem Table.merge_self {t : Table} (hopen : t.frozen = false) (hinv : t.Invariant)
    (hfloors : t.toDepmap.FloorsInRange) : t.merge t = .ok t := by
  -- the lists have nothing new to take in
  have hlists : t.mergeLists t = t := by
    rw [mergeLists, Entries.extendAll_self hinv.entries.sources,
      List.Subset.union_eq_right (List.Subset.refl _),
      List.Subset.union_eq_right (List.Subset.refl _)]
  -- nor does a floor rise by itself, as its text is read back
  have hfloor : ∀ {buildTime : Bool} {floor : Option Decimal}, (∀ d ∈ floor, d.InRange) →
      (∀ d ∈ floor, t.raiseFloor buildTime d = t) → t.mergeFloor buildTime floor = .ok t := by
    intro buildTime floor hrange hsame
    cases floor with
    | none => rfl
    | some d =>
      rw [mergeFloor, addFloor, edit, hopen, if_neg Bool.false_ne_true,
        VersionFloor.parse_toText (hrange d rfl)]
      exact congrArg _ (hsame d rfl)
  have hruntime : t.mergeFloor false t.runtimeFloor = .ok t := by
    refine hfloor hfloors.runtime fun d hd => ?_
    have hd : t.runtimeFloor = some d := hd
    rw [raiseFloor, if_neg Bool.false_ne_true, hd, Decimal.maxOption_self, ← hd]
  have hbuild : t.mergeFloor true t.buildFloor = .ok t := by
    refine hfloor hfloors.build fun d hd => ?_
    have hd : t.buildFloor = some d := hd
    rw [raiseFloor, if_pos rfl, hd, Decimal.maxOption_self, ← hd]
  rw [merge, edit, hopen, if_neg Bool.false_ne_true, hlists, hruntime]
  exact hbuild

theorem Table.settle_merge_self {t : Table} (hinv : t.Invariant)
    (hfloors : t.toDepmap.FloorsInRange) : History.settle t (t.merge t) = t := by
  cases hfrozen : t.frozen with
  | true =>
    have hmerge : t.merge t = .error .frozen := if_pos hfrozen
    rw [hmerge]
    rfl
  | false =>
    rw [merge_self hfrozen hinv hfloors]
    rfl

/-- Tables are merged without fail, if they come from maps with floors within the range. -/
theorem Table.exists_merge_eq_ok {t other : Table} (hopen : t.frozen = false)
    (hfloors : other.toDepmap.FloorsInRange) : ∃ u, t.merge other = .ok u := by
  have hmerge : (t.merge other).map toDepmap = .ok (t.toDepmap.joined other.toDepmap) := by
    rw [toDepmap_merge, merge_eq hopen hfloors]
  obtain ⟨u, hu, -⟩ := map_eq_ok_iff.1 hmerge
  exact ⟨u, hu⟩

theorem Object.raiseFloor_self (o : Object) {buildTime : Bool} {d : Decimal}
    (hd : o.floor buildTime = some d) : o.raiseFloor buildTime d = o := by
  cases buildTime with
  | true =>
    have hbuild : o.buildFloor = some d := hd
    rw [raiseFloor, if_pos rfl, hbuild, Decimal.maxOption_self, ← hbuild]
  | false =>
    have hruntime : o.runtimeFloor = some d := hd
    rw [raiseFloor, if_neg Bool.false_ne_true, hruntime, Decimal.maxOption_self, ← hruntime]

namespace Heap

variable {h : Heap} {i j : Nat}

/-! ### Merging another map -/

/-- The sets of another map are merged one after the other: none of them is changed meanwhile. -/
theorem makes_mergeEntries (hp : h.Proper i) (hi : i < h.objects.length)
    {entries : List (Coordinate × Nat)} (hlt : ∀ e ∈ entries, e.2 < h.cells.length)
    (hforeign : ∀ e ∈ entries, e.2 ∉ (h.object i).cells) :
    Makes (mergeEntries i entries) i h
      { h.table i with entries := (h.table i).entries.extendAll (h.targets entries) } := by
  induction entries generalizing h with
  | nil => exact (Turns.refl hp).makes rfl
  | cons e entries ih =>
    obtain ⟨-, hlts⟩ := List.forall_mem_cons.1 hlt
    obtain ⟨-, hforeigns⟩ := List.forall_mem_cons.1 hforeign
    refine Makes.bind (makes_extend hp hi e.1 (h.cell e.2)).get fun h' hturns => ?_
    -- what belongs to others belongs to others still, and is what it was
    have hsame : h'.targets entries = h.targets entries :=
      List.map_congr_left fun e he =>
        Prod.ext rfl (hturns.touches.cell e.2 (hlts e he) (hforeigns e he))
    have hrest := ih hturns.proper (hturns.length_eq ▸ hi)
      (fun e he => Nat.lt_of_lt_of_le (hlts e he) hturns.touches.length)
      (fun e he hmem => (hturns.touches.own e.2 hmem).elim (hforeigns e he)
        (Nat.not_le_of_lt (hlts e he)))
    rwa [hturns.table, hsame] at hrest

theorem makes_mergeRequired (hp : h.Proper i) (j : Nat) (b : Bool) : Makes (mergeRequired i j b) i h
    ((h.table i).setRequired b ((h.table j).required b ∪ (h.table i).required b)) := by
  rw [required_table, required_table]
  exact (turns_setRequired hp b _).makes rfl

/-- **Merging another map** works where it works on tables. -/
theorem makes_merge (hs : h.Separated) (hi : i < h.objects.length) (hj : j < h.objects.length)
    (hne : j ≠ i) {t : Table} (ht : (h.table i).merge (h.table j) = .ok t) :
    Makes (merge i j) i h t := by
  -- whatever has been done to the one map by then, the other one is what it was
  have hother : ∀ {h' : Heap}, Touches i h h' → h'.table j = h.table j :=
    fun htouches => htouches.table_eq hs hi hj hne
  have hj' := hs.proper j hj
  have hentries : Makes (mergeEntries i (h.object j).entries) i h
      { h.table i with entries := (h.table i).entries.extendAll (h.table j).entries } := by
    refine makes_mergeEntries (hs.proper i hi) hi (fun e he => hj'.entry_lt he) fun e he hmem => ?_
    refine hs.disjoint i hi j hj (Ne.symm hne) hmem ?_
    exact List.mem_cons_of_mem _ (List.mem_cons_of_mem _ (List.mem_map_of_mem he))
  have hfollows : Follows (merge i j) i h ((h.table i).merge (h.table j)) := by
    refine follows_check fun _ => ?_
    rw [Table.edit_eq_ok ht]
    obtain ⟨u, hu, hlast⟩ := bind_eq_ok_iff.1 (Table.edit_eq_ok ht)
    -- first the three collections
    refine hentries.get.bind fun h₁ h₁turns => ?_
    have htouches₁ := h₁turns.touches
    refine (makes_mergeRequired h₁turns.proper j false).bind fun h₂ h₂turns => ?_
    have htouches₂ := htouches₁.trans h₂turns.touches
    refine (makes_mergeRequired h₂turns.proper j true).bind fun h₃ h₃turns => ?_
    have htouches₃ := htouches₂.trans h₃turns.touches
    have hlists : h₃.table i = (h.table i).mergeLists (h.table j) := by
      rw [h₃turns.table, h₂turns.table, h₁turns.table, hother htouches₂, hother htouches₁]
      rfl
    -- then the floors, for which the step on tables has worked
    have hu' : (h₃.table i).mergeFloor false (h₃.table j).runtimeFloor = .ok u := by
      rw [hlists, hother htouches₃, hu]
    have hruntime : Follows _ i h₃ ((h₃.table i).mergeFloor false (h₃.table j).runtimeFloor) :=
      follows_mergeFloor h₃turns.proper (htouches₃.count ▸ hi) j false
    rw [hu'] at hruntime
    refine Makes.bind hruntime fun h₄ h₄turns => ?_
    have htouches₄ := htouches₃.trans h₄turns.touches
    have ht' : (h₄.table i).mergeFloor true (h₄.table j).buildFloor = .ok t := by
      rw [h₄turns.table, hother htouches₄, hlast]
    have hbuild : Follows _ i h₄ ((h₄.table i).mergeFloor true (h₄.table j).buildFloor) :=
      follows_mergeFloor h₄turns.proper (htouches₄.count ▸ hi) j true
    rwa [ht'] at hbuild
  rwa [ht] at hfollows

/-! ### Merging a map into itself -/

theorem sources_targets (h : Heap) (entries : List (Coordinate × Nat)) :
    (h.targets entries).map (·.1) = entries.map (·.1) := by
  rw [targets, List.map_map]
  rfl

theorem outcome_extend_self (hinv : (h.table i).Invariant) {e : Coordinate × Nat}
    (he : e ∈ (h.object i).entries) :
    (extend i e.1 (h.cell e.2)).outcome h = (.ok (), h) := by
  have hsources : ((h.object i).entries.map (·.1)).Nodup :=
    sources_targets h _ ▸ hinv.entries.sources
  -- the entry that is found is the one that is read
  have hfind : (h.object i).entries.find? (fun x => x.1 == e.1) = some e := by
    cases hfound : (h.object i).entries.find? (fun x => x.1 == e.1) with
    | none => exact absurd (beq_self_eq_true e.1) (List.find?_eq_none.1 hfound e he)
    | some x =>
      have hx : x.1 = e.1 := by simpa using List.find?_some hfound
      rw [List.inj_on_of_nodup_map hsources (List.mem_of_find?_eq_some hfound) he hx]
  calc (extend i e.1 (h.cell e.2)).outcome h
      = (.ok (), h.setCell e.2 (h.cell e.2 ∪ h.cell e.2)) :=
        Working.outcome_bind_of_ok (outcome_targetsCell_of_find? hfind) _
    _ = (.ok (), h) := by
        rw [List.Subset.union_eq_right (List.Subset.refl _), setCell_cell]

theorem outcome_mergeEntries_self (hinv : (h.table i).Invariant)
    {entries : List (Coordinate × Nat)} (hentries : entries ⊆ (h.object i).entries) :
    (mergeEntries i entries).outcome h = (.ok (), h) := by
  induction entries with
  | nil => rfl
  | cons e entries ih =>
    obtain ⟨he, hrest⟩ := List.cons_subset.1 hentries
    exact (Working.outcome_bind_of_ok (outcome_extend_self hinv he) _).trans (ih hrest)

theorem outcome_addTo_self (h : Heap) (n : Nat) :
    (addTo n (h.cell n)).outcome h = (.ok (), h) := by
  show (Except.ok (), h.setCell n (h.cell n ∪ h.cell n)) = (.ok (), h)
  rw [List.Subset.union_eq_right (List.Subset.refl _), setCell_cell]

/-- A floor that a map has is no reason to raise it. -/
theorem outcome_mergeFloor_self (hopen : (h.object i).frozen = false) (buildTime : Bool)
    (hfloor : ∀ d ∈ (h.object i).floor buildTime, d.InRange) :
    (mergeFloor i i buildTime).outcome h = (.ok (), h) := by
  cases hd : (h.object i).floor buildTime with
  | none => exact outcome_mergeFloor_of_none hd
  | some d =>
    have hcheck : (check i).outcome h = (.ok (), h) := by
      rw [outcome_check, hopen]
      rfl
    rw [outcome_mergeFloor_of_some hd, addFloor, Working.outcome_bind_of_ok hcheck,
      VersionFloor.parse_toText (hfloor d hd)]
    show (Except.ok (), h.setObject i ((h.object i).raiseFloor buildTime d)) = (.ok (), h)
    rw [(h.object i).raiseFloor_self hd, setObject_object]

/-- **Merging a map into itself** changes nothing in memory. -/
theorem outcome_merge_self (hopen : (h.object i).frozen = false) (hinv : (h.table i).Invariant)
    (hfloors : (h.map i).FloorsInRange) : (merge i i).outcome h = (.ok (), h) := by
  have hcheck : (check i).outcome h = (.ok (), h) := by
    rw [outcome_check, hopen]
    rfl
  calc (merge i i).outcome h
      = (mergeEntries i (h.object i).entries >>= fun _ => _).outcome h :=
        Working.outcome_bind_of_ok hcheck _
    _ = _ := Working.outcome_bind_of_ok (outcome_mergeEntries_self hinv (List.Subset.refl _)) _
    _ = _ := Working.outcome_bind_of_ok (outcome_addTo_self h ((h.object i).required false)) _
    _ = _ := Working.outcome_bind_of_ok (outcome_addTo_self h ((h.object i).required true)) _
    _ = _ := Working.outcome_bind_of_ok (outcome_mergeFloor_self hopen false hfloors.runtime) _
    _ = (.ok (), h) := outcome_mergeFloor_self hopen true hfloors.build

/-- **Merging follows merging of tables**, be it another map or the same. -/
theorem follows_merge (hs : h.Separated) (hi : i < h.objects.length) (hj : j < h.objects.length)
    (hinv : (h.table i).Invariant) (hfloors : (h.map j).FloorsInRange) :
    Follows (merge i j) i h ((h.table i).merge (h.table j)) := by
  -- a published map is refused before anything else; a map merged with itself is left alone
  cases hfrozen : (h.object i).frozen with
  | true => exact follows_check fun hopen => nomatch hfrozen.symm.trans hopen
  | false =>
    by_cases hne : j = i
    · subst hne
      rw [Table.merge_self hfrozen hinv hfloors]
      exact (Turns.refl (hs.proper j hj)).makes (outcome_merge_self hfrozen hinv hfloors)
    · obtain ⟨t, ht⟩ := Table.exists_merge_eq_ok (t := h.table i) hfrozen hfloors
      rw [ht]
      exact makes_merge hs hi hj hne ht

end Heap

end Depmap

end Depot
