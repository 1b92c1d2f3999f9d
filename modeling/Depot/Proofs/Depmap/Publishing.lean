import Depot.Proofs.Decimal.Grammar
import Depot.Proofs.Depmap.Listing
import Depot.Proofs.Depmap.Merging
/-!
# Published maps stay as they are

In every memory that comes about, maps share nothing and each amounts to the table of a history
(`Heap.Sound`). Both are needed for a step: the former keeps it from other maps, the latter has the
floors read back that it merges. So each step follows that on the table (`Edit.follows_perform`),
and what any operation makes of any map in memory is told without the memory
(`Operation.onTable`, `Operation.table_after`): a single map is changed, by the step on its table
alone, and by nothing if that step fails.

A step on a published table fails, so a map that is published once is the same for good
(`Leads.table_eq`). A step on any other map only fails on a version that is no number.
-/

namespace Depot.Depmap

/-! ### Memories with sound maps -/

/-- The maps share nothing, and each amounts to the table of a history. -/
structure Heap.Sound (h : Heap) : Prop where
  separated : h.Separated
  history : ∀ i < h.objects.length, ∃ history : History, history.table = h.table i

section

variable {h h' : Heap} {i j : Nat}

namespace Heap.Sound

variable (hs : h.Sound) (hi : i < h.objects.length)
include hs hi

theorem invariant : (h.table i).Invariant := by
  obtain ⟨history, hhistory⟩ := hs.history i hi
  exact hhistory ▸ history.invariant

theorem reachable : (h.map i).Reachable := by
  obtain ⟨history, hhistory⟩ := hs.history i hi
  rw [Heap.map, ← hhistory, ← history.map_eq_toDepmap]
  exact history.reachable_map

end Heap.Sound

namespace Edit

/-- **Every step follows that on the table.** -/
theorem follows_perform (hs : h.Sound) (hi : i < h.objects.length) {e : Edit} (he : e.IsOn h) :
    Heap.Follows (e.perform i) i h (e.onTable h (h.table i)) := by
  have hp := hs.separated.proper i hi
  cases e with
  | addMapping source target => exact Heap.follows_addMapping hp hi source target
  | addRuntime c => exact Heap.follows_addRequired hp false c
  | addBuild c => exact Heap.follows_addRequired hp true c
  | addFloor buildTime version => exact Heap.follows_addFloor hp hi buildTime version
  | merge other =>
    exact Heap.follows_merge hs.separated hi he (hs.invariant hi) (hs.reachable he).floorsInRange
  | optimize => exact Heap.follows_optimize hp hi

/-- The table after a step goes on with the history. -/
theorem exists_history (hs : h.Sound) (hi : i < h.objects.length) {e : Edit} (he : e.IsOn h) :
    ∃ history : History, history.table = History.settle (h.table i) (e.onTable h (h.table i)) := by
  obtain ⟨history, hhistory⟩ := hs.history i hi
  rw [← hhistory]
  -- the history goes on by the edit itself, whatever comes of it
  cases e with
  | addMapping source target => exact ⟨history.addMapping source target, rfl⟩
  | addRuntime c => exact ⟨history.addRuntime c, rfl⟩
  | addBuild c => exact ⟨history.addBuild c, rfl⟩
  | addFloor buildTime version => exact ⟨history.addFloor buildTime version, rfl⟩
  | merge other =>
    obtain ⟨otherHistory, hother⟩ := hs.history other he
    refine ⟨history.merge otherHistory, ?_⟩
    rw [History.table, hother]
    rfl
  | optimize => exact ⟨history.optimize, rfl⟩

theorem onMap_of_frozen {m : Depmap} (hm : m.frozen = true) (h : Heap) (e : Edit) :
    e.onMap h m = .error .frozen := by
  cases e <;> exact if_pos hm

/-- A step on the table is a step on the map for which it stands. -/
theorem map_toDepmap_onTable {t : Table} (hinv : t.Invariant) (h : Heap) (e : Edit) :
    (e.onTable h t).map Table.toDepmap = e.onMap h t.toDepmap := by
  cases e with
  | addMapping source target => exact t.toDepmap_addMapping source target
  | addRuntime c => exact t.toDepmap_addRuntime c
  | addBuild c => exact t.toDepmap_addBuild c
  | addFloor buildTime version => exact t.toDepmap_addFloor buildTime version
  | merge other => exact t.toDepmap_merge (h.table other)
  | optimize => exact hinv.toDepmap_optimize

/-- An edit of a published map fails before it does anything. -/
theorem outcome_of_frozen (hfrozen : (h.table i).frozen = true) (e : Edit) :
    (e.perform i).outcome h = (.error (.edit .frozen), h) := by
  have hcheck : (Heap.check i).outcome h = (.error (.edit .frozen), h) := by
    rw [Heap.outcome_check]
    exact if_pos hfrozen
  cases e <;> exact Working.outcome_bind_of_error hcheck _

/-- **A published table is not changed.** -/
theorem onTable_of_frozen {t : Table} (ht : t.frozen = true) (h : Heap) (e : Edit) :
    e.onTable h t = .error .frozen := by
  cases e <;> exact if_pos ht

end Edit

/-! ### What an operation does -/

namespace Operation

/-- What an operation makes of the map with a number. -/
def onTable (h : Heap) (j : Nat) : Operation → Table
  | create => h.table j
  | edit i e => if i = j then History.settle (h.table j) (e.onTable h (h.table j)) else h.table j
  | freeze i => if i = j then (h.table j).freeze else h.table j

theorem turns_edit (hs : h.Sound) (hi : i < h.objects.length) {e : Edit} (he : e.IsOn h) :
    Heap.Turns i h ((edit i e).after h) (History.settle (h.table i) (e.onTable h (h.table i))) := by
  have hfollows := e.follows_perform hs hi he
  cases hresult : e.onTable h (h.table i) with
  | error error =>
    -- a refused edit leaves the whole heap alone
    rw [hresult] at hfollows
    have hsame : (edit i e).after h = h := congrArg Prod.snd hfollows
    rw [hsame]
    exact .refl (hs.separated.proper i hi)
  | ok t =>
    rw [hresult] at hfollows
    obtain ⟨h', hwork, hturns⟩ := hfollows
    have hafter : (edit i e).after h = h' := congrArg Prod.snd hwork
    rwa [hafter]

/-- The map after an edit is what the step on the map comes to, and the map as it was where that
fails. -/
theorem map_edit (hs : h.Sound) (hi : i < h.objects.length) {e : Edit} (he : e.IsOn h) :
    ((edit i e).after h).map i = History.settle (h.map i) (e.onMap h (h.map i)) := by
  rw [Heap.map, (turns_edit hs hi he).table]
  exact (History.toDepmap_settle rfl (e.map_toDepmap_onTable (hs.invariant hi) h)).symm

theorem turns_freeze (hs : h.Sound) (hi : i < h.objects.length) :
    Heap.Turns i h ((freeze i).after h) (h.table i).freeze := by
  obtain ⟨h', hwork, hturns⟩ := Heap.makes_freeze (hs.separated.proper i hi) hi
  have hafter : (freeze i).after h = h' := congrArg Prod.snd hwork
  rwa [hafter]

/-- **What an operation makes of every map in memory** is told by their tables: it changes one of
them at most, and that by the step on its table, if this works. -/
theorem table_after (hs : h.Sound) (op : Operation) (hop : op.IsOn h)
    (hj : j < h.objects.length) : (op.after h).table j = op.onTable h j := by
  -- only the table of the map that is named changes
  cases op with
  | create => exact table_create_of_lt hs.separated hj
  | edit i e =>
    obtain ⟨hi, he⟩ := hop
    have hturns := turns_edit hs hi he
    rw [onTable]
    split
    · next hij => exact hij ▸ hturns.table
    · next hij => exact hturns.touches.table_eq hs.separated hi hj (Ne.symm hij)
  | freeze i =>
    have hturns := turns_freeze hs hop
    rw [onTable]
    split
    · next hij => exact hij ▸ hturns.table
    · next hij => exact hturns.touches.table_eq hs.separated hop hj (Ne.symm hij)

/-- What holds of the table and of what steps make of it holds of what any operation makes of
it. -/
theorem onTable_induction {P : Table → Prop} {op : Operation} (htable : P (h.table j))
    (hedit : ∀ e, op = edit j e → P (History.settle (h.table j) (e.onTable h (h.table j))))
    (hfreeze : P (h.table j).freeze) : P (op.onTable h j) := by
  cases op with
  | create => exact htable
  | edit i e =>
    rw [onTable]
    split
    · next hij => exact hedit e (hij ▸ rfl)
    · exact htable
  | freeze i =>
    rw [onTable]
    split
    · exact hfreeze
    · exact htable

/-- **A published table stays**, whatever is done. -/
theorem onTable_of_frozen (hfrozen : (h.table j).frozen = true) (op : Operation) :
    op.onTable h j = h.table j := by
  refine onTable_induction (P := fun t => t = h.table j) rfl (fun e _ => ?_) ?_
  · rw [e.onTable_of_frozen hfrozen]
    rfl
  · rw [Table.freeze, ← hfrozen]

theorem length_le_after (hs : h.Sound) (op : Operation) (hop : op.IsOn h) :
    h.objects.length ≤ (op.after h).objects.length := by
  cases op with
  | create => exact (length_create h).symm ▸ Nat.le_succ _
  | edit i e => exact (turns_edit hs hop.1 hop.2).length_eq.ge
  | freeze i => exact (turns_freeze hs hop).length_eq.ge

/-- **Memories stay sound.** -/
theorem sound_after (hs : h.Sound) (op : Operation) (hop : op.IsOn h) : (op.after h).Sound := by
  -- the objects stay apart
  constructor
  · cases op with
    | create => exact separated_create hs.separated
    | edit i e =>
      have hturns := turns_edit hs hop.1 hop.2
      exact hturns.touches.separated hs.separated hop.1 hturns.proper
    | freeze i =>
      have hturns := turns_freeze hs hop
      exact hturns.touches.separated hs.separated hop hturns.proper
  · -- every table keeps a history
    intro j hj
    by_cases hold : j < h.objects.length
    · rw [table_after hs op hop hold]
      refine onTable_induction (P := fun t => ∃ history : History, history.table = t)
        (hs.history j hold) (fun e he => ?_) ?_
      · subst he
        exact e.exists_history hs hold hop.2
      · obtain ⟨history, hhistory⟩ := hs.history j hold
        exact ⟨history.freeze, congrArg Table.freeze hhistory⟩
    · -- only a map that was just set up has a new number
      cases op with
      | create =>
        have hnew : j = h.objects.length := by
          rw [length_create] at hj
          omega
        exact ⟨.empty, hnew ▸ (table_create_length h).symm⟩
      | edit i e => exact absurd ((turns_edit hs hop.1 hop.2).length_eq ▸ hj) hold
      | freeze i => exact absurd ((turns_freeze hs hop).length_eq ▸ hj) hold

end Operation

/-! ### Sequences of operations -/

namespace Heap

theorem sound_empty : Sound {} where
  separated := ⟨fun _ hi => (nomatch hi), fun _ hi => (nomatch hi)⟩
  history _ hi := nomatch hi

theorem Leads.trans {h'' : Heap} (hfirst : Leads h h') (hsecond : Leads h' h'') : Leads h h'' := by
  induction hsecond with
  | refl => exact hfirst
  | step _ op hop ih => exact ih.step op hop

theorem Leads.sound (hleads : Leads h h') (hs : h.Sound) : h'.Sound := by
  induction hleads with
  | refl => exact hs
  | step _ op hop ih => exact Operation.sound_after ih op hop

theorem Reachable.sound (hh : h.Reachable) : h.Sound := Leads.sound hh sound_empty

theorem Leads.length_le (hleads : Leads h h') (hs : h.Sound) :
    h.objects.length ≤ h'.objects.length := by
  induction hleads with
  | refl => exact Nat.le_refl _
  | step hleads op hop ih =>
    exact ih.trans (Operation.length_le_after (hleads.sound hs) op hop)

/-- **A published map stays** along all operations. -/
theorem Leads.table_eq (hleads : Leads h h') (hs : h.Sound) (hi : i < h.objects.length)
    (hfrozen : (h.table i).frozen = true) : h'.table i = h.table i := by
  induction hleads with
  | refl => rfl
  | step hleads op hop ih =>
    have hi' := Nat.lt_of_lt_of_le hi (hleads.length_le hs)
    rw [Operation.table_after (hleads.sound hs) op hop hi',
      Operation.onTable_of_frozen (ih ▸ hfrozen), ih]

/-- Operations that set up a map with a table, and leave the maps that were there as they were. -/
structure Gains (h h' : Heap) (i : Nat) (t : Table) : Prop where
  leads : Leads h h'
  old : ∀ k < h.objects.length, h'.table k = h.table k
  new : h.objects.length ≤ i
  lt : i < h'.objects.length
  table : h'.table i = t

namespace Gains

variable {h'' : Heap} {t u : Table}

theorem create (hs : h.Sound) : Gains h (Operation.create.after h) h.objects.length .empty where
  leads := .step (.refl h) .create trivial
  old _ hk := Operation.table_create_of_lt hs.separated hk
  new := Nat.le_refl _
  lt := (Operation.length_create h).symm ▸ Nat.lt_succ_self _
  table := Operation.table_create_length h

/-- One more operation on the new map. -/
theorem step (hg : Gains h h' i t) (hs : h.Sound) (op : Operation) (hop : op.IsOn h')
    (hself : op = .freeze i ∨ ∃ e, op = .edit i e) :
    Gains h (op.after h') i (op.onTable h' i) := by
  have hs' := hg.leads.sound hs
  have hle := Operation.length_le_after hs' op hop
  refine ⟨hg.leads.step op hop, fun k hk => ?_, hg.new, Nat.lt_of_lt_of_le hg.lt hle,
    Operation.table_after hs' op hop hg.lt⟩
  have hk' := Nat.lt_of_lt_of_le hk (hg.leads.length_le hs)
  have hne : i ≠ k := (Nat.lt_of_lt_of_le hk hg.new).ne'
  rw [Operation.table_after hs' op hop hk']
  rcases hself with rfl | ⟨e, rfl⟩
  · exact (if_neg hne).trans (hg.old k hk)
  · exact (if_neg hne).trans (hg.old k hk)

theorem edit (hg : Gains h h' i t) (hs : h.Sound) {e : Edit} (he : e.IsOn h') :
    Gains h ((Operation.edit i e).after h') i (History.settle t (e.onTable h' t)) := by
  have hstep := hg.step hs (.edit i e) ⟨hg.lt, he⟩ (.inr ⟨e, rfl⟩)
  rwa [Operation.onTable, if_pos rfl, hg.table] at hstep

theorem freeze (hg : Gains h h' i t) (hs : h.Sound) :
    Gains h ((Operation.freeze i).after h') i t.freeze := by
  have hstep := hg.step hs (.freeze i) hg.lt (.inl rfl)
  rwa [Operation.onTable, if_pos rfl, hg.table] at hstep

/-- What is there stays while another map is set up. -/
theorem trans (hg : Gains h h' i t) (hs : h.Sound) (hnext : Gains h' h'' j u) :
    Gains h h'' i t where
  leads := hg.leads.trans hnext.leads
  old k hk :=
    (hnext.old k (Nat.lt_of_lt_of_le hk (hg.leads.length_le hs))).trans (hg.old k hk)
  new := hg.new
  lt := Nat.lt_of_lt_of_le hg.lt (hnext.leads.length_le (hg.leads.sound hs))
  table := (hnext.old i hg.lt).trans hg.table

end Gains

/-- **Every history can be gone through in memory**, whatever maps are there. -/
theorem exists_gains (history : History) (hs : h.Sound) : ∃ h' i, Gains h h' i history.table := by
  induction history generalizing h with
  | empty => exact ⟨_, _, .create hs⟩
  | addMapping before source target ih =>
    obtain ⟨h', i, hg⟩ := ih hs
    exact ⟨_, i, hg.edit hs (e := .addMapping source target) trivial⟩
  | addRuntime before c ih =>
    obtain ⟨h', i, hg⟩ := ih hs
    exact ⟨_, i, hg.edit hs (e := .addRuntime c) trivial⟩
  | addBuild before c ih =>
    obtain ⟨h', i, hg⟩ := ih hs
    exact ⟨_, i, hg.edit hs (e := .addBuild c) trivial⟩
  | addFloor before buildTime version ih =>
    obtain ⟨h', i, hg⟩ := ih hs
    exact ⟨_, i, hg.edit hs (e := .addFloor buildTime version) trivial⟩
  | merge before other ih ihother =>
    -- first the one map, then the other one, and then they are merged
    obtain ⟨h', i, hg⟩ := ih hs
    obtain ⟨h'', j, hother⟩ := ihother (hg.leads.sound hs)
    have hmerge := (hg.trans hs hother).edit hs (e := .merge j) hother.lt
    rw [Edit.onTable, hother.table] at hmerge
    exact ⟨_, i, hmerge⟩
  | optimize before ih =>
    obtain ⟨h', i, hg⟩ := ih hs
    exact ⟨_, i, hg.edit hs (e := .optimize) trivial⟩
  | freeze before ih =>
    obtain ⟨h', i, hg⟩ := ih hs
    exact ⟨_, i, hg.freeze hs⟩

/-- The maps that come about are those in memories that come about. -/
theorem reachable_iff {m : Depmap} : m.Reachable ↔
    ∃ h i, Heap.Reachable h ∧ i < h.objects.length ∧ h.map i = m := by
  constructor
  · intro hm
    obtain ⟨history, rfl⟩ := History.reachable_iff.1 hm
    obtain ⟨h, i, hg⟩ := exists_gains history sound_empty
    refine ⟨h, i, hg.leads, hg.lt, ?_⟩
    rw [map, hg.table, history.map_eq_toDepmap]
  · rintro ⟨h, i, hh, hi, rfl⟩
    exact hh.sound.reachable hi

end Heap

/-! ### What comes of an edit -/

namespace Edit

/-- **An edit comes to what the step on the map comes to**; where that fails, it fails likewise, and
leaves the memory as it was. -/
theorem outcome_perform (hs : h.Sound) (hi : i < h.objects.length) {e : Edit} (he : e.IsOn h) :
    (∀ m, e.onMap h (h.map i) = .ok m →
      ∃ h', (e.perform i).outcome h = (.ok (), h') ∧ h'.map i = m) ∧
    ∀ error, e.onMap h (h.map i) = .error error →
      (e.perform i).outcome h = (.error (.edit error), h) := by
  have hfollows := e.follows_perform hs hi he
  rw [Heap.map, ← e.map_toDepmap_onTable (hs.invariant hi) h]
  -- the map answers as its table does, so the cases are those of the table
  cases hresult : e.onTable h (h.table i) with
  | error error =>
    rw [hresult] at hfollows
    refine ⟨fun m hm => (nomatch hm), fun error' herror => ?_⟩
    cases herror
    exact hfollows
  | ok t =>
    rw [hresult] at hfollows
    obtain ⟨h', hwork, hturns⟩ := hfollows
    refine ⟨fun m hm => ⟨h', hwork, ?_⟩, fun error herror => (nomatch herror)⟩
    cases hm
    rw [Heap.map, hturns.table]

/-- A step on a map that is not published only fails on a version that is no number. -/
theorem onMap_of_not_frozen (hs : h.Sound) {m : Depmap} (hopen : m.frozen = false) {e : Edit}
    (he : e.IsOn h) : (∃ m', e.onMap h m = .ok m') ∨
      ∃ buildTime version refusal, e = .addFloor buildTime version ∧
        VersionFloor.parse version = .error refusal ∧ e.onMap h m = .error (.floor refusal) := by
  -- the version of a floor is all that an open map can refuse
  cases e with
  | addFloor buildTime version =>
    cases hparse : VersionFloor.parse version with
    | ok d => exact .inl ⟨_, addFloor_of_ok hopen buildTime hparse⟩
    | error refusal =>
      have hfails := addFloor_of_error hopen buildTime hparse
      exact .inr ⟨buildTime, version, refusal, rfl, hparse, hfails⟩
  | merge other => exact .inl ⟨_, merge_eq hopen (hs.reachable he).floorsInRange⟩
  | addMapping source target =>
    rw [onMap, Depmap.addMapping, edit_of_not_frozen hopen]
    exact .inl ⟨_, rfl⟩
  | addRuntime c =>
    rw [onMap, Depmap.addRuntime, edit_of_not_frozen hopen]
    exact .inl ⟨_, rfl⟩
  | addBuild c =>
    rw [onMap, Depmap.addBuild, edit_of_not_frozen hopen]
    exact .inl ⟨_, rfl⟩
  | optimize =>
    rw [onMap, Depmap.optimize, edit_of_not_frozen hopen]
    exact .inl ⟨_, rfl⟩

end Edit

/-- Two tables find the same for every coordinate, and list the same. -/
structure Table.AnswersLike (t u : Table) : Prop where
  lookup : ∀ c, t.lookup c = u.lookup c
  mappings : t.mappings = u.mappings
  runtime : t.runtimeDependencies = u.runtimeDependencies
  build : t.buildDependencies = u.buildDependencies
  runtimeFloor : t.runtimeFloor = u.runtimeFloor
  buildFloor : t.buildFloor = u.buildFloor
  size : t.size = u.size

theorem Table.answersLike_freeze (t : Table) : t.freeze.AnswersLike t :=
  ⟨fun _ => rfl, rfl, rfl, rfl, rfl, rfl, rfl⟩

/-- **A published map never changes, and what fails changes nothing.** The maps that come about are
those in memories that come about by operations, where they are changed in place. Once a map is
published there, every edit fails, whatever it is and whatever has been done since, and leaves the
whole memory as it was; the map has the same table for good, so it finds and lists the same. An edit
of a map that is not published works, and makes of it what the step on the map does, unless it adds
a version floor with a text that is no number: then it fails, and leaves the memory as it was.
Merging never changes the map that is merged, not even where this is the same map. -/
theorem published_stays :
    (∀ m : Depmap, m.Reachable ↔ ∃ h i, Heap.Reachable h ∧ i < h.objects.length ∧ h.map i = m) ∧
    ∀ h : Heap, h.Reachable → ∀ i < h.objects.length,
      (∀ h', Heap.Leads ((Operation.freeze i).after h) h' →
        h'.table i = (h.table i).freeze ∧ (h'.table i).AnswersLike (h.table i) ∧
        h'.map i = (h.map i).freeze ∧
        ∀ e : Edit, e.onMap h' (h'.map i) = .error .frozen ∧
          (e.perform i).outcome h' = (.error (.edit .frozen), h')) ∧
      ((h.map i).frozen = false → ∀ e : Edit, e.IsOn h →
        (∃ m h', e.onMap h (h.map i) = .ok m ∧ (e.perform i).outcome h = (.ok (), h') ∧
          h'.map i = m) ∨
        ∃ buildTime version refusal, e = .addFloor buildTime version ∧
          (∀ d, ¬ Decimal.IsNumeral version d) ∧
          (e.perform i).outcome h = (.error (.edit (.floor refusal)), h)) ∧
      ∀ j < h.objects.length, ((Heap.merge i j).outcome h).2.table j = h.table j := by
  refine ⟨fun m => Heap.reachable_iff, fun h hh i hi => ⟨fun h' hleads => ?_, fun hopen e he => ?_,
    fun j hj => ?_⟩⟩
  · -- the table is published, and stays so along all operations
    have hs := hh.sound
    have hpublished := Operation.turns_freeze hs hi
    have hafter := Operation.sound_after hs (.freeze i) hi
    have htable : h'.table i = (h.table i).freeze := by
      rw [← hpublished.table]
      exact hleads.table_eq hafter (hpublished.length_eq ▸ hi) (hpublished.table ▸ rfl)
    refine ⟨htable, htable ▸ (h.table i).answersLike_freeze, congrArg Table.toDepmap htable,
      fun e => ?_⟩
    have hfrozen : (h'.table i).frozen = true := congrArg Table.frozen htable
    exact ⟨e.onMap_of_frozen hfrozen h', e.outcome_of_frozen hfrozen⟩
  · -- on an open map the edit is made, or it is a floor whose version is no numeral
    have hs := hh.sound
    obtain ⟨hok, herror⟩ := e.outcome_perform hs hi he
    rcases e.onMap_of_not_frozen hs hopen he with ⟨m, hm⟩ | ⟨b, v, refusal, rfl, hparse, hfails⟩
    · obtain ⟨h', hwork, hmap⟩ := hok m hm
      exact .inl ⟨m, h', hm, hwork, hmap⟩
    · refine .inr ⟨b, v, refusal, rfl, fun d hd => ?_, herror _ hfails⟩
      rw [VersionFloor.parse_eq_ok_iff.2 hd] at hparse
      cases hparse
  · -- the argument of a merge is kept, even where it is the map that is merged into
    have hs := hh.sound
    have htable := Operation.table_after hs (.edit i (.merge j)) ⟨hi, hj⟩ hj
    rw [Operation.onTable] at htable
    refine htable.trans ?_
    split
    · exact Table.settle_merge_self (hs.invariant hj) (hs.reachable hj).floorsInRange
    · rfl

/-- Two maps, the second of which has got its floor from the first one. -/
def sampleHeap : Heap :=
  (Operation.edit 1 (.merge 0)).after <| (Operation.edit 0 (.addFloor false "1.80")).after <|
    Operation.create.after <| Operation.create.after {}

theorem published_stays_sampleHeap : sampleHeap.Reachable ∧ 1 < sampleHeap.objects.length ∧
    (sampleHeap.map 1).runtimeFloor = some ⟨false, 180, -2⟩ ∧
    (∀ e : Edit, (e.perform 0).outcome ((Operation.freeze 0).after sampleHeap) =
      (.error (.edit .frozen), (Operation.freeze 0).after sampleHeap)) ∧
    (∃ refusal, ((Edit.addFloor true "eight").perform 1).outcome sampleHeap =
      (.error (.edit (.floor refusal)), sampleHeap)) ∧
    ((Heap.merge 1 0).outcome sampleHeap).2.table 0 = sampleHeap.table 0 := by
  have hcount : sampleHeap.objects.length = 2 := by decide +kernel
  have hreachable : sampleHeap.Reachable := by
    have hmaps : Heap.Leads {} (Operation.create.after (Operation.create.after {})) :=
      .step (.step (.refl {}) .create trivial) .create trivial
    have hfloor := hmaps.step (.edit 0 (.addFloor false "1.80")) ⟨by decide +kernel, trivial⟩
    refine hfloor.step (.edit 1 (.merge 0)) ⟨by decide +kernel, ?_⟩
    show 0 < List.length _
    decide +kernel
  obtain ⟨hpublished, -, -⟩ := published_stays.2 sampleHeap hreachable 0 (by omega)
  obtain ⟨-, hopen, hmerge⟩ := published_stays.2 sampleHeap hreachable 1 (by omega)
  refine ⟨hreachable, by omega, by decide +kernel,
    fun e => ((hpublished _ (.refl _)).2.2.2 e).2, ?_, hmerge 0 (by omega)⟩
  have hrefused : ((sampleHeap.map 1).addFloor true "eight").toOption.isNone = true := by
    decide +kernel
  rcases hopen (by decide +kernel) (.addFloor true "eight") trivial with
    ⟨m, h', hm, -, -⟩ | ⟨b, v, refusal, -, -, hfails⟩
  · -- the text is no number, so the step does not work
    have hm : (sampleHeap.map 1).addFloor true "eight" = .ok m := hm
    rw [hm] at hrefused
    cases hrefused
  · exact ⟨refusal, hfails⟩

end

end Depot.Depmap
