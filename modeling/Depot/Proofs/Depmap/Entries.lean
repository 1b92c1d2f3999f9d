import Depot.Proofs.Coordinate.Order
import Mathlib.Data.List.Dedup
import Mathlib.Data.List.Lattice
/-!
# Sources with their targets

A layout of mappings that keeps coordinates: under each source the targets to which it is mapped
(`Depmap.Entries`). Nothing in these types keeps a coordinate from having a version, a source from
being listed twice, or from being listed without a target. `Entries.Valid` says that none of this is
so, and adding targets keeps to it (`Entries.Valid.extend`), as long as there are some and they are
reduced.

What entries amount to is the pairs of a source and one of its targets (`Entries.pairs`). The lookup
of a source, which stops at the first entry, tells all of its pairs if the entries are valid
(`Entries.Valid.mem_targets_iff`).
-/

namespace Depot

namespace Coordinate

/-- The coordinate has no version, and the extension `jar`. -/
structure IsReduced (c : Coordinate) : Prop where
  version : c.version = none
  extension : c.extension = .jar

theorem isReduced_withoutVersionAndExtension (c : Coordinate) :
    c.withoutVersionAndExtension.IsReduced := ⟨rfl, rfl⟩

theorem IsReduced.withoutVersionAndExtension_eq {c : Coordinate} (h : c.IsReduced) :
    c.withoutVersionAndExtension = c := by
  obtain ⟨hversion, hextension⟩ := h
  rw [withoutVersionAndExtension, ← hversion, ← hextension]

/-- Reduced coordinates are told apart by their identities. -/
theorem IsReduced.eq_of_identity_eq {a b : Coordinate} (ha : a.IsReduced) (hb : b.IsReduced)
    (h : a.identity = b.identity) : a = b := by
  rw [← ha.withoutVersionAndExtension_eq, ← hb.withoutVersionAndExtension_eq,
    ← toCoordinate_identity, ← toCoordinate_identity, h]

end Coordinate

namespace Depmap

/-- Sources with their targets. -/
abbrev Entries := List (Coordinate × List Coordinate)

namespace Entries

/-- Adds targets to those of a source, which is set up where it is not there. -/
def extend (source : Coordinate) (targets : List Coordinate) : Entries → Entries
  | [] => [(source, targets ∪ [])]
  | (s, ts) :: es =>
    if s = source then (s, targets ∪ ts) :: es else (s, ts) :: extend source targets es

/-- Adds all entries of another table. -/
def extendAll (es others : Entries) : Entries :=
  others.foldl (fun es e => es.extend e.1 e.2) es

/-- The targets of a source. -/
def targets (es : Entries) (source : Coordinate) : List Coordinate :=
  ((es.find? fun e => e.1 == source).map (·.2)).getD []

/-- The pairs of a source and one of its targets. -/
def pairs (es : Entries) : List (Coordinate × Coordinate) :=
  es.flatMap fun e => e.2.map fun target => (e.1, target)

/-- The number of targets of all sources. -/
def size : Entries → Nat
  | [] => 0
  | e :: es => e.2.length + size es

theorem pairs_cons (e : Coordinate × List Coordinate) (es : Entries) :
    Entries.pairs (e :: es) = e.2.map (fun target => (e.1, target)) ++ es.pairs := rfl

theorem mem_pairs {es : Entries} {p : Coordinate × Coordinate} :
    p ∈ es.pairs ↔ ∃ e ∈ es, e.1 = p.1 ∧ p.2 ∈ e.2 := by
  obtain ⟨source, target⟩ := p
  simp [pairs, and_comm]

theorem length_pairs (es : Entries) : es.pairs.length = es.size := by
  induction es with
  | nil => rfl
  | cons e es ih => rw [pairs_cons, List.length_append, List.length_map, ih, size]

/-! ### What adding targets does -/

section

variable {es others : Entries} {source : Coordinate} {added : List Coordinate}

theorem mem_pairs_extend {p : Coordinate × Coordinate} : p ∈ (es.extend source added).pairs ↔
    p.1 = source ∧ p.2 ∈ added ∨ p ∈ es.pairs := by
  obtain ⟨s, target⟩ := p
  induction es with
  | nil =>
    simp only [extend, pairs_cons, List.mem_append, List.mem_map, List.mem_union_iff]
    grind
  | cons e es ih =>
    obtain ⟨other, ts⟩ := e
    by_cases h : other = source
    · -- the new targets come in front of those that the source has
      simp only [extend, h, if_true, pairs_cons]
      grind
    · simp only [extend, h, if_false, pairs_cons, List.mem_append, ih]
      grind

theorem mem_pairs_extendAll {p : Coordinate × Coordinate} :
    p ∈ (es.extendAll others).pairs ↔ p ∈ es.pairs ∨ p ∈ others.pairs := by
  induction others generalizing es with
  | nil => simp [extendAll, pairs]
  | cons e others ih =>
    have hstep : es.extendAll (e :: others) = (es.extend e.1 e.2).extendAll others := rfl
    rw [hstep, ih, mem_pairs_extend, pairs_cons, List.mem_append, List.mem_map]
    grind

/-- The entry of the source has the new targets besides the old ones. -/
theorem mem_extend {e : Coordinate × List Coordinate} (h : e ∈ es.extend source added) :
    e ∈ es ∨ ∃ old, e = (source, added ∪ old) ∧ (old = [] ∨ (source, old) ∈ es) := by
  induction es with
  | nil => exact .inr ⟨[], List.mem_singleton.1 h, .inl rfl⟩
  | cons first es ih =>
    obtain ⟨other, ts⟩ := first
    rw [extend] at h
    split at h
    · -- a source that has targets keeps them behind the new ones
      next hother =>
      subst hother
      rcases List.mem_cons.1 h with rfl | h
      · exact .inr ⟨ts, rfl, .inr List.mem_cons_self⟩
      · exact .inl (List.mem_cons_of_mem _ h)
    · rcases List.mem_cons.1 h with rfl | h
      · exact .inl List.mem_cons_self
      · rcases ih h with h | ⟨old, he, hold⟩
        · exact .inl (List.mem_cons_of_mem _ h)
        · exact .inr ⟨old, he, hold.imp_right (List.mem_cons_of_mem _)⟩

theorem sources_extend : (es.extend source added).map (·.1) =
    if source ∈ es.map (·.1) then es.map (·.1) else es.map (·.1) ++ [source] := by
  induction es with
  | nil => simp [extend]
  | cons e es ih =>
    obtain ⟨other, ts⟩ := e
    by_cases h : other = source
    · simp [extend, h]
    · rw [extend, if_neg h, List.map_cons, List.map_cons, ih]
      by_cases hmem : source ∈ es.map (·.1)
      · rw [if_pos hmem, if_pos (List.mem_cons_of_mem _ hmem)]
      · rw [if_neg hmem, if_neg fun hm => (List.mem_cons.1 hm).elim (Ne.symm h) hmem,
          List.cons_append]

end

/-! ### Valid entries -/

/-- Each source is listed once and has targets, each of them once, and all of these coordinates are
reduced. -/
structure Valid (es : Entries) : Prop where
  sources : (es.map (·.1)).Nodup
  source : ∀ e ∈ es, e.1.IsReduced
  ne_nil : ∀ e ∈ es, e.2 ≠ []
  nodup : ∀ e ∈ es, e.2.Nodup
  target : ∀ e ∈ es, ∀ c ∈ e.2, c.IsReduced

section

variable {es others : Entries} {source : Coordinate} {added : List Coordinate}

theorem Valid.nil : Valid [] where
  sources := List.nodup_nil
  source _ h := absurd h List.not_mem_nil
  ne_nil _ h := absurd h List.not_mem_nil
  nodup _ h := absurd h List.not_mem_nil
  target _ h := absurd h List.not_mem_nil

theorem Valid.extend (h : es.Valid) (hsource : source.IsReduced) (hadded : added ≠ [])
    (htarget : ∀ c ∈ added, c.IsReduced) : (es.extend source added).Valid where
  sources := by
    rw [sources_extend]
    split
    · exact h.sources
    · next hmem =>
      exact h.sources.append (List.nodup_singleton _) (List.disjoint_singleton.2 hmem)
  source e he := by
    -- an entry is an old one or the one that was extended, here and in the parts below
    rcases mem_extend he with he | ⟨old, rfl, -⟩
    · exact h.source e he
    · exact hsource
  ne_nil e he := by
    rcases mem_extend he with he | ⟨old, rfl, -⟩
    · exact h.ne_nil e he
    · -- some target is added, whether or not there were any
      obtain ⟨c, hc⟩ := List.exists_mem_of_ne_nil _ hadded
      exact List.ne_nil_of_mem (List.mem_union_left hc old)
  nodup e he := by
    rcases mem_extend he with he | ⟨old, rfl, rfl | hold⟩
    · exact h.nodup e he
    · exact List.Nodup.union _ List.nodup_nil
    · exact List.Nodup.union _ (h.nodup _ hold)
  target e he c hc := by
    rcases mem_extend he with he | ⟨old, rfl, hold⟩
    · exact h.target e he c hc
    · rcases List.mem_union_iff.1 hc with hc | hc
      · exact htarget c hc
      · rcases hold with rfl | hold
        · exact absurd hc List.not_mem_nil
        · exact h.target _ hold c hc

theorem Valid.extendAll (h : es.Valid) (hothers : others.Valid) : (es.extendAll others).Valid := by
  -- one entry after the other, each of which is as valid entries are
  refine List.foldlRecOn others _ h fun es hes e he => ?_
  exact hes.extend (hothers.source e he) (hothers.ne_nil e he) (hothers.target e he)

/-- What is looked up is the one entry of the source. -/
theorem Valid.mem_targets_iff (h : es.Valid) {target : Coordinate} :
    target ∈ es.targets source ↔ (source, target) ∈ es.pairs := by
  rw [targets, mem_pairs]
  cases hfind : es.find? fun e => e.1 == source with
  | none =>
    have hnone : ∀ e ∈ es, e.1 ≠ source := by simpa using hfind
    simp only [Option.map_none, Option.getD_none, List.not_mem_nil, false_iff]
    rintro ⟨e, he, hsource, -⟩
    exact hnone e he hsource
  | some e =>
    -- this is the first entry of the source, and no other one has the same source
    have hsource : e.1 = source := by simpa using List.find?_some hfind
    have he : e ∈ es := List.mem_of_find?_eq_some hfind
    refine ⟨fun htarget => ⟨e, he, hsource, htarget⟩, ?_⟩
    rintro ⟨e', he', hsource', htarget⟩
    rwa [List.inj_on_of_nodup_map h.sources he he' (hsource.trans hsource'.symm)]

theorem Valid.targets_ne_nil_iff (h : es.Valid) :
    es.targets source ≠ [] ↔ ∃ e ∈ es, e.1 = source := by
  constructor
  · intro hne
    obtain ⟨target, htarget⟩ := List.exists_mem_of_ne_nil _ hne
    obtain ⟨e, he, hsource, -⟩ := mem_pairs.1 (h.mem_targets_iff.1 htarget)
    exact ⟨e, he, hsource⟩
  · rintro ⟨e, he, rfl⟩
    obtain ⟨target, htarget⟩ := List.exists_mem_of_ne_nil _ (h.ne_nil e he)
    exact List.ne_nil_of_mem (h.mem_targets_iff.2 (mem_pairs.2 ⟨e, he, rfl, htarget⟩))

end

end Entries

end Depmap

end Depot
