import Depot.Coordinate.Order
import Depot.Coordinate.Reduced
import Mathlib.Data.List.Basic
import Mathlib.Data.Prod.Lex
/-!
# Sort keys and sorting

Coordinates are sorted by their keys, in which a missing version and an empty one are the same. So
sorting is strict (`Coordinate.pairwise_sorted`) where the keys of different coordinates differ,
and it is so where no coordinate has a version (`Coordinate.eq_of_sortKey_eq`).

An identity and a requirement have fewer parts than a coordinate. Read as coordinates, they are in
the order of their ranks all the same (`Identity.rank_lt_iff`, `Requirement.rank_lt_iff`), because
the parts that they lack do not differ.
-/

namespace Depot

namespace Coordinate

/-- Coordinates without a version are told apart by their keys. -/
theorem eq_of_sortKey_eq {a b : Coordinate} (ha : a.version = none) (hb : b.version = none)
    (h : a.sortKey = b.sortKey) : a = b := by
  simp only [sortKey, List.cons.injEq] at h
  obtain ⟨hgroup, hartifact, hextension, hclassifier, -⟩ := h
  cases a
  cases b
  rw [Coordinate.mk.injEq]
  exact ⟨Part.ext hgroup, Part.ext hartifact, Extension.ext hextension,
    Classifier.ext hclassifier, ha.trans hb.symm⟩

/-- With an empty version, a coordinate has the key that it has without one. -/
example (c : Coordinate) : (c.withVersion (some "")).sortKey = c.withoutVersion.sortKey := rfl

theorem precedes_iff {a b : Coordinate} : a.precedes b = true ↔ ¬ b.sortKey < a.sortKey := by
  rw [precedes, Bool.not_eq_true', ← Bool.not_eq_true, List.lex_eq_true_iff_lt]

theorem precedes_trans (a b c : Coordinate) (hab : a.precedes b = true)
    (hbc : b.precedes c = true) : a.precedes c = true := by
  rw [precedes_iff, Std.not_lt] at *
  exact Std.le_trans hab hbc

theorem precedes_total (a b : Coordinate) : (a.precedes b || b.precedes a) = true := by
  rw [Bool.or_eq_true, precedes_iff, precedes_iff, Std.not_lt, Std.not_lt]
  exact Std.le_total

/-- Does a coordinate come before another one by its key? -/
def KeyLt (a b : Coordinate) : Prop := a.sortKey < b.sortKey

/-- Does a pair come before another one, by the keys of the first parts and, where these agree, of
the second? -/
def PairLt (p q : Coordinate × Coordinate) : Prop :=
  Prod.Lex (· < ·) (· < ·) (p.1.sortKey, p.2.sortKey) (q.1.sortKey, q.2.sortKey)

instance : Std.Asymm KeyLt := ⟨fun _ _ => Std.Asymm.asymm (r := (· < ·)) _ _⟩

instance : Std.Asymm PairLt :=
  ⟨fun _ _ => Std.Asymm.asymm (r := Prod.Lex (· < ·) (· < ·)) _ _⟩

/-- Of what is listed more than once, one is kept. -/
theorem nodup_eraseDups : ∀ cs : List Coordinate, cs.eraseDups.Nodup
  | [] => List.nodup_nil
  | c :: cs => by
    rw [List.eraseDups_cons, List.nodup_cons, List.mem_eraseDups, List.mem_filter]
    refine ⟨fun h => ?_, nodup_eraseDups _⟩
    simp at h
termination_by cs => cs.length
decreasing_by exact Nat.lt_succ_of_le (List.length_filter_le _ _)

variable {cs : List Coordinate} {c : Coordinate}

@[simp] theorem mem_sorted : c ∈ sorted cs ↔ c ∈ cs := by
  rw [sorted, List.mem_mergeSort, List.mem_eraseDups]

theorem nodup_sorted (cs : List Coordinate) : (sorted cs).Nodup :=
  (List.mergeSort_perm _ _).nodup_iff.2 (nodup_eraseDups cs)

/-- What is sorted is strictly in order if different coordinates have different keys. -/
theorem pairwise_sorted (h : ∀ a ∈ cs, ∀ b ∈ cs, a.sortKey = b.sortKey → a = b) :
    (sorted cs).Pairwise KeyLt := by
  have hsorted : (sorted cs).Pairwise fun a b => a.precedes b = true :=
    List.pairwise_mergeSort precedes_trans precedes_total _
  refine (hsorted.and (nodup_sorted cs)).imp_of_mem fun {a b} ha hb hab => ?_
  -- with one key they would be one coordinate, and that is listed once
  refine Std.lt_of_le_of_ne (Std.not_lt.1 (precedes_iff.1 hab.1)) fun hkey => ?_
  exact hab.2 (h a (mem_sorted.1 ha) b (mem_sorted.1 hb) hkey)

end Coordinate

theorem Identity.rank_lt_iff {i j : Identity} :
    rank i < rank j ↔ i.toCoordinate.KeyLt j.toCoordinate := by
  simp [rank, Coordinate.KeyLt, toCoordinate, Coordinate.sortKey, List.cons_lt_cons_iff]

theorem Requirement.rank_lt_iff {r s : Requirement} :
    rank r < rank s ↔ r.toCoordinate.KeyLt s.toCoordinate := by
  simp [rank, Coordinate.KeyLt, toCoordinate, Coordinate.sortKey, List.cons_lt_cons_iff]

/-- The first parts decide, as long as they have the same length. -/
theorem append_lt_append_iff {α : Type} [LT α] {as bs cs ds : List α}
    (h : as.length = bs.length) : as ++ cs < bs ++ ds ↔ as < bs ∨ as = bs ∧ cs < ds := by
  induction as generalizing bs with
  | nil =>
    obtain rfl := List.length_eq_zero_iff.1 h.symm
    simp
  | cons a as ih =>
    obtain ⟨b, bs, rfl⟩ := List.exists_cons_of_length_eq_add_one h.symm
    simp only [List.cons_append, List.cons_lt_cons_iff, ih (Nat.succ.inj h), List.cons.injEq]
    grind

/-- Two identities, read as coordinates. -/
def Identity.pairCoordinates (p : Identity × Identity) : Coordinate × Coordinate :=
  (p.1.toCoordinate, p.2.toCoordinate)

theorem Identity.rank_pair_lt_iff {p q : Identity × Identity} :
    rank p < rank q ↔ Coordinate.PairLt (pairCoordinates p) (pairCoordinates q) := by
  have hlength : (rank p.1).length = (rank q.1).length := by
    rw [Ranked.length_rank, Ranked.length_rank]
  have hkey : rank p.1 = rank q.1 ↔ p.1.toCoordinate.sortKey = q.1.toCoordinate.sortKey :=
    ⟨fun h => by rw [Ranked.rank_injective h],
      fun h => congrArg (rank ·.identity) (Coordinate.eq_of_sortKey_eq rfl rfl h)⟩
  rw [Coordinate.PairLt, Prod.lex_def]
  exact (append_lt_append_iff hlength).trans (or_congr rank_lt_iff (and_congr hkey rank_lt_iff))

end Depot
