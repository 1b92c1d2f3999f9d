import Depot.Proofs.Metadata.Index
/-!
# Answers from several sources

A request is answered by the version that is asked for, from the first source that has it, and only
if no source has it by the reserved version, from the first source that has that. So two passes over
the sources are two answers of which the first counts (`resolve_eq_or`).

This is the relation `Coordinate.isSatisfiedBy` between coordinates that differ in their versions at
most: the candidates that satisfy a request are the request itself and the request with the reserved
version (`satisfies_iff`). `resolve_eq_some_iff` says where an answer comes from, and
`resolve_append_singleton` what another source at the end may change.
-/

namespace Depot.Metadata

/-- The source has registered the coordinate. -/
def Registers (m : Metadata) (c : Coordinate) : Prop := c ∈ m.registry.coordinates

variable {sources : List Metadata} {m : Metadata} {c : Coordinate}

/-- A source reports what it has registered. -/
theorem lookup_ne_none_iff : m.lookup c ≠ none ↔ Registers m c := by
  rw [Registers, ← Registry.isSome_location?_iff, lookup, ← Option.isSome_iff_ne_none,
    Option.isSome_map]

/-! ### One pass -/

/-- **A pass over the sources** finds what the first source reports that has the coordinate. -/
theorem first_eq_some_iff {found : Artifact} : first sources c = some found ↔
    ∃ m, IsFirst (Registers · c) sources m ∧ m.lookup c = some found := by
  rw [first, List.findSome?_eq_some_iff]
  constructor
  · rintro ⟨before, m, after, rfl, hfound, hbefore⟩
    refine ⟨m, ⟨before, after, rfl, fun other hother h => ?_, ?_⟩, hfound⟩
    · exact lookup_ne_none_iff.2 h (hbefore other hother)
    · exact lookup_ne_none_iff.1 (hfound ▸ Option.some_ne_none found)
  · rintro ⟨m, ⟨before, after, rfl, hbefore, -⟩, hfound⟩
    refine ⟨before, m, after, rfl, hfound, fun other hother => ?_⟩
    exact Classical.byContradiction fun h => hbefore other hother (lookup_ne_none_iff.1 h)

/-- A pass finds nothing exactly if no source has the coordinate. -/
theorem first_eq_none_iff : first sources c = none ↔ ∀ m ∈ sources, ¬ Registers m c := by
  rw [first, List.findSome?_eq_none_iff]
  exact forall₂_congr fun m _ => by rw [← lookup_ne_none_iff, not_not]

/-- Another source at the end is asked if no other source has the coordinate. -/
theorem first_append_singleton (sources : List Metadata) (m : Metadata) (c : Coordinate) :
    first (sources ++ [m]) c = (first sources c).or (m.lookup c) := by
  rw [first, List.findSome?_append, List.findSome?_singleton]
  rfl

/-! ### Two passes -/

/-- The two passes are two answers of which the first counts. -/
theorem resolve_eq_or (sources : List Metadata) (c : Coordinate) : resolve sources c =
    (first sources c).or (first sources (c.withVersion (some systemVersion))) := by
  unfold resolve
  cases hexact : first sources c with
  | some found => rfl
  | none =>
    rw [Option.none_or]
    show (if c.version = some systemVersion then none else _) = _
    split
    · next hsystem => rw [← hsystem, Coordinate.withVersion_self, hexact]
    · rfl

/-- **The model of compatibility.** Of the coordinates that differ from a request in the version at
most, the request itself satisfies it, and the one with the reserved version. -/
theorem satisfies_iff {r : Coordinate} :
    r.withoutVersion = c.withoutVersion ∧ c.isSatisfiedBy r = true ↔
      r = c ∨ r = c.withVersion (some systemVersion) := by
  rw [Coordinate.isSatisfiedBy, Bool.or_eq_true, beq_iff_eq, beq_iff_eq]
  constructor
  · rintro ⟨hsame, hversion⟩
    have hr : r = c.withVersion r.version := by
      rw [← Coordinate.withVersion_self r]
      exact congrArg (·.withVersion r.version) hsame
    rcases hversion with h | h
    · rw [← h] at hr
      exact .inl hr
    · rw [h] at hr
      exact .inr hr
  · rintro (rfl | rfl)
    · exact ⟨rfl, .inl rfl⟩
    · exact ⟨rfl, .inr rfl⟩

/-- **Where an answer comes from**: from the first source that has the coordinate, or else from the
first that has it with the reserved version. -/
theorem resolve_eq_some_iff {found : Artifact} : resolve sources c = some found ↔
    (∃ m, IsFirst (Registers · c) sources m ∧ m.lookup c = some found) ∨
      (∀ m ∈ sources, ¬ Registers m c) ∧
        ∃ m, IsFirst (Registers · (c.withVersion (some systemVersion))) sources m ∧
          m.lookup (c.withVersion (some systemVersion)) = some found := by
  rw [resolve_eq_or, Option.or_eq_some_iff, first_eq_none_iff, first_eq_some_iff, first_eq_some_iff]

/-- There is an answer exactly if a source has the coordinate or has it with the reserved
version. -/
theorem resolve_ne_none_iff : resolve sources c ≠ none ↔
    ∃ m ∈ sources, Registers m c ∨ Registers m (c.withVersion (some systemVersion)) := by
  rw [resolve_eq_or, ne_eq, Option.or_eq_none_iff, first_eq_none_iff, first_eq_none_iff,
    ← forall₂_and]
  simp only [← not_or, not_forall, not_not, exists_prop]

/-- **Another source at the end** answers before the reserved version does, and after it with the
reserved version. -/
theorem resolve_append_singleton (sources : List Metadata) (m : Metadata) (c : Coordinate) :
    resolve (sources ++ [m]) c =
      (((first sources c).or (m.lookup c)).or
        (first sources (c.withVersion (some systemVersion)))).or
          (m.lookup (c.withVersion (some systemVersion))) := by
  simp only [resolve_eq_or, first_append_singleton, Option.or_assoc]

/-- **Answers by the model of compatibility.** There is an answer exactly if a source has a
coordinate that differs from the request in the version at most and satisfies it. It comes from the
first source that has the very coordinate, if there is one, and otherwise from the first that has it
with the reserved version. Another source at the end takes no answer away and changes none to the
very coordinate; it changes one to the reserved version only if it has the very coordinate
itself. -/
theorem resolve_by_compatibility (sources : List Metadata) (c : Coordinate) :
    (resolve sources c ≠ none ↔ ∃ m ∈ sources, ∃ r, Registers m r ∧
      r.withoutVersion = c.withoutVersion ∧ c.isSatisfiedBy r = true) ∧
    (∀ found, resolve sources c = some found ↔
      (∃ m, IsFirst (Registers · c) sources m ∧ m.lookup c = some found) ∨
        (∀ m ∈ sources, ¬ Registers m c) ∧
          ∃ m, IsFirst (Registers · (c.withVersion (some systemVersion))) sources m ∧
            m.lookup (c.withVersion (some systemVersion)) = some found) ∧
    ∀ m : Metadata,
      (resolve sources c ≠ none → resolve (sources ++ [m]) c ≠ none) ∧
      ((∃ other ∈ sources, Registers other c) →
        resolve (sources ++ [m]) c = resolve sources c) ∧
      (resolve sources c ≠ none → ¬ Registers m c →
        resolve (sources ++ [m]) c = resolve sources c) := by
  refine ⟨?_, fun found => resolve_eq_some_iff, fun m => ⟨fun h => ?_, fun h => ?_, fun h hm => ?_⟩⟩
  · -- the candidates are the coordinate itself and the one with the reserved version
    rw [resolve_ne_none_iff]
    refine exists_congr fun m => and_congr_right fun _ => ?_
    simp only [satisfies_iff, and_or_left, exists_or, exists_eq_right]
  · obtain ⟨other, hother, hregisters⟩ := resolve_ne_none_iff.1 h
    exact resolve_ne_none_iff.2 ⟨other, List.mem_append_left _ hother, hregisters⟩
  · -- the very coordinate is found before the new source is asked
    have hsome : (first sources c).isSome = true := by
      rw [Option.isSome_iff_ne_none, ne_eq, first_eq_none_iff]
      obtain ⟨other, hother, hregisters⟩ := h
      exact fun hnone => hnone other hother hregisters
    rw [resolve_append_singleton, resolve_eq_or, Option.or_assoc, Option.or_assoc,
      Option.or_of_isSome hsome, Option.or_of_isSome hsome]
  · have hnone : m.lookup c = none := by
      rw [← not_not (a := m.lookup c = none)]
      exact fun hsome => hm (lookup_ne_none_iff.1 hsome)
    have hsome : (resolve sources c).isSome = true := Option.isSome_iff_ne_none.2 h
    rw [resolve_append_singleton, hnone, Option.or_none, ← resolve_eq_or, Option.or_of_isSome hsome]

example :
    let asked := (default : Coordinate).withVersion (some "1")
    let reserved := asked.withVersion (some systemVersion)
    (resolve [⟨"reserved", [(reserved, default)]⟩, ⟨"exact", [(asked, default)]⟩] asked).map
      (·.source) = some "exact" := by
  decide

end Depot.Metadata
