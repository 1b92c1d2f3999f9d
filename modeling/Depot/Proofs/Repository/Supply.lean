import Depot.Proofs.Outcome
import Depot.Proofs.Repository.Arrival
import Depot.Proofs.Repository.Simulation
/-!
# Trees that have what they ask for

A tree asks for maps, for metadata and for files. Where it has all its maps and metadata
(`Repository.Supplied`), every entry in its list of probes is a probe, and every leaf over metadata
answers it. What may still fail is the test for a file, in a leaf over installed files; and the tree
fails exactly if its search comes to a file for which the test does (`resolve_eq_error_iff`).
-/

namespace Depot

variable {ε : Type} {access : Access (Except ε)} {c : Coordinate}

namespace Repository

variable {root : Path}

/-- A file is asked for in vain exactly if it is tested not to be there. -/
theorem askFile_eq_none_iff {file : Path × String} :
    askFile access root c file = .ok none ↔
      access.isFile (root.join file.1) = .ok false := by
  unfold askFile
  dsimp only
  cases access.isFile (root.join file.1) with
  | error e => exact iff_of_false (fun h => nomatch h) (fun h => nomatch h)
  | ok found =>
    cases found with
    | true => exact iff_of_false (fun h => nomatch h) (fun h => nomatch h)
    | false => exact iff_of_true rfl rfl

/-- Asking for a file fails exactly if the test for it does. -/
theorem askFile_eq_error_iff {file : Path × String} {e : ε} :
    askFile access root c file = .error e ↔
      access.isFile (root.join file.1) = .error e := by
  refine bind_eq_error_iff fun found => ?_
  cases found with
  | true => exact fun h => nomatch h
  | false => exact fun h => nomatch h

/-- A leaf over installed files fails exactly if it comes to a file for which the test does. -/
theorem find_jpp_eq_error_iff {e : ε} : (Leaf.jpp root).find access c = .error e ↔
    ∃ before file after, Layout.files c = before ++ file :: after ∧
      (∀ earlier ∈ before, access.isFile (root.join earlier.1) = .ok false) ∧
      access.isFile (root.join file.1) = .error e := by
  show firstAnswer (askFile access root c) (Layout.files c) = _ ↔ _
  rw [firstAnswer_eq_iff (by simp)]
  simp only [askFile_eq_none_iff, askFile_eq_error_iff]

/-- The tree has the maps and the metadata for which it asks. -/
structure Supplied (access : Access (Except ε)) (position : List Nat) (r : Repository) : Prop where
  maps : ∀ source ∈ r.sources, ∃ map, access.map source = .ok map
  metadata : ∀ leaf ∈ r.leaves position, ∃ found, access.metadata leaf.1 leaf.2 = .ok found

mutual

/-- Where a tree has its maps, it has a list of probes, each of a leaf of the tree. -/
theorem exists_of_mem_probes : ∀ (r : Repository) {position : List Nat} {c : Coordinate}
    {entry : Except ε Probe}, (∀ source ∈ r.sources, ∃ map, access.map source = .ok map) →
    entry ∈ r.probes access position c → ∃ p, entry = .ok p ∧
      ∀ other paths, p.leaf = .metadata other paths → (other, paths) ∈ r.leaves position
  | .metadata frame paths, position, c, entry, hmaps, h => by
    rw [probes] at h
    split at h
    · cases List.mem_singleton.1 h
      refine ⟨_, rfl, fun other paths hleaf => ?_⟩
      cases hleaf
      rw [leaves]
      exact List.mem_singleton_self _
    · cases h
  | .jpp frame root, position, c, entry, hmaps, h => by
    rw [probes] at h
    split at h
    · cases List.mem_singleton.1 h
      exact ⟨_, rfl, fun other paths hleaf => nomatch hleaf⟩
    · cases h
  | .depmap frame source delegate, position, c, entry, hmaps, h => by
    rw [sources] at hmaps
    rw [probes] at h
    split at h
    · -- the source has a map, so no failure stands in place of the probes
      obtain ⟨map, hmap⟩ := hmaps source List.mem_cons_self
      rw [hmap] at h
      obtain ⟨inner, hinner, rfl⟩ := List.mem_map.1 h
      obtain ⟨candidate, -, hprobe⟩ := List.mem_flatMap.1 hinner
      obtain ⟨p, rfl, hleaf⟩ := exists_of_mem_probes delegate
        (fun other hother => hmaps other (List.mem_cons_of_mem source hother)) hprobe
      rw [leaves]
      exact ⟨_, rfl, hleaf⟩
    · cases h
  | .compound frame anchor children, position, c, entry, hmaps, h => by
    rw [sources] at hmaps
    rw [probes] at h
    split at h
    · obtain ⟨inner, hinner, rfl⟩ := List.mem_map.1 h
      obtain ⟨p, rfl, hleaf⟩ := exists_of_mem_probesOfAll children hmaps hinner
      rw [leaves]
      exact ⟨_, rfl, hleaf⟩
    · cases h

/-- The same for children. -/
theorem exists_of_mem_probesOfAll : ∀ (children : List Repository) {position : List Nat}
    {number : Nat} {c : Coordinate} {entry : Except ε Probe},
    (∀ source ∈ sourcesOfAll children, ∃ map, access.map source = .ok map) →
    entry ∈ probesOfAll access position number children c → ∃ p, entry = .ok p ∧
      ∀ other paths, p.leaf = .metadata other paths →
        (other, paths) ∈ leavesFrom position number children
  | [], position, number, c, entry, hmaps, h => by
    rw [probesOfAll] at h
    cases h
  -- the probes of the first child stand in front of those of the others
  | child :: children, position, number, c, entry, hmaps, h => by
    rw [sourcesOfAll] at hmaps
    rw [probesOfAll, List.mem_append] at h
    rw [leavesFrom]
    rcases h with h | h
    · obtain ⟨p, rfl, hleaf⟩ := exists_of_mem_probes child
        (fun source hsource => hmaps source (List.mem_append_left _ hsource)) h
      exact ⟨p, rfl, fun other paths hp => List.mem_append_left _ (hleaf other paths hp)⟩
    · obtain ⟨p, rfl, hleaf⟩ := exists_of_mem_probesOfAll children
        (fun source hsource => hmaps source (List.mem_append_right _ hsource)) h
      exact ⟨p, rfl, fun other paths hp => List.mem_append_right _ (hleaf other paths hp)⟩

end

end Repository

/-- The probe comes to a file for which the test fails, and finds none before it. -/
def Probe.ComesTo (access : Access (Except ε)) (p : Probe) (e : ε) : Prop :=
  ∃ root before file after, p.leaf = .jpp root ∧
    Layout.files p.coordinate = before ++ file :: after ∧
    (∀ earlier ∈ before, access.isFile (root.join earlier.1) = .ok false) ∧
    access.isFile (root.join file.1) = .error e

/-- What comes of a probe that fails. -/
theorem Probe.ask_ok_eq_error_iff {p : Probe} {e : ε} :
    Probe.ask access (.ok p) = .error e ↔ p.find access = .error e := by
  show (p.find access >>= fun found => pure (found.map p.finish)) = _ ↔ _
  refine bind_eq_error_iff ?_
  exact fun found h => nomatch h

namespace Repository

variable {position : List Nat} {r : Repository}

/-- A probe of a tree that has its metadata fails exactly for a file. -/
theorem Supplied.find_eq_error_iff (h : r.Supplied access position) {p : Probe}
    (hp : .ok p ∈ r.probes access position c) {e : ε} :
    p.find access = .error e ↔ p.ComesTo access e := by
  obtain ⟨leaf, d, way⟩ := p
  cases leaf with
  | metadata other paths =>
    -- what is recorded for this leaf is supplied, so looking there does not fail
    obtain ⟨_, ⟨⟩, hleaf⟩ := exists_of_mem_probes r h.maps hp
    obtain ⟨found, hfound⟩ := h.metadata _ (hleaf other paths rfl)
    refine iff_of_false ?_ (fun ⟨_, _, _, _, hjpp, _⟩ => nomatch hjpp)
    show (access.metadata other paths >>= fun sources => pure (Metadata.resolve sources d)) ≠ _
    rw [hfound]
    exact fun h => nomatch h
  | jpp root =>
    -- of a leaf with files, a test of one of them can fail
    show (Leaf.jpp root).find access d = _ ↔ _
    rw [find_jpp_eq_error_iff]
    constructor
    · rintro ⟨before, file, after, hfiles, hbefore, hfile⟩
      exact ⟨root, before, file, after, rfl, hfiles, hbefore, hfile⟩
    · rintro ⟨_, before, file, after, ⟨⟩, hfiles, hbefore, hfile⟩
      exact ⟨before, file, after, hfiles, hbefore, hfile⟩

/-- **How a tree fails** that has its maps and metadata: its search comes to a file for which the
test fails, and has found nothing before. -/
theorem Supplied.resolve_eq_error_iff (h : r.Supplied access position) {e : ε} :
    r.resolve access position c = .error e ↔ ∃ before p after,
      r.probes access position c = before ++ .ok p :: after ∧
      (∀ entry ∈ before, Probe.FindsNothing access entry) ∧ p.ComesTo access e := by
  rw [resolve_eq_firstAnswer, firstAnswer_eq_iff (by simp)]
  constructor
  · rintro ⟨before, entry, after, hlist, hbefore, hentry⟩
    -- no map fails, so what is asked is a probe
    have hmem : entry ∈ r.probes access position c := by
      rw [hlist]
      exact List.mem_append_right before List.mem_cons_self
    obtain ⟨p, rfl, -⟩ := exists_of_mem_probes r h.maps hmem
    exact ⟨before, p, after, hlist, fun b hb => Probe.ask_eq_none_iff.1 (hbefore b hb),
      (h.find_eq_error_iff hmem).1 (Probe.ask_ok_eq_error_iff.1 hentry)⟩
  · rintro ⟨before, p, after, hlist, hbefore, hcomes⟩
    have hmem : .ok p ∈ r.probes access position c := by
      rw [hlist]
      exact List.mem_append_right before List.mem_cons_self
    exact ⟨before, .ok p, after, hlist, fun b hb => Probe.ask_eq_none_iff.2 (hbefore b hb),
      Probe.ask_ok_eq_error_iff.2 ((h.find_eq_error_iff hmem).2 hcomes)⟩

/-- A tree answers that there is no artifact exactly if no probe finds one. -/
theorem resolve_eq_none_iff : r.resolve access position c = .ok none ↔
    ∀ entry ∈ r.probes access position c, Probe.FindsNothing access entry := by
  rw [resolve_eq_firstAnswer, firstAnswer_eq_none_iff]
  simp only [Probe.ask_eq_none_iff]

end Repository

end Depot
