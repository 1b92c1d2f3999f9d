import Depot.Proofs.Repository.Probes
/-!
# What becomes of a request on its way to a leaf

A depmap node asks its delegate for other coordinates than it was asked for itself, and there may be
more depmap nodes below it. So a request comes to a leaf rewritten any number of times, by targets
of the maps on the way. `Repository.Arrives` is that way, step by step, with the targets that it
met; every probe of a tree has come one of these ways (`arrives_of_mem_probes`).

One step is `Identity.candidateFor`. It takes group and artifact from the target and gives extension
and version back to the request; only the classifier may come from either, and from the target only
if it has one. `Coordinate.RewrittenBy` says what is left of a request after any number of steps,
and it is kept by each of them (`RewrittenBy.candidateFor`), so it holds where the request arrives
(`Arrives.rewrittenBy`).

A leaf reports the version of what it was asked for, or the reserved one where that is all it has
(`Leaf.keepsRequest_of_find`), and the nodes above it touch neither version nor coordinate. So
nothing in an answer was invented: `Artifact.KeepsRequest`, for every answer of every tree
(`keepsRequest_of_resolve`).
-/

namespace Depot

/-! ### Rewriting -/

/-- What is left of a request `c` that was rewritten to `d` by some targets. -/
structure Coordinate.RewrittenBy (c : Coordinate) (targets : List Identity) (d : Coordinate) :
    Prop where
  extension : d.extension = c.extension
  version : d.version = c.version
  classifier : d.classifier = c.classifier ∨
    ∃ i ∈ targets, i.classifier.text ≠ "" ∧ d.classifier = i.classifier

theorem Coordinate.RewrittenBy.refl (c : Coordinate) : c.RewrittenBy [] c :=
  ⟨rfl, rfl, .inl rfl⟩

/-- One more step at the start: what a target makes of a request is rewritten further. -/
theorem Coordinate.RewrittenBy.candidateFor {c d : Coordinate} {i : Identity}
    {targets : List Identity} (h : (i.candidateFor c).RewrittenBy targets d) :
    c.RewrittenBy (i :: targets) d := by
  refine ⟨h.extension, h.version, ?_⟩
  rcases h.classifier with hkept | ⟨j, hj, hne, htaken⟩
  · -- the later targets have left the classifier as the first one made it
    unfold Identity.candidateFor at hkept
    by_cases hempty : i.classifier.text = ""
    · rw [if_pos hempty] at hkept
      exact .inl hkept
    · rw [if_neg hempty] at hkept
      exact .inr ⟨i, List.mem_cons_self, hempty, hkept⟩
  · exact .inr ⟨j, List.mem_cons_of_mem i hj, hne, htaken⟩

theorem Depmap.mem_candidates {m? : Option Depmap} {c d : Coordinate} :
    d ∈ Depmap.candidates m? c ↔ d = c ∨ ∃ m, m? = some m ∧ ∃ i ∈ m.lookup c,
      d = i.candidateFor c := by
  unfold Depmap.candidates
  cases m? with
  | none => simp
  | some m =>
    simp only [Option.some.injEq, exists_eq_left']
    -- the coordinate itself is among the candidates in either case, and only once
    have hmapped : d ∈ ((m.lookup c).toList.map fun i => i.candidateFor c) ↔
        ∃ i ∈ m.lookup c, d = i.candidateFor c := by
      rw [List.mem_map]
      exact exists_congr fun i => and_congr_right fun _ => eq_comm
    split
    · next hself =>
      rw [← hmapped]
      refine ⟨.inr, ?_⟩
      rintro (rfl | h)
      · exact List.contains_iff_mem.1 hself
      · exact h
    · rw [List.mem_append, List.mem_singleton, hmapped]
      exact or_comm

namespace Repository

variable {ε : Type}

/-- **The way of a request.** Asked for `c`, a tree comes to ask a leaf for `d`, after it was
rewritten by some targets of the maps on the way. -/
inductive Arrives (access : Access (Except ε)) :
    List Nat → Repository → Coordinate → List Identity → Leaf → Coordinate → Prop
  | metadata {position : List Nat} {frame : Frame} {paths : List Path} {c : Coordinate}
      (hadmits : frame.admits c = true) :
      Arrives access position (.metadata frame paths) c [] (.metadata position paths) c
  | jpp {position : List Nat} {frame : Frame} {root : Path} {c : Coordinate}
      (hadmits : frame.admits c = true) :
      Arrives access position (.jpp frame root) c [] (.jpp root) c
  /-- A depmap node asks for the coordinate itself. -/
  | unmapped {position : List Nat} {frame : Frame} {source : MapSource} {delegate : Repository}
      {c d : Coordinate} {targets : List Identity} {leaf : Leaf} (hadmits : frame.admits c = true)
      (h : Arrives access (0 :: position) delegate c targets leaf d) :
      Arrives access position (.depmap frame source delegate) c targets leaf d
  /-- A depmap node asks for a target of its map. -/
  | mapped {position : List Nat} {frame : Frame} {source : MapSource} {delegate : Repository}
      {c d : Coordinate} {m : Depmap} {i : Identity} {targets : List Identity} {leaf : Leaf}
      (hadmits : frame.admits c = true) (hmap : access.map source = .ok (some m))
      (hi : i ∈ m.lookup c)
      (h : Arrives access (0 :: position) delegate (i.candidateFor c) targets leaf d) :
      Arrives access position (.depmap frame source delegate) c (i :: targets) leaf d
  /-- A compound node asks one of its children. -/
  | child {position : List Nat} {frame : Frame} {anchor : Option Path} {children : List Repository}
      {number : Nat} {child : Repository} {c d : Coordinate} {targets : List Identity} {leaf : Leaf}
      (hadmits : frame.admits c = true) (hchild : children[number]? = some child)
      (h : Arrives access (number :: position) child c targets leaf d) :
      Arrives access position (.compound frame anchor children) c targets leaf d

variable {access : Access (Except ε)}

/-- However a request arrives, it keeps its extension and version, and its classifier unless it has
one of a target. -/
theorem Arrives.rewrittenBy {position : List Nat} {r : Repository} {c d : Coordinate}
    {targets : List Identity} {leaf : Leaf} (h : Arrives access position r c targets leaf d) :
    c.RewrittenBy targets d := by
  induction h with
  | metadata => exact .refl _
  | jpp => exact .refl _
  | unmapped _ _ ih => exact ih
  | mapped _ _ _ _ ih => exact ih.candidateFor
  | child _ _ _ ih => exact ih

/-- Every probe of a tree has come the way of a request. -/
theorem arrives_of_mem_probes (r : Repository) : ∀ {position : List Nat} {c : Coordinate}
    {p : Probe}, .ok p ∈ r.probes access position c →
    ∃ targets, Arrives access position r c targets p.leaf p.coordinate := by
  -- a target is added where a mapped candidate is passed on, and nowhere else
  induction r using induction_on_trees with
  | hmetadata frame paths =>
    intro position c p h
    cases makes_of_mem_probes h with
    | metadata hadmits => exact ⟨[], .metadata hadmits⟩
  | hjpp frame root =>
    intro position c p h
    cases makes_of_mem_probes h with
    | jpp hadmits => exact ⟨[], .jpp hadmits⟩
  | hdepmap frame source delegate ih =>
    intro position c p h
    cases makes_of_mem_probes h with
    | depmap hadmits hmap hcandidate hinner =>
      obtain ⟨targets, harrives⟩ := ih hinner
      rcases Depmap.mem_candidates.1 hcandidate with rfl | ⟨m, rfl, i, hi, rfl⟩
      · exact ⟨targets, .unmapped hadmits harrives⟩
      · exact ⟨i :: targets, .mapped hadmits hmap hi harrives⟩
  | hcompound frame anchor children ih =>
    intro position c p h
    cases makes_of_mem_probes h with
    | compound hadmits hchild hinner =>
      obtain ⟨targets, harrives⟩ := ih _ (List.mem_of_getElem? hchild) hinner
      exact ⟨targets, .child hadmits hchild harrives⟩

end Repository

/-! ### What leaves report -/

/-- What an answer keeps of a request that was rewritten by some targets: its version is that of the
request or the reserved one, and so is the version in its coordinate; its extension is that of the
request, and so is its classifier, unless that is one of a target. -/
structure Artifact.KeepsRequest (a : Artifact) (c : Coordinate) (targets : List Identity) :
    Prop where
  version : some a.version = c.version ∨ a.version = systemVersion
  version_of_none : c.version = none ∨ c.version = some "" → a.version = systemVersion
  coordinate_version :
    a.coordinate.version = c.version ∨ a.coordinate.version = some systemVersion
  extension : a.coordinate.extension = c.extension
  classifier : a.coordinate.classifier = c.classifier ∨
    ∃ i ∈ targets, i.classifier.text ≠ "" ∧ a.coordinate.classifier = i.classifier

variable {a : Artifact} {c d : Coordinate} {targets : List Identity}

/-- What is kept of a rewritten request is kept of the request. -/
theorem Artifact.KeepsRequest.of_rewrittenBy (h : a.KeepsRequest d [])
    (hrewritten : c.RewrittenBy targets d) : a.KeepsRequest c targets where
  version := hrewritten.version ▸ h.version
  version_of_none hnone := h.version_of_none (hrewritten.version ▸ hnone)
  coordinate_version := hrewritten.version ▸ h.coordinate_version
  extension := h.extension.trans hrewritten.extension
  classifier := by
    rcases h.classifier with hkept | ⟨i, hi, -⟩
    · rw [hkept]
      exact hrewritten.classifier
    · cases hi

/-- Nodes pass answers on without touching what is kept of the request. -/
theorem Artifact.KeepsRequest.of_passedOnAs {found : Artifact} (h : found.KeepsRequest c targets)
    (hpassed : found.PassedOnAs a) : a.KeepsRequest c targets where
  version := hpassed.version ▸ h.version
  version_of_none hnone := hpassed.version ▸ h.version_of_none hnone
  coordinate_version := hpassed.coordinate ▸ h.coordinate_version
  extension := hpassed.coordinate ▸ h.extension
  classifier := hpassed.coordinate ▸ h.classifier

/-- A source reports a coordinate as it was asked for. -/
theorem Metadata.exists_of_first_eq_some {sources : List Metadata}
    (h : Metadata.first sources c = some a) :
    a.coordinate = c ∧ a.version = versionOfText (c.version.getD "") := by
  obtain ⟨m, -, hlookup⟩ := List.exists_of_findSome?_eq_some h
  obtain ⟨location, -, rfl⟩ := Option.map_eq_some_iff.1 hlookup
  exact ⟨rfl, rfl⟩

/-- Sources keep all of a request but its version, for which they may have the reserved one. -/
theorem Metadata.keepsRequest_of_resolve {sources : List Metadata}
    (h : Metadata.resolve sources c = some a) : a.KeepsRequest c [] := by
  unfold Metadata.resolve at h
  split at h
  · next found hfirst =>
    cases h
    obtain ⟨rfl, hversion⟩ := exists_of_first_eq_some hfirst
    refine ⟨?_, ?_, .inl rfl, rfl, .inl rfl⟩
    · -- only an empty version is not reported as it is
      rw [hversion]
      cases a.coordinate.version with
      | none => exact .inr rfl
      | some v =>
        by_cases hv : v = ""
        · exact .inr (if_pos hv)
        · exact .inl (congrArg some (if_neg hv))
    · intro hnone
      rw [hversion]
      rcases hnone with h | h <;> rw [h] <;> rfl
  · split at h
    · cases h
    · obtain ⟨hcoordinate, hversion⟩ := exists_of_first_eq_some h
      refine ⟨.inr hversion, fun _ => hversion, .inr ?_, ?_, .inl ?_⟩ <;> rw [hcoordinate] <;> rfl

/-- A file of the flat layout stands for the version of the request, or for the reserved one. -/
theorem Layout.version_of_mem_files {file : Path × String} (h : file ∈ Layout.files c) :
    (c.version = some file.2 ∧ file.2 ≠ "") ∨ file.2 = systemVersion := by
  unfold Layout.files at h
  split at h
  · next v hv =>
    split at h
    · cases List.mem_singleton.1 h
      exact .inr rfl
    · next hne =>
      rcases List.mem_cons.1 h with rfl | h
      · exact .inl ⟨hv, fun hempty => hne (.inl hempty)⟩
      · cases List.mem_singleton.1 h
        exact .inr rfl
  · cases List.mem_singleton.1 h
    exact .inr rfl

/-- A leaf over installed files answers with a file that is there. -/
theorem Leaf.exists_of_find_jpp {ε : Type} {access : Access (Except ε)} {root : Path}
    (h : (Leaf.jpp root).find access c = .ok (some a)) : ∃ file ∈ Layout.files c,
      access.isFile (root.join file.1) = .ok true ∧
      a = ⟨c, (root.join file.1).toText, file.2, root.toText, ""⟩ := by
  -- the file that answers is one of the layout
  obtain ⟨before, file, after, hfiles, -, hask⟩ := (Repository.firstAnswer_eq_iff (by simp)).1 h
  have hmem : file ∈ Layout.files c := by
    rw [hfiles]
    exact List.mem_append_right before List.mem_cons_self
  refine ⟨file, hmem, ?_⟩
  unfold Repository.askFile at hask
  dsimp only at hask
  cases htest : access.isFile (root.join file.1) with
  | error e =>
    rw [htest] at hask
    cases hask
  | ok found =>
    rw [htest] at hask
    cases found with
    | false => cases hask
    | true =>
      cases hask
      exact ⟨rfl, rfl⟩

/-- What a leaf reports keeps the request with which it was asked. -/
theorem Leaf.keepsRequest_of_find {ε : Type} {access : Access (Except ε)} {leaf : Leaf}
    (h : leaf.find access c = .ok (some a)) : a.KeepsRequest c [] := by
  cases leaf with
  | metadata position paths =>
    change (access.metadata position paths >>= fun sources =>
      pure (Metadata.resolve sources c)) = _ at h
    cases hsources : access.metadata position paths with
    | error e =>
      rw [hsources] at h
      cases h
    | ok sources =>
      rw [hsources] at h
      exact Metadata.keepsRequest_of_resolve (Except.ok.inj h)
  | jpp root =>
    obtain ⟨file, hfile, -, rfl⟩ := exists_of_find_jpp h
    rcases Layout.version_of_mem_files hfile with ⟨hversion, hne⟩ | hsystem
    · refine ⟨.inl hversion.symm, ?_, .inl rfl, rfl, .inl rfl⟩
      -- a request without a version, or with an empty one, has no file of its own
      rintro (h | h)
      · cases hversion.symm.trans h
      · exact absurd (Option.some.inj (hversion.symm.trans h)) hne
    · exact ⟨.inr hsystem, fun _ => hsystem, .inl rfl, rfl, .inl rfl⟩

/-- **Nothing is invented.** A tree of any shape answers a request with what it keeps of it, over
the targets on one way of the request to a leaf. -/
theorem Repository.keepsRequest_of_resolve {ε : Type} {access : Access (Except ε)}
    {position : List Nat} {r : Repository} (h : r.resolve access position c = .ok (some a)) :
    ∃ targets leaf d, Arrives access position r c targets leaf d ∧ a.KeepsRequest c targets := by
  obtain ⟨before, p, after, found, hlist, -, hfound, rfl⟩ := resolve_eq_some_iff.1 h
  have hprobe : .ok p ∈ r.probes access position c := by
    rw [hlist]
    exact List.mem_append_right before List.mem_cons_self
  obtain ⟨targets, harrives⟩ := arrives_of_mem_probes r hprobe
  -- from the leaf outwards: what it reports, what the request was, what becomes of the report
  have hleaf : found.KeepsRequest p.coordinate [] := Leaf.keepsRequest_of_find hfound
  have hrequest : found.KeepsRequest c targets := hleaf.of_rewrittenBy harrives.rewrittenBy
  exact ⟨targets, p.leaf, p.coordinate, harrives, hrequest.of_passedOnAs (p.passedOnAs found)⟩

end Depot
