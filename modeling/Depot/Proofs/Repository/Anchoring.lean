import Depot.Proofs.Path.Written
import Depot.Proofs.Repository.Arrival
/-!
# What becomes of the path of an installed file

A leaf over installed files tests a path under its root, and reports it. On the way out of the tree
each compound node joins its anchor with a path that is relative, although the root of the leaf may
have been taken from the same place as the anchor already. So the path in the answer is the path
that was tested, joined with all anchors on the way up to the first that is absolute
(`Probe.ofText_finish_path`), and that is another path unless the path is absolute or there is
nothing in the anchors (`Passage.anchorAlong_eq_self_iff`).

In a tree that is built, the roots of the leaves and the anchors are all taken from one base
(`Repository.BuiltUnder`), and so are those that a probe meets (`BuiltUnder.probe`).
-/

namespace Depot

namespace Path

/-- A path that is seen from an absolute one is absolute. -/
theorem isAbsolute_join {p q : Path} (h : p.isAbsolute = true) : (p.join q).isAbsolute = true := by
  cases hq : q.isAbsolute with
  | true => rwa [join_of_isAbsolute hq]
  | false =>
    unfold isAbsolute
    rwa [start_join_of_relative hq]

/-- The empty text leads nowhere else. -/
theorem follow_empty (p : Path) : p.follow "" = p := by
  show Path.mk p.start (p.names ++ []) = p
  rw [List.append_nil]

/-- Joined with a relative path, only the empty relative path is not seen. -/
theorem join_eq_right_iff {p q : Path} (hq : q.isAbsolute = false) :
    p.join q = q ↔ p = ⟨.relative, []⟩ := by
  have hstart : q.start = .relative := by simpa [isAbsolute] using hq
  obtain ⟨start, names⟩ := p
  obtain ⟨_, more⟩ := q
  obtain rfl : _ = Start.relative := hstart
  show (⟨start, names ++ more⟩ : Path) = ⟨.relative, more⟩ ↔ _
  rw [mk.injEq, mk.injEq, List.append_left_eq_self]

end Path

/-! ### Anchors on the way -/

/-- The path as a node passes it on. -/
def Passage.anchorPath (n : Passage) (q : Path) : Path :=
  match n.anchor with
  | some anchor => anchor.join q
  | none => q

/-- The path as it comes out of a tree, along the nodes on its way. -/
def Passage.anchorAlong (way : List Passage) (q : Path) : Path :=
  way.foldl (fun q n => n.anchorPath q) q

theorem Frame.mark_path (f : Frame) (a : Artifact) : (f.mark a).path = a.path := by
  unfold mark
  split <;> rfl

namespace Passage

variable {n : Passage}

/-- What a node makes of an answer, read as a path, is what it makes of the path. -/
theorem ofText_pass_path (h : ∀ anchor ∈ n.anchor, anchor.IsClean) (a : Artifact) :
    Path.ofText (n.pass a).path = n.anchorPath (Path.ofText a.path) := by
  unfold pass anchorPath anchored
  rw [Frame.mark_path]
  cases hanchor : n.anchor with
  | none => rfl
  | some anchor =>
    simp only
    split
    · next habsolute => exact (Path.join_of_isAbsolute habsolute).symm
    · exact Path.ofText_toText ((h anchor hanchor).follow a.path)

/-- An absolute path stays as it is. -/
theorem anchorPath_of_isAbsolute {q : Path} (h : q.isAbsolute = true) : n.anchorPath q = q := by
  unfold anchorPath
  split
  · exact Path.join_of_isAbsolute h
  · rfl

/-- No name is lost. -/
theorem suffix_anchorPath (q : Path) : q.names <:+ (n.anchorPath q).names := by
  unfold anchorPath
  split
  · next anchor _ =>
    unfold Path.join
    split
    · exact List.suffix_refl _
    · exact List.suffix_append _ _
  · exact List.suffix_refl _

/-- A node passes on a relative path as it is exactly if there is nothing in its anchor. -/
theorem anchorPath_eq_self_iff {q : Path} (hq : q.isAbsolute = false) :
    n.anchorPath q = q ↔ ∀ anchor ∈ n.anchor, anchor = ⟨.relative, []⟩ := by
  unfold anchorPath
  cases n.anchor with
  | none => exact iff_of_true rfl fun _ h => nomatch h
  | some anchor =>
    simp only [Option.mem_some_iff, forall_eq']
    exact Path.join_eq_right_iff hq

variable {way : List Passage}

/-- An absolute path comes out as it is. -/
theorem anchorAlong_of_isAbsolute {q : Path} (h : q.isAbsolute = true) : anchorAlong way q = q := by
  unfold anchorAlong
  induction way with
  | nil => rfl
  | cons n way ih => rw [List.foldl_cons, anchorPath_of_isAbsolute h, ih]

/-- No name is lost on the way. -/
theorem suffix_anchorAlong (q : Path) : q.names <:+ (anchorAlong way q).names := by
  unfold anchorAlong
  induction way generalizing q with
  | nil => exact List.suffix_refl _
  | cons n way ih => exact (n.suffix_anchorPath q).trans (ih (n.anchorPath q))

/-- A path that is changed by a node is not changed back. -/
theorem anchorPath_eq_self_of_anchorAlong {q : Path} (hq : q.isAbsolute = false)
    (h : anchorAlong way (n.anchorPath q) = q) : n.anchorPath q = q := by
  cases hnext : (n.anchorPath q).isAbsolute with
  | true => rwa [anchorAlong_of_isAbsolute hnext] at h
  | false =>
    -- names are only added, and as none is there at last, none was added by the node
    have hnames : q.names = (n.anchorPath q).names := by
      refine (n.suffix_anchorPath q).eq_of_length_le ?_
      have hrest : (n.anchorPath q).names <:+ (anchorAlong way (n.anchorPath q)).names :=
        suffix_anchorAlong _
      rw [h] at hrest
      exact hrest.length_le
    have hstart : (n.anchorPath q).start = q.start := by
      have hrelative : ∀ {r : Path}, r.isAbsolute = false → r.start = .relative := by
        intro r hr
        simpa [Path.isAbsolute] using hr
      rw [hrelative hnext, hrelative hq]
    rw [Path.mk.injEq]
    exact ⟨hstart, hnames.symm⟩

/-- **When it is the path that was tested.** A path comes out as it is exactly if it is absolute or
there is nothing in any anchor on the way. -/
theorem anchorAlong_eq_self_iff {q : Path} : anchorAlong way q = q ↔ q.isAbsolute = true ∨
    ∀ n ∈ way, ∀ anchor ∈ n.anchor, anchor = ⟨.relative, []⟩ := by
  cases hq : q.isAbsolute with
  | true => exact iff_of_true (anchorAlong_of_isAbsolute hq) (.inl rfl)
  | false =>
    rw [or_iff_right Bool.false_ne_true]
    -- no anchor shortens a path, so each passage of the way has to leave it alone
    induction way with
    | nil => exact iff_of_true rfl fun _ h => nomatch h
    | cons n way ih =>
      show anchorAlong way (n.anchorPath q) = q ↔ _
      rw [List.forall_mem_cons, ← anchorPath_eq_self_iff hq]
      constructor
      · intro hway
        have hfirst := anchorPath_eq_self_of_anchorAlong hq hway
        rw [hfirst] at hway
        exact ⟨hfirst, ih.1 hway⟩
      · rintro ⟨hfirst, hrest⟩
        rw [hfirst]
        exact ih.2 hrest

end Passage

/-- **The path in an answer** is the path that the leaf has reported, as the nodes on the way
anchor it. -/
theorem Probe.ofText_finish_path {p : Probe}
    (h : ∀ n ∈ p.way, ∀ anchor ∈ n.anchor, anchor.IsClean) (a : Artifact) :
    Path.ofText (p.finish a).path = Passage.anchorAlong p.way (Path.ofText a.path) := by
  obtain ⟨leaf, c, way⟩ := p
  unfold Probe.finish Passage.anchorAlong
  -- on the nodes of the way, from the leaf outwards
  induction way generalizing a with
  | nil => rfl
  | cons n way ih =>
    have hway := ih (n.pass a) fun other hother => h other (List.mem_cons_of_mem n hother)
    rw [List.foldl_cons, List.foldl_cons, hway,
      Passage.ofText_pass_path (h n List.mem_cons_self)]

variable {ε : Type} {access : Access (Except ε)}

/-- The files of a coordinate have its relative paths, with the version or without. -/
theorem Layout.exists_of_mem_files {c : Coordinate} {file : Path × String}
    (h : file ∈ Layout.files c) : ∃ versioned, file.1 = Layout.relativePath c versioned := by
  unfold Layout.files at h
  split at h
  · split at h
    · rw [List.mem_singleton.1 h]
      exact ⟨false, rfl⟩
    · rcases List.mem_cons.1 h with rfl | h
      · exact ⟨true, rfl⟩
      · rw [List.mem_singleton.1 h]
        exact ⟨false, rfl⟩
  · rw [List.mem_singleton.1 h]
    exact ⟨false, rfl⟩

/-- The paths of the flat layout are read from texts. -/
theorem Layout.isClean_of_mem_files {c : Coordinate} {file : Path × String}
    (h : file ∈ Layout.files c) : file.1.IsClean := by
  obtain ⟨versioned, hfile⟩ := Layout.exists_of_mem_files h
  rw [hfile]
  exact Path.isClean_ofText _

/-- **An installed file.** What a leaf over installed files has is a file under its root that was
tested to be there, and the path in the answer is the path of this file as the nodes on the way
anchor it. -/
theorem Probe.path_of_jpp {p : Probe} {root : Path} (hleaf : p.leaf = .jpp root)
    (hroot : root.IsClean) (hanchors : ∀ n ∈ p.way, ∀ anchor ∈ n.anchor, anchor.IsClean)
    {found : Artifact} (hfound : p.find access = .ok (some found)) :
    ∃ file ∈ Layout.files p.coordinate, access.isFile (root.join file.1) = .ok true ∧
      Path.ofText (p.finish found).path = Passage.anchorAlong p.way (root.join file.1) := by
  have hjpp : (Leaf.jpp root).find access p.coordinate = .ok (some found) := by
    rw [← hleaf]
    exact hfound
  obtain ⟨file, hfile, htest, rfl⟩ := Leaf.exists_of_find_jpp hjpp
  have hread := Path.ofText_toText (hroot.join (Layout.isClean_of_mem_files hfile))
  refine ⟨file, hfile, htest, ?_⟩
  rw [ofText_finish_path hanchors, hread]

/-! ### Trees that are built -/

/-- The roots of the leaves over installed files and the anchors are taken from one base. -/
inductive Repository.BuiltUnder (base : Path) : Repository → Prop
  | metadata {frame : Frame} {paths : List Path} : BuiltUnder base (.metadata frame paths)
  | jpp {frame : Frame} (s : String) : BuiltUnder base (.jpp frame (base.follow s))
  | depmap {frame : Frame} {source : MapSource} {delegate : Repository}
      (h : BuiltUnder base delegate) : BuiltUnder base (.depmap frame source delegate)
  | compound {frame : Frame} {anchor? : Option Path} {children : List Repository}
      (hanchor : ∀ anchor ∈ anchor?, ∃ s, anchor = base.follow s)
      (h : ∀ child ∈ children, BuiltUnder base child) :
      BuiltUnder base (.compound frame anchor? children)

/-- The same of what a probe meets on its way. -/
structure Probe.BuiltUnder (base : Path) (p : Probe) : Prop where
  leaf : ∀ root, p.leaf = .jpp root → ∃ s, root = base.follow s
  way : ∀ n ∈ p.way, ∀ anchor ∈ n.anchor, ∃ s, anchor = base.follow s

/-- What is taken from a base with clean names has clean names. -/
theorem Probe.BuiltUnder.isClean {base : Path} {p : Probe} (h : p.BuiltUnder base)
    (hbase : base.IsClean) : (∀ root, p.leaf = .jpp root → root.IsClean) ∧
      ∀ n ∈ p.way, ∀ anchor ∈ n.anchor, anchor.IsClean := by
  refine ⟨fun root hleaf => ?_, fun n hn anchor hanchor => ?_⟩
  · obtain ⟨s, rfl⟩ := h.leaf root hleaf
    exact hbase.follow s
  · obtain ⟨s, rfl⟩ := h.way n hn anchor hanchor
    exact hbase.follow s

/-- One more node around a probe. -/
theorem Probe.BuiltUnder.within {base : Path} {p : Probe} (h : p.BuiltUnder base) {n : Passage}
    (hn : ∀ anchor ∈ n.anchor, ∃ s, anchor = base.follow s) : (p.within n).BuiltUnder base where
  leaf := h.leaf
  way other hother := by
    rcases List.mem_append.1 hother with hother | hother
    · exact h.way other hother
    · rwa [List.mem_singleton.1 hother]

/-- What the probes of a tree meet on their way is in the tree. -/
theorem Repository.BuiltUnder.probe {base : Path} {r : Repository} (h : r.BuiltUnder base)
    {position : List Nat} {c : Coordinate} {p : Probe}
    (hp : .ok p ∈ r.probes access position c) : p.BuiltUnder base := by
  -- a leaf makes a probe with one passage, any other node puts one more around an inner probe
  induction h generalizing position c p with
  | metadata =>
    cases makes_of_mem_probes hp with
    | metadata =>
      refine ⟨fun root h => (nomatch h), fun n hn anchor hanchor => ?_⟩
      rw [List.mem_singleton.1 hn] at hanchor
      cases hanchor
  | jpp s =>
    cases makes_of_mem_probes hp with
    | jpp =>
      refine ⟨fun root h => ?_, fun n hn anchor hanchor => ?_⟩
      · cases h
        exact ⟨s, rfl⟩
      · rw [List.mem_singleton.1 hn] at hanchor
        cases hanchor
  | depmap _ ih =>
    cases makes_of_mem_probes hp with
    | depmap _ _ _ hinner =>
      exact (ih hinner).within fun anchor hanchor => absurd hanchor (Option.not_mem_none anchor)
  | compound hanchor _ ih =>
    cases makes_of_mem_probes hp with
    | compound _ hchild hinner =>
      exact (ih _ (List.mem_of_getElem? hchild) hinner).within hanchor

end Depot
