import Depot.Proofs.Repository.Simulation
import Depot.Service.Tree
/-!
# What a service remembers is what it would read

A service answers from what it remembers. This module compares it with one that remembers nothing
and reads everything anew (`FileTree.access`), over files that do not change. The invariant is
`Memory.Sound`: the map that is remembered for a place is the one that would be merged, and the
metadata that are remembered for a position are those that its leaf would read. Work that keeps the
invariant and comes to a fixed result from every memory with it `Yields` that result; such work may
be put together, so by simulation a tree in service resolves each coordinate as the tree that reads
everything anew (`ServedTree.yields_resolve`).

A loader remembers maps by their places alone, although the paths of the fragments are given at each
call. The invariant can therefore be kept only where all sources with one place merge the same map
(`Agree`).
-/

namespace Depot

/-! ### Reading anew -/

namespace MapSource

/-- The place to which the root of a source leads. -/
def place (source : MapSource) (t : FileTree) : Except Failure Place :=
  (Noting.canonical t source.root).value

/-- The map that is merged from the files for a source. -/
def merged (source : MapSource) (t : FileTree) : Except Failure Depmap := do
  let place ← source.place t
  (Fragment.mergeAll t (FileTree.pathOf place) source.paths).value

/-- The root and the paths of a source say what is merged for it, however the paths are written. -/
theorem merged_congr {t : FileTree} {a b : MapSource} (hroot : a.root = b.root)
    (hpaths : a.paths.map Path.ofText = b.paths.map Path.ofText) : a.merged t = b.merged t := by
  -- a path counts only as what it is read as
  have hmerge : ∀ (root : Path) (paths : List String), Fragment.mergeAll t root paths = do
      let m ← (paths.map Path.ofText).foldlM
        (fun m p => Fragment.mergePath t m (root.join p)) .empty
      let m ← Noting.ofEdit m.optimize
      return m.freeze := by
    intro root paths
    rw [List.foldlM_map]
    rfl
  have hplace : a.place t = b.place t := by
    rw [place, hroot]
    rfl
  unfold merged
  rw [hplace]
  refine congrArg _ (funext fun place => ?_)
  rw [hmerge, hmerge, hpaths]

/-- Sources with one place merge the same map, or fail alike. -/
def Agree (t : FileTree) (sources : List MapSource) : Prop :=
  ∀ a ∈ sources, ∀ b ∈ sources, a.place t = b.place t → a.merged t = b.merged t

end MapSource

/-- Access to the files that remembers nothing. -/
def FileTree.access (t : FileTree) : Access (Except Failure) where
  isFile p := (Noting.ofFile (t.isFile p)).value
  metadata _ paths := (Metadata.loadAll t paths).value
  map source := some <$> source.merged t

/-! ### The invariant -/

/-- **The invariant of a memory**, over fixed files, for one loader and one tree, if that is built.
What is remembered of the files is what would be read from them now. -/
structure Memory.Sound (t : FileTree) (sources : List MapSource) (loader : Loader)
    (tree? : Option ServedTree) (memory : Memory) : Prop where
  files : memory.files = t
  maps : ∀ place number, memory.maps.get? (loader.number, place) = some number →
    ∃ map, memory.published[number]? = some map ∧
      ∀ source ∈ sources, source.place t = .ok place → source.merged t = .ok map
  metadata : ∀ number position found, memory.metadata.get? (number, position) = some found →
    ∃ tree ∈ tree?, tree.number = number ∧
      ∀ paths, (position, paths) ∈ tree.repository.leaves [] →
        (Metadata.loadAll t paths).value = .ok found

namespace Serving

variable {α β : Type} {Keeps : Memory → Prop}

/-- Work comes to a result from every memory with a property, and keeps the property. -/
def Yields (Keeps : Memory → Prop) (work : Serving α) (result : Except Failure α) : Prop :=
  ∀ memory, Keeps memory → ∃ after, work.outcome memory = (result, after) ∧ Keeps after

/-- Work that goes on from its first result. -/
theorem Yields.bind {work : Serving α} {result : Except Failure α} {next : α → Serving β}
    {follow : α → Except Failure β} (h : Yields Keeps work result)
    (hnext : ∀ a, Yields Keeps (next a) (follow a)) :
    Yields Keeps (work >>= next) (result >>= follow) := by
  intro memory hmemory
  obtain ⟨middle, hwork, hmiddle⟩ := h memory hmemory
  cases result with
  | error e => exact ⟨middle, Working.outcome_bind_of_error hwork next, hmiddle⟩
  | ok a =>
    obtain ⟨after, hfollow, hafter⟩ := hnext a middle hmiddle
    exact ⟨after, (Working.outcome_bind_of_ok hwork next).trans hfollow, hafter⟩

/-- Results are put together as the work is that yields them. -/
def yields (Keeps : Memory → Prop) : Simulation Serving (Except Failure) where
  Agrees := Yields Keeps
  pure _ := fun memory hmemory => ⟨memory, rfl, hmemory⟩
  bind h hnext := h.bind hnext

/-- Work on the files comes to what it comes to by itself, and its warnings are noted. -/
theorem outcome_onFiles (work : FileTree → Noting α) (memory : Memory) :
    (onFiles work).outcome memory = ((work memory.files).value,
      { memory with warnings := memory.warnings ++ ((work memory.files).outcome []).2 }) := by
  have hget : (get : Serving Memory).outcome memory = (.ok memory, memory) := rfl
  unfold onFiles Noting.value
  rw [Working.outcome_bind_of_ok hget]
  cases (work memory.files).outcome [] with
  | mk result noted => cases result <;> rfl

end Serving

section

open Serving (Yields)

variable {t : FileTree} {sources : List MapSource} {loader : Loader} {tree? : Option ServedTree}

/-- Work on the files yields what it comes to by itself. -/
theorem yields_onFiles {α : Type} (work : FileTree → Noting α) :
    Yields (Memory.Sound t sources loader tree?) (Serving.onFiles work) (work t).value := by
  intro memory hsound
  have hrun := Serving.outcome_onFiles work memory
  rw [hsound.files] at hrun
  exact ⟨_, hrun, rfl, hsound.maps, hsound.metadata⟩

/-! ### Maps -/

/-- A map that is published for a place is remembered for it, as it should be. -/
theorem Memory.Sound.publish {memory : Memory} (h : memory.Sound t sources loader tree?)
    (hagree : MapSource.Agree t sources) {source : MapSource} (hsource : source ∈ sources)
    {place : Place} (hplace : source.place t = .ok place) {map : Depmap}
    (hmap : source.merged t = .ok map) :
    (loader.publish place map memory).Sound t sources loader tree? where
  files := h.files
  metadata := h.metadata
  maps other number hnumber := by
    rw [Loader.get?_publish] at hnumber
    cases hold : memory.maps.get? (loader.number, other) with
    | some old =>
      -- what was remembered before stays, and its number still stands for the same map
      rw [hold, Option.some_or] at hnumber
      obtain ⟨map', hpublished, hmerged⟩ := h.maps other number (hold.trans hnumber)
      have hlt : number < memory.published.length := by
        obtain ⟨hlt, -⟩ := List.getElem?_eq_some_iff.1 hpublished
        exact hlt
      exact ⟨map', (loader.getElem?_publish place map memory hlt).trans hpublished, hmerged⟩
    | none =>
      rw [hold, Option.none_or] at hnumber
      split at hnumber
      · next heq =>
        cases heq
        cases hnumber
        -- all sources with this place merge the map that was published for one of them
        refine ⟨map, List.getElem?_concat_length, fun other hother hsame => ?_⟩
        rw [hagree other hother source hsource (hsame.trans hplace.symm), hmap]
      · cases hnumber

/-- What a loader does for a place: it gives the map that is remembered, or merges one. -/
theorem Loader.outcome_loadAt {memory : Memory} (h : memory.Sound t sources loader tree?)
    (hagree : MapSource.Agree t sources) {source : MapSource} (hsource : source ∈ sources)
    {place : Place} (hplace : source.place t = .ok place) :
    ∃ after, after.Sound t sources loader tree? ∧
      match source.merged t with
      | .ok map => ∃ number,
        (loader.loadAt place source.paths).outcome memory = (.ok number, after) ∧
        after.published[number]? = some map
      | .error e => (loader.loadAt place source.paths).outcome memory = (.error e, after) := by
  have hget : (get : Serving Memory).outcome memory = (.ok memory, memory) := rfl
  have hmerged : source.merged t =
      (Fragment.mergeAll t (FileTree.pathOf place) source.paths).value := by
    rw [MapSource.merged, hplace]
    rfl
  unfold Loader.loadAt
  rw [Working.outcome_bind_of_ok hget]
  -- a place that is known gives the map that was published for it, a new one is merged
  cases hknown : memory.maps.get? (loader.number, place) with
  | some number =>
    -- the map may have been merged for another source, which is why sources must agree
    obtain ⟨map, hpublished, hsame⟩ := h.maps place number hknown
    rw [hsame source hsource hplace]
    exact ⟨memory, h, number, rfl, hpublished⟩
  | none =>
    obtain ⟨after, hrun, hafter⟩ := yields_onFiles
      (fun files => Fragment.mergeAll files (FileTree.pathOf place) source.paths) memory h
    rw [← hmerged] at hrun
    cases hmap : source.merged t with
    | error e =>
      rw [hmap] at hrun
      exact ⟨after, hafter, Working.outcome_bind_of_error hrun _⟩
    | ok map =>
      rw [hmap] at hrun
      refine ⟨loader.publish place map after, hafter.publish hagree hsource hplace hmap,
        after.published.length, ?_, List.getElem?_concat_length⟩
      exact (Working.outcome_bind_of_ok hrun _).trans rfl

/-- **Maps.** A loader yields the map that is merged for a source. -/
theorem Loader.yields_loadMap (hagree : MapSource.Agree t sources) {source : MapSource}
    (hsource : source ∈ sources) :
    Yields (Memory.Sound t sources loader tree?) (loader.loadMap source.root source.paths)
      (some <$> source.merged t) := by
  intro memory hsound
  -- the place of the source is found first, which leaves the memory sound
  obtain ⟨middle, hcanonical, hmiddle⟩ :=
    yields_onFiles (fun files => Noting.canonical files source.root) memory hsound
  rw [← MapSource.place] at hcanonical
  unfold Loader.loadMap Loader.load
  rw [bind_assoc]
  -- without a place there is no map; with one, the map is known or is merged
  cases hplace : source.place t with
  | error e =>
    have hmerged : source.merged t = .error e := by
      rw [MapSource.merged, hplace]
      rfl
    rw [hmerged]
    rw [hplace] at hcanonical
    exact ⟨middle, Working.outcome_bind_of_error hcanonical _, hmiddle⟩
  | ok place =>
    obtain ⟨after, hafter, hload⟩ := Loader.outcome_loadAt hmiddle hagree hsource hplace
    rw [hplace] at hcanonical
    rw [Working.outcome_bind_of_ok hcanonical]
    cases hmap : source.merged t with
    | error e =>
      rw [hmap] at hload
      exact ⟨after, Working.outcome_bind_of_error hload _, hafter⟩
    | ok map =>
      rw [hmap] at hload
      obtain ⟨number, hrun, hpublished⟩ := hload
      refine ⟨after, ?_, hafter⟩
      rw [Working.outcome_bind_of_ok hrun]
      show ((.ok after.published[number]?, after) : Except Failure (Option Depmap) × Memory) = _
      rw [hpublished]
      rfl

/-! ### Metadata -/

/-- The metadata that a leaf has read are remembered for its position, as they should be. -/
theorem Memory.Sound.remember {tree : ServedTree} {memory : Memory}
    (h : memory.Sound t sources loader (some tree)) {position : List Nat} {paths : List Path}
    (hleaf : (position, paths) ∈ tree.repository.leaves []) {found : List Metadata}
    (hfound : (Metadata.loadAll t paths).value = .ok found) :
    Memory.Sound t sources loader (some tree)
      { memory with metadata := memory.metadata.remember (tree.number, position) found } where
  files := h.files
  maps := h.maps
  metadata number other others hothers := by
    show ∃ tree' ∈ some tree, _
    rw [Memo.get?_remember] at hothers
    cases hold : memory.metadata.get? (number, other) with
    | some old =>
      rw [hold, Option.some_or] at hothers
      exact h.metadata number other others (hold.trans hothers)
    | none =>
      rw [hold, Option.none_or] at hothers
      split at hothers
      · next heq =>
        cases heq
        cases hothers
        -- the position has no other leaf, so these are the metadata of the only one
        refine ⟨tree, rfl, rfl, fun paths' hpaths' => ?_⟩
        rw [← Repository.leaves_unique tree.repository hleaf hpaths', hfound]
      · cases hothers

/-- **Metadata.** A leaf of a tree yields the metadata that its paths have. -/
theorem ServedTree.yields_metadata {tree : ServedTree} {position : List Nat} {paths : List Path}
    (hleaf : (position, paths) ∈ tree.repository.leaves []) :
    Yields (Memory.Sound t sources loader (some tree)) (tree.metadata position paths)
      (Metadata.loadAll t paths).value := by
  intro memory hsound
  have hget : (get : Serving Memory).outcome memory = (.ok memory, memory) := rfl
  unfold ServedTree.metadata
  rw [Working.outcome_bind_of_ok hget]
  cases hknown : memory.metadata.get? (tree.number, position) with
  -- an earlier call of the same tree has loaded the leaf
  | some found =>
    obtain ⟨tree', htree, -, hfound⟩ := hsound.metadata tree.number position found hknown
    cases htree
    rw [hfound paths hleaf]
    exact ⟨memory, rfl, hsound⟩
  | none =>
    -- it is loaded now, and remembered
    obtain ⟨after, hrun, hafter⟩ :=
      yields_onFiles (fun files => Metadata.loadAll files paths) memory hsound
    cases hvalue : (Metadata.loadAll t paths).value with
    | error e =>
      rw [hvalue] at hrun
      exact ⟨after, Working.outcome_bind_of_error hrun _, hafter⟩
    | ok found =>
      rw [hvalue] at hrun
      exact ⟨_, (Working.outcome_bind_of_ok hrun _).trans rfl, hafter.remember hleaf hvalue⟩

/-! ### Trees -/

/-- **Resolving.** A tree in service yields what the tree resolves that reads everything anew. -/
theorem ServedTree.yields_resolve {tree : ServedTree}
    (hagree : MapSource.Agree t sources) (hsources : ∀ source ∈ tree.repository.sources,
      source ∈ sources) (c : Coordinate) :
    Yields (Memory.Sound t sources tree.loader (some tree)) (tree.resolve c)
      (tree.repository.resolve t.access [] c) := by
  -- the three ways of access agree, so the whole resolution does
  have hfile : ∀ p, (Serving.yields (Memory.Sound t sources tree.loader (some tree))).Agrees
      (tree.access.isFile p) (t.access.isFile p) :=
    fun p => yields_onFiles fun files => Noting.ofFile (files.isFile p)
  have hmap : ∀ source ∈ tree.repository.sources,
      (Serving.yields (Memory.Sound t sources tree.loader (some tree))).Agrees
        (tree.access.map source) (t.access.map source) :=
    fun source hsource => Loader.yields_loadMap hagree (hsources source hsource)
  have hmetadata : ∀ leaf ∈ tree.repository.leaves [],
      (Serving.yields (Memory.Sound t sources tree.loader (some tree))).Agrees
        (tree.access.metadata leaf.1 leaf.2) (t.access.metadata leaf.1 leaf.2) :=
    fun leaf hleaf => tree.yields_metadata hleaf
  exact Simulation.resolve _ hfile tree.repository hmap hmetadata c

/-- **Answering.** The answer of a tree in service is made of what it resolves. -/
theorem ServedTree.yields_answer {tree : ServedTree}
    (hagree : MapSource.Agree t sources) (hsources : ∀ source ∈ tree.repository.sources,
      source ∈ sources) (c : Coordinate) :
    Yields (Memory.Sound t sources tree.loader (some tree)) (tree.answer c)
      (Resolution.ofArtifact c <$> tree.repository.resolve t.access [] c) := by
  unfold ServedTree.answer
  rw [map_eq_pure_bind, map_eq_pure_bind]
  exact (Serving.yields _).bind (tree.yields_resolve hagree hsources c)
    fun artifact => (Serving.yields _).pure (Resolution.ofArtifact c artifact)

end

end Depot
