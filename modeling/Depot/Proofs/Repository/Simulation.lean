import Depot.Repository.Resolve
/-!
# Trees that ask the same get the same

A tree reaches what lies outside it through its `Access` alone. So where two ways of access give the
same answers to everything that a tree may ask for, the tree resolves every coordinate alike
(`Simulation.resolve`), even if they work in different monads, such as one that remembers what it
has read and one that remembers nothing.

What a tree may ask for is known beforehand: the maps of its depmap nodes (`sources`), and the
metadata of its leaves, each at its position (`leaves`). No two leaves have one position
(`leaves_unique`), so a position may stand for what its leaf has read.
-/

namespace Depot

namespace Repository

/-! ### What a tree asks for -/

mutual

/-- Where the maps of the depmap nodes come from. -/
def sources : Repository → List MapSource
  | .metadata .. => []
  | .jpp .. => []
  | .depmap _ source delegate => source :: sources delegate
  | .compound _ _ children => sourcesOfAll children

/-- Where the maps of the depmap nodes in some trees come from. -/
def sourcesOfAll : List Repository → List MapSource
  | [] => []
  | child :: children => sources child ++ sourcesOfAll children

end

mutual

/-- The leaves that answer from metadata: their positions, and the paths of their documents. -/
def leaves (position : List Nat) : Repository → List (List Nat × List Path)
  | .metadata _ paths => [(position, paths)]
  | .jpp .. => []
  | .depmap _ _ delegate => leaves (0 :: position) delegate
  | .compound _ _ children => leavesFrom position 0 children

/-- The leaves of children, of which the first has the given number. -/
def leavesFrom (position : List Nat) (number : Nat) :
    List Repository → List (List Nat × List Path)
  | [] => []
  | child :: children =>
    leaves (number :: position) child ++ leavesFrom position (number + 1) children

end

mutual

/-- The position of a leaf ends in that of the tree. -/
theorem suffix_of_mem_leaves : ∀ (r : Repository) {position q : List Nat} {paths : List Path},
    (q, paths) ∈ r.leaves position → position <:+ q
  | .metadata _ _, position, q, paths, h => by
    rw [leaves, List.mem_singleton] at h
    cases h
    exact List.suffix_refl _
  | .jpp _ _, position, q, paths, h => by
    rw [leaves] at h
    cases h
  | .depmap _ _ delegate, position, q, paths, h => by
    rw [leaves] at h
    exact (List.suffix_cons 0 position).trans (suffix_of_mem_leaves delegate h)
  | .compound _ _ children, position, q, paths, h => by
    rw [leaves] at h
    obtain ⟨k, -, hk⟩ := suffix_of_mem_leavesFrom children h
    exact (List.suffix_cons k position).trans hk

/-- The position of a leaf ends in that of the child in which it is. -/
theorem suffix_of_mem_leavesFrom : ∀ (children : List Repository) {position q : List Nat}
    {number : Nat} {paths : List Path}, (q, paths) ∈ leavesFrom position number children →
    ∃ k, number ≤ k ∧ (k :: position) <:+ q
  | [], position, q, number, paths, h => by
    rw [leavesFrom] at h
    cases h
  | child :: children, position, q, number, paths, h => by
    rw [leavesFrom, List.mem_append] at h
    rcases h with h | h
    · exact ⟨number, Nat.le_refl number, suffix_of_mem_leaves child h⟩
    · obtain ⟨k, hnumber, hk⟩ := suffix_of_mem_leavesFrom children h
      exact ⟨k, Nat.le_of_succ_le hnumber, hk⟩

end

/-- Of two children only one has a position below it. -/
theorem number_unique {position q : List Nat} {n k : Nat} (hn : (n :: position) <:+ q)
    (hk : (k :: position) <:+ q) : n = k := by
  have hsuffix := List.suffix_of_suffix_length_le hn hk (Nat.le_refl _)
  have heq := hsuffix.eq_of_length rfl
  injection heq

mutual

/-- **Positions tell leaves apart.** A position has one leaf at most. -/
theorem leaves_unique : ∀ (r : Repository) {position q : List Nat} {a b : List Path},
    (q, a) ∈ r.leaves position → (q, b) ∈ r.leaves position → a = b
  | .metadata _ _, position, q, a, b, ha, hb => by
    rw [leaves, List.mem_singleton] at ha hb
    cases ha
    cases hb
    rfl
  | .jpp _ _, position, q, a, b, ha, hb => by
    rw [leaves] at ha
    cases ha
  | .depmap _ _ delegate, position, q, a, b, ha, hb => by
    rw [leaves] at ha hb
    exact leaves_unique delegate ha hb
  | .compound _ _ children, position, q, a, b, ha, hb => by
    rw [leaves] at ha hb
    exact leavesFrom_unique children ha hb

/-- A position has one leaf at most among some children. -/
theorem leavesFrom_unique : ∀ (children : List Repository) {position q : List Nat} {number : Nat}
    {a b : List Path}, (q, a) ∈ leavesFrom position number children →
    (q, b) ∈ leavesFrom position number children → a = b
  | [], position, q, number, a, b, ha, hb => by
    rw [leavesFrom] at ha
    cases ha
  | child :: children, position, q, number, a, b, ha, hb => by
    -- a position below the first child is below none of the others, which have greater numbers
    have hapart : ∀ {c d : List Path}, (q, c) ∈ leaves (number :: position) child →
        (q, d) ∈ leavesFrom position (number + 1) children → False := by
      intro c d hc hd
      obtain ⟨k, hnumber, hk⟩ := suffix_of_mem_leavesFrom children hd
      have heq := number_unique (suffix_of_mem_leaves child hc) hk
      omega
    rw [leavesFrom, List.mem_append] at ha hb
    rcases ha with ha | ha <;> rcases hb with hb | hb
    · exact leaves_unique child ha hb
    · exact (hapart ha hb).elim
    · exact (hapart hb ha).elim
    · exact leavesFrom_unique children ha hb

end

end Repository

/-! ### Two ways of access -/

/-- A relation between work in two monads that is kept when work is put together. -/
structure Simulation (m n : Type → Type) [Monad m] [Monad n] where
  Agrees {α : Type} : m α → n α → Prop
  pure {α : Type} (a : α) : Agrees (Pure.pure a) (Pure.pure a)
  bind {α β : Type} {work : m α} {other : n α} {next : α → m β} {follow : α → n β}
    (h : Agrees work other) (hnext : ∀ a, Agrees (next a) (follow a)) :
    Agrees (work >>= next) (other >>= follow)

namespace Simulation

open Repository

variable {m n : Type → Type} [Monad m] [Monad n] (S : Simulation m n)

/-- The first answer among those asked for is the same. -/
theorem firstAnswer {α : Type} {ask : α → m (Option Artifact)} {other : α → n (Option Artifact)}
    (h : ∀ a, S.Agrees (ask a) (other a)) (as : List α) :
    S.Agrees (Repository.firstAnswer ask as) (Repository.firstAnswer other as) := by
  induction as with
  | nil => exact S.pure none
  | cons a as ih =>
    refine S.bind (h a) fun answer => ?_
    cases answer with
    | none => exact ih
    | some found => exact S.pure (some found)

/-- The answer of a node is the same if that of what is in its frame is. -/
theorem framed {ask : m (Option Artifact)} {other : n (Option Artifact)} (h : S.Agrees ask other)
    (f : Frame) (c : Coordinate) :
    S.Agrees (Repository.framed f c ask) (Repository.framed f c other) := by
  unfold Repository.framed
  split
  · exact S.bind h fun answer => S.pure (answer.map f.mark)
  · exact S.pure none

variable {access : Access m} {plain : Access n}

/-- The answer from a file is the same. -/
theorem askFile (hfile : ∀ p, S.Agrees (access.isFile p) (plain.isFile p)) (root : Path)
    (c : Coordinate) (file : Path × String) :
    S.Agrees (Repository.askFile access root c file) (Repository.askFile plain root c file) := by
  refine S.bind (hfile (root.join file.1)) fun found => ?_
  cases found with
  | true => exact S.pure _
  | false => exact S.pure none

mutual

/-- **Resolving is the same** for two ways of access that agree on the files, on the maps of the
depmap nodes and on the metadata of the leaves. -/
theorem resolve (hfile : ∀ p, S.Agrees (access.isFile p) (plain.isFile p)) :
    ∀ (r : Repository) {position : List Nat},
      (∀ source ∈ r.sources, S.Agrees (access.map source) (plain.map source)) →
      (∀ leaf ∈ r.leaves position,
        S.Agrees (access.metadata leaf.1 leaf.2) (plain.metadata leaf.1 leaf.2)) →
      ∀ c, S.Agrees (r.resolve access position c) (r.resolve plain position c)
  | .metadata frame paths, position, hmap, hmetadata, c => by
    rw [Repository.resolve, Repository.resolve]
    have hleaf := hmetadata (position, paths) (by rw [leaves]; exact List.mem_singleton_self _)
    exact S.framed (S.bind hleaf fun sources => S.pure _) frame c
  | .jpp frame root, position, hmap, hmetadata, c => by
    rw [Repository.resolve, Repository.resolve]
    exact S.framed (S.firstAnswer (S.askFile hfile root c) _) frame c
  | .depmap frame source delegate, position, hmap, hmetadata, c => by
    rw [sources] at hmap
    rw [leaves] at hmetadata
    rw [Repository.resolve, Repository.resolve]
    -- the delegate is asked for one candidate after the other, and agrees on each
    have hdelegate := resolve hfile delegate
      (fun other h => hmap other (List.mem_cons_of_mem source h)) hmetadata
    exact S.framed (S.bind (hmap source List.mem_cons_self) fun map =>
      S.firstAnswer hdelegate _) frame c
  | .compound frame anchor children, position, hmap, hmetadata, c => by
    rw [sources] at hmap
    rw [leaves] at hmetadata
    rw [Repository.resolve, Repository.resolve]
    exact S.framed (S.bind (resolveFirst hfile children hmap hmetadata c) fun answer =>
      S.pure _) frame c

/-- The first answer of some children is the same. -/
theorem resolveFirst (hfile : ∀ p, S.Agrees (access.isFile p) (plain.isFile p)) :
    ∀ (children : List Repository) {position : List Nat} {number : Nat},
      (∀ source ∈ sourcesOfAll children, S.Agrees (access.map source) (plain.map source)) →
      (∀ leaf ∈ leavesFrom position number children,
        S.Agrees (access.metadata leaf.1 leaf.2) (plain.metadata leaf.1 leaf.2)) →
      ∀ c, S.Agrees (Repository.resolveFirst access position number children c)
        (Repository.resolveFirst plain position number children c)
  | [], position, number, hmap, hmetadata, c => by
    rw [Repository.resolveFirst, Repository.resolveFirst]
    exact S.pure none
  | child :: children, position, number, hmap, hmetadata, c => by
    rw [sourcesOfAll] at hmap
    rw [leavesFrom] at hmetadata
    rw [Repository.resolveFirst, Repository.resolveFirst]
    have hchild := resolve hfile child (fun source h => hmap source (List.mem_append_left _ h))
      (fun leaf h => hmetadata leaf (List.mem_append_left _ h)) c
    -- both sides go on with the same answer of the first child
    refine S.bind hchild fun answer => ?_
    cases answer with
    | some found => exact S.pure (some found)
    | none =>
      exact resolveFirst hfile children (fun source h => hmap source (List.mem_append_right _ h))
        (fun leaf h => hmetadata leaf (List.mem_append_right _ h)) c

end

end Simulation

end Depot
