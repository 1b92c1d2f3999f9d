import Depot.Repository.Resolve
/-!
# A tree is a list of probes

A `Probe` asks one leaf for one coordinate. Whatever the shape of a tree, a request makes it ask a
list of such probes in order (`Repository.probes`): a node whose filter rejects the coordinate has
none; a leaf has one; a compound node has those of its children, one child after the other; and a
depmap node has those of its delegate, for one candidate after the other. The filters above a depmap
node see the coordinate of the request, and those below it the candidates.

The map of a depmap node may fail to be had. Then nobody can say which probes come, and the failure
itself stands in the list, at the place where the tree comes to it. Where a probe comes from is told
once, node by node (`Repository.Makes`).

The step lemmas say how a search for the first answer (`Repository.firstAnswer`) goes through lists
that are put together: appended, flattened, and with their answers changed. From them,
`resolve_eq_firstAnswer` is one induction over the tree, and `firstAnswer` has to be read only once,
in terms of what comes before the answer (`firstAnswer_eq_iff`, `firstAnswer_eq_none_iff`).

The nodes around a leaf do not choose, they only pass on (`Probe.finish`): each may anchor the path
of an answer and fill in its namespace, and nothing else of it changes (`Probe.passedOnAs`).
-/

namespace Depot

/-- A leaf of a tree. Leaves that answer from metadata are told apart by their positions. -/
inductive Leaf where
  | metadata (position : List Nat) (paths : List Path)
  | jpp (root : Path)

/-- What a leaf has for a coordinate. -/
def Leaf.find {m : Type → Type} [Monad m] (access : Access m) (c : Coordinate) :
    Leaf → m (Option Artifact)
  | .metadata position paths => do
    let sources ← access.metadata position paths
    return Metadata.resolve sources c
  | .jpp root => Repository.firstAnswer (Repository.askFile access root c) (Layout.files c)

/-- A node as answers see it that come up through it. -/
structure Passage where
  frame : Frame
  anchor : Option Path := none

/-- The answer as the node passes it on. -/
def Passage.pass (n : Passage) (a : Artifact) : Artifact := n.frame.mark (anchored n.anchor a)

/-- A leaf that is asked for a coordinate, and the nodes on the way up from it, from the node of the
leaf itself on. -/
structure Probe where
  leaf : Leaf
  coordinate : Coordinate
  way : List Passage

namespace Probe

/-- What the leaf has. -/
def find {m : Type → Type} [Monad m] (access : Access m) (p : Probe) : m (Option Artifact) :=
  p.leaf.find access p.coordinate

/-- What the leaf has as it comes out of the tree. -/
def finish (p : Probe) (a : Artifact) : Artifact := p.way.foldl (fun a n => n.pass a) a

/-- The probe as seen from outside one more node. -/
def within (n : Passage) (p : Probe) : Probe := { p with way := p.way ++ [n] }

theorem finish_within (n : Passage) (p : Probe) : (p.within n).finish = n.pass ∘ p.finish := by
  funext a
  rw [finish, within, List.foldl_append]
  rfl

variable {ε : Type}

/-- What comes of an entry of a list of probes: of a probe, what it answers, and of a failure,
that. -/
def ask (access : Access (Except ε)) (entry : Except ε Probe) : Except ε (Option Artifact) := do
  let p ← entry
  let found ← p.find access
  return found.map p.finish

end Probe

namespace Repository

variable {ε : Type}

mutual

/-- The probes that a tree makes for a coordinate, in order. -/
def probes (access : Access (Except ε)) (position : List Nat) :
    Repository → Coordinate → List (Except ε Probe)
  | .metadata frame paths, c =>
    if frame.admits c then [.ok ⟨.metadata position paths, c, [{ frame }]⟩] else []
  | .jpp frame root, c => if frame.admits c then [.ok ⟨.jpp root, c, [{ frame }]⟩] else []
  | .depmap frame source delegate, c =>
    if frame.admits c then
      match access.map source with
      | .error e => [.error e]
      | .ok map =>
        ((Depmap.candidates map c).flatMap fun c => probes access (0 :: position) delegate c).map
          (Except.map (Probe.within { frame }))
    else []
  | .compound frame anchor children, c =>
    if frame.admits c then
      (probesOfAll access position 0 children c).map (Except.map (Probe.within { frame, anchor }))
    else []

/-- The probes that children make, of which the first has the given number. -/
def probesOfAll (access : Access (Except ε)) (position : List Nat) (number : Nat) :
    List Repository → Coordinate → List (Except ε Probe)
  | [], _ => []
  | child :: children, c =>
    probes access (number :: position) child c ++
      probesOfAll access position (number + 1) children c

end

/-! ### Where a probe comes from -/

/-- Where a probe of a tree comes from: it is that of a leaf, or one from inside of the node. -/
inductive Makes (access : Access (Except ε)) (position : List Nat) (c : Coordinate) :
    Repository → Probe → Prop
  | metadata {frame : Frame} {paths : List Path} (hadmits : frame.admits c = true) :
      Makes access position c (.metadata frame paths) ⟨.metadata position paths, c, [{ frame }]⟩
  | jpp {frame : Frame} {root : Path} (hadmits : frame.admits c = true) :
      Makes access position c (.jpp frame root) ⟨.jpp root, c, [{ frame }]⟩
  | depmap {frame : Frame} {source : MapSource} {delegate : Repository} {map : Option Depmap}
      {d : Coordinate} {inner : Probe} (hadmits : frame.admits c = true)
      (hmap : access.map source = .ok map) (hcandidate : d ∈ Depmap.candidates map c)
      (hinner : .ok inner ∈ delegate.probes access (0 :: position) d) :
      Makes access position c (.depmap frame source delegate) (inner.within { frame })
  | compound {frame : Frame} {anchor : Option Path} {children : List Repository} {number : Nat}
      {child : Repository} {inner : Probe} (hadmits : frame.admits c = true)
      (hchild : children[number]? = some child)
      (hinner : .ok inner ∈ child.probes access (number :: position) c) :
      Makes access position c (.compound frame anchor children) (inner.within { frame, anchor })

/-- A probe as it is seen from outside a node is one from inside of it. -/
theorem exists_of_mem_map_within {n : Passage} {entries : List (Except ε Probe)} {p : Probe}
    (h : .ok p ∈ entries.map (Except.map (Probe.within n))) :
    ∃ inner, .ok inner ∈ entries ∧ p = inner.within n := by
  obtain ⟨entry, hentry, heq⟩ := List.mem_map.1 h
  cases entry with
  | error e => cases heq
  | ok inner =>
    cases heq
    exact ⟨inner, hentry, rfl⟩

/-- The probes of children are those of one of them. -/
theorem exists_child_of_mem_probesOfAll {access : Access (Except ε)} {children : List Repository}
    {position : List Nat} {number : Nat} {c : Coordinate} {entry : Except ε Probe}
    (h : entry ∈ probesOfAll access position number children c) :
    ∃ (k : Nat) (child : Repository), children[k]? = some child ∧
      entry ∈ child.probes access ((number + k) :: position) c := by
  induction children generalizing number with
  | nil =>
    rw [probesOfAll] at h
    cases h
  | cons child children ih =>
    rw [probesOfAll, List.mem_append] at h
    rcases h with h | h
    · exact ⟨0, child, rfl, h⟩
    · obtain ⟨k, other, hother, hk⟩ := ih h
      refine ⟨k + 1, other, hother, ?_⟩
      rwa [Nat.add_right_comm, Nat.add_assoc] at hk

/-- **Every probe comes from somewhere.** -/
theorem makes_of_mem_probes {access : Access (Except ε)} {position : List Nat} {c : Coordinate}
    {r : Repository} {p : Probe} (h : .ok p ∈ r.probes access position c) :
    Makes access position c r p := by
  -- one case for each kind of repository; without admission there are no probes
  cases r with
  | metadata frame paths =>
    rw [probes] at h
    split at h
    · next hadmits =>
      cases List.mem_singleton.1 h
      exact .metadata hadmits
    · cases h
  | jpp frame root =>
    rw [probes] at h
    split at h
    · next hadmits =>
      cases List.mem_singleton.1 h
      exact .jpp hadmits
    · cases h
  | depmap frame source delegate =>
    rw [probes] at h
    split at h
    · next hadmits =>
      cases hmap : access.map source with
      | error e =>
        -- a failure stands in place of the probes
        rw [hmap] at h
        cases List.mem_singleton.1 h
      | ok map =>
        rw [hmap] at h
        obtain ⟨inner, hinner, rfl⟩ := exists_of_mem_map_within h
        obtain ⟨d, hcandidate, hprobe⟩ := List.mem_flatMap.1 hinner
        exact .depmap hadmits hmap hcandidate hprobe
    · cases h
  | compound frame anchor children =>
    rw [probes] at h
    split at h
    · next hadmits =>
      obtain ⟨inner, hinner, rfl⟩ := exists_of_mem_map_within h
      obtain ⟨k, child, hchild, hprobe⟩ := exists_child_of_mem_probesOfAll hinner
      rw [Nat.zero_add] at hprobe
      exact .compound hadmits hchild hprobe
    · cases h

/-- What holds of leaves, and of nodes around trees of which it holds, holds of all trees. -/
theorem induction_on_trees {P : Repository → Prop}
    (hmetadata : ∀ frame paths, P (.metadata frame paths))
    (hjpp : ∀ frame root, P (.jpp frame root))
    (hdepmap : ∀ frame source delegate, P delegate → P (.depmap frame source delegate))
    (hcompound : ∀ frame anchor children, (∀ child ∈ children, P child) →
      P (.compound frame anchor children)) : ∀ r, P r :=
  @Repository.rec P (fun children => ∀ child ∈ children, P child) hmetadata hjpp hdepmap hcompound
    (List.forall_mem_nil _) fun _ _ hchild hchildren => List.forall_mem_cons.2 ⟨hchild, hchildren⟩

/-! ### Searching lists that are put together -/

section FirstAnswer

variable {m : Type → Type} [Monad m] [LawfulMonad m] {α β : Type} {ask : α → m (Option Artifact)}

theorem firstAnswer_append (as bs : List α) : firstAnswer ask (as ++ bs) =
    firstAnswer ask as >>= fun answer => match answer with
      | some found => pure (some found)
      | none => firstAnswer ask bs := by
  induction as with
  | nil => rw [List.nil_append, firstAnswer, pure_bind]
  | cons a as ih =>
    rw [List.cons_append, firstAnswer, firstAnswer, bind_assoc]
    refine bind_congr fun answer => ?_
    cases answer with
    | some found => rw [pure_bind]
    | none => exact ih

/-- One entry is asked once. -/
theorem firstAnswer_singleton (a : α) : firstAnswer ask [a] = ask a := by
  have hanswer : ∀ answer : Option Artifact, (match answer with
      | some found => (pure (some found) : m (Option Artifact))
      | none => firstAnswer ask []) = pure answer := by
    intro answer
    cases answer with
    | some found => rfl
    | none => rfl
  rw [firstAnswer]
  exact (bind_congr hanswer).trans (bind_pure _)

/-- Flattened lists are searched one list after the other. -/
theorem firstAnswer_flatMap (f : β → List α) (bs : List β) :
    firstAnswer ask (bs.flatMap f) = firstAnswer (fun b => firstAnswer ask (f b)) bs := by
  induction bs with
  | nil => rfl
  | cons b bs ih =>
    rw [List.flatMap_cons, firstAnswer_append, ih]
    rfl

/-- To change each answer is to change the first one. -/
theorem firstAnswer_map {f : Artifact → Artifact} {other : β → m (Option Artifact)} {g : β → α}
    (h : ∀ b, ask (g b) = Option.map f <$> other b) (bs : List β) :
    firstAnswer ask (bs.map g) = Option.map f <$> firstAnswer other bs := by
  induction bs with
  | nil => rw [List.map_nil, firstAnswer, firstAnswer, map_pure, Option.map_none]
  | cons b bs ih =>
    rw [List.map_cons, firstAnswer, firstAnswer, h, bind_map_left, map_bind]
    refine bind_congr fun answer => ?_
    cases answer with
    | some found => rw [map_pure, Option.map_some]
    | none => exact ih

end FirstAnswer

/-- Probes inside a node answer as outside of it, and the node passes their answers on. -/
theorem ask_map_within (access : Access (Except ε)) (n : Passage) (entry : Except ε Probe) :
    Probe.ask access (entry.map (Probe.within n)) =
      Option.map n.pass <$> Probe.ask access entry := by
  cases entry with
  | error e => rfl
  | ok p =>
    show (do
        let found ← p.find access
        return found.map (p.within n).finish) =
      Option.map n.pass <$> (do
        let found ← p.find access
        return found.map p.finish)
    rw [Probe.finish_within, map_bind]
    refine bind_congr fun found => ?_
    rw [map_pure, Option.map_map]

/-- A leaf that stands alone is its own probe. -/
theorem firstAnswer_leaf (access : Access (Except ε)) (frame : Frame) (c : Coordinate)
    (leaf : Leaf) :
    framed frame c (leaf.find access c) = firstAnswer (Probe.ask access)
      (if frame.admits c then [.ok ⟨leaf, c, [{ frame }]⟩] else []) := by
  unfold framed
  split
  · show (do
        let found ← leaf.find access c
        return found.map frame.mark) = (do
        match ← (do
          let found ← leaf.find access c
          return found.map frame.mark : Except ε (Option Artifact)) with
        | some found => return some found
        | none => return none)
    rw [bind_assoc]
    refine bind_congr fun found => ?_
    cases found <;> rfl
  · rfl

/-- What a node passes on, where it answers at all. -/
theorem framed_passage (access : Access (Except ε)) (n : Passage) (c : Coordinate)
    (entries : List (Except ε Probe)) :
    framed n.frame c (Option.map (anchored n.anchor) <$> firstAnswer (Probe.ask access) entries) =
      firstAnswer (Probe.ask access)
        (if n.frame.admits c then entries.map (Except.map (Probe.within n)) else []) := by
  unfold framed
  split
  · rw [firstAnswer_map (ask_map_within access n), bind_map_left, map_eq_pure_bind]
    refine bind_congr fun answer => ?_
    rw [Option.map_map]
    rfl
  · rfl

mutual

/-- **Resolving is searching.** A tree asks its probes in order until one has an answer. -/
theorem resolve_eq_firstAnswer (access : Access (Except ε)) :
    ∀ (r : Repository) (position : List Nat) (c : Coordinate),
      r.resolve access position c = firstAnswer (Probe.ask access) (r.probes access position c)
  | .metadata frame paths, position, c => by
    rw [resolve, probes]
    exact firstAnswer_leaf access frame c (.metadata position paths)
  | .jpp frame root, position, c => by
    rw [resolve, probes]
    exact firstAnswer_leaf access frame c (.jpp root)
  | .depmap frame source delegate, position, c => by
    rw [resolve, probes]
    cases hmap : access.map source with
    | error e =>
      -- the failure takes the place of the probes that cannot be known
      unfold framed
      split <;> rfl
    | ok map =>
      -- the delegate makes its probes for one candidate after the other, and nothing is anchored
      have hdelegate : firstAnswer (fun c => resolve access (0 :: position) delegate c)
            (Depmap.candidates map c) =
          Option.map (anchored none) <$> firstAnswer (Probe.ask access)
            ((Depmap.candidates map c).flatMap fun c =>
              probes access (0 :: position) delegate c) := by
        have hanchored : Option.map (anchored none) = id := funext fun answer => by
          cases answer <;> rfl
        rw [hanchored, id_map, firstAnswer_flatMap]
        exact congrArg (firstAnswer · _)
          (funext (resolve_eq_firstAnswer access delegate (0 :: position)))
      show framed frame c (firstAnswer _ (Depmap.candidates map c)) = _
      rw [hdelegate]
      exact framed_passage access { frame } c _
  | .compound frame anchor children, position, c => by
    rw [resolve, probes, resolveFirst_eq_firstAnswer access children position 0 c,
      ← map_eq_pure_bind]
    exact framed_passage access { frame, anchor } c _

/-- Children ask their probes in order, one child after the other. -/
theorem resolveFirst_eq_firstAnswer (access : Access (Except ε)) :
    ∀ (children : List Repository) (position : List Nat) (number : Nat) (c : Coordinate),
      resolveFirst access position number children c =
        firstAnswer (Probe.ask access) (probesOfAll access position number children c)
  | [], position, number, c => by
    rw [resolveFirst, probesOfAll]
    rfl
  | child :: children, position, number, c => by
    rw [resolveFirst, probesOfAll, firstAnswer_append,
      resolve_eq_firstAnswer access child (number :: position) c]
    refine bind_congr fun answer => ?_
    cases answer with
    | some found => rfl
    | none => exact resolveFirst_eq_firstAnswer access children position (number + 1) c

end

/-! ### The first answer -/

section Outcome

variable {α : Type} {ask : α → Except ε (Option Artifact)} {a : α} {as : List α}

/-- Where the first entry finds nothing, the search goes on. -/
theorem firstAnswer_cons_of_none (h : ask a = .ok none) :
    firstAnswer ask (a :: as) = firstAnswer ask as := by
  rw [firstAnswer, h]
  rfl

/-- Where the first entry finds something or fails, the search ends. -/
theorem firstAnswer_cons_of_ne_none (h : ask a ≠ .ok none) :
    firstAnswer ask (a :: as) = ask a := by
  rw [firstAnswer]
  rcases hask : ask a with e | (_ | found)
  · rfl
  · exact absurd hask h
  · rfl

/-- An outcome other than that nothing is found is that of the first entry that has not this
outcome. -/
theorem firstAnswer_eq_iff {outcome : Except ε (Option Artifact)} (houtcome : outcome ≠ .ok none) :
    firstAnswer ask as = outcome ↔ ∃ before a after, as = before ++ a :: after ∧
      (∀ b ∈ before, ask b = .ok none) ∧ ask a = outcome := by
  -- the answer comes from the first entry that does not say none
  induction as with
  | nil =>
    refine ⟨fun h => absurd h.symm houtcome, fun ⟨before, a, after, h, _⟩ => ?_⟩
    exact absurd h.symm (List.append_ne_nil_of_right_ne_nil before (List.cons_ne_nil a after))
  | cons a as ih =>
    by_cases hfirst : ask a = .ok none
    · rw [firstAnswer_cons_of_none hfirst, ih]
      constructor
      · rintro ⟨before, b, after, rfl, hbefore, hb⟩
        exact ⟨a :: before, b, after, rfl, List.forall_mem_cons.2 ⟨hfirst, hbefore⟩, hb⟩
      · rintro ⟨before, b, after, h, hbefore, hb⟩
        -- the first entry is not the one with the outcome, so it stands before that
        cases before with
        | nil =>
          obtain ⟨rfl, rfl⟩ := List.cons.inj h
          exact absurd (hb.symm.trans hfirst) houtcome
        | cons _ before =>
          obtain ⟨rfl, rfl⟩ := List.cons.inj h
          exact ⟨before, b, after, rfl, fun c hc => hbefore c (List.mem_cons_of_mem _ hc), hb⟩
    · rw [firstAnswer_cons_of_ne_none hfirst]
      refine ⟨fun h => ⟨[], a, as, rfl, fun b hb => (nomatch hb), h⟩, ?_⟩
      rintro ⟨before, b, after, h, hbefore, hb⟩
      cases before with
      | nil => rwa [(List.cons.inj h).1]
      | cons c before =>
        rw [(List.cons.inj h).1] at hfirst
        exact absurd (hbefore c List.mem_cons_self) hfirst

theorem firstAnswer_eq_none_iff : firstAnswer ask as = .ok none ↔ ∀ a ∈ as, ask a = .ok none := by
  induction as with
  | nil => exact ⟨fun _ a ha => (nomatch ha), fun _ => rfl⟩
  | cons a as ih =>
    rw [List.forall_mem_cons]
    by_cases hfirst : ask a = .ok none
    · rw [firstAnswer_cons_of_none hfirst, ih]
      exact (and_iff_right hfirst).symm
    · rw [firstAnswer_cons_of_ne_none hfirst]
      exact iff_of_false hfirst fun h => hfirst h.1

end Outcome

end Repository

namespace Probe

variable {ε : Type} {access : Access (Except ε)} {entry : Except ε Probe}

/-- The entry is a probe whose leaf has nothing. -/
def FindsNothing (access : Access (Except ε)) (entry : Except ε Probe) : Prop :=
  ∃ p, entry = .ok p ∧ p.find access = .ok none

theorem ask_eq_none_iff : ask access entry = .ok none ↔ FindsNothing access entry := by
  unfold ask FindsNothing
  cases entry with
  | error e => exact ⟨fun h => (nomatch h), fun ⟨_, h, _⟩ => (nomatch h)⟩
  | ok p =>
    simp only [Except.ok.injEq, exists_eq_left']
    show (p.find access >>= _) = _ ↔ _
    rcases p.find access with e | (_ | found)
    · exact ⟨fun h => (nomatch h), fun h => (nomatch h)⟩
    · exact ⟨fun _ => rfl, fun _ => rfl⟩
    · exact ⟨fun h => (nomatch h), fun h => (nomatch h)⟩

theorem ask_eq_some_iff {a : Artifact} : ask access entry = .ok (some a) ↔
    ∃ p found, entry = .ok p ∧ p.find access = .ok (some found) ∧ a = p.finish found := by
  -- a failed entry answers nothing, and a probe answers by what it finds
  unfold ask
  cases entry with
  | error e => exact ⟨fun h => (nomatch h), fun ⟨_, _, h, _⟩ => (nomatch h)⟩
  | ok p =>
    constructor
    · intro h
      change (p.find access >>= fun found => pure (found.map p.finish)) = _ at h
      rcases hfind : p.find access with e | (_ | found)
      · rw [hfind] at h
        cases h
      · rw [hfind] at h
        cases h
      · rw [hfind] at h
        cases h
        exact ⟨p, found, rfl, hfind, rfl⟩
    · rintro ⟨_, found, ⟨⟩, hfind, rfl⟩
      show (p.find access >>= fun found => pure (found.map p.finish)) = _
      rw [hfind]
      rfl

end Probe

/-- An artifact that was found, and what became of it on the way out of a tree: at most the path,
where that was relative, and the namespace, where it had none, have changed. -/
structure Artifact.PassedOnAs (found answer : Artifact) : Prop where
  coordinate : answer.coordinate = found.coordinate
  version : answer.version = found.version
  source : answer.source = found.source
  path : (Path.ofText found.path).isAbsolute = true → answer.path = found.path
  namespaceName : found.namespaceName ≠ "" → answer.namespaceName = found.namespaceName

theorem Artifact.PassedOnAs.trans {a b c : Artifact} (hab : a.PassedOnAs b) (hbc : b.PassedOnAs c) :
    a.PassedOnAs c where
  coordinate := hbc.coordinate.trans hab.coordinate
  version := hbc.version.trans hab.version
  source := hbc.source.trans hab.source
  path ha := (hbc.path (hab.path ha ▸ ha)).trans (hab.path ha)
  namespaceName ha := (hbc.namespaceName (hab.namespaceName ha ▸ ha)).trans (hab.namespaceName ha)

theorem Passage.passedOnAs (n : Passage) (a : Artifact) : a.PassedOnAs (n.pass a) := by
  -- marking writes the namespace, and only where none is recorded
  have hmark : ∀ b : Artifact, b.PassedOnAs (n.frame.mark b) := by
    intro b
    unfold Frame.mark
    split
    · next h => exact ⟨rfl, rfl, rfl, fun _ => rfl, fun hb => absurd h.2 hb⟩
    · exact ⟨rfl, rfl, rfl, fun _ => rfl, fun _ => rfl⟩
  -- anchoring writes the path, and only where it is relative
  have hanchored : a.PassedOnAs (anchored n.anchor a) := by
    unfold anchored
    split
    · split
      · exact ⟨rfl, rfl, rfl, fun _ => rfl, fun _ => rfl⟩
      · next h => exact ⟨rfl, rfl, rfl, fun ha => absurd ha h, fun _ => rfl⟩
    · exact ⟨rfl, rfl, rfl, fun _ => rfl, fun _ => rfl⟩
  exact hanchored.trans (hmark _)

/-- The nodes on the way out of a tree anchor and fill in, one after the other. -/
theorem Probe.passedOnAs (p : Probe) (found : Artifact) : found.PassedOnAs (p.finish found) := by
  unfold Probe.finish
  induction p.way generalizing found with
  | nil => exact ⟨rfl, rfl, rfl, fun _ => rfl, fun _ => rfl⟩
  | cons n way ih => exact (n.passedOnAs found).trans (ih (n.pass found))

namespace Repository

variable {ε : Type}

/-- A tree answers exactly if one of its probes does, before which nothing is found. -/
theorem resolve_eq_some_iff {access : Access (Except ε)} {position : List Nat} {r : Repository}
    {c : Coordinate} {a : Artifact} :
    r.resolve access position c = .ok (some a) ↔ ∃ before p after found,
      r.probes access position c = before ++ .ok p :: after ∧
      (∀ entry ∈ before, Probe.FindsNothing access entry) ∧
      p.find access = .ok (some found) ∧ a = p.finish found := by
  rw [resolve_eq_firstAnswer, firstAnswer_eq_iff (by simp)]
  constructor
  · rintro ⟨before, entry, after, hlist, hbefore, hentry⟩
    obtain ⟨p, found, rfl, hfound, rfl⟩ := Probe.ask_eq_some_iff.1 hentry
    exact ⟨before, p, after, found, hlist, fun b hb => Probe.ask_eq_none_iff.1 (hbefore b hb),
      hfound, rfl⟩
  · rintro ⟨before, p, after, found, hlist, hbefore, hfound, rfl⟩
    exact ⟨before, .ok p, after, hlist, fun b hb => Probe.ask_eq_none_iff.2 (hbefore b hb),
      Probe.ask_eq_some_iff.2 ⟨p, found, rfl, hfound, rfl⟩⟩

/-- **A tree is one ordered list of probes.** What a tree resolves depends on its probes alone. If
it comes to an answer at all, there is an artifact exactly if some probe finds one in its leaf. The
answer is what the first such probe finds, as the nodes around the leaf pass it on: they anchor the
path and fill in the namespace, and change nothing else. The tree fails exactly if an entry fails
before which nothing is found. -/
theorem resolve_eq_first_probe (access : Access (Except ε)) (position : List Nat) (r : Repository)
    (c : Coordinate) :
    (∀ answer, r.resolve access position c = .ok answer → (answer.isSome = true ↔
      ∃ p found, .ok p ∈ r.probes access position c ∧ p.find access = .ok (some found))) ∧
    (∀ a, r.resolve access position c = .ok (some a) ↔ ∃ before p after found,
      r.probes access position c = before ++ .ok p :: after ∧
      (∀ entry ∈ before, Probe.FindsNothing access entry) ∧
      p.find access = .ok (some found) ∧ a = p.finish found) ∧
    (∀ e, r.resolve access position c = .error e ↔ ∃ before entry after,
      r.probes access position c = before ++ entry :: after ∧
      (∀ entry ∈ before, Probe.FindsNothing access entry) ∧ Probe.ask access entry = .error e) ∧
    ∀ (p : Probe) (found : Artifact), found.PassedOnAs (p.finish found) := by
  refine ⟨fun answer hanswer => ?_, fun a => resolve_eq_some_iff, fun e => ?_, Probe.passedOnAs⟩
  · cases answer with
    | none =>
      rw [resolve_eq_firstAnswer, firstAnswer_eq_none_iff] at hanswer
      refine ⟨fun h => (nomatch h), fun ⟨p, found, hp, hfound⟩ => ?_⟩
      -- nothing is found by any probe, and so not by this one
      obtain ⟨_, ⟨⟩, hnothing⟩ := Probe.ask_eq_none_iff.1 (hanswer _ hp)
      cases hnothing.symm.trans hfound
    | some a =>
      obtain ⟨before, p, after, found, hlist, -, hfound, -⟩ := resolve_eq_some_iff.1 hanswer
      refine ⟨fun _ => ⟨p, found, ?_, hfound⟩, fun _ => rfl⟩
      rw [hlist]
      exact List.mem_append_right _ List.mem_cons_self
  · rw [resolve_eq_firstAnswer, firstAnswer_eq_iff (by simp)]
    simp only [Probe.ask_eq_none_iff]

end Repository

end Depot
